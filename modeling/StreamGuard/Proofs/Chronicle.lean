import Mathlib.Data.List.Induction
import StreamGuard.Proofs.Handout
import StreamGuard.Proofs.Lifecycle
import StreamGuard.Proofs.WrapOrder

/-!
Chronicles: what comes of requests and closes in a row, with the events that the outermost reader adds of its own. Main
statements: a reader whose stream goes on has added nothing, one whose stream has ended added what it did on the request
that ended it, and whatever a caller may do with a stack has a chronicle.
-/

namespace StreamGuard

inductive Touch
  | request (b : Buffer)
  | close

structure Chronicle (σ : Type) where
  stack : Stack σ
  events : List Event := []
  own : List Event := []
  handed : Bytes := []

theorem Check.events_of_streaming {c : Check} {count : Int} {b : Buffer} (h : (c.rule count b).state = .streaming) :
    (c.rule count b).events = [] := by
  cases c with
  | digest d =>
    simp only [rule, DigestCheck.rule] at h ⊢
    repeat' split at h
    all_goals simp_all
  | bound c =>
    simp only [rule] at h ⊢
    by_cases hl : c.received + count ≤ c.limit
    · by_cases hz : count = 0
      · subst hz
        rw [BoundCheck.rule_end (by omega)] at h
        cases h
      · rw [BoundCheck.rule_piece hl hz]
    · obtain ⟨f, b', events, hr⟩ := c.rule_beyond (Int.not_le.1 hl) b
      rw [hr] at h
      cases h

namespace Reader

theorem refusal_ne_none {r : Reader} (h : r.state ≠ .streaming) : r.refusal ≠ none :=
  fun hr => h (refusal_eq_none_iff.1 hr).2

theorem streaming_of_refusal {r : Reader} (h : r.refusal = none) : r.state = .streaming :=
  (refusal_eq_none_iff.1 h).2

theorem bound_after {r : Reader} {c : BoundCheck} (h : r.check = .bound c) (f : Failure) :
    (r.after f).check = .bound c := by
  unfold after
  split
  · simp only [fail, h, Check.abandon]
  · exact h

end Reader

namespace Stack

variable {σ : Type} [ByteSource σ]

def remarks (s : Stack σ) (b : Buffer) : List Event :=
  (s.request b).events.drop (s.below.request b).events.length

def touch (s : Stack σ) : Touch → Chronicle σ
  | .request b =>
    { stack := (s.request b).state
      events := (s.request b).events
      own := s.remarks b
      handed := (s.request b).buffer.handed ((s.request b).outcome.map some) }
  | .close =>
    { stack := s.close.state
      events := s.close.events
      own := s.close.events.drop s.below.close.events.length }

end Stack

def Chronicle.touch {σ : Type} [ByteSource σ] (x : Chronicle σ) (a : Touch) : Chronicle σ :=
  let y := x.stack.touch a
  ⟨y.stack, x.events ++ y.events, x.own ++ y.own, x.handed ++ y.handed⟩

namespace Stack

variable {σ : Type} [ByteSource σ]

def chronicle (s : Stack σ) (as : List Touch) : Chronicle σ :=
  as.foldl Chronicle.touch { stack := s }

inductive Touched (s : Stack σ) (r : Reader) : Touch → Chronicle σ → Prop
  | refused {b : Buffer} {f : Failure} (hr : r.refusal = some f) (hout : (s.request b).outcome = .error f) :
      Touched s r (.request b) { stack := s }
  | empty {b : Buffer} (hr : r.refusal = none) (hb : b.size = 0) (hout : (s.request b).outcome = .ok 0) :
      Touched s r (.request b) { stack := s }
  | failed {b : Buffer} {f : Failure} (hr : r.refusal = none) (hb : b.size ≠ 0)
      (ho : (s.below.request b).outcome = .error f) (hout : (s.request b).outcome = .error f) :
      Touched s r (.request b)
        { stack := (s.below.request b).state.push (.reader (r.after f)), events := (s.below.request b).events }
  | ruled {b : Buffer} {count : Int} {ruling : Ruling} (hr : r.refusal = none) (hb : b.size ≠ 0)
      (ho : (s.below.request b).outcome = .ok count)
      (hrule : r.check.rule count (s.below.request b).buffer = ruling) (hout : (s.request b).outcome = ruling.outcome) :
      Touched s r (.request b)
        ⟨(s.below.request b).state.push (.reader (r.settle ruling)), (s.below.request b).events ++ ruling.events,
          ruling.events, ruling.buffer.handed (ruling.outcome.map some)⟩
  | shut (hr : r.closed = true) : Touched s r .close { stack := s }
  | closing (hr : r.closed = false) :
      Touched s r .close
        { stack := s.below.close.state.push (.reader { r with closed := true }), events := s.below.close.events }

variable {s : Stack σ} {r : Reader}

omit [ByteSource σ] in
theorem top?_push (s : Stack σ) (r : Reader) : (s.push (.reader r)).top? = some r := rfl

omit [ByteSource σ] in
theorem push_below (hr : s.top? = some r) : s = s.below.push (.reader r) :=
  eq_of_top? hr

theorem touched (hr : s.top? = some r) (a : Touch) : Touched s r a (s.touch a) := by
  cases a with
  | request b =>
    have hserved := request_served hr b
    have hs : s.below.push (.reader r) = s := (push_below hr).symm
    simp only [touch, remarks]
    generalize hx : s.request b = x at hserved ⊢
    cases hserved with
    | refused hf =>
      simp only [List.drop_nil]
      change Touched s r _ { stack := s.below.push (.reader r) }
      rw [hs]
      exact .refused hf (by rw [hx])
    | empty hf hb =>
      simp only [List.drop_nil, Except.map, Buffer.handed, Bytes.upTo_zero]
      change Touched s r _ { stack := s.below.push (.reader r) }
      rw [hs]
      exact .empty hf hb (by rw [hx])
    | failed hf hb ho =>
      simp only [Except.map, Buffer.handed]
      change Touched s r _ ⟨_, _, List.drop _ (s.below.request b).events, _⟩
      rw [List.drop_length]
      exact .failed hf hb ho (by rw [hx])
    | ruled hf hb ho hrule =>
      change Touched s r _ ⟨_, _, List.drop _ ((s.below.request b).events ++ _), _⟩
      rw [List.drop_left]
      exact .ruled hf hb ho hrule (by rw [hx])
  | close =>
    have hs := push_below hr
    simp only [touch]
    by_cases hc : r.closed = true
    · have hclose := close_push_closed hc s.below
      rw [← hs] at hclose
      rw [hclose, List.drop_nil]
      exact .shut hc
    · rw [Bool.not_eq_true] at hc
      have hclose := close_push_open hc s.below
      rw [← hs] at hclose
      rw [hclose, List.drop_length]
      exact .closing hc

theorem chronicle_concat (s : Stack σ) (as : List Touch) (a : Touch) :
    s.chronicle (as ++ [a]) = (s.chronicle as).touch a := by
  simp only [chronicle, List.foldl_append, List.foldl_cons, List.foldl_nil]

section

variable {a : Touch} (hr : s.top? = some r)

include hr

theorem exists_top_touch (a : Touch) : ∃ r', (s.touch a).stack.top? = some r' := by
  have h := touched hr a
  generalize s.touch a = x at h ⊢
  cases h with
  | refused | empty | shut => exact ⟨r, hr⟩
  | failed | ruled | closing => exact ⟨_, rfl⟩

theorem own_of_streaming_touch {r' : Reader} (ht : (s.touch a).stack.top? = some r') (hs : r'.state = .streaming) :
    (s.touch a).own = [] ∧ r.state = .streaming := by
  have h := touched hr a
  generalize s.touch a = x at h ht ⊢
  cases h with
  | refused | empty | shut =>
    rw [hr] at ht
    cases ht
    exact ⟨rfl, hs⟩
  | failed hf => exact ⟨rfl, Reader.streaming_of_refusal hf⟩
  | ruled hf _ _ hrule =>
    cases ht
    subst hrule
    exact ⟨Check.events_of_streaming hs, Reader.streaming_of_refusal hf⟩
  | closing =>
    cases ht
    exact ⟨rfl, hs⟩

theorem touch_ended (hs : r.state ≠ .streaming) (a : Touch) :
    (s.touch a).own = [] ∧ (s.touch a).handed = [] ∧
      ∃ r', (s.touch a).stack.top? = some r' ∧ r'.check = r.check ∧ r'.state = r.state := by
  have h := touched hr a
  generalize s.touch a = x at h ⊢
  cases h with
  | refused | empty | shut => exact ⟨rfl, rfl, r, hr, rfl, rfl⟩
  | failed hf | ruled hf => exact absurd hf (Reader.refusal_ne_none hs)
  | closing => exact ⟨rfl, rfl, _, rfl, rfl, rfl⟩

theorem touch_below {Q : Stack σ → Prop} {fits : Buffer → Prop}
    (hrequest : ∀ {u b}, Q u → fits b → Q (u.request b).state) (hclose : ∀ {u}, Q u → Q u.close.state)
    (h : Q s.below) (ha : ∀ b, a = .request b → fits b) : Q (s.touch a).stack.below := by
  have htouch := touched hr a
  generalize s.touch a = x at htouch ⊢
  cases htouch with
  | refused | empty | shut => exact h
  | failed | ruled => exact hrequest h (ha _ rfl)
  | closing => exact hclose h

theorem exists_top (as : List Touch) : ∃ r', (s.chronicle as).stack.top? = some r' := by
  induction as using List.reverseRecOn with
  | nil => exact ⟨r, hr⟩
  | append_singleton as a ih =>
    obtain ⟨r', hr'⟩ := ih
    rw [chronicle_concat]
    exact exists_top_touch hr' a

theorem chronicle_below {Q : Stack σ → Prop} {fits : Buffer → Prop}
    (hrequest : ∀ {u b}, Q u → fits b → Q (u.request b).state) (hclose : ∀ {u}, Q u → Q u.close.state)
    (h : Q s.below) {as : List Touch} (has : ∀ b, .request b ∈ as → fits b) : Q (s.chronicle as).stack.below := by
  induction as using List.reverseRecOn with
  | nil => exact h
  | append_singleton as a ih =>
    obtain ⟨q, hq⟩ := exists_top hr as
    rw [chronicle_concat]
    refine touch_below hq hrequest hclose (ih fun b hb => has b (by simp [hb])) fun b hb => has b ?_
    simp [hb]

theorem own_of_streaming {as : List Touch} {r' : Reader} (ht : (s.chronicle as).stack.top? = some r')
    (hs : r'.state = .streaming) : (s.chronicle as).own = [] := by
  induction as using List.reverseRecOn generalizing r' with
  | nil => rfl
  | append_singleton as a ih =>
    obtain ⟨q, hq⟩ := exists_top hr as
    rw [chronicle_concat] at ht ⊢
    obtain ⟨hown, hstream⟩ := own_of_streaming_touch hq ht hs
    simp only [Chronicle.touch, hown, ih hq hstream, List.append_nil]

end

structure EndsAt (s : Stack σ) (as pre : List Touch) (b : Buffer) : Prop where
  cut : pre ++ [.request b] <+: as
  streaming : (s.chronicle pre).stack.state? = some .streaming
  ended : (s.chronicle (pre ++ [.request b])).stack.state? ≠ some .streaming

namespace EndsAt

variable {as pre : List Touch} {b : Buffer}

theorem concat (h : EndsAt s as pre b) (a : Touch) : EndsAt s (as ++ [a]) pre b :=
  ⟨h.cut.trans (List.prefix_append as [a]), h.streaming, h.ended⟩

theorem settled (hr : s.top? = some r) (h : EndsAt s as pre b) :
    (s.chronicle as).own = (s.chronicle pre).stack.remarks b ∧
      (s.chronicle as).handed = (s.chronicle (pre ++ [.request b])).handed ∧
      ∃ q r', (s.chronicle (pre ++ [.request b])).stack.top? = some q ∧
        (s.chronicle as).stack.top? = some r' ∧ r'.check = q.check ∧ r'.state = q.state := by
  obtain ⟨p, hp⟩ := exists_top hr pre
  have hstream : p.state = .streaming := state_of_state? hp h.streaming
  have hown : (s.chronicle (pre ++ [.request b])).own = (s.chronicle pre).stack.remarks b := by
    rw [chronicle_concat]
    simp only [Chronicle.touch, own_of_streaming hr hp hstream, List.nil_append]
    rfl
  obtain ⟨q, hq⟩ := exists_top hr (pre ++ [.request b])
  have hended : q.state ≠ .streaming := fun hs => h.ended (by rw [state?_of_top? hq, hs])
  obtain ⟨post, rfl⟩ := h.cut
  rw [← hown]
  clear h hown
  induction post using List.reverseRecOn with
  | nil =>
    rw [List.append_nil]
    exact ⟨rfl, rfl, q, q, hq, hq, rfl, rfl⟩
  | append_singleton post a ih =>
    obtain ⟨hown, hhanded, q', r', hq', hr', hcheck, hstate⟩ := ih
    rw [hq] at hq'
    cases hq'
    obtain ⟨hnone, hnothing, r'', hr'', hcheck', hstate'⟩ := touch_ended hr' (by rwa [hstate]) a
    rw [← List.append_assoc, chronicle_concat]
    refine ⟨?_, ?_, q, r'', hq, hr'', hcheck'.trans hcheck, hstate'.trans hstate⟩
    · simp only [Chronicle.touch, hnone, hown, List.append_nil]
    · simp only [Chronicle.touch, hnothing, hhanded, List.append_nil]

end EndsAt

theorem exists_endsAt (hr : s.top? = some r) (hs : r.state = .streaming) {as : List Touch} {r' : Reader}
    (ht : (s.chronicle as).stack.top? = some r') (hended : r'.state ≠ .streaming) :
    ∃ pre b, EndsAt s as pre b := by
  induction as using List.reverseRecOn generalizing r' with
  | nil =>
    cases hr.symm.trans ht
    exact absurd hs hended
  | append_singleton as a ih =>
    obtain ⟨q, hq⟩ := exists_top hr as
    by_cases hstream : q.state = .streaming
    · have hover : (s.chronicle (as ++ [a])).stack.state? ≠ some .streaming := by
        rw [state?_of_top? ht]
        exact fun h => hended (Option.some.inj h)
      cases a with
      | request b =>
        refine ⟨as, b, List.prefix_refl _, ?_, hover⟩
        rw [state?_of_top? hq, hstream]
      | close =>
        obtain ⟨q', hq', hstate, -⟩ := top_close hq
        rw [chronicle_concat] at ht
        cases hq'.symm.trans ht
        exact absurd (hstate.trans hstream) hended
    · obtain ⟨pre, b, h⟩ := ih hq hstream
      exact ⟨pre, b, h.concat a⟩

def Chronicled (s : Stack σ) (fits : Buffer → Prop) (es : List Event) (t : Stack σ) : Prop :=
  ∃ as, (s.chronicle as).stack = t ∧ (s.chronicle as).events = es ∧ ∀ b, .request b ∈ as → fits b

namespace Chronicled

variable {fits : Buffer → Prop} {es : List Event} {t : Stack σ}

theorem refl (s : Stack σ) : Chronicled s fits [] s :=
  ⟨[], rfl, rfl, by simp⟩

theorem request (h : Chronicled s fits es t) {b : Buffer} (hb : fits b) :
    Chronicled s fits (es ++ (t.request b).events) (t.request b).state := by
  obtain ⟨as, rfl, rfl, has⟩ := h
  refine ⟨as ++ [.request b], ?_, ?_, ?_⟩
  · rw [chronicle_concat]
    rfl
  · rw [chronicle_concat]
    rfl
  · intro b' hb'
    rcases List.mem_append.1 hb' with hb' | hb'
    · exact has b' hb'
    · cases List.mem_singleton.1 hb'
      exact hb

theorem close (h : Chronicled s fits es t) : Chronicled s fits (es ++ t.close.events) t.close.state := by
  obtain ⟨as, rfl, rfl, has⟩ := h
  refine ⟨as ++ [.close], ?_, ?_, ?_⟩
  · rw [chronicle_concat]
    rfl
  · rw [chronicle_concat]
    rfl
  · intro b hb
    exact has b (by simpa using hb)

theorem of_reaches (h : Reaches s es t) : Chronicled s (fun _ => True) es t := by
  induction h with
  | refl => exact refl s
  | request _ b ih => exact ih.request trivial
  | close _ ih => exact ih.close

theorem of_play (hfits : ∀ {n : Nat} {b : Buffer}, b.Reused σ n → fits b) (hs : s.layers ≠ [])
    {ms : List Move} (hms : ∀ b, .plain (.readInto (some b)) ∈ ms → fits b)
    {turns : List (Turn (Stack σ × Option Buffer) Value)} (h : play move s ms = some (turns, t)) :
    Chronicled s fits (turns.flatMap Turn.events) t :=
  (play_keeps (I := fun v es => v.layers ≠ [] ∧ Chronicled s fits es v) hfits
    (fun hv b hb => ⟨request_layered hv.1 b, hv.2.request hb⟩) ⟨hs, refl s⟩ (fun hv => readInto_layered hv.1)
    (fun hv => ⟨close_layered hv.1, hv.2.close⟩) hms h).2

end Chronicled

end Stack

end StreamGuard
