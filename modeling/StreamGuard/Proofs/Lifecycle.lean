import StreamGuard.Proofs.Moves
import StreamGuard.Proofs.Refusal
import StreamGuard.Sources.Script

namespace StreamGuard

theorem Check.rule_succeeded {c : Check} {count : Int} {b : Buffer} (h : (c.rule count b).state = .succeeded) :
    count = 0 := by
  cases c with
  | digest d =>
    simp only [rule, DigestCheck.rule] at h
    split at h
    · cases h
    · split at h
      · cases h
      · omega
  | bound c =>
    simp only [rule, BoundCheck.rule] at h
    split at h
    · split at h <;> cases h
    · split at h
      · assumption
      · cases h

namespace Reader

variable {r : Reader} {f : Failure}

theorem closed_after (r : Reader) (f : Failure) : (r.after f).closed = r.closed := by
  unfold after
  split <;> rfl

theorem not_succeeded_after (h : r.state ≠ .succeeded) : (r.after f).state ≠ .succeeded := by
  unfold after
  split
  · simp [fail]
  · exact h

end Reader

inductive Move.Empty : Move → Prop
  | readInto {b : Buffer} (h : b.size = 0) : Empty (.plain (.readInto (some b)))
  | read : Empty (.plain (.read 0))

namespace Stack

variable {σ : Type} [ByteSource σ]

structure Completes (s : Stack σ) (b : Buffer) : Prop where
  streaming : ∃ r, s.top? = some r ∧ r.refusal = none
  room : b.size ≠ 0
  spent : (s.below.request b).outcome = .ok 0
  succeeds : (s.request b).state.state? = some .succeeded

section

variable {s : Stack σ} {r : Reader} (hr : s.top? = some r)

include hr

theorem request_served (b : Buffer) : Served r s.below.layers s.below.origin b (s.request b) := by
  rw [request, layers_of_top? hr]
  exact served .checked r s.below.layers s.origin b

theorem request_refusal {f : Failure} (hf : r.refusal = some f) (b : Buffer) : s.request b = ⟨.error f, b, s, []⟩ := by
  rw [eq_of_top? hr]
  exact request_refused hf s.below.layers s.origin b

theorem request_empty {b : Buffer} (hb : b.size = 0) :
    s.request b = ⟨(r.refusal.map .error).getD (.ok 0), b, s, []⟩ := by
  have hs : (⟨.reader r :: s.below.layers, s.below.origin⟩ : Stack σ) = s := (eq_of_top? hr).symm
  have h := request_served hr b
  generalize s.request b = x at h ⊢
  cases h with
  | refused hf => simp [hf, hs]
  | empty hf => simp [hf, hs]
  | failed _ hb' => exact absurd hb hb'
  | ruled _ hb' => exact absurd hb hb'

theorem top_request (b : Buffer) :
    ∃ r', (s.request b).state.top? = some r' ∧ r'.closed = r.closed ∧ (r.state ≠ .streaming → r' = r) ∧
      (r.state ≠ .succeeded → r'.state = .succeeded → Completes s b) := by
  have h := request_served hr b
  generalize hx : s.request b = x at h
  cases h with
  | refused => exact ⟨r, rfl, rfl, fun _ => rfl, fun hne he => absurd he hne⟩
  | empty => exact ⟨r, rfl, rfl, fun _ => rfl, fun hne he => absurd he hne⟩
  | failed hf =>
    have hstream : r.state = .streaming := (Reader.refusal_eq_none_iff.1 hf).2
    refine ⟨_, rfl, r.closed_after _, fun hne => absurd hstream hne, fun hne he => ?_⟩
    exact absurd he (Reader.not_succeeded_after hne)
  | ruled hf hb ho hrule =>
    have hstream : r.state = .streaming := (Reader.refusal_eq_none_iff.1 hf).2
    refine ⟨_, rfl, rfl, fun hne => absurd hstream hne, fun _ he => ?_⟩
    subst hrule
    have hcount := Check.rule_succeeded he
    subst hcount
    exact ⟨⟨r, hr, hf⟩, hb, ho, by rw [hx]; exact congrArg some he⟩

theorem top_close : ∃ r', s.close.state.top? = some r' ∧ r'.state = r.state ∧ r'.closed = true := by
  rw [close, layers_of_top? hr]
  by_cases hc : r.closed = true
  · simp only [closeLayers, hc, if_true]
    exact ⟨r, rfl, rfl, hc⟩
  · simp only [closeLayers, hc]
    exact ⟨{ r with closed := true }, rfl, rfl, rfl⟩

theorem top_reached {es : List Event} {t : Stack σ} (h : Reaches s es t) :
    ∃ r', t.top? = some r' ∧ (r.state ≠ .streaming → r'.state = r.state) ∧ (r.closed = true → r'.closed = true) ∧
      (r.state ≠ .succeeded → r'.state = .succeeded → ∃ u b before after, Reaches s before u ∧ Completes u b ∧
        Reaches (u.request b).state after t ∧ es = before ++ (u.request b).events ++ after) := by
  induction h with
  | refl => exact ⟨r, hr, fun _ => rfl, id, fun hne he => absurd he hne⟩
  | @request t es ht b ih =>
    obtain ⟨r', htop, hstate, hclosed, hentered⟩ := ih
    obtain ⟨r'', htop', hclosed', hended, hcompletes⟩ := top_request htop b
    refine ⟨r'', htop', fun hne => ?_, fun hc => ?_, fun hne he => ?_⟩
    · have he := hstate hne
      rw [hended (by rwa [he]), he]
    · rw [hclosed', hclosed hc]
    -- A reader that had succeeded did so by an earlier request; if not, it is this one.
    · by_cases hdone : r'.state = .succeeded
      · obtain ⟨u, b', before, after, hu, hc, ht', rfl⟩ := hentered hne hdone
        exact ⟨u, b', before, _, hu, hc, ht'.request b, by simp⟩
      · exact ⟨t, b, es, [], ht, hcompletes hdone he, .refl, by simp⟩
  | @close t es ht ih =>
    obtain ⟨r', htop, hstate, -, hentered⟩ := ih
    obtain ⟨r'', htop', hstate', hclosed'⟩ := top_close htop
    refine ⟨r'', htop', fun hne => by rw [hstate', hstate hne], fun _ => hclosed', fun hne he => ?_⟩
    obtain ⟨u, b, before, after, hu, hc, ht', rfl⟩ := hentered hne (hstate' ▸ he)
    exact ⟨u, b, before, _, hu, hc, ht'.close, by simp⟩

theorem move_empty {m : Move} (hm : m.Empty) : ∃ turn, s.move m = some turn ∧ turn.state.1 = s ∧ turn.events = [] := by
  cases hm with
  | @readInto b hb =>
    refine ⟨_, rfl, ?_⟩
    rw [readInto_layered (layered_of_top? hr), request_empty hr hb]
    exact ⟨rfl, rfl⟩
  | read =>
    refine ⟨_, rfl, ?_⟩
    simp only [bare, read_state, read_events]
    rw [request_empty hr (by simp)]
    exact ⟨rfl, rfl⟩

end

theorem play_idle {ms zs ms' : List Move} (hi : Interleaves ms zs ms') (hz : ∀ z ∈ zs, z.Empty) {s t : Stack σ}
    {r : Reader} (hr : s.top? = some r) {turns : List (Turn (Stack σ × Option Buffer) Value)}
    (h : play move s ms = some (turns, t)) :
    ∃ turns' idle, play move s ms' = some (turns', t) ∧ Interleaves (ms.zip turns) (zs.zip idle) (ms'.zip turns') ∧
      ∀ x ∈ idle, x.events = [] := by
  induction hi generalizing s r turns with
  | nil =>
    cases h
    exact ⟨[], [], rfl, .nil, by simp⟩
  | left hi ih =>
    obtain ⟨turn, rest, hm, hrest, rfl⟩ := play_cons.1 h
    obtain ⟨r', hr', -⟩ := top_reached hr (move_reaches (layered_of_top? hr) .refl hm).1
    obtain ⟨turns', idle, hplay, hboth, hidle⟩ := ih hz hr' hrest
    exact ⟨turn :: turns', idle, play_cons.2 ⟨turn, turns', hm, hplay, rfl⟩, .left hboth, hidle⟩
  | right hi ih =>
    obtain ⟨hempty, hz⟩ := List.forall_mem_cons.1 hz
    obtain ⟨turn, hm, hstate, hevents⟩ := move_empty hr hempty
    obtain ⟨turns', idle, hplay, hboth, hidle⟩ := ih hz hr h
    refine ⟨turn :: turns', turn :: idle, play_cons.2 ⟨turn, turns', hm, by rwa [hstate], rfl⟩, .right hboth, ?_⟩
    exact List.forall_mem_cons.2 ⟨hevents, hidle⟩

theorem refuses_of_top? {s : Stack σ} {r : Reader} (hr : s.top? = some r) {f : Failure} (hf : r.refusal = some f) :
    Refuses s f := by
  rw [eq_of_top? hr]
  exact refuses_of_refusal hf s.below.layers s.origin

theorem reader_lifecycle {s t : Stack σ} {r : Reader} (hr : s.top? = some r) {ms : List Move}
    {turns : List (Turn (Stack σ × Option Buffer) Value)} (h : play move s ms = some (turns, t)) :
    ∃ r', t.top? = some r' ∧
      (r.state ≠ .streaming → r'.state = r.state) ∧ (r.closed = true → r'.closed = true) ∧
      (r.state ≠ .succeeded → r'.state = .succeeded → ∃ u b before after, Reaches s before u ∧ Completes u b ∧
        Reaches (u.request b).state after t ∧
        turns.flatMap Turn.events = before ++ (u.request b).events ++ after) ∧
      (r'.state ≠ .streaming ∨ r'.closed = true → ∃ f, f.kind = .readerClosed ∧ Refuses t f) ∧
      (r'.state = .streaming → r'.closed = false →
        (∀ b, b.size = 0 → t.readInto b = ⟨.ok (some 0), b, t, []⟩) ∧ t.read 0 = ⟨.ok [], t, []⟩) ∧
      ∀ zs ms', (∀ z ∈ zs, z.Empty) → Interleaves ms zs ms' → ∃ turns' idle, play move s ms' = some (turns', t) ∧
        Interleaves (ms.zip turns) (zs.zip idle) (ms'.zip turns') ∧ ∀ x ∈ idle, x.events = [] := by
  obtain ⟨r', hr', hstate, hclosed, hentered⟩ := top_reached hr (play_reaches (layered_of_top? hr) h)
  refine ⟨r', hr', hstate, hclosed, hentered, fun hover => ?_, fun hstream hopen => ?_, fun zs ms' hz hi => ?_⟩
  · cases hf : r'.refusal with
    | some f => exact ⟨f, Reader.refusal_readerClosed hf, refuses_of_top? hr' hf⟩
    | none =>
      obtain ⟨hopen, hstream⟩ := Reader.refusal_eq_none_iff.1 hf
      simp [hopen, hstream] at hover
  · have hf : r'.refusal = none := Reader.refusal_eq_none_iff.2 ⟨hopen, hstream⟩
    constructor
    · intro b hb
      rw [readInto_layered (layered_of_top? hr'), request_empty hr' hb]
      simp [hf, Except.map]
    · simp [read, request_empty hr' (b := .zeroed 0) (by simp), hf]
  · exact play_idle hi hz hr h

theorem reader_lifecycle_drained :
    let s : Stack Script := ⟨[.reader (.bound 3)], .direct { api := {}, items := [.data [1, 2] none] }⟩
    let full : Move := .plain (.readInto (some (.zeroed 2)))
    let idle : Move := .plain (.readInto (some (.zeroed 0)))
    ∃ turns turns' t, play move s [full, .plain (.read 4), .plain .close] = some (turns, t) ∧
      play move s [.plain (.read 0), full, idle, .plain (.read 4), idle, .plain .close] = some (turns', t) ∧
      (∃ u b before after, Reaches s before u ∧ Completes u b ∧ Reaches (u.request b).state after t ∧
        turns.flatMap Turn.events = before ++ (u.request b).events ++ after) ∧
      ∃ f, f.kind = .readerClosed ∧ Refuses t f := by
  intro s full idle
  obtain ⟨turns, t, hplay, hstate⟩ : ∃ turns t, play move s [full, .plain (.read 4), .plain .close] = some (turns, t) ∧
      t.state? = some .succeeded := ⟨_, _, rfl, rfl⟩
  obtain ⟨r', hr', -, -, hentered, hrefuses, -, hidle⟩ := reader_lifecycle (r := .bound 3) rfl hplay
  have hdone := state_of_state? hr' hstate
  obtain ⟨turns', -, hplay', -, -⟩ := hidle [.plain (.read 0), idle, idle] _
    (List.forall_mem_cons.2 ⟨.read, by simp [idle, Move.Empty.readInto]⟩)
    (.right (.left (.right (.left (.right (.left .nil))))))
  exact ⟨turns, turns', t, hplay, hplay', hentered (by decide) hdone, hrefuses (.inl (by rw [hdone]; decide))⟩

end Stack

end StreamGuard
