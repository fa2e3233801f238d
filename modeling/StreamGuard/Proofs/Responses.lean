import StreamGuard.Proofs.Uses

namespace StreamGuard

/-- The calls that a response has seen: reads, and a close once nothing is attached to it any more. -/
def Conversation (attached : Bool) (cs : List Call) : Prop :=
  ∃ ns : List Int, cs = ns.map Call.read ++ if attached then [] else [.close]

namespace Conversation

variable {attached : Bool} {cs ds : List Call}

theorem nil : Conversation true [] := ⟨[], rfl⟩

theorem of_nil (h : Conversation attached []) : attached = true := by
  obtain ⟨ns, h⟩ := h
  cases attached with
  | true => rfl
  | false => simp at h

theorem read (h : Conversation true cs) (n : Int) : Conversation true (cs ++ [.read n]) := by
  obtain ⟨ns, rfl⟩ := h
  exact ⟨ns ++ [n], by simp⟩

theorem close (h : Conversation true cs) : Conversation false (cs ++ [.close]) := by
  obtain ⟨ns, rfl⟩ := h
  exact ⟨ns, by simp⟩

theorem count_close (h : Conversation attached cs) : cs.count .close = (!attached).toNat := by
  obtain ⟨ns, rfl⟩ := h
  have hreads : (ns.map Call.read).count .close = 0 := by
    rw [List.count_eq_zero]
    simp
  rw [List.count_append, hreads]
  cases attached <;> rfl

theorem ended (h : Conversation attached (cs ++ ds)) (hc : .close ∈ cs) : ds = [] := by
  obtain ⟨ns, hall⟩ := h
  have hreads : ∀ es, cs ++ es ≠ ns.map Call.read := by
    intro es he
    have hmem : Call.close ∈ ns.map Call.read := he ▸ List.mem_append_left es hc
    simp at hmem
  cases attached with
  | true =>
    rw [if_pos rfl, List.append_nil] at hall
    exact absurd hall (hreads ds)
  | false =>
    rcases List.eq_nil_or_concat ds with hnil | ⟨es, e, rfl⟩
    · exact hnil
    · rw [List.concat_eq_append, ← List.append_assoc] at hall
      exact absurd (List.append_inj_left' hall rfl) (hreads es)

end Conversation

namespace Layer

def ended : Layer → Bool
  | reader r => r.closed
  | file _ => true

end Layer

namespace Origin

def ends : Origin Endpoint → List Bool
  | direct _ => [true]
  | remote r _ => [!r.attached, true]

end Origin

namespace Mold

def ended : Mold → Nat → Bool
  | reader, n | remote _, n => n != 0
  | file _, _ | script _, _ | memory, _ => true

end Mold

namespace Stack

section

variable {σ : Type} [ByteSource σ]

theorem serve_origin (intake : Intake) (layers : List Layer) (o : Origin σ) (b : Buffer) :
    ((serve intake layers o b).state.origin = o ∧ Event.calls (serve intake layers o b).events = []) ∨
      ∃ intake', (serve intake layers o b).state.origin = (o.supply intake' b).state ∧
        Event.calls (serve intake layers o b).events = Event.calls (o.supply intake' b).events := by
  induction layers generalizing intake with
  | nil => exact .inr ⟨intake, rfl, rfl⟩
  | cons x below ih =>
    cases x with
    | reader r =>
      have hserved := served intake r below o b
      generalize serve intake (.reader r :: below) o b = x at hserved ⊢
      cases hserved with
      | refused => exact .inl ⟨rfl, rfl⟩
      | empty => exact .inl ⟨rfl, rfl⟩
      | failed => exact ih .checked
      | @ruled count ruling _ _ _ hrule =>
        simp only [Event.calls_append, ← hrule, r.check.calls_rule, List.append_nil]
        exact ih .checked
    | file a =>
      simp only [serve]
      split
      · exact ih .unchecked
      · exact .inl ⟨rfl, rfl⟩

theorem close_origin (s : Stack σ) :
    (s.close.state.origin = s.origin ∧ s.close.events = []) ∨
      (s.close.state.origin = s.origin.close.state ∧ s.close.events = s.origin.close.events) := by
  obtain ⟨layers, o⟩ := s
  simp only [close]
  induction layers with
  | nil => exact .inr ⟨rfl, rfl⟩
  | cons x below ih =>
    cases x with
    | reader r =>
      simp only [closeLayers]
      split
      · exact .inl ⟨rfl, rfl⟩
      · exact ih
    | file a =>
      simp only [closeLayers]
      split
      · split <;> exact ih
      · exact .inl ⟨rfl, rfl⟩

end

theorem closeFails_read (body : Script) (n : Nat) : (body.read n).source.closeFails = body.closeFails := by
  unfold Script.read
  split <;> rfl

theorem supply_remote (intake : Intake) (r : Remote) (body : Script) (b : Buffer) :
    ∃ r' body', (Origin.supply intake (.remote r (Endpoint.script body)) b).state = .remote r' (.script body') ∧
      body'.closeFails = body.closeFails ∧ r'.attached = r.attached ∧
      Event.calls (Origin.supply intake (.remote r (Endpoint.script body)) b).events =
        if r.attached then [.read b.items] else [] := by
  have hcalls : Event.calls (Origin.copy .unchecked (Endpoint.script body) b).events = [.read b.items] := by
    simp only [Origin.copy]
    split <;> rfl
  simp only [Origin.supply, Origin.supplyRemote]
  split
  · split
    · exact ⟨r, _, by rw [Origin.copy_source]; rfl, closeFails_read body _, rfl, hcalls⟩
    · rename_i n _
      exact ⟨{ r with bytesRead := r.bytesRead + n }, _, by rw [Origin.copy_source]; rfl, closeFails_read body _, rfl,
        hcalls⟩
  · exact ⟨r, body, rfl, rfl, rfl, rfl⟩

def Continues (s : Stack Endpoint) (es : List Event) (t : Stack Endpoint) : Prop :=
  ∀ {r : Remote} {body : Script}, s.origin = .remote r (.script body) → body.closeFails = false →
    ∃ r' body', t.origin = .remote r' (.script body') ∧ body'.closeFails = false ∧
      ∀ {cs}, Conversation r.attached cs → Conversation r'.attached (cs ++ Event.calls es)

theorem request_continues (s : Stack Endpoint) (b : Buffer) :
    Continues s (s.request b).events (s.request b).state := by
  intro r body hs hf
  obtain ⟨layers, o⟩ := s
  cases hs
  rcases serve_origin .checked layers (.remote r (Endpoint.script body)) b with
    ⟨horigin, hcalls⟩ | ⟨intake, horigin, hcalls⟩
  · exact ⟨r, body, horigin, hf, fun hc => by rwa [request, hcalls, List.append_nil]⟩
  · obtain ⟨r', body', hstate, hf', hattached, hread⟩ := supply_remote intake r body b
    refine ⟨r', body', horigin.trans hstate, hf'.trans hf, fun {cs} hc => ?_⟩
    rw [request, hcalls, hread, hattached]
    cases ha : r.attached with
    | false => simpa [ha] using hc
    | true =>
      rw [ha] at hc
      exact hc.read b.items

theorem close_continues (s : Stack Endpoint) : Continues s s.close.events s.close.state := by
  intro r body hs hf
  rcases s.close_origin with ⟨horigin, hevents⟩ | ⟨horigin, hevents⟩
  · exact ⟨r, body, horigin.trans hs, hf, fun hc => by simpa [hevents] using hc⟩
  · rw [hs] at horigin hevents
    cases ha : r.attached with
    | false =>
      simp only [Origin.close, ha, Bool.false_eq_true, if_false] at horigin hevents
      exact ⟨r, body, horigin, hf, fun hc => by simpa [hevents, ha] using hc⟩
    | true =>
      have hclose : (ByteSource.close (Endpoint.script body)).outcome = .ok () := by
        simp [ByteSource.close, Endpoint.ofReply, Script.close, hf]
      simp only [Origin.close, ha, if_true, hclose] at horigin hevents
      refine ⟨_, _, horigin, hf, fun hc => ?_⟩
      rw [hevents]
      exact hc.close

theorem Continues.trans {s t u : Stack Endpoint} {es fs : List Event} (h : Continues s es t) (k : Continues t fs u) :
    Continues s (es ++ fs) u := by
  intro r body hs hf
  obtain ⟨r', body', ht, hf', hes⟩ := h hs hf
  obtain ⟨r'', body'', hu, hf'', hfs⟩ := k ht hf'
  refine ⟨r'', body'', hu, hf'', fun hc => ?_⟩
  rw [Event.calls_append, ← List.append_assoc]
  exact hfs (hes hc)

theorem Reaches.continues {s t : Stack Endpoint} {es : List Event} (h : Reaches s es t) : Continues s es t := by
  induction h with
  | refl => exact fun hs hf => ⟨_, _, hs, hf, fun hc => by simpa using hc⟩
  | request _ b ih => exact ih.trans (request_continues _ b)
  | close _ ih => exact ih.trans (close_continues _)

def ends (s : Stack Endpoint) : List Bool :=
  s.layers.map Layer.ended ++ s.origin.ends

theorem ends_eq (s : Stack Endpoint) : s.ends = List.zipWith Mold.ended s.molds s.closings := by
  have hflag : ∀ b : Bool, (b.toNat != 0) = b := by decide
  have hresponse : ∀ url n, (Mold.remote url).ended n = (n != 0) := fun _ _ => rfl
  have hsource : ∀ e : Endpoint, e.mold.ended e.closings = true := by
    intro e
    cases e <;> rfl
  obtain ⟨layers, o⟩ := s
  simp only [ends, molds, closings]
  induction layers with
  | nil => cases o <;> simp [Origin.ends, Origin.molds, Origin.closings, hresponse, hflag, hsource]
  | cons x below ih =>
    simp only [List.map_cons, List.cons_append, List.zipWith_cons_cons, ih]
    cases x <;> simp only [Layer.ended, Layer.mold, Layer.closings, Mold.ended, hflag]

theorem Unclosed.ends {s t : Stack Endpoint} {es : List Event} (h : Unclosed s es t) : t.ends = s.ends := by
  rw [ends_eq, ends_eq, h.molds, h.closings]

def Polite (s : Stack Endpoint) : Prop :=
  ∀ {r : Remote} {body : Script}, s.origin = .remote r (.script body) → body.closeFails = false

inductive Settles : List Bool → List Bool → Prop
  | refl (xs : List Bool) : Settles xs xs
  | keep {xs ys : List Bool} (x : Bool) (h : Settles xs ys) : Settles (x :: xs) (x :: ys)
  | shut {xs ys : List Bool} (h : Settles xs ys) (hy : ys.head? = some true) : Settles (false :: xs) (true :: ys)

namespace Settles

variable {xs ys : List Bool} {k : Nat}

theorem mono (h : Settles xs ys) (hk : xs[k]? = some true) : ys[k]? = some true := by
  induction h generalizing k with
  | refl => exact hk
  | keep x _ ih =>
    cases k with
    | zero => exact hk
    | succ k => exact ih hk
  | shut _ _ ih =>
    cases k with
    | zero => rfl
    | succ k => exact ih hk

theorem next (h : Settles xs ys) (hk : ys[k]? = some true) : xs[k]? = some true ∨ ys[k + 1]? = some true := by
  induction h generalizing k with
  | refl => exact .inl hk
  | keep x _ ih =>
    cases k with
    | zero => exact .inl hk
    | succ k => exact ih hk
  | @shut xs ys _ hy ih =>
    cases k with
    | zero =>
      rw [List.head?_eq_getElem?] at hy
      exact .inr hy
    | succ k => exact ih hk

end Settles

theorem close_settles {s : Stack Endpoint} (hs : s.Polite) :
    Settles s.ends s.close.state.ends ∧ s.close.state.ends.head? = some true := by
  obtain ⟨layers, o⟩ := s
  simp only [close]
  induction layers with
  | nil =>
    cases o with
    | direct e =>
      simp only [closeLayers, Origin.close]
      split <;> exact ⟨.refl _, rfl⟩
    | remote r e =>
      cases ha : r.attached with
      | false => simpa [closeLayers, Origin.close, ends, Origin.ends, ha] using Settles.refl _
      | true =>
        have hclose : (ByteSource.close e).outcome = .ok () := by
          cases e with
          | script body => simp [ByteSource.close, Endpoint.ofReply, Script.close, hs rfl]
          | memory => rfl
        simpa [closeLayers, Origin.close, hclose, ends, Origin.ends, ha] using Settles.shut (.refl [true]) rfl
  | cons x below ih =>
    obtain ⟨hsettles, hhead⟩ := ih hs
    cases x with
    | reader r =>
      simp only [closeLayers]
      split
      · rename_i hr
        exact ⟨.refl _, congrArg some hr⟩
      · rename_i hr
        have hopen : r.closed = false := by simpa using hr
        refine ⟨?_, rfl⟩
        simpa [ends, Layer.ended, hopen] using Settles.shut hsettles hhead
    | file a =>
      simp only [closeLayers]
      split
      · split <;> exact ⟨hsettles.keep true, rfl⟩
      · exact ⟨.refl _, rfl⟩

structure Lawful (s : Stack Endpoint) (es : List Event) (t : Stack Endpoint) : Prop where
  molds : t.molds = s.molds
  continues : Continues s es t
  settles : s.Polite → Settles s.ends t.ends

theorem Asks.lawful {s t : Stack Endpoint} {es : List Event} (h : Asks s es t) : Lawful s es t where
  molds := h.unclosed.molds
  continues := h.reaches.continues
  settles _ := by
    rw [h.unclosed.ends]
    exact .refl _

theorem Closes.lawful {s t : Stack Endpoint} {es : List Event} (h : Closes s es t) : Lawful s es t where
  molds := by
    rw [h.2]
    exact s.close_molds
  continues := h.reaches.continues
  settles hs := by
    rw [h.2]
    exact (close_settles hs).1

end Stack

end StreamGuard
