import StreamGuard.Action
import StreamGuard.Proofs.Request

namespace StreamGuard

inductive Operation
  | readInto (b : Option Buffer)
  | read (n : Nat)
  | readAll (budget : Nat)
  | readToEnd (chunk : Int) (budget : Nat)
  | close

structure Observation where
  outcome : Except Failure Value
  buffer : Option Buffer
  state : Option ReaderState
  closed : Bool
  calls : List Call

def Event.calls (events : List Event) : List Call :=
  events.filterMap Event.call?

structure Turn.Like {τ τ' α : Type} (R : τ → τ' → Prop) (x : Turn τ α) (y : Turn τ' α) : Prop where
  outcome : x.outcome = y.outcome
  calls : Event.calls x.events = Event.calls y.events
  state : R x.state y.state

structure Fill.Like {τ τ' α : Type} (R : τ → τ' → Prop) (x : Fill τ α) (y : Fill τ' α) : Prop where
  outcome : x.outcome = y.outcome
  buffer : x.buffer = y.buffer
  calls : Event.calls x.events = Event.calls y.events
  state : R x.state y.state

namespace Event

@[simp] theorem calls_nil : calls [] = [] := rfl

@[simp] theorem calls_log (r : LogRecord) (es : List Event) : calls (.log r :: es) = calls es := rfl

@[simp] theorem calls_finalized (es : List Event) : calls (.finalized :: es) = calls es := rfl

@[simp] theorem calls_append (es fs : List Event) : calls (es ++ fs) = calls es ++ calls fs :=
  List.filterMap_append

end Event

theorem Check.calls_rule (c : Check) (count : Int) (b : Buffer) : Event.calls (c.rule count b).events = [] := by
  cases c with
  | digest d =>
    simp only [rule, DigestCheck.rule]
    repeat' split
    all_goals rfl
  | bound c =>
    simp only [rule, BoundCheck.rule]
    repeat' split
    all_goals rfl

theorem gather_like {τ τ' : Type} {R : τ → τ' → Prop} {step : τ → Option (Turn τ (Option Bytes))}
    {step' : τ' → Option (Turn τ' (Option Bytes))} {enough : Nat → Bytes → Bool}
    (hstep : ∀ t t', R t t' → Option.Rel (Turn.Like R) (step t) (step' t')) (n : Nat) {t : τ} {t' : τ'}
    {g g' : Gathered} (hr : R t t') (hp : g.pieces = g'.pieces) (ht : g.total = g'.total)
    (hc : Event.calls g.allEvents = Event.calls g'.allEvents) :
    Option.Rel (Turn.Like R) (gather step enough n t g) (gather step' enough n t' g') := by
  induction n generalizing t t' g g' with
  | zero => exact .none
  | succ n ih =>
    have hlast : g.last = g'.last := by
      simp only [Gathered.last, hp]
    have hs := hstep t t' hr
    simp only [gather, ht, hlast]
    by_cases he : enough g'.total g'.last = true
    · simp only [he, if_true]
      exact .some ⟨by rw [hp], hc, hr⟩
    · simp only [he]
      generalize step t = x at hs ⊢
      generalize step' t' = y at hs ⊢
      cases hs with
      | none => exact .none
      | @some turn turn' h =>
        obtain ⟨outcome, state, events⟩ := turn
        obtain ⟨outcome', state', events'⟩ := turn'
        obtain ⟨hout, hcalls, hstate⟩ := h
        simp only at hout hcalls hstate
        subst hout
        have hall : ∀ p, Event.calls (g.add p events).allEvents = Event.calls (g'.add p events').allEvents := by
          intro p
          simp only [Gathered.allEvents_add, Event.calls_append, hc, hcalls]
        rcases outcome with f | _ | p
        · exact .some ⟨rfl, hall [], hstate⟩
        · exact .some ⟨by rw [hp], hall [], hstate⟩
        · apply ih hstate
          · simp only [Gathered.add, hp]
          · simp only [Gathered.add, ht]
          · exact hall p

namespace Stack

section

variable {σ : Type}

def state? (s : Stack σ) : Option ReaderState :=
  match s.layers with
  | .reader r :: _ => some r.state
  | _ => none

def bare {α : Type} (shown : α → Value) (turn : Turn (Stack σ) α) : Turn (Stack σ × Option Buffer) Value :=
  ⟨turn.outcome.map shown, (turn.state, none), turn.events⟩

variable [ByteSource σ]

def operate (s : Stack σ) : Operation → Option (Turn (Stack σ × Option Buffer) Value)
  | .readInto none => some ⟨.error s.noBuffer, (s, none), []⟩
  | .readInto (some b) =>
    let fill := s.readInto b
    some ⟨fill.outcome.map Value.ofCount, (fill.state, some fill.buffer), fill.events⟩
  | .read n => some (bare .bytes (s.read n))
  | .readAll budget => (s.readAll budget).map (bare .bytes)
  | .readToEnd chunk budget => (s.readToEnd chunk budget).map (bare .bytes)
  | .close => some (bare (fun _ => .none) s.close)

def observe (turn : Turn (Stack σ × Option Buffer) Value) : Observation :=
  ⟨turn.outcome, turn.state.2, turn.state.1.state?, turn.state.1.closed, Event.calls turn.events⟩

def trace (s : Stack σ) : List Operation → List (Option Observation)
  | [] => []
  | op :: ops =>
    match s.operate op with
    | none => [none]
    | some turn => some (observe turn) :: trace turn.state.1 ops

end

variable {σ σ' : Type} [ByteSource σ] [ByteSource σ'] {R : Stack σ → Stack σ' → Prop} {s : Stack σ} {t : Stack σ'}

theorem readToEnd_like (hR : ∀ {u : Stack σ} {v : Stack σ'}, R u v → ∀ b, b.writable = true →
      Fill.Like R (u.readInto b) (v.readInto b)) (hr : R s t) (chunk : Int) (budget : Nat) :
    Option.Rel (Turn.Like R) (s.readToEnd chunk budget) (t.readToEnd chunk budget) := by
  by_cases hc : chunk ≤ 0
  · rw [readToEnd_of_nonpos hc, readToEnd_of_nonpos hc]
    exact .some ⟨rfl, rfl, hr⟩
  · have hstep : ∀ (u : Stack σ × Buffer) (v : Stack σ' × Buffer), R u.1 v.1 ∧ u.2 = v.2 ∧ u.2.writable = true →
        Option.Rel (Turn.Like fun x y => R x.1 y.1 ∧ x.2 = y.2 ∧ x.2.writable = true) (some (drainStep u))
          (some (drainStep v)) := by
      rintro ⟨u, b⟩ ⟨v, _⟩ ⟨huv, rfl, hw⟩
      obtain ⟨hout, hbuf, hcalls, hstate⟩ := hR huv b hw
      exact .some ⟨by simp only [drainStep, hout, hbuf], hcalls, hstate, hbuf, (readInto_turns u b).writable.trans hw⟩
    have hloop : Option.Rel (Turn.Like fun x y => R x.1 y.1 ∧ x.2 = y.2 ∧ x.2.writable = true)
        (gather (fun u => some (drainStep u)) never budget (s, .zeroed chunk.toNat) {})
        (gather (fun v => some (drainStep v)) never budget (t, .zeroed chunk.toNat) {}) :=
      gather_like hstep budget ⟨hr, rfl, rfl⟩ rfl rfl rfl
    simp only [Stack.readToEnd, if_neg hc]
    generalize gather _ never budget (s, _) {} = x at hloop ⊢
    generalize gather _ never budget (t, _) {} = y at hloop ⊢
    cases hloop with
    | none => exact .none
    | some h => exact .some ⟨by simp only [joined, h.outcome], h.calls, h.state.1⟩

structure Bisimulation (fits : Buffer → Prop) (R : Stack σ → Stack σ' → Prop) : Prop where
  writable : ∀ {b}, b.writable = true → fits b
  layered : ∀ {s t}, R s t → s.layers ≠ [] ∧ t.layers ≠ []
  state? : ∀ {s t}, R s t → s.state? = t.state?
  closed : ∀ {s t}, R s t → s.closed = t.closed
  request : ∀ {s t}, R s t → ∀ {b}, fits b → Fill.Like R (s.request b) (t.request b)
  noBuffer : ∀ {s t}, R s t → s.noBuffer = t.noBuffer
  close : ∀ {s t}, R s t → Turn.Like R s.close t.close

namespace Bisimulation

variable {fits : Buffer → Prop} (hR : Bisimulation fits R) (hr : R s t)

include hR hr

theorem readInto {b : Buffer} (hb : fits b) : Fill.Like R (s.readInto b) (t.readInto b) := by
  obtain ⟨hs, ht⟩ := hR.layered hr
  obtain ⟨hout, hbuf, hcalls, hstate⟩ := hR.request hr hb
  rw [readInto_layered hs, readInto_layered ht]
  exact ⟨by rw [hout], hbuf, hcalls, hstate⟩

theorem read (n : Nat) : Turn.Like R (s.read n) (t.read n) := by
  obtain ⟨hout, hbuf, hcalls, hstate⟩ := hR.request hr (b := .zeroed n) (hR.writable rfl)
  simp only [Stack.read, hout, hbuf]
  cases (t.request (.zeroed n)).outcome with
  | error f => exact ⟨rfl, hcalls, hstate⟩
  | ok count =>
    by_cases hc : 0 ≤ count ∧ count ≤ (t.request (.zeroed n)).buffer.size
    · simp only [if_pos hc]
      exact ⟨rfl, hcalls, hstate⟩
    · simp only [if_neg hc]
      cases Buffer.sizeFault .countRange .negativeResult count <;> exact ⟨rfl, hcalls, hstate⟩

theorem readAll (budget : Nat) : Option.Rel (Turn.Like R) (s.readAll budget) (t.readAll budget) := by
  have hstep : ∀ u v, R u v → Option.Rel (Turn.Like R) (some (untilEmpty (u.read allChunk)))
      (some (untilEmpty (v.read allChunk))) := by
    intro u v huv
    obtain ⟨hout, hcalls, hstate⟩ := hR.read huv allChunk
    exact .some ⟨by simp only [untilEmpty, hout], hcalls, hstate⟩
  have hloop : Option.Rel (Turn.Like R) (gather (fun u => some (untilEmpty (u.read allChunk))) never budget s {})
      (gather (fun v => some (untilEmpty (v.read allChunk))) never budget t {}) :=
    gather_like hstep budget hr rfl rfl rfl
  simp only [Stack.readAll, readUntilEmpty]
  generalize gather _ never budget s {} = x at hloop ⊢
  generalize gather _ never budget t {} = y at hloop ⊢
  cases hloop with
  | none => exact .none
  | some h => exact .some ⟨by simp only [joined, h.outcome], h.calls, h.state⟩

theorem readToEnd (chunk : Int) (budget : Nat) :
    Option.Rel (Turn.Like R) (s.readToEnd chunk budget) (t.readToEnd chunk budget) :=
  readToEnd_like (fun huv _ hw => hR.readInto huv (hR.writable hw)) hr chunk budget

theorem operate (op : Operation) (hop : ∀ b, op = .readInto (some b) → fits b) :
    Option.Rel (Turn.Like fun x y => R x.1 y.1 ∧ x.2 = y.2) (s.operate op) (t.operate op) := by
  have hbare : ∀ {α : Type} (shown : α → Value) {x : Turn (Stack σ) α} {y : Turn (Stack σ') α}, Turn.Like R x y →
      Turn.Like (fun x y => R x.1 y.1 ∧ x.2 = y.2) (bare shown x) (bare shown y) := by
    intro α shown x y h
    exact ⟨by simp only [bare, h.outcome], h.calls, h.state, rfl⟩
  have hmap : ∀ {x : Option (Turn (Stack σ) Bytes)} {y : Option (Turn (Stack σ') Bytes)},
      Option.Rel (Turn.Like R) x y → Option.Rel (Turn.Like fun x y => R x.1 y.1 ∧ x.2 = y.2)
        (x.map (bare .bytes)) (y.map (bare .bytes)) := by
    intro x y h
    cases h with
    | none => exact .none
    | some h => exact .some (hbare _ h)
  cases op with
  | readInto b =>
    cases b with
    | none => exact .some ⟨by rw [hR.noBuffer hr], rfl, hr, rfl⟩
    | some b =>
      obtain ⟨hout, hbuf, hcalls, hstate⟩ := hR.readInto hr (hop b rfl)
      exact .some ⟨by rw [hout], hcalls, hstate, by rw [hbuf]⟩
  | read n => exact .some (hbare _ (hR.read hr n))
  | readAll budget => exact hmap (hR.readAll hr budget)
  | readToEnd chunk budget => exact hmap (hR.readToEnd hr chunk budget)
  | close => exact .some (hbare _ (hR.close hr))

theorem trace_eq {ops : List Operation} (hops : ∀ b, .readInto (some b) ∈ ops → fits b) :
    s.trace ops = t.trace ops := by
  induction ops generalizing s t with
  | nil => rfl
  | cons op ops ih =>
    have hop := hR.operate hr op fun b hb => hops b (by simp [hb])
    simp only [trace]
    generalize s.operate op = x at hop ⊢
    generalize t.operate op = y at hop ⊢
    cases hop with
    | none => rfl
    | @some x y h =>
      obtain ⟨hout, hcalls, hstate, hbuf⟩ := h
      have hobserved : observe x = observe y := by
        simp only [observe, hout, hcalls, hbuf, hR.state? hstate, hR.closed hstate]
      simp only [hobserved, ih hstate fun b hb => hops b (List.mem_cons_of_mem _ hb)]

end Bisimulation

end Stack

end StreamGuard
