import StreamGuard.Event

namespace StreamGuard

structure Gathered where
  pieces : List Bytes := []
  total : Nat := 0
  events : List (List Event) := []

namespace Gathered

def last (g : Gathered) : Bytes := g.pieces.headD []

def add (g : Gathered) (piece : Bytes) (events : List Event) : Gathered :=
  { pieces := piece :: g.pieces, total := g.total + piece.length, events := events :: g.events }

def allEvents (g : Gathered) : List Event := g.events.reverse.flatten

end Gathered

variable {τ : Type}

/-- `none` if the budget did not suffice. `enough` is asked before each step, with the number of bytes collected
and the last piece. -/
def gather (step : τ → Option (Turn τ (Option Bytes))) (enough : Nat → Bytes → Bool) :
    Nat → τ → Gathered → Option (Turn τ (List Bytes))
  | 0, _, _ => none
  | budget + 1, t, g =>
    if enough g.total g.last then some ⟨.ok g.pieces.reverse, t, g.allEvents⟩
    else
      match step t with
      | none => none
      | some turn =>
        match turn.outcome with
        | .error f => some ⟨.error f, turn.state, (g.add [] turn.events).allEvents⟩
        | .ok none => some ⟨.ok g.pieces.reverse, turn.state, (g.add [] turn.events).allEvents⟩
        | .ok (some piece) => gather step enough budget turn.state (g.add piece turn.events)

def never : Nat → Bytes → Bool := fun _ _ => false

@[simp] theorem Gathered.allEvents_add (g : Gathered) (piece : Bytes) (events : List Event) :
    (g.add piece events).allEvents = g.allEvents ++ events := by
  simp [Gathered.allEvents, Gathered.add]

theorem gather_mono {step : τ → Option (Turn τ (Option Bytes))} {enough : Nat → Bytes → Bool} {n : Nat} {t : τ}
    {g : Gathered} {answer : Turn τ (List Bytes)} (h : gather step enough n t g = some answer) (k : Nat) :
    gather step enough (n + k) t g = some answer := by
  induction n generalizing t g with
  | zero => simp [gather] at h
  | succ n ih =>
    rw [Nat.succ_add]
    unfold gather at h ⊢
    split at h
    · simp_all
    · rename_i he
      simp only [he]
      cases hs : step t with
      | none => simp [hs] at h
      | some turn =>
        simp only [hs] at h ⊢
        split at h
        · simp_all
        · simp_all
        · simpa using ih h

end StreamGuard
