import StreamGuard.Gather

namespace StreamGuard

variable {τ : Type} {step : τ → Option (Turn τ (Option Bytes))} {enough : Nat → Bytes → Bool}

def kept (step : τ → Option (Turn τ (Option Bytes))) (enough : Nat → Bytes → Bool) :
    Nat → τ → Gathered → List Bytes
  | 0, _, g => g.pieces.reverse
  | budget + 1, t, g =>
    if enough g.total g.last then g.pieces.reverse
    else
      match step t with
      | none => g.pieces.reverse
      | some turn =>
        match turn.outcome with
        | .ok (some piece) => kept step enough budget turn.state (g.add piece turn.events)
        | _ => g.pieces.reverse

inductive LoopEnd (step : τ → Option (Turn τ (Option Bytes))) (enough : Nat → Bytes → Bool) (t : τ)
    (ps : List Bytes) : Turn τ (List Bytes) → Prop
  | enough {total last events} (h : enough total last = true) : LoopEnd step enough t ps ⟨.ok ps, t, events⟩
  | failed {turn f events} (h : step t = some turn) (hf : turn.outcome = .error f) :
      LoopEnd step enough t ps ⟨.error f, turn.state, events⟩
  | done {turn events} (h : step t = some turn) (hd : turn.outcome = .ok none) :
      LoopEnd step enough t ps ⟨.ok ps, turn.state, events⟩

theorem gather_end {n : Nat} {t : τ} {g : Gathered} {answer : Turn τ (List Bytes)}
    (h : gather step enough n t g = some answer) (I : τ → List Bytes → Prop)
    (hstep : ∀ {u ps turn p}, I u ps → step u = some turn → turn.outcome = .ok (some p) →
      I turn.state (ps ++ [p])) (hi : I t g.pieces.reverse) :
    ∃ u, I u (kept step enough n t g) ∧ LoopEnd step enough u (kept step enough n t g) answer := by
  induction n generalizing t g with
  | zero => simp [gather] at h
  | succ n ih =>
    simp only [gather] at h
    simp only [kept]
    split at h
    · rename_i he
      cases h
      simp only [he, if_true]
      exact ⟨t, hi, .enough he⟩
    · rename_i he
      simp only [he]
      cases hs : step t with
      | none => simp [hs] at h
      | some turn =>
        simp only [hs] at h ⊢
        split at h
        · rename_i f hf
          cases h
          simp only [hf]
          exact ⟨t, hi, .failed hs hf⟩
        · rename_i hd
          cases h
          simp only [hd]
          exact ⟨t, hi, .done hs hd⟩
        · rename_i p hp
          simp only [hp]
          apply ih h
          simpa [Gathered.add] using hstep hi hs hp

section

variable {t : τ} {g : Gathered} {turn : Turn τ (Option Bytes)} (hs : step t = some turn)
  (he : enough g.total g.last = false)

include hs he

theorem gather_piece {p : Bytes} (hp : turn.outcome = .ok (some p)) (budget : Nat) :
    gather step enough (budget + 1) t g = gather step enough budget turn.state (g.add p turn.events) := by
  simp [gather, he, hs, hp]

theorem gather_failed {f : Failure} (hf : turn.outcome = .error f) (budget : Nat) :
    gather step enough (budget + 1) t g = some ⟨.error f, turn.state, g.allEvents ++ turn.events⟩ := by
  simp [gather, he, hs, hf]

theorem gather_done (hd : turn.outcome = .ok none) (budget : Nat) :
    gather step enough (budget + 1) t g =
      some ⟨.ok g.pieces.reverse, turn.state, g.allEvents ++ turn.events⟩ := by
  simp [gather, he, hs, hd]

theorem gather_halts (h : ∀ p, turn.outcome ≠ .ok (some p)) (budget : Nat) :
    ∃ outcome, gather step enough (budget + 1) t g = some ⟨outcome, turn.state, g.allEvents ++ turn.events⟩ := by
  rcases ho : turn.outcome with f | _ | p
  · exact ⟨_, gather_failed hs he ho budget⟩
  · exact ⟨_, gather_done hs he ho budget⟩
  · exact absurd ho (h p)

theorem kept_piece {p : Bytes} (hp : turn.outcome = .ok (some p)) (budget : Nat) :
    kept step enough (budget + 1) t g = kept step enough budget turn.state (g.add p turn.events) := by
  simp [kept, he, hs, hp]

theorem kept_halts (h : ∀ p, turn.outcome ≠ .ok (some p)) (budget : Nat) :
    kept step enough (budget + 1) t g = g.pieces.reverse := by
  rcases ho : turn.outcome with f | _ | p
  · simp [kept, he, hs, ho]
  · simp [kept, he, hs, ho]
  · exact absurd ho (h p)

end

inductive Stops (step : τ → Option (Turn τ (Option Bytes))) (enough : Nat → Bytes → Bool) (t : τ) (g : Gathered) :
    Turn τ (List Bytes) → Prop
  | enough (h : enough g.total g.last = true) : Stops step enough t g ⟨.ok g.pieces.reverse, t, g.allEvents⟩
  | failed {turn f} (h : step t = some turn) (hf : turn.outcome = .error f) :
      Stops step enough t g ⟨.error f, turn.state, g.allEvents ++ turn.events⟩
  | done {turn} (h : step t = some turn) (hd : turn.outcome = .ok none) :
      Stops step enough t g ⟨.ok g.pieces.reverse, turn.state, g.allEvents ++ turn.events⟩

theorem gather_stops {n : Nat} {t : τ} {g : Gathered} {answer : Turn τ (List Bytes)}
    (h : gather step enough n t g = some answer) (I : τ → Gathered → Prop)
    (hstep : ∀ {u g turn p}, I u g → step u = some turn → turn.outcome = .ok (some p) →
      I turn.state (g.add p turn.events)) (hi : I t g) :
    ∃ u g', I u g' ∧ Stops step enough u g' answer := by
  induction n generalizing t g with
  | zero => simp [gather] at h
  | succ n ih =>
    by_cases he : enough g.total g.last = true
    · rw [gather, if_pos he] at h
      cases h
      exact ⟨t, g, hi, .enough he⟩
    · have henough : enough g.total g.last = false := by simpa using he
      cases hs : step t with
      | none => simp [gather, henough, hs] at h
      | some turn =>
        rcases ho : turn.outcome with f | _ | p
        · rw [gather_failed hs henough ho] at h
          cases h
          exact ⟨t, g, hi, .failed hs ho⟩
        · rw [gather_done hs henough ho] at h
          cases h
          exact ⟨t, g, hi, .done hs ho⟩
        · rw [gather_piece hs henough ho] at h
          exact ih h (hstep hi hs ho)

theorem gather_keeps {n : Nat} {t : τ} {g : Gathered} {answer : Turn τ (List Bytes)}
    (h : gather step enough n t g = some answer) (I : τ → List Event → Prop)
    (hstep : ∀ {u es turn}, I u es → step u = some turn → I turn.state (es ++ turn.events))
    (hi : I t g.allEvents) : I answer.state answer.events := by
  obtain ⟨u, g', hu, hstop⟩ := gather_stops h (fun u g => I u g.allEvents)
    (fun hu hs _ => by simpa using hstep hu hs) hi
  cases hstop with
  | enough => exact hu
  | failed hs => exact hstep hu hs
  | done hs => exact hstep hu hs

theorem gather_collects {n : Nat} {t : τ} {answer : Turn τ (List Bytes)} {ps : List Bytes}
    (h : gather step enough n t {} = some answer) (ho : answer.outcome = .ok ps) (I E : τ → Bytes → Prop) {D : Bytes}
    (hi : I t D)
    (hpiece : ∀ {u D turn p}, I u D → step u = some turn → turn.outcome = .ok (some p) → I turn.state (D ++ p))
    (hend : ∀ {u D turn}, I u D → step u = some turn → turn.outcome = .ok none → E turn.state D) :
    E answer.state (D ++ ps.flatten) ∨
      I answer.state (D ++ ps.flatten) ∧ enough ps.flatten.length (ps.reverse.headD []) = true := by
  obtain ⟨u, g, ⟨hu, htotal⟩, hstop⟩ := gather_stops h
    (fun u g => I u (D ++ g.pieces.reverse.flatten) ∧ g.total = g.pieces.reverse.flatten.length)
    (fun {u g turn p} hu hs hp => by
      obtain ⟨hu, htotal⟩ := hu
      constructor
      · simpa [Gathered.add] using hpiece hu hs hp
      · simp [Gathered.add, htotal])
    ⟨by simpa using hi, rfl⟩
  cases hstop with
  | enough he =>
    cases ho
    rw [htotal, Gathered.last] at he
    exact .inr ⟨hu, by simpa using he⟩
  | failed => cases ho
  | done hs hd =>
    cases ho
    exact .inl (hend hu hs hd)

theorem gather_finishes (I : τ → Prop) (m : τ → Nat)
    (hstep : ∀ t, I t → ∃ turn, step t = some turn ∧
      ∀ p, turn.outcome = .ok (some p) → I turn.state ∧ m turn.state < m t)
    {n : Nat} {t : τ} (hi : I t) (hn : m t < n) (g : Gathered) :
    ∃ answer, gather step enough n t g = some answer := by
  induction n generalizing t g with
  | zero => omega
  | succ n ih =>
    by_cases he : enough g.total g.last = true
    · exact ⟨_, by rw [gather, if_pos he]⟩
    · have henough : enough g.total g.last = false := by simpa using he
      obtain ⟨turn, hs, hdrop⟩ := hstep t hi
      cases ho : turn.outcome with
      | error f => exact ⟨_, gather_failed hs henough ho n⟩
      | ok piece =>
        cases piece with
        | none => exact ⟨_, gather_done hs henough ho n⟩
        | some p =>
          obtain ⟨hi', hlt⟩ := hdrop p ho
          rw [gather_piece hs henough ho]
          exact ih hi' (by omega) _

end StreamGuard
