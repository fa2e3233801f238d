import StreamGuard.Drain
import StreamGuard.Proofs.Loop
import StreamGuard.Proofs.Request

namespace StreamGuard

inductive Use
  | readInto (b : Buffer)
  | readToEnd (chunk : Int) (budget : Nat)

def Buffer.handed (b : Buffer) : Except Failure (Option Int) → Bytes
  | .ok (some count) => b.bytes.upTo count
  | _ => []

namespace Stack

variable {σ : Type} [ByteSource σ]

def handed (fill : Fill (Stack σ) (Option Int)) : Bytes :=
  fill.buffer.handed fill.outcome

def drained (chunk : Int) (budget : Nat) (s : Stack σ) : Bytes :=
  if chunk ≤ 0 then []
  else (kept (fun t => some (drainStep t)) never budget (s, .zeroed chunk.toNat) {}).flatten

def use (s : Stack σ) : Use → Option (Stack σ × Bytes)
  | .readInto b => some ((s.readInto b).state, handed (s.readInto b))
  | .readToEnd chunk budget =>
    (s.readToEnd chunk budget).map fun turn => (turn.state, drained chunk budget s)

def useAll (s : Stack σ) : List Use → Option (Stack σ × Bytes)
  | [] => some (s, [])
  | u :: us =>
    match s.use u with
    | none => none
    | some (t, front) => (useAll t us).map fun r => (r.1, front ++ r.2)

theorem drainStep_count {t : Stack σ × Buffer} {p : Bytes} (h : (drainStep t).outcome = .ok (some p)) :
    ∃ k : Int, k ≠ 0 ∧ (t.1.readInto t.2).outcome = .ok (some k) := by
  obtain ⟨_ | k, ho, hp⟩ := map_eq_ok_iff.1 h
  · cases hp
  · refine ⟨k, ?_, ho⟩
    rintro rfl
    cases hp

theorem drainStep_piece {t : Stack σ × Buffer} {p : Bytes} (h : (drainStep t).outcome = .ok (some p)) :
    handed (t.1.readInto t.2) = p := by
  obtain ⟨k, hk, ho⟩ := drainStep_count h
  simpa [drainStep, handed, Buffer.handed, ho, Except.map, hk] using h

theorem drainStep_error {t : Stack σ × Buffer} {f : Failure} (h : (drainStep t).outcome = .error f) :
    (t.1.readInto t.2).outcome = .error f :=
  map_eq_error_iff.1 h

theorem drainStep_done {t : Stack σ × Buffer} (h : (drainStep t).outcome = .ok none) :
    (t.1.readInto t.2).outcome = .ok none ∨ (t.1.readInto t.2).outcome = .ok (some 0) := by
  obtain ⟨_ | k, ho, hk⟩ := map_eq_ok_iff.1 h
  · exact .inl ho
  · by_cases hz : k = 0
    · exact .inr (by rw [ho, hz])
    · simp [hz] at hk

theorem readToEnd_mono {chunk : Int} {n : Nat} {s : Stack σ} {turn : Turn (Stack σ) Bytes}
    (h : s.readToEnd chunk n = some turn) (k : Nat) : s.readToEnd chunk (n + k) = some turn := by
  by_cases hc : chunk ≤ 0
  · rwa [readToEnd_of_nonpos hc] at h ⊢
  · simp only [readToEnd, if_neg hc] at h ⊢
    obtain ⟨answer, ha, rfl⟩ := Option.map_eq_some_iff.1 h
    rw [gather_mono ha k]
    rfl

theorem readToEnd_agree {chunk : Int} {m n : Nat} {s : Stack σ} {x y : Turn (Stack σ) Bytes}
    (hx : s.readToEnd chunk m = some x) (hy : s.readToEnd chunk n = some y) : x = y := by
  have h := readToEnd_mono hx n
  rw [Nat.add_comm, readToEnd_mono hy m] at h
  exact (Option.some.inj h).symm

theorem readToEnd_last (I : Stack σ → Bytes → Prop) {chunk : Int} {budget : Nat} {s : Stack σ}
    {turn : Turn (Stack σ) Bytes} (hc : 0 < chunk) (h : s.readToEnd chunk budget = some turn)
    (hI : ∀ t D b, b.writable = true → I t D → I (t.readInto b).state (D ++ handed (t.readInto b)))
    {D : Bytes} (hi : I s D) :
    ∃ t b, I t (D ++ drained chunk budget s) ∧ b.Reused σ chunk.toNat ∧
      turn.state = (t.readInto b).state ∧
      ((∃ f, (t.readInto b).outcome = .error f ∧ turn.outcome = .error f) ∨
        ((t.readInto b).outcome = .ok none ∨ (t.readInto b).outcome = .ok (some 0)) ∧
          turn.outcome = .ok (drained chunk budget s)) := by
  simp only [readToEnd, Int.not_le.2 hc, if_false, Option.map_eq_some_iff] at h
  simp only [drained, Int.not_le.2 hc, if_false]
  obtain ⟨answer, ha, rfl⟩ := h
  have hloop := gather_end ha
    (fun u ps => I u.1 (D ++ ps.flatten) ∧ u.2.Reused σ chunk.toNat) ?_ ⟨by simpa using hi, .zeroed _⟩
  · obtain ⟨⟨t, b⟩, ⟨hit, hb⟩, hend⟩ := hloop
    refine ⟨t, b, hit, hb, ?_⟩
    cases hend with
    | enough h => cases h
    | failed h hf =>
      cases h
      exact ⟨rfl, .inl ⟨_, drainStep_error hf, rfl⟩⟩
    | done h hd =>
      cases h
      exact ⟨rfl, .inr ⟨drainStep_done hd, rfl⟩⟩
  · rintro ⟨t, b⟩ ps turn p ⟨hit, hb⟩ hs hp
    cases hs
    have hnext := hI t _ b hb.writable hit
    rw [drainStep_piece hp] at hnext
    exact ⟨by simpa [drainStep] using hnext, hb.readInto t⟩

section Keeping

variable (I : Stack σ → Bytes → Prop) {fits : Buffer → Prop} (hfits : ∀ b, b.writable = true → fits b)
  (hI : ∀ t D b, fits b → I t D → I (t.readInto b).state (D ++ handed (t.readInto b)))

include hfits hI

theorem use_keeps {s t : Stack σ} {D front : Bytes} {u : Use} (hu : ∀ b, u = .readInto b → fits b)
    (hi : I s D) (h : s.use u = some (t, front)) : I t (D ++ front) := by
  cases u with
  | readInto b =>
    cases h
    exact hI s D b (hu b rfl) hi
  | readToEnd chunk budget =>
    obtain ⟨turn, ht, he⟩ := Option.map_eq_some_iff.1 h
    cases he
    by_cases hc : 0 < chunk
    · obtain ⟨t, b, hit, hb, hs, hend⟩ := readToEnd_last I hc ht (fun t D b hw => hI t D b (hfits b hw)) hi
      have hnext := hI t _ b (hfits b hb.writable) hit
      have hnone : handed (t.readInto b) = [] := by
        rcases hend with ⟨f, hf, -⟩ | ⟨hd | hd, -⟩ <;> simp [handed, Buffer.handed, *]
      rwa [hnone, List.append_nil, ← hs] at hnext
    · rw [readToEnd_of_nonpos (Int.not_lt.1 hc)] at ht
      cases ht
      simpa [drained, Int.not_lt.1 hc] using hi

theorem useAll_keeps {us : List Use} (hu : ∀ b, .readInto b ∈ us → fits b) {s t : Stack σ} {D E : Bytes}
    (hi : I s D) (h : s.useAll us = some (t, E)) : I t (D ++ E) := by
  induction us generalizing s D E with
  | nil =>
    cases h
    simpa using hi
  | cons u us ih =>
    simp only [useAll] at h
    split at h
    · cases h
    · rename_i s' front hs
      obtain ⟨⟨t', rest⟩, hr, he⟩ := Option.map_eq_some_iff.1 h
      cases he
      have hfirst := use_keeps I hfits hI (fun b hb => hu b (by simp [hb])) hi hs
      simpa using ih (fun b hb => hu b (List.mem_cons_of_mem _ hb)) hfirst hr

end Keeping

end Stack

end StreamGuard
