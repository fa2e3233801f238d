import StreamGuard.Proofs.Request
import StreamGuard.Sources.Memory

namespace StreamGuard

/-- If the fill of `b` names a count, that many bytes were put at the front of `b`, and the rest of `b` stayed. -/
def Fill.Honest {τ : Type} (fill : Fill τ Int) (b : Buffer) : Prop :=
  ∀ count, fill.outcome = .ok count → ∃ front : Bytes, count = front.length ∧ front.length ≤ b.size ∧
    fill.buffer = { b with bytes := b.bytes.overwrite front }

def ByteSource.Truthful (σ : Type) [ByteSource σ] : Prop :=
  ∀ (s : σ) (b : Buffer) (count : Int), b.writable = true → (readInto s b).outcome = .ok (some count) →
    ∃ front : Bytes, count = front.length ∧ front.length ≤ b.size ∧
      (readInto s b).buffer = { b with bytes := b.bytes.overwrite front }

theorem Buffer.receive_ok {intake : Intake} {b : Buffer} {chunk : Chunk} {n : Nat}
    (h : (b.receive intake chunk).1 = .ok n) :
    ∃ front : Bytes, chunk = .bytes front ∧ n = front.length ∧ front.length ≤ b.size ∧
      (b.receive intake chunk).2 = { b with bytes := b.bytes.overwrite front } := by
  cases chunk with
  | nothing => simp [receive] at h
  | text s =>
    simp only [receive] at h
    split at h <;> cases h
  | bytes bs =>
    simp only [receive] at h ⊢
    split at h
    · cases h
    · rename_i hover
      simp only [hover, if_false]
      cases hp : b.put bs with
      | error f => simp [hp] at h
      | ok b' =>
        simp only [hp, Except.ok.injEq] at h
        obtain ⟨-, hfit, rfl⟩ := put_eq_ok.1 hp
        exact ⟨bs, rfl, h.symm, hfit, rfl⟩

namespace Origin

variable {σ : Type} [ByteSource σ]

theorem copy_ok {intake : Intake} {s : σ} {b : Buffer} {n : Nat} (h : (copy intake s b).outcome = .ok n) :
    ∃ front : Bytes, n = front.length ∧ front.length ≤ b.size ∧
      (copy intake s b).buffer = { b with bytes := b.bytes.overwrite front } := by
  simp only [copy] at h ⊢
  split at h
  · cases h
  · rename_i chunk hc
    obtain ⟨front, -, hn, hfit, hb⟩ := Buffer.receive_ok h
    exact ⟨front, hn, hfit, hb⟩

theorem supply_honest (ht : ByteSource.Truthful σ) (intake : Intake) (o : Origin σ) {b : Buffer}
    (hb : b.writable = true) : (o.supply intake b).Honest b := by
  intro count h
  cases o with
  | direct s =>
    simp only [supply, supplyDirect] at h ⊢
    split at h
    · rename_i hapi
      simp only [hapi, if_true]
      cases ho : (ByteSource.readInto s b).outcome with
      | error f => simp [countOf, ho] at h
      | ok answer =>
        cases answer with
        | none => simp [countOf, ho] at h
        | some k =>
          simp only [countOf, ho, Except.ok.injEq] at h
          subst h
          exact ht s b k hb ho
    · rename_i hapi
      simp only [hapi]
      split at h
      · rename_i hread
        simp only [hread, if_true]
        cases ho : (copy intake s b).outcome with
        | error f => simp [ho, Except.map] at h
        | ok n =>
          simp only [ho, Except.map, Except.ok.injEq] at h
          obtain ⟨front, rfl, hfit, hbuf⟩ := copy_ok ho
          exact ⟨front, h.symm, hfit, hbuf⟩
      · cases h
  | remote r s =>
    simp only [supply, supplyRemote] at h ⊢
    split at h
    · rename_i hatt
      simp only [hatt, if_true]
      cases ho : (copy .unchecked s b).outcome with
      | error f => simp [ho] at h
      | ok n =>
        simp only [ho, Except.ok.injEq] at h ⊢
        obtain ⟨front, rfl, hfit, hbuf⟩ := copy_ok ho
        exact ⟨front, h.symm, hfit, hbuf⟩
    · cases h

end Origin

namespace Stack

variable {σ : Type} [ByteSource σ]

theorem serve_honest_of_supply {layers : List Layer} {o : Origin σ} {b : Buffer}
    (ho : ∀ intake, (o.supply intake b).Honest b) (intake : Intake) : (serve intake layers o b).Honest b := by
  induction layers generalizing intake with
  | nil => exact ho intake
  | cons l below ih =>
    cases l with
    | reader r =>
      have hserved := served intake r below o b
      generalize serve intake (.reader r :: below) o b = fill at hserved ⊢
      cases hserved with
      | refused | failed =>
        intro _ h
        cases h
      | empty =>
        rintro _ ⟨⟩
        exact ⟨[], rfl, Nat.zero_le _, by simp⟩
      | ruled hr hs ho hrule =>
        subst hrule
        intro count h
        obtain ⟨rfl, hbuf⟩ := Check.rule_ok h
        simp only [hbuf]
        exact ih .checked count ho
    | file a =>
      simp only [serve]
      split
      · exact ih .unchecked
      · intro _ h
        cases h

theorem serve_honest (ht : ByteSource.Truthful σ) (intake : Intake) (layers : List Layer) (o : Origin σ)
    {b : Buffer} (hb : b.writable = true) : (serve intake layers o b).Honest b :=
  serve_honest_of_supply (fun intake => o.supply_honest ht intake hb) intake

def after (s : Stack σ) (bs : List Buffer) : Stack σ :=
  bs.foldl (fun t b => (t.request b).state) s

def Honest (s : Stack σ) : Prop :=
  ∀ bs b, (∀ x ∈ bs, x.writable = true) → b.writable = true → ((s.after bs).request b).Honest b

theorem honest_of_truthful (ht : ByteSource.Truthful σ) (s : Stack σ) : s.Honest :=
  fun _ _ _ hb => serve_honest ht .checked _ _ hb

theorem Honest.request {s : Stack σ} (h : s.Honest) {b : Buffer} (hb : b.writable = true) :
    (s.request b).Honest b :=
  h [] b (by simp) hb

theorem Honest.step {s : Stack σ} (h : s.Honest) {b : Buffer} (hb : b.writable = true) :
    (s.request b).state.Honest := by
  intro bs c hbs hc
  exact h (b :: bs) c (by simpa [hb] using hbs) hc

end Stack

theorem Memory.truthful : ByteSource.Truthful Memory := by
  intro m b count hb h
  simp only [ByteSource.readInto, readInto, hb, Bool.not_true, Bool.false_eq_true, if_false] at h ⊢
  split at h
  · cases h
  · rename_i front hfront
    have htake : front = m.rest.take b.size := eq_of_answer hfront
    refine ⟨front, ?_, ?_, rfl⟩
    · simpa using h.symm
    · rw [htake, List.length_take]
      omega

end StreamGuard
