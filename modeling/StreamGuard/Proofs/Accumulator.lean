import StreamGuard.Proofs.Chronicle
import StreamGuard.Proofs.Verdict
import StreamGuard.Sources.Script

namespace StreamGuard

inductive DigestCheck.Rules (e D : Bytes) (b : Buffer) : Int → Ruling → Prop
  | piece {count : Int} (hc : count ≠ 0) :
      Rules e D b count ⟨.ok count, b, .digest (Demand.hashed e (D ++ b.bytes.upTo count)), .streaming, []⟩
  | verified (he : Sha256.digest D = e) :
      Rules e D b 0 ⟨.ok 0, b, .digest { expected := e, hashing := none }, .succeeded,
        [.finalized, .log (.digestVerified .sha256 (Sha256.digest D))]⟩
  | mismatched (he : Sha256.digest D ≠ e) :
      Rules e D b 0 ⟨.error (.digestMismatch (Sha256.digest D) e), b, .digest { expected := e, hashing := none },
        .failed, [.finalized, .log (.digestMismatch .sha256 (Sha256.digest D) e)]⟩

theorem DigestCheck.rules (e D : Bytes) (count : Int) (b : Buffer) :
    Rules e D b count ((Demand.hashed e D).rule count b) := by
  have hacc := Demand.hashing_hashed e D
  by_cases hc : count = 0
  · subst hc
    by_cases he : Sha256.digest D = e
    · rw [rule_match hacc he]
      exact .verified he
    · rw [rule_mismatch hacc he]
      exact .mismatched he
  · rw [rule_piece hacc hc, ← Sha256.Accumulator.update_append]
    exact .piece hc

theorem DigestCheck.rules_of_check {c : Check} {e D : Bytes} (hc : c = .digest (Demand.hashed e D)) {count : Int}
    {b : Buffer} {ruling : Ruling} (h : c.rule count b = ruling) : Rules e D b count ruling := by
  subst hc h
  exact rules e D count b

structure Reader.Hashing (r : Reader) (expected D : Bytes) : Prop where
  streaming : r.state = .streaming → r.check = .digest (Demand.hashed expected D)
  ended : r.state ≠ .streaming → r.check = .digest { expected, hashing := none }

namespace Reader.Hashing

variable {r : Reader} {expected D : Bytes}

theorem fresh (expected : Bytes) : (Reader.digest expected).Hashing expected [] where
  streaming _ := rfl
  ended h := absurd rfl h

theorem after (h : r.Hashing expected D) (hs : r.state = .streaming) (f : Failure) :
    (r.after f).Hashing expected D := by
  by_cases hf : f.endsStream = true
  · rw [after_of_endsStream hf]
    constructor
    · intro h
      cases h
    · intro _
      simp only [fail, h.streaming hs]
      rfl
  · rw [after_of_not_endsStream (by simpa using hf)]
    exact h

end Reader.Hashing

namespace Stack

variable {σ : Type}

def hashing? (s : Stack σ) : Option Sha256.Accumulator :=
  match s.layers with
  | .reader ⟨.digest d, _, _⟩ :: _ => d.hashing
  | _ => none

theorem hashing?_of_top? {s : Stack σ} {r : Reader} {d : DigestCheck} (hr : s.top? = some r)
    (hd : r.check = .digest d) : s.hashing? = d.hashing := by
  obtain ⟨check, state, closed⟩ := r
  subst hd
  rw [hashing?, layers_of_top? hr]

variable [ByteSource σ] {s : Stack σ} {r : Reader} {expected D : Bytes}

theorem touch_hashing (hr : s.top? = some r) (h : r.Hashing expected D) (a : Touch) :
    ∃ r', (s.touch a).stack.top? = some r' ∧ r'.Hashing expected (D ++ (s.touch a).handed) := by
  have htouch := touched hr a
  generalize s.touch a = x at htouch ⊢
  cases htouch with
  | refused | empty | shut =>
    rw [List.append_nil]
    exact ⟨r, hr, h⟩
  | failed hf =>
    rw [List.append_nil]
    exact ⟨_, rfl, h.after (Reader.streaming_of_refusal hf) _⟩
  | @ruled b count ruling hf _ _ hrule =>
    refine ⟨_, rfl, ?_⟩
    cases DigestCheck.rules_of_check (h.streaming (Reader.streaming_of_refusal hf)) hrule with
    | piece => exact ⟨fun _ => rfl, fun hs => absurd rfl hs⟩
    | verified | mismatched =>
      constructor
      · intro hs
        cases hs
      · intro _
        rfl
  | closing =>
    rw [List.append_nil]
    exact ⟨_, rfl, h.streaming, h.ended⟩

theorem chronicle_hashing (base : Stack σ) (expected : Bytes) (as : List Touch) :
    ∃ r, ((base.push (.reader (.digest expected))).chronicle as).stack.top? = some r ∧
      r.Hashing expected ((base.push (.reader (.digest expected))).chronicle as).handed := by
  induction as using List.reverseRecOn with
  | nil => exact ⟨.digest expected, rfl, .fresh expected⟩
  | append_singleton as a ih =>
    obtain ⟨r, hr, h⟩ := ih
    rw [chronicle_concat]
    exact touch_hashing hr h a

section

variable (hr : s.top? = some r) (h : r.Hashing expected D)

include hr h

omit [ByteSource σ] in
theorem hashing?_isSome_iff : s.hashing?.isSome = true ↔ s.state? = some .streaming := by
  rw [state?_of_top? hr]
  by_cases hs : r.state = .streaming
  · rw [hashing?_of_top? hr (h.streaming hs)]
    simp [hs, Demand.hashed]
  · rw [hashing?_of_top? hr (h.ended hs)]
    simp [hs]

omit [ByteSource σ] in
theorem eq_update_of_hashing? {acc : Sha256.Accumulator} (hacc : s.hashing? = some acc) :
    acc = Sha256.Accumulator.empty.update D := by
  by_cases hs : r.state = .streaming
  · rw [hashing?_of_top? hr (h.streaming hs)] at hacc
    exact (Option.some.inj hacc).symm
  · rw [hashing?_of_top? hr (h.ended hs)] at hacc
    cases hacc

theorem hashing?_ruled (hf : r.refusal = none) {b : Buffer} (hb : b.size ≠ 0) {k : Int}
    (ho : (s.below.request b).outcome = .ok k) :
    ∃ acc, s.hashing? = some acc ∧
      (k ≠ 0 → (s.request b).state.hashing? = some (acc.update (s.touch (.request b)).handed)) ∧
      (k = 0 → (s.request b).state.hashing? = none) := by
  have hcheck := h.streaming (Reader.streaming_of_refusal hf)
  have htouch := touched hr (.request b)
  refine ⟨_, hashing?_of_top? hr hcheck, ?_⟩
  change (k ≠ 0 → (s.touch (.request b)).stack.hashing? = _) ∧ (k = 0 → (s.touch (.request b)).stack.hashing? = none)
  generalize s.touch (.request b) = x at htouch ⊢
  cases htouch with
  | refused hf' =>
    rw [hf] at hf'
    cases hf'
  | empty _ hb' => exact absurd hb' hb
  | failed _ _ ho' =>
    rw [ho] at ho'
    cases ho'
  | ruled _ _ ho' hrule =>
    cases ho.symm.trans ho'
    cases DigestCheck.rules_of_check hcheck hrule with
    | piece hc =>
      constructor
      · intro _
        exact congrArg some (Sha256.Accumulator.update_append _ _ _)
      · intro hz
        exact absurd hz hc
    | verified | mismatched =>
      constructor
      · intro hz
        exact absurd rfl hz
      · intro _
        rfl

theorem finalized_mem_iff (b : Buffer) :
    .finalized ∈ s.remarks b ↔
      s.state? ≠ some .succeeded ∧ (s.request b).state.state? = some .succeeded ∨
        ∃ k c, (s.below.request b).outcome = .ok k ∧ (s.request b).outcome = .error (.digestMismatch c expected) := by
  have htouch := touched hr (.request b)
  change .finalized ∈ (s.touch (.request b)).own ↔
    _ ∧ (s.touch (.request b)).stack.state? = some .succeeded ∨ _
  generalize s.touch (.request b) = x at htouch ⊢
  rw [state?_of_top? hr]
  cases htouch with
  | @refused _ f hf hout =>
    have hkind := Reader.refusal_readerClosed hf
    rw [hout, state?_of_top? hr]
    refine iff_of_false (by simp) ?_
    rintro (⟨hne, he⟩ | ⟨_, c, -, he⟩)
    · exact hne he
    · cases he
      cases hkind
  | empty hf hb hout =>
    rw [hout, state?_of_top? hr]
    refine iff_of_false (by simp) ?_
    rintro (⟨hne, he⟩ | ⟨_, c, -, he⟩)
    · exact hne he
    · cases he
  | @failed _ f hf hb ho hout =>
    have hstate : r.state ≠ .succeeded := by
      rw [Reader.streaming_of_refusal hf]
      decide
    refine iff_of_false (by simp) ?_
    rintro (⟨-, he⟩ | ⟨_, c, hk, -⟩)
    · exact Reader.not_succeeded_after hstate (Option.some.inj he)
    · rw [ho] at hk
      cases hk
  | @ruled _ count _ hf hb ho hrule hout =>
    rw [hout, ho]
    cases DigestCheck.rules_of_check (h.streaming (Reader.streaming_of_refusal hf)) hrule with
    | piece hc =>
      refine iff_of_false (by simp) ?_
      rintro (⟨-, he⟩ | ⟨_, c, -, he⟩)
      · cases he
      · cases he
    | verified he =>
      refine iff_of_true (by simp) (.inl ⟨?_, rfl⟩)
      rw [Reader.streaming_of_refusal hf]
      decide
    | mismatched he => exact iff_of_true (by simp) (.inr ⟨0, Sha256.digest D, rfl, rfl⟩)

theorem count_finalized_le (b : Buffer) : (s.remarks b).count .finalized ≤ 1 := by
  have htouch := touched hr (.request b)
  change (s.touch (.request b)).own.count .finalized ≤ 1
  generalize s.touch (.request b) = x at htouch ⊢
  cases htouch with
  | refused | empty | failed => simp
  | ruled hf _ _ hrule =>
    cases DigestCheck.rules_of_check (h.streaming (Reader.streaming_of_refusal hf)) hrule with
    | piece => simp
    | verified | mismatched => simp

end

theorem own_of_close (hr : s.top? = some r) : (s.touch .close).own = [] := by
  have htouch := touched hr .close
  generalize s.touch .close = x at htouch ⊢
  cases htouch <;> rfl

theorem count_finalized_chronicle (base : Stack σ) (expected : Bytes) (as : List Touch) :
    ((base.push (.reader (.digest expected))).chronicle as).own.count .finalized ≤ 1 := by
  obtain ⟨r, hr, -⟩ := chronicle_hashing base expected as
  by_cases hs : r.state = .streaming
  · rw [own_of_streaming (top?_push base _) hr hs]
    simp
  · obtain ⟨pre, b, h⟩ := exists_endsAt (top?_push base _) rfl hr hs
    obtain ⟨q, hq, hhash⟩ := chronicle_hashing base expected pre
    rw [(h.settled (top?_push base _)).1]
    exact count_finalized_le hq hhash b

theorem accumulator_finalized_once (base : Stack σ) (expected : Bytes) :
    let s := base.push (.reader (.digest expected))
    (∀ as, let x := s.chronicle as
      (x.stack.hashing?.isSome = true ↔ x.stack.state? = some .streaming) ∧ x.own.count .finalized ≤ 1 ∧
        (∀ b, .finalized ∈ x.stack.remarks b ↔
          x.stack.state? ≠ some .succeeded ∧ (x.stack.request b).state.state? = some .succeeded ∨
            ∃ k c, (x.stack.below.request b).outcome = .ok k ∧
              (x.stack.request b).outcome = .error (.digestMismatch c expected)) ∧
        (x.stack.touch .close).own = [] ∧
        ∀ r b k, x.stack.top? = some r → r.refusal = none → b.size ≠ 0 →
          (x.stack.below.request b).outcome = .ok k → ∃ acc, x.stack.hashing? = some acc ∧
            (k ≠ 0 → (x.stack.request b).state.hashing? =
              some (acc.update (x.stack.touch (.request b)).handed)) ∧
            (k = 0 → (x.stack.request b).state.hashing? = none)) ∧
      ∀ ms turns t, play move s ms = some (turns, t) →
        Chronicled s (fun _ => True) (turns.flatMap Turn.events) t := by
  intro s
  constructor
  · intro as x
    obtain ⟨r, hr, h⟩ := chronicle_hashing base expected as
    refine ⟨hashing?_isSome_iff hr h, count_finalized_chronicle base expected as, finalized_mem_iff hr h,
      own_of_close hr, ?_⟩
    intro r' b k hr' hf hb ho
    cases hr.symm.trans hr'
    exact hashing?_ruled hr h hf hb ho
  · intro ms turns t hp
    exact .of_reaches (play_reaches (by simp [s, push]) hp)

-- The source counts a byte too few, is busy once, and then goes on to its end.
theorem accumulator_finalized_once_busy :
    let s : Stack Script := push
      ⟨[], .direct
        { api := {}, items := [.data [97, 0] (some (-1)), .failure (.raised .runtime "busy"), .data [98] none] }⟩
      (.reader (.digest (Sha256.digest [97, 98])))
    let read : Touch := .request (.zeroed 2)
    (s.chronicle [read, read, read, read, read, .close]).own.count .finalized = 1 ∧
      .finalized ∈ (s.chronicle [read, read, read]).stack.remarks (.zeroed 2) ∧
      ∃ acc, (s.chronicle [read, read]).stack.hashing? = some acc ∧
        ((s.chronicle [read, read]).stack.request (.zeroed 2)).state.hashing? = some (acc.update [98]) := by
  intro s read
  obtain ⟨hall, -⟩ := accumulator_finalized_once (σ := Script) ⟨[], .direct
    { api := {}, items := [.data [97, 0] (some (-1)), .failure (.raised .runtime "busy"), .data [98] none] }⟩
    (Sha256.digest [97, 98])
  refine ⟨?_, ?_, ?_⟩
  · obtain ⟨-, hcount, -⟩ := hall [read, read, read, read, read, .close]
    refine Nat.le_antisymm hcount ?_
    decide +kernel
  · obtain ⟨-, -, hiff, -⟩ := hall [read, read, read]
    refine (hiff (.zeroed 2)).2 (.inl ?_)
    decide +kernel
  · obtain ⟨-, -, -, -, hruled⟩ := hall [read, read]
    obtain ⟨acc, hacc, hupdate, -⟩ := hruled _ (.zeroed 2) 1 rfl rfl (by decide) rfl
    exact ⟨acc, hacc, hupdate (by decide)⟩

end Stack

end StreamGuard
