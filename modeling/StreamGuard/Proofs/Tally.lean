import StreamGuard.Proofs.Honesty
import StreamGuard.Sources.Script

namespace StreamGuard

def Buffer.room (b : Buffer) : Nat :=
  if b.writable then b.size else 0

theorem Buffer.room_le_size (b : Buffer) : b.room ≤ b.size := by
  unfold room
  split <;> omega

theorem Buffer.Becomes.room {b b' : Buffer} (h : b.Becomes b') : b'.room = b.room := by
  simp only [Buffer.room, h.writable, Buffer.size, h.size]

namespace ByteSource

/-- The source keeps to `I`, and then `P` allows the counts that it tells of a buffer as it leaves it. -/
structure Tells {σ : Type} [ByteSource σ] (I : σ → Prop) (P : Buffer → Int → Prop) : Prop where
  counted : ∀ {s b count}, I s → (readInto s b).outcome = .ok (some count) → P (readInto s b).buffer count
  readInto : ∀ {s} b, I s → I (readInto s b).source
  read : ∀ {s} n, I s → I (read s n).source

end ByteSource

theorem Buffer.receive_room {intake : Intake} {b : Buffer} {chunk : Chunk} {n : Nat}
    (h : (b.receive intake chunk).1 = .ok n) : n ≤ b.room := by
  obtain ⟨front, rfl, rfl, hfit, -⟩ := receive_ok h
  cases hw : b.writable with
  | true => simpa only [room, hw, if_true] using hfit
  | false =>
    simp only [receive, put, hw] at h
    split at h <;> cases h

namespace Origin

variable {σ : Type} [ByteSource σ] {intake : Intake}

def source : Origin σ → σ
  | direct s => s
  | remote _ s => s

theorem copy_room {s : σ} {b : Buffer} {n : Nat} (h : (copy intake s b).outcome = .ok n) :
    n ≤ (copy intake s b).buffer.room := by
  rw [(copy_becomes intake s b).room]
  simp only [copy] at h
  split at h
  · cases h
  · exact Buffer.receive_room h

theorem copy_source (s : σ) (b : Buffer) : (copy intake s b).state = (ByteSource.read s b.items).source := by
  simp only [copy]
  split <;> rfl

variable {I : σ → Prop} {P : Buffer → Int → Prop} (hσ : ByteSource.Tells I P)
  (hP : ∀ (b : Buffer) (n : Nat), n ≤ b.room → P b n)

include hσ hP

theorem supply_tells {o : Origin σ} (ho : I o.source) (b : Buffer) :
    (∀ count, (o.supply intake b).outcome = .ok count → P (o.supply intake b).buffer count) ∧
      I (o.supply intake b).state.source := by
  have hcopy : ∀ (intake : Intake) {s : σ}, I s → I (copy intake s b).state := by
    intro intake s hs
    rw [copy_source]
    exact hσ.read _ hs
  cases o with
  | direct s =>
    simp only [supply, supplyDirect, source]
    by_cases hinto : (ByteSource.api s).readInto = true
    · simp only [hinto, if_true]
      refine ⟨fun count h => ?_, hσ.readInto b ho⟩
      rcases hout : (ByteSource.readInto s b).outcome with f | _ | k
      · simp [hout, countOf] at h
      · simp [hout, countOf] at h
      · simp only [hout, countOf, Except.ok.injEq] at h
        subst h
        exact hσ.counted ho hout
    · by_cases hread : (ByteSource.api s).read = true
      · simp only [hinto, hread, if_true]
        refine ⟨fun count h => ?_, hcopy intake ho⟩
        obtain ⟨n, hn, rfl⟩ := map_eq_ok_iff.1 h
        exact hP _ n (copy_room hn)
      · simp only [hinto, hread]
        refine ⟨fun count h => ?_, ho⟩
        cases h
  | remote r s =>
    simp only [supply, supplyRemote]
    by_cases hatt : r.attached = true
    · simp only [hatt, if_true]
      cases hout : (copy .unchecked s b).outcome with
      | error f =>
        refine ⟨fun count h => ?_, hcopy .unchecked ho⟩
        cases h
      | ok n =>
        refine ⟨fun count h => ?_, hcopy .unchecked ho⟩
        cases h
        exact hP _ n (copy_room hout)
    · simp only [hatt]
      refine ⟨fun count h => ?_, ho⟩
      cases h

end Origin

namespace Stack

variable {σ : Type} [ByteSource σ] {I : σ → Prop} {P : Buffer → Int → Prop}

def Tells (s : Stack σ) (P : Buffer → Int → Prop) : Prop :=
  ∀ bs b count, ((s.after bs).request b).outcome = .ok count → P ((s.after bs).request b).buffer count

namespace Tells

variable {s : Stack σ} (h : s.Tells P)

include h

theorem request {b : Buffer} {count : Int} (ho : (s.request b).outcome = .ok count) :
    P (s.request b).buffer count :=
  h [] b count ho

theorem step (b : Buffer) : (s.request b).state.Tells P :=
  fun bs => h (b :: bs)

end Tells

section

variable (hσ : ByteSource.Tells I P) (hP : ∀ (b : Buffer) (n : Nat), n ≤ b.room → P b n)

include hσ hP

theorem serve_tells {intake : Intake} {layers : List Layer} {o : Origin σ} (ho : I o.source) (b : Buffer) :
    (∀ count, (serve intake layers o b).outcome = .ok count → P (serve intake layers o b).buffer count) ∧
      I (serve intake layers o b).state.origin.source := by
  induction layers generalizing intake with
  | nil => exact Origin.supply_tells hσ hP ho b
  | cons l below ih =>
    cases l with
    | reader r =>
      have hserved := served intake r below o b
      generalize serve intake (.reader r :: below) o b = fill at hserved ⊢
      cases hserved with
      | refused =>
        refine ⟨fun count h => ?_, ho⟩
        cases h
      | empty =>
        refine ⟨fun count h => ?_, ho⟩
        cases h
        exact hP b 0 (Nat.zero_le _)
      | failed =>
        refine ⟨fun count h => ?_, ih.2⟩
        cases h
      | ruled _ _ hcount hrule =>
        refine ⟨fun count h => ?_, ih.2⟩
        subst hrule
        obtain ⟨rfl, hbuf⟩ := Check.rule_ok h
        rw [hbuf]
        exact ih.1 count hcount
    | file a =>
      simp only [serve]
      split
      · exact ih
      · refine ⟨fun count h => ?_, ho⟩
        cases h

theorem tells_of_source (s : Stack σ) (hs : I s.origin.source) : s.Tells P := by
  intro bs
  induction bs generalizing s with
  | nil => exact fun b => (serve_tells hσ hP hs b).1
  | cons b bs ih => exact ih (s.request b).state (serve_tells hσ hP hs b).2

end

end Stack

namespace Script

def Reports (Q : Int → Prop) (s : Script) : Prop :=
  ∀ bytes k, .data bytes (some k) ∈ s.items → Q k

namespace Reports

variable {Q : Int → Prop} {s : Script} {item : Item} {items : List Item} (h : s.Reports Q)
  (hi : s.items = item :: items)

include h hi

theorem tail : Reports Q { s with items } := by
  intro bytes k hk
  apply h bytes k
  rw [hi]
  exact List.mem_cons_of_mem _ hk

theorem rest (bytes : Bytes) (n : Nat) : Reports Q { s with items := rest bytes n items } := by
  by_cases hn : bytes.length ≤ n
  · rw [rest_of_length_le items hn]
    exact h.tail hi
  · rw [rest_of_lt items (by omega)]
    intro bytes k hk
    apply h.tail hi bytes k
    simpa using hk

end Reports

theorem fill_ok {s : Script} {b : Buffer} {front : Bytes} {told count : Int}
    (h : (s.fill b front told).outcome = .ok (some count)) :
    count = told ∧ (s.fill b front told).buffer.writable = true ∧ front.length ≤ (s.fill b front told).buffer.room := by
  rw [(fill_becomes s b front told).writable, (fill_becomes s b front told).room]
  simp only [fill] at h
  split at h
  · rename_i hput
    obtain ⟨hw, hfit, -⟩ := Buffer.put_eq_ok.1 hput
    cases h
    exact ⟨rfl, hw, by simpa only [Buffer.room, hw, if_true] using hfit⟩
  · cases h

theorem tells_of_reports {Q : Int → Prop} {P : Buffer → Int → Prop}
    (hP : ∀ (b : Buffer) (n : Nat), n ≤ b.room → P b n)
    (hQ : ∀ (b : Buffer) (k : Int), b.writable = true → Q k → P b k) : ByteSource.Tells (Reports Q) P where
  counted {s b count} hs h := by
    simp only [ByteSource.readInto, readInto] at h ⊢
    split at h
    · obtain ⟨rfl, -, hroom⟩ := fill_ok h
      exact hP _ 0 hroom
    · rename_i bytes told items hi
      obtain ⟨rfl, hw, hroom⟩ := fill_ok h
      cases told with
      | none => exact hP _ _ hroom
      | some k => exact hQ _ k hw (hs bytes k (by simp [hi]))
    · obtain ⟨rfl, -, hroom⟩ := fill_ok h
      exact hP _ _ hroom
    all_goals cases h
  readInto b hs := by
    simp only [ByteSource.readInto, readInto]
    split
    · simpa only [fill_source] using hs
    · simpa only [fill_source] using hs.rest ‹_› _ _
    · simpa only [fill_source] using hs.tail ‹_›
    all_goals exact hs.tail ‹_›
  read n hs := by
    simp only [ByteSource.read, read]
    split
    · exact hs
    · exact hs.rest ‹_› _ _
    all_goals exact hs.tail ‹_›

end Script

end StreamGuard
