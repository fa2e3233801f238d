import StreamGuard.Failure

/-!
The caller's buffer: contiguous bytes seen as items of one size, which may be read-only. A view that skips bytes is
no buffer here. Writing goes to the front of the buffer and either fits or fails.
-/

namespace StreamGuard

structure Buffer where
  bytes : Bytes
  itemSize : Nat := 1
  writable : Bool := true
  deriving DecidableEq, Repr

inductive Chunk
  | bytes (bs : Bytes)
  | text (s : String)
  | nothing
  deriving DecidableEq, Repr

namespace Chunk

def content : Chunk → Except Failure Bytes
  | bytes bs => .ok bs
  | text _ => .error .encodingMissing
  | nothing => .error .notConvertible

end Chunk

inductive Intake
  | checked
  | unchecked
  deriving DecidableEq, Repr

namespace Buffer

def zeroed (n : Nat) : Buffer := { bytes := .zeros n }

def size (b : Buffer) : Nat := b.bytes.length

def items (b : Buffer) : Nat := b.bytes.length / b.itemSize

/-- `b'` is what may have become of `b` in other hands. Only a writable buffer can have other bytes, or more or fewer
of them. -/
structure Turns (b b' : Buffer) : Prop where
  itemSize : b'.itemSize = b.itemSize
  writable : b'.writable = b.writable
  frozen : b.writable = false → b' = b

structure Becomes (b b' : Buffer) : Prop extends b.Turns b' where
  size : b'.bytes.length = b.bytes.length

def put (b : Buffer) (front : Bytes) : Except Failure Buffer :=
  if !b.writable then .error .readOnlyMemory
  else if front.length ≤ b.size then .ok { b with bytes := b.bytes.overwrite front }
  else .error .sliceMismatch

def indexLimit : Int := 9223372036854775807

def isIndex (n : Int) : Bool :=
  -indexLimit - 1 ≤ n && n ≤ indexLimit

def byteLimit : Int := indexLimit - 33

def memoryLimit : Int := 68719476736

def sizeFault (outOfRange negative : Failure) (size : Int) : Option Failure :=
  if !isIndex size then some outOfRange
  else if size < 0 then some negative
  else if byteLimit < size then some .tooManyBytes
  else if memoryLimit < size then some .outOfMemory
  else none

/-- Fills the first `count` bytes with zeros. The zeros are made before the buffer is looked at, so a count that
makes no string of bytes is told apart from one that only does not fit in the buffer. -/
def clear (b : Buffer) (count : Int) : Except Failure Buffer :=
  if 0 ≤ count ∧ count ≤ b.size then
    if b.writable then .ok { b with bytes := b.bytes.overwrite (.zeros count.toNat) }
    else .error .readOnlyMemory
  else
    match sizeFault .countOverflow .negativeCount count with
    | some f => .error f
    | none => .error (if b.writable then .sliceMismatch else .readOnlyMemory)

def receive (intake : Intake) (b : Buffer) : Chunk → Except Failure Nat × Buffer
  | .nothing => (.error .noLength, b)
  | .text s =>
    if intake = .checked ∧ b.items < s.length then (.error (.overlong s.length b.items), b)
    else (.error (if b.writable then .notBytes else .readOnlyMemory), b)
  | .bytes bs =>
    if intake = .checked ∧ b.items < bs.length then (.error (.overlong bs.length b.items), b)
    else
      match b.put bs with
      | .ok b' => (.ok bs.length, b')
      | .error f => (.error f, b)

@[simp] theorem size_zeroed (n : Nat) : (zeroed n).size = n := by
  simp [zeroed, size]

@[simp] theorem items_zeroed (n : Nat) : (zeroed n).items = n := by
  simp [zeroed, items]

theorem items_le_size (b : Buffer) : b.items ≤ b.size :=
  Nat.div_le_self _ _

namespace Turns

theorem refl (b : Buffer) : b.Turns b := ⟨rfl, rfl, fun _ => rfl⟩

theorem trans {a b c : Buffer} (h : a.Turns b) (k : b.Turns c) : a.Turns c where
  itemSize := k.itemSize.trans h.itemSize
  writable := k.writable.trans h.writable
  frozen ha := by rw [k.frozen (h.writable.trans ha), h.frozen ha]

end Turns

namespace Becomes

theorem refl (b : Buffer) : b.Becomes b := ⟨.refl b, rfl⟩

theorem trans {a b c : Buffer} (h : a.Becomes b) (k : b.Becomes c) : a.Becomes c :=
  ⟨h.toTurns.trans k.toTurns, k.size.trans h.size⟩

theorem overwrite {b : Buffer} {front : Bytes} (hw : b.writable = true) (hl : front.length ≤ b.size) :
    b.Becomes { b with bytes := b.bytes.overwrite front } :=
  ⟨⟨rfl, rfl, fun hf => by simp [hw] at hf⟩, Bytes.length_overwrite _ _ hl⟩

theorem items {b b' : Buffer} (h : b.Becomes b') : b'.items = b.items := by
  simp [Buffer.items, h.size, h.itemSize]

end Becomes

theorem put_eq_ok {b b' : Buffer} {front : Bytes} :
    b.put front = .ok b' ↔
      b.writable = true ∧ front.length ≤ b.size ∧ b' = { b with bytes := b.bytes.overwrite front } := by
  unfold put
  cases b.writable <;> by_cases h : front.length ≤ b.size <;> simp [h, eq_comm]

theorem put_becomes {b b' : Buffer} {front : Bytes} (h : b.put front = .ok b') : b.Becomes b' := by
  obtain ⟨hw, hl, rfl⟩ := put_eq_ok.1 h
  exact .overwrite hw hl

theorem clear_eq_ok {b b' : Buffer} {count : Int} :
    b.clear count = .ok b' ↔
      b.writable = true ∧ 0 ≤ count ∧ count ≤ b.size ∧
        b' = { b with bytes := b.bytes.overwrite (.zeros count.toNat) } := by
  unfold clear
  by_cases hc : 0 ≤ count ∧ count ≤ b.size
  · cases hw : b.writable <;> simp [hc, eq_comm]
  · simp only [hc, if_false]
    split
    all_goals
      simp only [reduceCtorEq, false_iff]
      exact fun h => hc ⟨h.2.1, h.2.2.1⟩

theorem clear_becomes {b b' : Buffer} {count : Int} (h : b.clear count = .ok b') : b.Becomes b' := by
  obtain ⟨hw, h0, hc, rfl⟩ := clear_eq_ok.1 h
  refine .overwrite hw ?_
  simp only [Bytes.length_zeros, size] at hc ⊢
  omega

theorem receive_becomes (intake : Intake) (b : Buffer) (c : Chunk) : b.Becomes (b.receive intake c).2 := by
  cases c with
  | nothing => exact .refl b
  | text s =>
    simp only [receive]
    split <;> exact .refl b
  | bytes bs =>
    simp only [receive]
    split
    · exact .refl b
    · split
      · exact put_becomes ‹_›
      · exact .refl b

end Buffer

end StreamGuard
