namespace StreamGuard

abbrev Bytes := List UInt8

namespace Bytes

/-- The bytes before index `k`. An index past the end is the end, a negative one counts back from it. -/
def upTo (bs : Bytes) (k : Int) : Bytes :=
  if 0 ≤ k then bs.take k.toNat else bs.take (bs.length - k.natAbs)

def overwrite (bs front : Bytes) : Bytes :=
  front ++ bs.drop front.length

def zeros (n : Nat) : Bytes :=
  List.replicate n 0

@[simp] theorem upTo_natCast (bs : Bytes) (k : Nat) : bs.upTo k = bs.take k := by
  simp [upTo]

@[simp] theorem upTo_zero (bs : Bytes) : bs.upTo 0 = [] := by
  simp [upTo]

theorem upTo_prefix (bs : Bytes) (k : Int) : bs.upTo k <+: bs := by
  unfold upTo
  split <;> exact List.take_prefix _ _

theorem length_overwrite (bs front : Bytes) (h : front.length ≤ bs.length) :
    (bs.overwrite front).length = bs.length := by
  simp only [overwrite, List.length_append, List.length_drop]
  omega

@[simp] theorem take_overwrite (bs front : Bytes) :
    (bs.overwrite front).take front.length = front := by
  simp [overwrite]

@[simp] theorem drop_overwrite (bs front : Bytes) :
    (bs.overwrite front).drop front.length = bs.drop front.length := by
  simp [overwrite]

@[simp] theorem overwrite_nil (bs : Bytes) : bs.overwrite [] = bs := by
  simp [overwrite]

@[simp] theorem length_zeros (n : Nat) : (zeros n).length = n := by
  simp [zeros]

end Bytes

end StreamGuard
