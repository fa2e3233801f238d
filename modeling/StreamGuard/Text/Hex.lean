import StreamGuard.Bytes

namespace StreamGuard.Text.Hex

def digit (n : Nat) : Char :=
  if n < 10 then Char.ofNat (48 + n) else Char.ofNat (87 + n)

def value? (c : Char) : Option Nat :=
  if '0' ≤ c ∧ c ≤ '9' then some (c.toNat - 48)
  else if 'a' ≤ c ∧ c ≤ 'f' then some (c.toNat - 87)
  else if 'A' ≤ c ∧ c ≤ 'F' then some (c.toNat - 55)
  else none

def byteDigits (b : UInt8) : List Char :=
  [digit (b.toNat / 16), digit (b.toNat % 16)]

def encode (bs : Bytes) : String :=
  String.ofList (bs.flatMap byteDigits)

def decodeDigits : List Char → Option Bytes
  | [] => some []
  | [_] => none
  | a :: b :: rest => do
    let hi ← value? a
    let lo ← value? b
    let bs ← decodeDigits rest
    return UInt8.ofNat (16 * hi + lo) :: bs

def decode? (s : String) : Option Bytes :=
  decodeDigits s.toList

theorem value?_digit {n : Nat} (h : n < 16) : value? (digit n) = some n := by
  revert n
  decide

theorem decodeDigits_encode (bs : Bytes) : decodeDigits (bs.flatMap byteDigits) = some bs := by
  induction bs with
  | nil => rfl
  | cons b bs ih =>
    have hb : b.toNat < 256 := b.toNat_lt
    have hsum : 16 * (b.toNat / 16) + b.toNat % 16 = b.toNat := Nat.div_add_mod _ _
    simp [-UInt8.ofNat_add, -UInt8.ofNat_mul, List.flatMap_cons, byteDigits, decodeDigits, ih, hsum,
      value?_digit (show b.toNat / 16 < 16 by omega), value?_digit (show b.toNat % 16 < 16 by omega)]

theorem decode?_encode (bs : Bytes) : decode? (encode bs) = some bs := by
  simp [decode?, encode, decodeDigits_encode]

end StreamGuard.Text.Hex
