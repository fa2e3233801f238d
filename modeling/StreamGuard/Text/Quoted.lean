import StreamGuard.Text.Hex
import StreamGuard.Text.Printable

namespace StreamGuard.Text.Quoted

def mark (cs : List Char) : Char :=
  if cs.contains '\'' && !cs.contains '"' then '"' else '\''

def hexDigits : Nat → Nat → List Char
  | 0, _ => []
  | width + 1, n => hexDigits width (n / 16) ++ [Hex.digit (n % 16)]

def escape? (q c : Char) : Option (List Char) :=
  if c = q ∨ c = '\\' then some ['\\', c]
  else if c = '\t' then some ['\\', 't']
  else if c = '\n' then some ['\\', 'n']
  else if c = '\r' then some ['\\', 'r']
  else none

def textChar (q c : Char) : List Char :=
  match escape? q c with
  | some cs => cs
  | none =>
    if Printable.isPrintable c then [c]
    else if c.toNat < 0x100 then '\\' :: 'x' :: hexDigits 2 c.toNat
    else if c.toNat < 0x10000 then '\\' :: 'u' :: hexDigits 4 c.toNat
    else '\\' :: 'U' :: hexDigits 8 c.toNat

def text (s : String) : String :=
  let cs := s.toList
  let q := mark cs
  String.ofList (q :: cs.flatMap (textChar q) ++ [q])

def byteChar (q : Char) (b : UInt8) : List Char :=
  let c := Char.ofNat b.toNat
  match escape? q c with
  | some cs => cs
  | none =>
    if 0x20 ≤ b.toNat ∧ b.toNat < 0x7f then [c] else '\\' :: 'x' :: hexDigits 2 b.toNat

def bytes (bs : Bytes) : String :=
  let q := mark (bs.map fun b => Char.ofNat b.toNat)
  String.ofList ('b' :: q :: bs.flatMap (byteChar q) ++ [q])

@[simp] theorem length_hexDigits (width n : Nat) : (hexDigits width n).length = width := by
  induction width generalizing n with
  | zero => rfl
  | succ width ih => simp [hexDigits, ih]

theorem bytes_head (bs : Bytes) : (bytes bs).toList.head? = some 'b' := by
  simp [bytes]

end StreamGuard.Text.Quoted
