import StreamGuard.Bytes

namespace StreamGuard.Text.Decimal

def digitZeros : List Nat := [
  0x30, 0x660, 0x6f0, 0x7c0, 0x966, 0x9e6, 0xa66, 0xae6, 0xb66, 0xbe6, 0xc66, 0xce6, 0xd66, 0xde6, 0xe50,
  0xed0, 0xf20, 0x1040, 0x1090, 0x17e0, 0x1810, 0x1946, 0x19d0, 0x1a80, 0x1a90, 0x1b50, 0x1bb0, 0x1c40,
  0x1c50, 0xa620, 0xa8d0, 0xa900, 0xa9d0, 0xa9f0, 0xaa50, 0xabf0, 0xff10, 0x104a0, 0x10d30, 0x11066,
  0x110f0, 0x11136, 0x111d0, 0x112f0, 0x11450, 0x114d0, 0x11650, 0x116c0, 0x11730, 0x118e0, 0x11950,
  0x11c50, 0x11d50, 0x11da0, 0x16a60, 0x16ac0, 0x16b50, 0x1d7ce, 0x1d7d8, 0x1d7e2, 0x1d7ec, 0x1d7f6,
  0x1e140, 0x1e2f0, 0x1e950, 0x1fbf0]

def digit? (c : Char) : Option Nat :=
  (digitZeros.find? fun z => z ≤ c.toNat && c.toNat < z + 10).map (c.toNat - ·)

def isBlank (c : Char) : Bool :=
  let n := c.toNat
  n == 0x20 || (0x9 ≤ n && n ≤ 0xd) || n == 0x85 || n == 0xa0 || n == 0x1680 ||
    (0x2000 ≤ n && n ≤ 0x200a) || n == 0x2028 || n == 0x2029 || n == 0x202f || n == 0x205f || n == 0x3000

def trim (cs : List Char) : List Char :=
  ((cs.dropWhile isBlank).reverse.dropWhile isBlank).reverse

structure Run where
  value : Nat
  count : Nat
  rest : List Char

def digits (value count : Nat) : List Char → Option Run
  | [] => some ⟨value, count, []⟩
  | ['_'] => none
  | '_' :: c :: rest =>
    match digit? c with
    | some d => digits (10 * value + d) (count + 1) rest
    | none => none
  | c :: rest =>
    match digit? c with
    | some d => digits (10 * value + d) (count + 1) rest
    | none => some ⟨value, count, c :: rest⟩

def run : List Char → Option Run
  | [] => none
  | c :: rest =>
    match digit? c with
    | some d => digits d 1 rest
    | none => none

def sign : List Char → Int × List Char
  | '-' :: rest => (-1, rest)
  | '+' :: rest => (1, rest)
  | cs => (1, cs)

def digitLimit : Nat := 4300

inductive Reading
  | number (n : Int)
  | malformed
  | tooLong (digits : Nat)

def read (s : String) : Reading :=
  let (sgn, cs) := sign (trim s.toList)
  match run cs with
  | none => .malformed
  | some r =>
    if digitLimit < r.count then .tooLong r.count
    else if r.rest.isEmpty then .number (sgn * r.value)
    else .malformed

theorem digit?_lt {c : Char} {d : Nat} (h : digit? c = some d) : d < 10 := by
  obtain ⟨z, hz, rfl⟩ := Option.map_eq_some_iff.1 h
  have := List.find?_some hz
  simp only [Bool.and_eq_true, decide_eq_true_eq] at this
  omega

end StreamGuard.Text.Decimal
