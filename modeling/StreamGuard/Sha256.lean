import StreamGuard.Bytes

namespace StreamGuard.Sha256

structure Words where
  a : UInt32
  b : UInt32
  c : UInt32
  d : UInt32
  e : UInt32
  f : UInt32
  g : UInt32
  h : UInt32
  deriving DecidableEq, Repr

def Words.add (x y : Words) : Words :=
  ⟨x.a + y.a, x.b + y.b, x.c + y.c, x.d + y.d, x.e + y.e, x.f + y.f, x.g + y.g, x.h + y.h⟩

def Words.toList (x : Words) : List UInt32 :=
  [x.a, x.b, x.c, x.d, x.e, x.f, x.g, x.h]

def initial : Words :=
  ⟨0x6a09e667, 0xbb67ae85, 0x3c6ef372, 0xa54ff53a, 0x510e527f, 0x9b05688c, 0x1f83d9ab, 0x5be0cd19⟩

def roundConstants : List UInt32 := [
  0x428a2f98, 0x71374491, 0xb5c0fbcf, 0xe9b5dba5, 0x3956c25b, 0x59f111f1, 0x923f82a4, 0xab1c5ed5,
  0xd807aa98, 0x12835b01, 0x243185be, 0x550c7dc3, 0x72be5d74, 0x80deb1fe, 0x9bdc06a7, 0xc19bf174,
  0xe49b69c1, 0xefbe4786, 0x0fc19dc6, 0x240ca1cc, 0x2de92c6f, 0x4a7484aa, 0x5cb0a9dc, 0x76f988da,
  0x983e5152, 0xa831c66d, 0xb00327c8, 0xbf597fc7, 0xc6e00bf3, 0xd5a79147, 0x06ca6351, 0x14292967,
  0x27b70a85, 0x2e1b2138, 0x4d2c6dfc, 0x53380d13, 0x650a7354, 0x766a0abb, 0x81c2c92e, 0x92722c85,
  0xa2bfe8a1, 0xa81a664b, 0xc24b8b70, 0xc76c51a3, 0xd192e819, 0xd6990624, 0xf40e3585, 0x106aa070,
  0x19a4c116, 0x1e376c08, 0x2748774c, 0x34b0bcb5, 0x391c0cb3, 0x4ed8aa4a, 0x5b9cca4f, 0x682e6ff3,
  0x748f82ee, 0x78a5636f, 0x84c87814, 0x8cc70208, 0x90befffa, 0xa4506ceb, 0xbef9a3f7, 0xc67178f2]

def rotateRight (x : UInt32) (n : UInt32) : UInt32 :=
  (x >>> n) ||| (x <<< (32 - n))

def smallSigma0 (x : UInt32) : UInt32 := rotateRight x 7 ^^^ rotateRight x 18 ^^^ (x >>> 3)
def smallSigma1 (x : UInt32) : UInt32 := rotateRight x 17 ^^^ rotateRight x 19 ^^^ (x >>> 10)
def bigSigma0 (x : UInt32) : UInt32 := rotateRight x 2 ^^^ rotateRight x 13 ^^^ rotateRight x 22
def bigSigma1 (x : UInt32) : UInt32 := rotateRight x 6 ^^^ rotateRight x 11 ^^^ rotateRight x 25
def choose (x y z : UInt32) : UInt32 := (x &&& y) ^^^ (~~~x &&& z)
def majority (x y z : UInt32) : UInt32 := (x &&& y) ^^^ (x &&& z) ^^^ (y &&& z)

def word (b₀ b₁ b₂ b₃ : UInt8) : UInt32 :=
  (b₀.toUInt32 <<< 24) ||| (b₁.toUInt32 <<< 16) ||| (b₂.toUInt32 <<< 8) ||| b₃.toUInt32

def words : Bytes → List UInt32
  | b₀ :: b₁ :: b₂ :: b₃ :: rest => word b₀ b₁ b₂ b₃ :: words rest
  | _ => []

def schedule (block : Bytes) : Array UInt32 :=
  (List.range 48).foldl
    (fun ws i =>
      ws.push (smallSigma1 (ws.getD (i + 14) 0) + ws.getD (i + 9) 0 +
        smallSigma0 (ws.getD (i + 1) 0) + ws.getD i 0))
    (words block).toArray

def round (v : Words) (k w : UInt32) : Words :=
  let t₁ := v.h + bigSigma1 v.e + choose v.e v.f v.g + k + w
  let t₂ := bigSigma0 v.a + majority v.a v.b v.c
  ⟨t₁ + t₂, v.a, v.b, v.c, v.d + t₁, v.e, v.f, v.g⟩

def compress (chain : Words) (block : Bytes) : Words :=
  chain.add <| (roundConstants.zip (schedule block).toList).foldl (fun v kw => round v kw.1 kw.2) chain

structure Accumulator where
  chain : Words := initial
  pending : Bytes := []
  fed : Nat := 0
  deriving DecidableEq, Repr

namespace Accumulator

def empty : Accumulator := {}

def push (acc : Accumulator) (b : UInt8) : Accumulator :=
  if (acc.fed + 1) % 64 = 0 then
    { chain := compress acc.chain (b :: acc.pending).reverse, pending := [], fed := acc.fed + 1 }
  else
    { acc with pending := b :: acc.pending, fed := acc.fed + 1 }

def update (acc : Accumulator) (bs : Bytes) : Accumulator :=
  bs.foldl push acc

end Accumulator

def bigEndian : Nat → Nat → Bytes
  | 0, _ => []
  | width + 1, n => bigEndian width (n / 256) ++ [UInt8.ofNat n]

def padding (fed : Nat) : Bytes :=
  0x80 :: Bytes.zeros ((119 - fed % 64) % 64) ++ bigEndian 8 (8 * fed)

def Accumulator.finish (acc : Accumulator) : Bytes :=
  (acc.update (padding acc.fed)).chain.toList.flatMap fun w => bigEndian 4 w.toNat

def digest (bs : Bytes) : Bytes :=
  (Accumulator.empty.update bs).finish

def digestSize : Nat := 32

namespace Accumulator

@[simp] theorem update_nil (acc : Accumulator) : acc.update [] = acc := rfl

theorem update_append (acc : Accumulator) (xs ys : Bytes) :
    acc.update (xs ++ ys) = (acc.update xs).update ys := by
  simp [update]

theorem fed_push (acc : Accumulator) (b : UInt8) : (acc.push b).fed = acc.fed + 1 := by
  unfold push
  split <;> rfl

theorem fed_update (acc : Accumulator) (bs : Bytes) : (acc.update bs).fed = acc.fed + bs.length := by
  induction bs generalizing acc with
  | nil => rfl
  | cons b bs ih =>
    rw [show acc.update (b :: bs) = (acc.push b).update bs from rfl, ih, fed_push, List.length_cons]
    omega

theorem update_flatten (acc : Accumulator) (pieces : List Bytes) :
    acc.update pieces.flatten = pieces.foldl update acc := by
  induction pieces generalizing acc with
  | nil => rfl
  | cons p ps ih => simp [update_append, ih]

end Accumulator

theorem length_bigEndian (width n : Nat) : (bigEndian width n).length = width := by
  induction width generalizing n with
  | zero => rfl
  | succ width ih => simp [bigEndian, ih]

theorem length_finish (acc : Accumulator) : acc.finish.length = digestSize := by
  simp [Accumulator.finish, Words.toList, length_bigEndian, digestSize]

theorem length_digest (bs : Bytes) : (digest bs).length = digestSize :=
  length_finish _

theorem padding_fills (fed : Nat) : (fed + (padding fed).length) % 64 = 0 := by
  simp only [padding, List.length_append, List.length_cons, Bytes.length_zeros, length_bigEndian]
  omega

end StreamGuard.Sha256
