import StreamGuard.Buffer
import StreamGuard.Sha256

namespace StreamGuard

inductive DigestValue
  | bytes (bs : Bytes)
  | digestOf (content : Bytes)
  | list (ns : List Int)
  | zeros (n : Int)
  | text (s : String)
  | missing
  deriving DecidableEq, Repr

namespace DigestValue

def ofInts (ns : List Int) : Except Failure Bytes :=
  if ns.all fun n => 0 ≤ n && n < 256 then .ok (ns.map fun n => UInt8.ofNat n.toNat)
  else .error .byteRange

def toBytes : DigestValue → Except Failure Bytes
  | bytes bs => .ok bs
  | digestOf content => .ok (Sha256.digest content)
  | list ns => ofInts ns
  | zeros n =>
    match Buffer.sizeFault .countOverflow .negativeCount n with
    | some f => .error f
    | none => .ok (.zeros n.toNat)
  | text _ => .error .encodingMissing
  | missing => .error .notConvertible

theorem toBytes_digestOf (content : Bytes) :
    (digestOf content).toBytes = .ok (Sha256.digest content) := rfl

end DigestValue

end StreamGuard
