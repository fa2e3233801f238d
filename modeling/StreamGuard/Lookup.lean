import StreamGuard.Algorithm
import StreamGuard.DigestValue

namespace StreamGuard

def Algorithm.ofScalar (given : Scalar) : Except Failure Algorithm :=
  match given with
  | .text s =>
    match Algorithm.ofText? s with
    | some a => .ok a
    | none => .error (.unknownAlgorithm given)
  | _ => .error (.unknownAlgorithm given)

def ReaderState.ofScalar (given : Scalar) : Except Failure ReaderState :=
  match given with
  | .text s =>
    match ReaderState.ofText? s with
    | some a => .ok a
    | none => .error (.unknownState given)
  | _ => .error (.unknownState given)

def Failure.mismatch (calculated expected : DigestValue) : Failure :=
  match calculated.toBytes, expected.toBytes with
  | .ok c, .ok e => .digestMismatch c e
  | .error f, _ => f
  | .ok _, .error f => f

def Sha256.digestsAfter (pieces : List Bytes) (acc : Sha256.Accumulator) : List Bytes :=
  match pieces with
  | [] => []
  | p :: ps => (acc.update p).finish :: digestsAfter ps (acc.update p)

theorem Algorithm.ofScalar_text (a : Algorithm) : ofScalar (.text a.text) = .ok a := by
  simp [ofScalar, ofText?_text]

theorem ReaderState.ofScalar_text (a : ReaderState) : ofScalar (.text a.text) = .ok a := by
  simp [ofScalar, ofText?_text]

end StreamGuard
