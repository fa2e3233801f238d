import StreamGuard.Text.Quoted

namespace StreamGuard

inductive Scalar
  | missing
  | number (n : Int)
  | text (s : String)
  deriving DecidableEq, Repr

namespace Scalar

def shown : Scalar → String
  | missing => "None"
  | number n => toString n
  | text s => Text.Quoted.text s

def typeName : Scalar → String
  | missing => "NoneType"
  | number _ => "int"
  | text _ => "str"

end Scalar

end StreamGuard
