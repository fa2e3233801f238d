import StreamGuard.Sha256

namespace StreamGuard

inductive Algorithm
  | sha256
  deriving DecidableEq, Repr

namespace Algorithm

def all : List Algorithm := [sha256]

def label : Algorithm → String
  | sha256 => "SHA256"

def text : Algorithm → String
  | sha256 => "sha256"

def digestSize : Algorithm → Nat
  | sha256 => Sha256.digestSize

def ofText? (s : String) : Option Algorithm :=
  all.find? fun a => a.text = s

theorem ofText?_text (a : Algorithm) : ofText? a.text = some a := by
  cases a
  decide

end Algorithm

end StreamGuard
