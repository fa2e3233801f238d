namespace StreamGuard

inductive ReaderState
  | streaming
  | succeeded
  | failed
  deriving DecidableEq, Repr

namespace ReaderState

def all : List ReaderState := [streaming, succeeded, failed]

def label : ReaderState → String
  | streaming => "STREAMING"
  | succeeded => "DONE_SUCCESS"
  | failed => "DONE_ERROR"

def text : ReaderState → String
  | streaming => "streaming"
  | succeeded => "done-success"
  | failed => "done-error"

def ofText? (s : String) : Option ReaderState :=
  all.find? fun a => a.text = s

theorem ofText?_text (a : ReaderState) : ofText? a.text = some a := by
  cases a <;> decide

end ReaderState

end StreamGuard
