import StreamGuard.Origin
import StreamGuard.Sources.Script
import StreamGuard.Text.Decimal

namespace StreamGuard

inductive Page
  | response (status : Int) (headers : List (String × String)) (body : List Script.Item)
  | failure (f : Failure)

structure Web where
  pages : List (String × Page) := []

namespace Web

def defaultTimeout : Int := 30

def errorStatus : Int := 400

def answer (w : Web) (url : String) : Page :=
  match w.pages.find? fun p => p.1 == url with
  | some p => p.2
  | none => .failure (.raised .requestConnection "no route")

def body (items : List Script.Item) : Script :=
  { api := { readInto := false }, items }

end Web

namespace Remote

/-- Names of headers are compared without regard to case; of several the last one counts. -/
def header? (name : String) (headers : List (String × String)) : Option String :=
  (headers.reverse.find? fun h => h.1.toLower == name).map Prod.snd

def announced (headers : List (String × String)) : Except Failure (Option Int) :=
  match header? "content-length" headers with
  | none => .ok none
  | some text =>
    if text.isEmpty then .ok none
    else
      match Text.Decimal.read text with
      | .number n => .ok (some n)
      | .malformed => .error (.badNumber text)
      | .tooLong digits => .error (.longNumber digits)

def ofRequest (f : Failure) : Failure :=
  if f.kind.isRequest then .requestFailed f.message else f

end Remote

end StreamGuard
