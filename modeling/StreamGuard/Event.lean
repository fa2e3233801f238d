import StreamGuard.Algorithm
import StreamGuard.Buffer

namespace StreamGuard

inductive Call
  | read (asked : Int)
  | readInto (room : Nat)
  | close
  deriving DecidableEq, Repr

inductive LogLevel
  | debug
  | warning
  deriving DecidableEq, Repr

def LogLevel.text : LogLevel → String
  | debug => "DEBUG"
  | warning => "WARNING"

inductive LogField
  | text (s : String)
  | number (n : Int)
  deriving DecidableEq, Repr

inductive LogRecord
  | digestMismatch (algorithm : Algorithm) (calculated expected : Bytes)
  | digestVerified (algorithm : Algorithm) (calculated : Bytes)
  | sizeExceeded (limit : Nat) (received : Int)
  | sizeWithin (received : Int) (limit : Nat)
  | openedLocal (path : String)
  | openedRemote (url : String) (contentLength : Option Int)
  deriving DecidableEq, Repr

namespace LogRecord

def level : LogRecord → LogLevel
  | digestMismatch .. | sizeExceeded .. => .warning
  | _ => .debug

def channel : LogRecord → String
  | digestMismatch .. | digestVerified .. => "safestream.io.digest"
  | sizeExceeded .. | sizeWithin .. => "safestream.io.limit"
  | openedLocal .. => "safestream.io.local"
  | openedRemote .. => "safestream.io.http_sync"

def message : LogRecord → String
  | digestMismatch .. => "content digest mismatch"
  | digestVerified a c => "content digest verified (" ++ a.text ++ " " ++ Text.Hex.encode c ++ ")"
  | sizeExceeded .. => "content exceeded maximum size"
  | sizeWithin received limit =>
    "content within size limit (" ++ toString received ++ " of " ++ toString limit ++ " bytes)"
  | openedLocal path => "opened local source " ++ path
  | openedRemote url length =>
    "opened HTTP source " ++ url ++ " (content-length " ++
      (match length with
        | some n => toString n
        | none => "None") ++ ")"

def fields : LogRecord → List (String × LogField)
  | digestMismatch a c e =>
    [("algorithm", .text a.text), ("calculated", .text (Text.Hex.encode c)),
      ("expected", .text (Text.Hex.encode e))]
  | sizeExceeded limit received => [("limit_bytes", .number limit), ("received_bytes", .number received)]
  | _ => []

end LogRecord

inductive Event
  | call (c : Call)
  | log (r : LogRecord)
  | finalized
  deriving DecidableEq, Repr

namespace Event

def call? : Event → Option Call
  | call c => some c
  | _ => none

def log? : Event → Option LogRecord
  | log r => some r
  | _ => none

end Event

structure Turn (τ : Type) (α : Type) where
  outcome : Except Failure α
  state : τ
  events : List Event

structure Fill (τ : Type) (α : Type) where
  outcome : Except Failure α
  buffer : Buffer
  state : τ
  events : List Event

end StreamGuard
