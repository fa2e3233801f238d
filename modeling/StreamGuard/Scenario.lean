import StreamGuard.Action
import StreamGuard.Snapshot

/-!
Scenarios: commands that build and name objects or use them, run one after the other in a workspace. Each is
reported with its result, the calls and log records that it caused, and how all named objects look afterwards.
-/

namespace StreamGuard

inductive NamedTarget
  | named (name : String)
  | plain (t : Target)

inductive Recipe
  | memory (content : Bytes) (position : Int)
  | script (s : Script)
  | digest (source : String) (expected : DigestValue)
  | bound (source : String) (limit : Scalar)
  | openTarget (t : NamedTarget)
  | openLocal (t : NamedTarget)
  | openRemote (url : String) (timeout : Option Int)
  | fetchDigest (t : NamedTarget) (limit : Scalar) (expected : DigestValue)
  | fetchBound (t : NamedTarget) (limit : Scalar)

inductive Command
  | build (name : String) (recipe : Recipe)
  | use (name : String) (action : Action)

inductive ShownCall
  | source (label : String) (c : Call)
  | newSession
  | get (url : String) (streaming : Bool) (timeout : Option Int)
  deriving DecidableEq, Repr

structure Report where
  outcome : Except Failure Value
  buffer : Option Bytes
  calls : List ShownCall
  logs : List LogRecord
  state : List (String × Snapshot)

namespace Workspace

def withName {α : Type} (w : Workspace) (name : String) (f : Nat → Step α) : Step α :=
  match w.find? name with
  | some id => f id
  | none => w.fail (.unknownName name)

def withTarget (w : Workspace) (t : NamedTarget) (f : Target → Step Nat) : Step Nat :=
  match t with
  | .named name => w.withName name fun id => f (.object id)
  | .plain t => f t

def make (w : Workspace) (name : String) : Recipe → Step Nat
  | .memory content position =>
    match Memory.startingAt content position with
    | .ok m => w.add (.memory m)
    | .error f => w.fail f
  | .script s => w.add (.script name s)
  | .digest source expected => w.withName source (w.addDigest expected ·)
  | .bound source limit => w.withName source (w.addBound limit ·)
  | .openTarget t => w.withTarget t w.openTarget
  | .openLocal t => w.withTarget t w.openLocal
  | .openRemote url timeout => w.openRemote url timeout
  | .fetchDigest t limit expected => w.withTarget t (w.fetchDigest · limit expected)
  | .fetchBound t limit => w.withTarget t (w.fetchBound · limit)

def perform (w : Workspace) : Command → Answer
  | .build name recipe =>
    ⟨(w.make name recipe).andThen fun id w => ⟨.ok (.built (w.kindOf id)), w.bind name id, []⟩, none⟩
  | .use name action =>
    match w.find? name with
    | none => w.refuse (.unknownName name)
    | some id =>
      match w.objects[id]? with
      | none => w.refuse .dangling
      | some o => w.use id o action

def shownCall? (w : Workspace) : Entry → Option ShownCall
  | .call id c => (w.objects[id]?.bind Object.label?).map fun l => .source l c
  | .newSession => some .newSession
  | .get url streaming timeout => some (.get url streaming timeout)
  | .log _ => none

def logOf? : Entry → Option LogRecord
  | .log r => some r
  | _ => none

def report (answer : Answer) : Report :=
  let w := answer.step.workspace
  { outcome := answer.step.outcome
    buffer := answer.buffer
    calls := answer.step.entries.filterMap w.shownCall?
    logs := answer.step.entries.filterMap logOf?
    state := w.snapshots }

def reports (w : Workspace) : List Command → List Report
  | [] => []
  | c :: cs =>
    let answer := w.perform c
    report answer :: reports answer.step.workspace cs

end Workspace

end StreamGuard
