import StreamGuard.Drain
import StreamGuard.Endpoint
import StreamGuard.FileTree
import StreamGuard.Web

/-!
Workspaces: objects that may share what lies below them, each known by its number. A reader or adapter refers to
an older object, so the stack below an object can be taken out, run, and put back.
-/

namespace StreamGuard

inductive Object
  | script (label : String) (s : Script)
  | memory (m : Memory)
  | file (m : Memory)
  | body (url : String) (s : Script)
  | reader (r : Reader) (below : Nat)
  | localSource (a : FileAdapter) (below : Nat)
  | remoteSource (r : Remote) (below : Nat)

namespace Object

def kind : Object → ObjectKind
  | script .. => .source
  | memory .. => .memory
  | file .. => .file
  | body .. => .source
  | reader r _ =>
    match r.check with
    | .digest _ => .digestReader
    | .bound _ => .boundReader
  | localSource .. => .localSource
  | remoteSource .. => .remoteSource

def hasRead : Object → Bool
  | script _ s => s.api.read
  | memory _ | file _ | body .. | reader .. => true
  | localSource .. | remoteSource .. => false

def printed : Object → String
  | script _ s => s.printed
  | o => "<" ++ o.kind.name ++ ">"

def endpoint? : Object → Option Endpoint
  | script _ s | body _ s => some (.script s)
  | memory m | file m => some (.memory m)
  | _ => none

def setEndpoint : Object → Endpoint → Object
  | script l _, .script s => script l s
  | body u _, .script s => body u s
  | memory _, .memory m => memory m
  | file _, .memory m => file m
  | o, _ => o

def layer? : Object → Option (Layer × Nat)
  | reader r below => some (.reader r, below)
  | localSource a below => some (.file a, below)
  | _ => none

def setLayer : Object → Layer → Object
  | reader _ below, .reader r => reader r below
  | localSource _ below, .file a => localSource a below
  | o, _ => o

def setRemote : Object → Remote → Object
  | remoteSource _ below, r => remoteSource r below
  | o, _ => o

def label? : Object → Option String
  | script l _ => some l
  | body u _ => some u
  | _ => none

end Object

inductive Entry
  | call (object : Nat) (c : Call)
  | log (r : LogRecord)
  | newSession
  | get (url : String) (streaming : Bool) (timeout : Option Int)
  deriving DecidableEq, Repr

namespace Entry

def ofEvent? (source : Nat) : Event → Option Entry
  | .call c => some (.call source c)
  | .log r => some (.log r)
  | .finalized => none

end Entry

structure Workspace where
  objects : List Object := []
  names : List (String × Nat) := []
  files : FileTree := {}
  web : Web := {}
  session : Bool := false

structure Step (α : Type) where
  outcome : Except Failure α
  workspace : Workspace
  entries : List Entry := []

namespace Step

variable {α β : Type}

def andThen (s : Step α) (f : α → Workspace → Step β) : Step β :=
  match s.outcome with
  | .error e => ⟨.error e, s.workspace, s.entries⟩
  | .ok a =>
    let next := f a s.workspace
    ⟨next.outcome, next.workspace, s.entries ++ next.entries⟩

def map (f : α → β) (s : Step α) : Step β :=
  ⟨s.outcome.map f, s.workspace, s.entries⟩

def before (s : Step α) (f : Workspace → Step Unit) : Step α :=
  let next := f s.workspace
  ⟨s.outcome, next.workspace, s.entries ++ next.entries⟩

end Step

structure Located where
  layers : List Nat
  remote : Option Nat
  source : Nat
  stack : Stack Endpoint

namespace Located

def push (l : Located) (id : Nat) (layer : Layer) : Located :=
  { l with layers := id :: l.layers, stack := l.stack.push layer }

def ofSource (id : Nat) (e : Endpoint) : Located :=
  { layers := [], remote := none, source := id, stack := ⟨[], .direct e⟩ }

def ofRemote (id below : Nat) (r : Remote) (e : Endpoint) : Located :=
  { layers := [], remote := some id, source := below, stack := ⟨[], .remote r e⟩ }

end Located

def locate (objects : List Object) (id : Nat) : Option Located :=
  match objects[id]? with
  | none => none
  | some (.reader r below) =>
    if below < id then (locate objects below).map (·.push id (.reader r)) else none
  | some (.localSource a below) =>
    if below < id then (locate objects below).map (·.push id (.file a)) else none
  | some (.remoteSource r below) =>
    match objects[below]? with
    | some o => o.endpoint?.map (.ofRemote id below r)
    | none => none
  | some o => o.endpoint?.map (.ofSource id)
termination_by id

namespace Workspace

def putBack (w : Workspace) (l : Located) (s : Stack Endpoint) : Workspace :=
  let layered := (l.layers.zip s.layers).foldl (fun os p => os.modify p.1 (·.setLayer p.2)) w.objects
  match s.origin with
  | .direct e => { w with objects := layered.modify l.source (·.setEndpoint e) }
  | .remote r e =>
    let responded := match l.remote with
      | some id => layered.modify id (·.setRemote r)
      | none => layered
    { w with objects := responded.modify l.source (·.setEndpoint e) }

def run {α : Type} (w : Workspace) (id : Nat) (f : Stack Endpoint → Turn (Stack Endpoint) α) : Step α :=
  match locate w.objects id with
  | none => ⟨.error .dangling, w, []⟩
  | some l =>
    let turn := f l.stack
    ⟨turn.outcome, w.putBack l turn.state, turn.events.filterMap (Entry.ofEvent? l.source)⟩

def budget (s : Stack Endpoint) : Nat :=
  match s.origin with
  | .direct e => e.weight + 2
  | .remote _ e => e.weight + 2

def looped {α : Type} (f : Nat → Stack Endpoint → Option (Turn (Stack Endpoint) α))
    (s : Stack Endpoint) : Turn (Stack Endpoint) α :=
  (f (budget s) s).getD ⟨.error .unfinished, s, []⟩

def add (w : Workspace) (o : Object) : Step Nat :=
  ⟨.ok w.objects.length, { w with objects := w.objects ++ [o] }, []⟩

def note (w : Workspace) (entries : List Entry) : Step Unit :=
  ⟨.ok (), w, entries⟩

def fail {α : Type} (w : Workspace) (f : Failure) : Step α :=
  ⟨.error f, w, []⟩

def close (w : Workspace) (id : Nat) : Step Unit :=
  w.run id Stack.close

def bind (w : Workspace) (name : String) (id : Nat) : Workspace :=
  { w with names := (w.names.filter fun n => n.1 != name) ++ [(name, id)] }

def find? (w : Workspace) (name : String) : Option Nat :=
  (w.names.find? fun n => n.1 == name).map Prod.snd

def nameOf? (w : Workspace) (id : Nat) : Option String :=
  (w.names.find? fun n => n.2 == id).map Prod.fst

@[simp] theorem find?_bind (w : Workspace) (name : String) (id : Nat) :
    (w.bind name id).find? name = some id := by
  have h : ∀ ns : List (String × Nat),
      (ns.filter fun n => n.1 != name).find? (fun n => n.1 == name) = none := by
    intro ns
    rw [List.find?_eq_none]
    intro x hx
    have := (List.mem_filter.1 hx).2
    simpa using this
  simp [find?, bind, List.find?_append, h]

end Workspace

end StreamGuard
