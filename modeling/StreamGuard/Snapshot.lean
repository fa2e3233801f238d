import StreamGuard.Workspace

namespace StreamGuard

inductive Snapshot
  | source (left closes : Nat)
  | memory (closed : Bool) (position : Nat)
  | localSource (bytesRead : Int) (isOpen owned : Bool)
  | remoteSource (url : String) (bytesRead : Int) (contentLength : Option Int) (isOpen : Bool)
  | bound (state : ReaderState) (closed : Bool) (c : BoundCheck) (name : Option String) (below : Snapshot)
  | digest (state : ReaderState) (closed : Bool) (d : DigestCheck) (name : Option String) (below : Snapshot)
  | missing

namespace Snapshot

def ofReader (r : Reader) (name : Option String) (below : Snapshot) : Snapshot :=
  match r.check with
  | .bound c => .bound r.state r.closed c name below
  | .digest d => .digest r.state r.closed d name below

end Snapshot

namespace Workspace

def snapshot (w : Workspace) (id : Nat) : Snapshot :=
  match w.objects[id]? with
  | none => .missing
  | some (.script _ s) | some (.body _ s) => .source s.items.length s.closes
  | some (.memory m) | some (.file m) => .memory m.closed m.position
  | some (.localSource a _) => .localSource a.bytesRead a.attached a.owned
  | some (.remoteSource r _) => .remoteSource r.url r.bytesRead r.contentLength r.attached
  | some (.reader r below) =>
    .ofReader r (w.nameOf? below) (if below < id then w.snapshot below else .missing)
termination_by id

def snapshots (w : Workspace) : List (String × Snapshot) :=
  w.names.map fun n => (n.1, w.snapshot n.2)

end Workspace

end StreamGuard
