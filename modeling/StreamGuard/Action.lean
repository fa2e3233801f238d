import StreamGuard.Opening

namespace StreamGuard

inductive Action
  | readInto (b : Option Buffer)
  | requestInto (b : Option Buffer)
  | readToEnd (chunk : Int)
  | read (n : Option Int)
  | readAll
  | readLine (limit : Option Int)
  | readLines (hint : Option Int)
  | iterate
  | next
  | close
  | enter
  | exit
  | isByteSource
  | readable
  | writable
  | seekable
  | isTerminal
  | tell
  | fileNumber
  | flush
  deriving DecidableEq, Repr

namespace Action

def method : Action → String
  | readInto _ => "readinto"
  | requestInto _ => "read"
  | readToEnd _ => "readinto"
  | read _ => "read"
  | readAll => "readall"
  | readLine _ => "readline"
  | readLines _ => "readlines"
  | iterate => "__iter__"
  | next => "__next__"
  | close => "close"
  | enter => "__enter__"
  | exit => "__exit__"
  | isByteSource => "readinto"
  | readable => "readable"
  | writable => "writable"
  | seekable => "seekable"
  | isTerminal => "isatty"
  | tell => "tell"
  | fileNumber => "fileno"
  | flush => "flush"

end Action

inductive Value
  | none
  | flag (b : Bool)
  | count (n : Int)
  | bytes (bs : Bytes)
  | lines (ls : List Bytes)
  | built (kind : ObjectKind)
  deriving DecidableEq, Repr

structure Answer where
  step : Step Value
  buffer : Option Bytes := none

namespace Value

def ofCount : Option Int → Value
  | some n => count n
  | Option.none => none

end Value

namespace Workspace

def answer (w : Workspace) (v : Value) : Answer := ⟨⟨.ok v, w, []⟩, none⟩

def refuse (w : Workspace) (f : Failure) : Answer := ⟨w.fail f, none⟩

def runAs {α : Type} (w : Workspace) (id : Nat) (shown : α → Value)
    (f : Stack Endpoint → Turn (Stack Endpoint) α) : Answer :=
  ⟨(w.run id f).map shown, none⟩

def runFill {α : Type} (w : Workspace) (id : Nat) (shown : α → Value)
    (f : Stack Endpoint → Fill (Stack Endpoint) α) : Answer :=
  match locate w.objects id with
  | none => w.refuse .dangling
  | some l =>
    let fill := f l.stack
    ⟨⟨fill.outcome.map shown, w.putBack l fill.state,
      fill.events.filterMap (Entry.ofEvent? l.source)⟩, some fill.buffer.bytes⟩

def readSome (w : Workspace) (id : Nat) (n : Int) : Answer :=
  if !Buffer.isIndex n then w.refuse .sizeOverflow
  else if n < 0 then w.runAs id .bytes (looped Stack.readAll)
  else if Buffer.memoryLimit < n then w.refuse .outOfMemory
  else w.runAs id .bytes (·.read n.toNat)

def drain (w : Workspace) (id : Nat) (chunk : Int) : Answer :=
  if Buffer.indexLimit < chunk then w.refuse .countOverflow
  else if Buffer.memoryLimit < chunk then w.refuse .outOfMemory
  else w.runAs id .bytes (looped (Stack.readToEnd chunk))

def useReader (w : Workspace) (id : Nat) (r : Reader) (a : Action) : Answer :=
  match a with
  | .read n => w.readSome id (n.getD (-1))
  | .readAll => w.runAs id .bytes (looped Stack.readAll)
  | .readLine n =>
    let n := n.getD (-1)
    if Buffer.isIndex n then w.runAs id .bytes (looped (Stack.readLine n)) else w.refuse .countOverflow
  | .readLines n =>
    let n := n.getD (-1)
    if Buffer.isIndex n then w.runAs id .lines (looped (Stack.readLines n)) else w.refuse .countOverflow
  | .iterate => w.runAs id .lines (looped (Stack.readLines (-1)))
  | .next =>
    w.runAs id (fun line => if line.isEmpty then .none else .bytes line) (looped (Stack.readLine (-1)))
  | .enter => if r.closed then w.refuse .closedFile else w.answer (.flag true)
  | .isTerminal => if r.closed then w.refuse .closedFile else w.answer (.flag false)
  | .flush => if r.closed then w.refuse .closedFile else w.answer .none
  | .readable => w.answer (.flag true)
  | .writable | .seekable => w.answer (.flag false)
  | .tell => w.refuse (.unsupported "seek")
  | .fileNumber => w.refuse (.unsupported "fileno")
  | .exit => w.runAs id (fun _ => .none) Stack.close
  | _ => w.refuse (.noMethod (w.kindOf id) a.method)

def replyMemory {α : Type} (w : Workspace) (id : Nat) (shown : α → Value) (r : Reply Memory α) : Answer :=
  ⟨⟨r.outcome.map shown, { w with objects := w.objects.modify id (·.setEndpoint (.memory r.source)) }, []⟩, none⟩

def useMemory (w : Workspace) (id : Nat) (m : Memory) (a : Action) : Answer :=
  let whenOpen (v : Value) : Answer := if m.closed then w.refuse .closedFile else w.answer v
  match a with
  | .read n =>
    let n := n.getD (-1)
    if Buffer.isIndex n then
      w.replyMemory id .bytes (if n < 0 then m.readAll else m.read n.toNat).content
    else w.refuse .countOverflow
  | .readLine n =>
    let n := n.getD (-1)
    if Buffer.isIndex n then w.replyMemory id .bytes (m.readLine n) else w.refuse .countOverflow
  | .readLines n =>
    let n := n.getD (-1)
    if m.closed || Buffer.isIndex n then w.replyMemory id .lines (m.readLines n) else w.refuse .sizeOverflow
  | .iterate => w.replyMemory id .lines (m.readLines (-1))
  | .next =>
    w.replyMemory id (fun line => if line.isEmpty then .none else .bytes line) (m.readLine (-1))
  | .readable | .writable | .seekable | .enter => whenOpen (.flag true)
  | .isTerminal => whenOpen (.flag false)
  | .flush => whenOpen .none
  | .tell => whenOpen (.count m.position)
  | .fileNumber => w.refuse (.unsupported "fileno")
  | .exit => w.replyMemory id (fun _ => .none) m.close
  | _ => w.refuse (.noMethod .memory a.method)

def useScript (w : Workspace) (id : Nat) (s : Script) (a : Action) : Answer :=
  match a with
  | .read n =>
    if !s.api.read then w.refuse (.noMethod .source a.method)
    else
      match n with
      | none => w.refuse (.noArgument .source a.method "n")
      | some n =>
        let reply := (s.readSigned n).content
        ⟨⟨reply.outcome.map .bytes,
          { w with objects := w.objects.modify id (·.setEndpoint (.script reply.source)) },
          [.call id (.read n)]⟩, none⟩
  | .iterate => w.refuse (.notIterable .source)
  | .next => w.refuse (.notIterator .source)
  | _ => w.refuse (.noMethod .source a.method)

def useAdapter (w : Workspace) (id : Nat) (a : Action) : Answer :=
  match a with
  | .enter => w.answer (.flag true)
  | .exit => w.runAs id (fun _ => .none) Stack.close
  | .iterate => w.refuse (.notIterable (w.kindOf id))
  | .next => w.refuse (.notIterator (w.kindOf id))
  | _ => w.refuse (.noMethod (w.kindOf id) a.method)

def offersReadInto : Object → Bool
  | .script _ s | .body _ s => s.api.readInto
  | _ => true

def offersClose : Object → Bool
  | .script _ s | .body _ s => s.api.close
  | _ => true

def use (w : Workspace) (id : Nat) (o : Object) (a : Action) : Answer :=
  match a with
  | .readInto (some b) => w.runFill id Value.ofCount (·.readInto b)
  | .readInto none => ⟨w.run id fun s => ⟨.error s.noBuffer, s, []⟩, none⟩
  | .requestInto (some b) => w.runFill id .count (·.request b)
  | .requestInto none => ⟨w.run id fun s => ⟨.error (Stack.bufferless s.layers s.origin), s, []⟩, none⟩
  | .readToEnd chunk => w.drain id chunk
  | .close =>
    if offersClose o then w.runAs id (fun _ => .none) Stack.close
    else w.refuse (.noMethod o.kind a.method)
  | .isByteSource => w.answer (.flag (offersReadInto o))
  | _ =>
    match o with
    | .reader r _ => w.useReader id r a
    | .memory m | .file m => w.useMemory id m a
    | .script _ s | .body _ s => w.useScript id s a
    | .localSource .. | .remoteSource .. => w.useAdapter id a

theorem runAs_located {α : Type} {w : Workspace} {id : Nat} {l : Located} (hl : locate w.objects id = some l)
    (shown : α → Value) (f : Stack Endpoint → Turn (Stack Endpoint) α) :
    (w.runAs id shown f).step = ⟨(f l.stack).outcome.map shown, w.putBack l (f l.stack).state,
      (f l.stack).events.filterMap (Entry.ofEvent? l.source)⟩ := by
  simp only [runAs, run, hl, Step.map]

theorem drain_of_le (w : Workspace) (id : Nat) {chunk : Int} (hc : chunk ≤ Buffer.memoryLimit) :
    w.drain id chunk = w.runAs id .bytes (looped (Stack.readToEnd chunk)) := by
  have hindex : chunk ≤ Buffer.indexLimit := Int.le_trans hc (by decide)
  rw [drain, if_neg (Int.not_lt.2 hindex), if_neg (Int.not_lt.2 hc)]

end Workspace

end StreamGuard
