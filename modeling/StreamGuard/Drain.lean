import StreamGuard.Gather
import StreamGuard.Stack

namespace StreamGuard.Stack

variable {σ : Type} [ByteSource σ]

def closed (s : Stack σ) : Bool :=
  match s.layers with
  | .reader r :: _ => r.closed
  | _ => false

/-- One request on a fresh buffer of `n` bytes. As many bytes as were counted are returned: past the end of the
buffer they are zero. -/
def read (s : Stack σ) (n : Nat) : Turn (Stack σ) Bytes :=
  let fill := s.request (.zeroed n)
  match fill.outcome with
  | .error f => ⟨.error f, fill.state, fill.events⟩
  | .ok count =>
    if 0 ≤ count ∧ count ≤ fill.buffer.size then
      ⟨.ok (fill.buffer.bytes.take count.toNat), fill.state, fill.events⟩
    else
      match Buffer.sizeFault .countRange .negativeResult count with
      | some f => ⟨.error f, fill.state, fill.events⟩
      | none => ⟨.ok (fill.buffer.bytes ++ .zeros (count.toNat - fill.buffer.size)), fill.state, fill.events⟩

def untilEmpty (turn : Turn (Stack σ) Bytes) : Turn (Stack σ) (Option Bytes) :=
  ⟨turn.outcome.map fun bs => if bs.isEmpty then none else some bs, turn.state, turn.events⟩

def joined {τ : Type} (turn : Turn τ (List Bytes)) (state : τ → Stack σ) : Turn (Stack σ) Bytes :=
  ⟨turn.outcome.map List.flatten, state turn.state, turn.events⟩

def readUntilEmpty (n budget : Nat) (s : Stack σ) : Option (Turn (Stack σ) Bytes) :=
  (gather (fun t => some (untilEmpty (t.read n))) never budget s {}).map (joined · id)

def allChunk : Nat := 8192

def readAll (budget : Nat) (s : Stack σ) : Option (Turn (Stack σ) Bytes) :=
  readUntilEmpty allChunk budget s

def newline : UInt8 := 10

def lineComplete (limit : Int) (total : Nat) (last : Bytes) : Bool :=
  (0 ≤ limit && limit ≤ total) || last.getLast? == some newline

def readLine (limit : Int) (budget : Nat) (s : Stack σ) : Option (Turn (Stack σ) Bytes) :=
  (gather (fun t => some (untilEmpty (t.read 1))) (lineComplete limit) budget s {}).map (joined · id)

def readLines (hint : Int) (budget : Nat) (s : Stack σ) : Option (Turn (Stack σ) (List Bytes)) :=
  if s.closed then some ⟨.error .closedFile, s, []⟩
  else
    gather (fun t => (readLine (-1) budget t).map untilEmpty) (fun total _ => 0 < hint && hint < total)
      budget s {}

/-- One request on the buffer that draining uses again and again: nothing or a zero count ends it, any other
count names a slice of the buffer. -/
def drainStep (s : Stack σ × Buffer) : Turn (Stack σ × Buffer) (Option Bytes) :=
  let fill := s.1.readInto s.2
  let piece := fill.outcome.map fun
    | none => none
    | some count => if count = 0 then none else some (fill.buffer.bytes.upTo count)
  ⟨piece, (fill.state, fill.buffer), fill.events⟩

def defaultChunk : Int := 65536

def readToEnd (chunk : Int) (budget : Nat) (s : Stack σ) : Option (Turn (Stack σ) Bytes) :=
  if chunk ≤ 0 then some ⟨.error .chunkSize, s, []⟩
  else
    (gather (fun t => some (drainStep t)) never budget (s, .zeroed chunk.toNat) {}).map (joined · Prod.fst)

theorem readToEnd_of_nonpos {chunk : Int} (h : chunk ≤ 0) (budget : Nat) (s : Stack σ) :
    readToEnd chunk budget s = some ⟨.error .chunkSize, s, []⟩ := by
  simp [readToEnd, h]

end StreamGuard.Stack
