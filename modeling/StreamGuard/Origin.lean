import StreamGuard.ByteSource
import StreamGuard.Event

namespace StreamGuard

structure Remote where
  url : String
  contentLength : Option Int := none
  bytesRead : Int := 0
  attached : Bool := true
  deriving DecidableEq, Repr

inductive Origin (σ : Type)
  | direct (source : σ)
  | remote (response : Remote) (body : σ)

namespace Intake

def noData : Intake → Failure
  | checked => .noData
  | unchecked => .noFileData

end Intake

def Failure.ofBody (f : Failure) : Failure :=
  if f.kind.isRequest || f.kind.isTransport then .bodyFailed f.message else f

namespace Origin

variable {σ : Type} [ByteSource σ]

def copy (intake : Intake) (s : σ) (b : Buffer) : Fill σ Nat :=
  let reply := ByteSource.read s b.items
  match reply.outcome with
  | .error f => ⟨.error f, b, reply.source, [.call (.read b.items)]⟩
  | .ok chunk =>
    let received := b.receive intake chunk
    ⟨received.1, received.2, reply.source, [.call (.read b.items)]⟩

def countOf (intake : Intake) : Except Failure (Option Int) → Except Failure Int
  | .ok (some count) => .ok count
  | .ok none => .error intake.noData
  | .error f => .error f

def supplyDirect (intake : Intake) (s : σ) (b : Buffer) : Fill σ Int :=
  if (ByteSource.api s).readInto then
    let filled := ByteSource.readInto s b
    ⟨countOf intake filled.outcome, filled.buffer, filled.source, [.call (.readInto b.size)]⟩
  else if (ByteSource.api s).read then
    let fill := copy intake s b
    ⟨fill.outcome.map Int.ofNat, fill.buffer, fill.state, fill.events⟩
  else
    ⟨.error (.noMethod .source "read"), b, s, []⟩

def supplyRemote (r : Remote) (s : σ) (b : Buffer) : Fill (Remote × σ) Int :=
  if r.attached then
    let fill := copy .unchecked s b
    match fill.outcome with
    | .error f => ⟨.error f.ofBody, fill.buffer, (r, fill.state), fill.events⟩
    | .ok n => ⟨.ok n, fill.buffer, ({ r with bytesRead := r.bytesRead + n }, fill.state), fill.events⟩
  else
    ⟨.error .closedSource, b, (r, s), []⟩

def supply (intake : Intake) : Origin σ → Buffer → Fill (Origin σ) Int
  | direct s, b =>
    let fill := supplyDirect intake s b
    ⟨fill.outcome, fill.buffer, .direct fill.state, fill.events⟩
  | remote r s, b =>
    let fill := supplyRemote r s b
    ⟨fill.outcome, fill.buffer, .remote fill.state.1 fill.state.2, fill.events⟩

def bufferless : Origin σ → Failure
  | direct s =>
    if (ByteSource.api s).readInto then ByteSource.noBuffer s
    else if (ByteSource.api s).read then .noLength
    else .noMethod .source "read"
  | remote r _ => if r.attached then .noLength else .closedSource

def close : Origin σ → Turn (Origin σ) Unit
  | direct s =>
    if (ByteSource.api s).close then
      let reply := ByteSource.close s
      ⟨reply.outcome, .direct reply.source, [.call .close]⟩
    else ⟨.ok (), .direct s, []⟩
  | remote r s =>
    if r.attached then
      let reply := ByteSource.close s
      match reply.outcome with
      | .error f => ⟨.error f, .remote r reply.source, [.call .close]⟩
      | .ok _ => ⟨.ok (), .remote { r with attached := false } reply.source, [.call .close]⟩
    else ⟨.ok (), .remote r s, []⟩

theorem copy_becomes (intake : Intake) (s : σ) (b : Buffer) : b.Becomes (copy intake s b).buffer := by
  simp only [copy]
  split
  · exact .refl b
  · exact Buffer.receive_becomes ..

theorem supplyDirect_turns (intake : Intake) (s : σ) (b : Buffer) : b.Turns (supplyDirect intake s b).buffer := by
  unfold supplyDirect
  split
  · exact ByteSource.readInto_turns s b
  · split
    · exact (copy_becomes intake s b).toTurns
    · exact .refl b

theorem supplyDirect_size [KeepsLength σ] (intake : Intake) (s : σ) (b : Buffer) :
    (supplyDirect intake s b).buffer.size = b.size := by
  unfold supplyDirect
  split
  · exact KeepsLength.readInto_size s b
  · split
    · exact (copy_becomes intake s b).size
    · rfl

theorem supplyRemote_becomes (r : Remote) (s : σ) (b : Buffer) :
    b.Becomes (supplyRemote r s b).buffer := by
  simp only [supplyRemote]
  split
  · split <;> exact copy_becomes .unchecked s b
  · exact .refl b

theorem supply_turns (intake : Intake) (o : Origin σ) (b : Buffer) : b.Turns (o.supply intake b).buffer := by
  cases o with
  | direct s => exact supplyDirect_turns intake s b
  | remote r s => exact (supplyRemote_becomes r s b).toTurns

theorem supply_size [KeepsLength σ] (intake : Intake) (o : Origin σ) (b : Buffer) :
    (o.supply intake b).buffer.size = b.size := by
  cases o with
  | direct s => exact supplyDirect_size intake s b
  | remote r s => exact (supplyRemote_becomes r s b).size

end Origin

end StreamGuard
