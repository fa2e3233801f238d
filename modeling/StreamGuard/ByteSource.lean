import StreamGuard.Buffer

/-!
Byte sources: what a reader may be put on. A source offers some of three methods, and each call returns the
source as it is afterwards. A source may answer anything and do what it likes to a writable buffer.
-/

namespace StreamGuard

structure Api where
  readInto : Bool := true
  read : Bool := true
  close : Bool := true
  deriving DecidableEq, Repr

structure Reply (σ : Type) (α : Type) where
  outcome : Except Failure α
  source : σ

namespace Reply

def content {σ : Type} (r : Reply σ Chunk) : Reply σ Bytes :=
  ⟨r.outcome.bind Chunk.content, r.source⟩

end Reply

/-- The outcome of filling a buffer: a count that need not be true, or `none` for no data yet. -/
structure Filled (σ : Type) where
  outcome : Except Failure (Option Int)
  buffer : Buffer
  source : σ

class ByteSource (σ : Type) where
  api : σ → Api
  readInto : σ → Buffer → Filled σ
  read : σ → Nat → Reply σ Chunk
  close : σ → Reply σ Unit
  noBuffer : σ → Failure
  readInto_turns : ∀ (s : σ) (b : Buffer), b.Turns (readInto s b).buffer

/-- The sources that leave a buffer as long as it was. -/
class KeepsLength (σ : Type) [ByteSource σ] : Prop where
  readInto_size : ∀ (s : σ) (b : Buffer), (ByteSource.readInto s b).buffer.size = b.size

theorem ByteSource.readInto_becomes {σ : Type} [ByteSource σ] [KeepsLength σ] (s : σ) (b : Buffer) :
    b.Becomes (ByteSource.readInto s b).buffer :=
  ⟨ByteSource.readInto_turns s b, KeepsLength.readInto_size s b⟩

end StreamGuard
