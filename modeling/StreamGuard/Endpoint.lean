import StreamGuard.Sources.Memory
import StreamGuard.Sources.Script

namespace StreamGuard

inductive Endpoint
  | script (s : Script)
  | memory (m : Memory)

namespace Endpoint

def weight : Endpoint → Nat
  | script s => Script.weight s.items
  | memory m => m.rest.length

def ofReply {σ α : Type} (make : σ → Endpoint) (r : Reply σ α) : Reply Endpoint α :=
  ⟨r.outcome, make r.source⟩

def ofFilled {σ : Type} (make : σ → Endpoint) (f : Filled σ) : Filled Endpoint :=
  ⟨f.outcome, f.buffer, make f.source⟩

instance : ByteSource Endpoint where
  api
    | script s => ByteSource.api s
    | memory m => ByteSource.api m
  readInto
    | script s, b => ofFilled script (s.readInto b)
    | memory m, b => ofFilled memory (m.readInto b)
  read
    | script s, n => ofReply script (s.read n)
    | memory m, n => ofReply memory (m.read n)
  close
    | script s => ofReply script s.close
    | memory m => ofReply memory m.close
  noBuffer
    | script s => ByteSource.noBuffer s
    | memory m => ByteSource.noBuffer m
  readInto_turns
    | script s, b => (s.readInto_becomes b).toTurns
    | memory m, b => (m.readInto_becomes b).toTurns

instance : KeepsLength Endpoint where
  readInto_size
    | script s, b => (s.readInto_becomes b).size
    | memory m, b => (m.readInto_becomes b).size

end Endpoint

end StreamGuard
