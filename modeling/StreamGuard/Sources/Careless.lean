import StreamGuard.ByteSource

namespace StreamGuard

/-- A source that puts its bytes in the place of those of a buffer, and tells how many there were before. A read-only
buffer it leaves alone, and tells the same. -/
structure Careless where
  rest : Bytes

namespace Careless

def readInto (s : Careless) (b : Buffer) : Filled Careless :=
  ⟨.ok (some b.size), if b.writable then { b with bytes := s.rest.take b.size } else b, ⟨s.rest.drop b.size⟩⟩

theorem readInto_turns (s : Careless) (b : Buffer) : b.Turns (s.readInto b).buffer := by
  unfold readInto
  cases hw : b.writable with
  | false => exact .refl b
  | true => exact ⟨rfl, hw.symm, fun hf => by simp [hw] at hf⟩

instance : ByteSource Careless where
  api _ := { read := false }
  readInto := readInto
  read s _ := ⟨.error (.noMethod .source "read"), s⟩
  close s := ⟨.ok (), s⟩
  noBuffer _ := .noLength
  readInto_turns := readInto_turns

end Careless

end StreamGuard
