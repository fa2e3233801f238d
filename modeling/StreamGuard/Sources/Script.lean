import StreamGuard.ByteSource

namespace StreamGuard

namespace Script

inductive Item
  /-- Bytes delivered as far as they are asked for. A count, if there is one, is reported in place of the truth. -/
  | data (bytes : Bytes) (count : Option Int)
  | raw (bytes : Bytes)
  | text (s : String)
  | nothing
  | failure (f : Failure)
  deriving DecidableEq, Repr

def rest (bytes : Bytes) (n : Nat) (items : List Item) : List Item :=
  match bytes.drop n with
  | [] => items
  | b :: bs => .data (b :: bs) none :: items

def weight : List Item → Nat
  | [] => 0
  | .data bytes _ :: items => bytes.length + 1 + weight items
  | _ :: items => 1 + weight items

end Script

structure Script where
  api : Api
  items : List Script.Item
  closes : Nat := 0
  closeFails : Bool := false
  printed : String := "<Source>"
  deriving Repr

namespace Script

def read (s : Script) (n : Nat) : Reply Script Chunk :=
  match s.items with
  | [] => ⟨.ok (.bytes []), s⟩
  | .data bytes _ :: items => ⟨.ok (.bytes (bytes.take n)), { s with items := rest bytes n items }⟩
  | .raw bytes :: items => ⟨.ok (.bytes bytes), { s with items }⟩
  | .text t :: items => ⟨.ok (.text t), { s with items }⟩
  | .nothing :: items => ⟨.ok .nothing, { s with items }⟩
  | .failure f :: items => ⟨.error f, { s with items }⟩

def readSigned (n : Int) (s : Script) : Reply Script Chunk :=
  if 0 ≤ n then s.read n.toNat
  else
    match s.items with
    | .data bytes _ :: items =>
      let shown := bytes.length - n.natAbs
      ⟨.ok (.bytes (bytes.take shown)), { s with items := .data (bytes.drop shown) none :: items }⟩
    | _ => s.read 0

def fill (s : Script) (b : Buffer) (front : Bytes) (count : Int) : Filled Script :=
  match b.put front with
  | .ok b' => ⟨.ok (some count), b', s⟩
  | .error f => ⟨.error f, b, s⟩

def readInto (s : Script) (b : Buffer) : Filled Script :=
  match s.items with
  | [] => s.fill b [] 0
  | .data bytes count :: items =>
    let front := bytes.take b.size
    fill { s with items := rest bytes b.size items } b front (count.getD front.length)
  | .raw bytes :: items =>
    let front := bytes.take b.size
    fill { s with items } b front front.length
  | .text _ :: items => ⟨.error (if b.writable then .notBytes else .readOnlyMemory), b, { s with items }⟩
  | .nothing :: items => ⟨.ok none, b, { s with items }⟩
  | .failure f :: items => ⟨.error f, b, { s with items }⟩

def close (s : Script) : Reply Script Unit :=
  ⟨if s.closeFails then .error (.raised .io "close failed") else .ok (), { s with closes := s.closes + 1 }⟩

@[simp] theorem fill_source (s : Script) (b : Buffer) (front : Bytes) (count : Int) :
    (s.fill b front count).source = s := by
  unfold fill
  split <;> rfl

theorem fill_becomes (s : Script) (b : Buffer) (front : Bytes) (count : Int) :
    b.Becomes (s.fill b front count).buffer := by
  unfold fill
  split
  · exact Buffer.put_becomes ‹_›
  · exact .refl b

theorem readInto_becomes (s : Script) (b : Buffer) : b.Becomes (s.readInto b).buffer := by
  unfold readInto
  split
  · exact fill_becomes ..
  · exact fill_becomes ..
  · exact fill_becomes ..
  · exact .refl b
  · exact .refl b
  · exact .refl b

instance : ByteSource Script where
  api := api
  readInto := readInto
  read := read
  close := close
  noBuffer _ := .noBuffer
  readInto_turns s b := (s.readInto_becomes b).toTurns

instance : KeepsLength Script where
  readInto_size s b := (s.readInto_becomes b).size

theorem rest_of_length_le {bytes : Bytes} {n : Nat} (items : List Item) (h : bytes.length ≤ n) :
    rest bytes n items = items := by
  simp [rest, List.drop_eq_nil_of_le h]

theorem rest_of_lt {bytes : Bytes} {n : Nat} (items : List Item) (h : n < bytes.length) :
    rest bytes n items = .data (bytes.drop n) none :: items := by
  unfold rest
  split
  · rename_i hd
    have := congrArg List.length hd
    simp only [List.length_drop, List.length_nil] at this
    omega
  · rename_i hd
    rw [hd]

end Script

end StreamGuard
