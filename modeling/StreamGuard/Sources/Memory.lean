import StreamGuard.ByteSource

namespace StreamGuard

structure Memory where
  position : Nat
  rest : Bytes
  ending : Option Failure := none
  closed : Bool := false
  deriving DecidableEq, Repr

namespace Memory

def ofBytes (bs : Bytes) (position : Nat) : Memory :=
  { position, rest := bs.drop position }

def opened (bs : Bytes) (ending : Option Failure) : Memory :=
  { position := 0, rest := bs, ending }

def startingAt (bs : Bytes) (position : Int) : Except Failure Memory :=
  if !Buffer.isIndex position then .error .sizeOverflow
  else if position < 0 then .error (.negativeSeek position)
  else .ok (ofBytes bs position.toNat)

def advance (m : Memory) (n : Nat) : Memory :=
  { m with position := m.position + (m.rest.take n).length, rest := m.rest.drop n }

/-- The answer of a call that takes `n` bytes. One that wants more than there are meets the failure at the end. -/
def answer {α : Type} (m : Memory) (wants : Bool) (a : α) (n : Nat) : Reply Memory α :=
  if m.closed then ⟨.error .closedFile, m⟩
  else ⟨if wants then m.ending.elim (.ok a) .error else .ok a, m.advance n⟩

def read (m : Memory) (n : Nat) : Reply Memory Chunk :=
  m.answer (m.rest.isEmpty && n != 0) (.bytes (m.rest.take n)) n

def readAll (m : Memory) : Reply Memory Chunk :=
  m.answer true (.bytes m.rest) m.rest.length

def readInto (m : Memory) (b : Buffer) : Filled Memory :=
  if !b.writable then ⟨.error .readOnlyTarget, b, m⟩
  else
    let front := m.rest.take b.size
    let reply := m.answer (m.rest.isEmpty && b.size != 0) front b.size
    match reply.outcome with
    | .error f => ⟨.error f, b, reply.source⟩
    | .ok front => ⟨.ok (some front.length), { b with bytes := b.bytes.overwrite front }, reply.source⟩

def close (m : Memory) : Reply Memory Unit :=
  ⟨.ok (), { m with closed := true }⟩

def firstLine : Bytes → Bytes
  | [] => []
  | b :: bs => if b = 10 then [b] else b :: firstLine bs

def nextLine (limit : Int) (m : Memory) : Bytes :=
  let line := firstLine m.rest
  if 0 ≤ limit then line.take limit.toNat else line

def isCut (limit : Int) (m : Memory) : Bool :=
  !m.rest.contains 10 && (limit < 0 || m.rest.length < limit)

def readLine (limit : Int) (m : Memory) : Reply Memory Bytes :=
  m.answer (m.isCut limit) (m.nextLine limit) (m.nextLine limit).length

def takeLines (hint : Int) : Nat → Nat → Memory → Reply Memory (List Bytes)
  | 0, _, m => ⟨.ok [], m⟩
  | budget + 1, total, m =>
    let reply := m.readLine (-1)
    match reply.outcome with
    | .error f => ⟨.error f, reply.source⟩
    | .ok line =>
      let total' := total + line.length
      if line.isEmpty then ⟨.ok [], reply.source⟩
      else if 0 < hint ∧ hint ≤ total' then ⟨.ok [line], reply.source⟩
      else
        let later := takeLines hint budget total' reply.source
        ⟨later.outcome.map (line :: ·), later.source⟩

def readLines (hint : Int) (m : Memory) : Reply Memory (List Bytes) :=
  takeLines hint (m.rest.length + 1) 0 m

@[simp] theorem answer_closed {α : Type} (m : Memory) (wants : Bool) (a : α) (n : Nat) :
    (m.answer wants a n).source.closed = m.closed := by
  unfold answer
  split <;> rfl

theorem eq_of_answer {α : Type} {m : Memory} {wants : Bool} {a a' : α} {n : Nat}
    (h : (m.answer wants a n).outcome = .ok a') : a' = a := by
  unfold answer at h
  split at h
  · cases h
  · cases wants <;> cases he : m.ending <;> simp_all

theorem readInto_becomes (m : Memory) (b : Buffer) : b.Becomes (m.readInto b).buffer := by
  unfold readInto
  split
  · exact .refl b
  · rename_i hw
    simp only
    split
    · exact .refl b
    · rename_i front hfront
      refine .overwrite (by simpa using hw) ?_
      rw [eq_of_answer hfront, List.length_take]
      omega

instance : ByteSource Memory where
  api _ := {}
  readInto := readInto
  read := read
  close := close
  noBuffer _ := .noReadTarget
  readInto_turns m b := (m.readInto_becomes b).toTurns

instance : KeepsLength Memory where
  readInto_size m b := (m.readInto_becomes b).size

end Memory

end StreamGuard
