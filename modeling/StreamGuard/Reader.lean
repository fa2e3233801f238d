import StreamGuard.Event

namespace StreamGuard

structure DigestCheck where
  expected : Bytes
  algorithm : Algorithm := .sha256
  hashing : Option Sha256.Accumulator := some .empty
  deriving DecidableEq, Repr

structure BoundCheck where
  limit : Nat
  received : Int := 0
  deriving DecidableEq, Repr

inductive Check
  | digest (d : DigestCheck)
  | bound (b : BoundCheck)
  deriving DecidableEq, Repr

structure Ruling where
  outcome : Except Failure Int
  buffer : Buffer
  check : Check
  state : ReaderState
  events : List Event

namespace DigestCheck

def rule (d : DigestCheck) (count : Int) (b : Buffer) : Ruling :=
  match d.hashing with
  | none => ⟨.error .accumulatorSpent, b, .digest d, .streaming, []⟩
  | some acc =>
    if count ≠ 0 then
      ⟨.ok count, b, .digest { d with hashing := some (acc.update (b.bytes.upTo count)) }, .streaming, []⟩
    else
      let calculated := acc.finish
      let spent := Check.digest { d with hashing := none }
      if calculated = d.expected then
        ⟨.ok 0, b, spent, .succeeded, [.finalized, .log (.digestVerified d.algorithm calculated)]⟩
      else
        ⟨.error (.digestMismatch calculated d.expected), b, spent, .failed,
          [.finalized, .log (.digestMismatch d.algorithm calculated d.expected)]⟩

end DigestCheck

namespace BoundCheck

/-- The count is added whatever it is. Past the limit, the slice it names is cleared, which may itself fail. -/
def rule (c : BoundCheck) (count : Int) (b : Buffer) : Ruling :=
  let total := c.received + count
  let next := Check.bound { c with received := total }
  if c.limit < total then
    match b.clear count with
    | .error f => ⟨.error f, b, next, .failed, []⟩
    | .ok b' => ⟨.error (.sizeExceeded c.limit), b', next, .failed, [.log (.sizeExceeded c.limit total)]⟩
  else if count = 0 then
    ⟨.ok 0, b, next, .succeeded, [.log (.sizeWithin total c.limit)]⟩
  else
    ⟨.ok count, b, next, .streaming, []⟩

end BoundCheck

namespace Check

def rule : Check → Int → Buffer → Ruling
  | digest d => d.rule
  | bound c => c.rule

def abandon : Check → Check
  | digest d => .digest { d with hashing := none }
  | bound c => .bound c

end Check

structure Reader where
  check : Check
  state : ReaderState := .streaming
  closed : Bool := false
  deriving DecidableEq, Repr

namespace Reader

def digest (expected : Bytes) : Reader := { check := .digest { expected } }

def bound (limit : Nat) : Reader := { check := .bound { limit } }

def refusal (r : Reader) : Option Failure :=
  if r.closed then some .closedReader
  else if r.state ≠ .streaming then some (.streamEnded r.state)
  else none

def fail (r : Reader) : Reader :=
  { r with state := .failed, check := r.check.abandon }

def after (r : Reader) (f : Failure) : Reader :=
  if f.endsStream then r.fail else r

def settle (r : Reader) (ruling : Ruling) : Reader :=
  { r with check := ruling.check, state := ruling.state }

theorem refusal_eq_none_iff {r : Reader} :
    r.refusal = none ↔ r.closed = false ∧ r.state = .streaming := by
  unfold refusal
  cases r.closed <;> simp

theorem refusal_readerClosed {r : Reader} {f : Failure} (h : r.refusal = some f) :
    f.kind = .readerClosed := by
  unfold refusal at h
  split at h
  · cases h; rfl
  · split at h
    · cases h; rfl
    · cases h

theorem after_of_endsStream {r : Reader} {f : Failure} (h : f.endsStream = true) : r.after f = r.fail := by
  simp [after, h]

theorem after_of_not_endsStream {r : Reader} {f : Failure} (h : f.endsStream = false) : r.after f = r := by
  simp [after, h]

end Reader

theorem DigestCheck.rule_becomes (d : DigestCheck) (count : Int) (b : Buffer) :
    b.Becomes (d.rule count b).buffer := by
  simp only [rule]
  repeat' split
  all_goals exact .refl b

theorem BoundCheck.rule_becomes (c : BoundCheck) (count : Int) (b : Buffer) :
    b.Becomes (c.rule count b).buffer := by
  simp only [rule]
  split
  · split
    · exact .refl b
    · exact Buffer.clear_becomes ‹_›
  · split <;> exact .refl b

theorem Check.rule_becomes (c : Check) (count : Int) (b : Buffer) : b.Becomes (c.rule count b).buffer := by
  cases c with
  | digest d => exact d.rule_becomes count b
  | bound c => exact c.rule_becomes count b

end StreamGuard
