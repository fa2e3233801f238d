import StreamGuard.Origin
import StreamGuard.Reader

/-!
Stacks: layers, the outermost first, over an origin. Requests run inward through layers that may refuse them, and
what comes back is ruled on by each layer on the way out. Closing a stack closes each layer after all below it.
-/

namespace StreamGuard

/-- The adapter over a file or file-like object: it closes only a file that it opened itself. -/
structure FileAdapter where
  bytesRead : Int := 0
  attached : Bool := true
  owned : Bool := false
  deriving DecidableEq, Repr

inductive Layer
  | reader (r : Reader)
  | file (a : FileAdapter)
  deriving DecidableEq, Repr

structure Stack (σ : Type) where
  layers : List Layer
  origin : Origin σ

namespace Reader

variable {σ : Type}

def atop (r : Reader) (below : Fill (Stack σ) Int) : Fill (Stack σ) Int :=
  match below.outcome with
  | .error f =>
    ⟨.error f, below.buffer, { below.state with layers := .reader (r.after f) :: below.state.layers },
      below.events⟩
  | .ok count =>
    let ruling := r.check.rule count below.buffer
    ⟨ruling.outcome, ruling.buffer,
      { below.state with layers := .reader (r.settle ruling) :: below.state.layers },
      below.events ++ ruling.events⟩

theorem atop_becomes (r : Reader) (below : Fill (Stack σ) Int) : below.buffer.Becomes (r.atop below).buffer := by
  simp only [atop]
  split
  · exact .refl _
  · exact Check.rule_becomes ..

end Reader

namespace FileAdapter

variable {σ : Type}

def atop (a : FileAdapter) (below : Fill (Stack σ) Int) : Fill (Stack σ) Int :=
  let counted := match below.outcome with
    | .error _ => a
    | .ok count => { a with bytesRead := a.bytesRead + count }
  { below with state := { below.state with layers := .file counted :: below.state.layers } }

end FileAdapter

namespace Stack

variable {σ : Type} [ByteSource σ]

def serve (intake : Intake) : List Layer → Origin σ → Buffer → Fill (Stack σ) Int
  | [], o, b =>
    let fill := o.supply intake b
    ⟨fill.outcome, fill.buffer, ⟨[], fill.state⟩, fill.events⟩
  | .reader r :: below, o, b =>
    match r.refusal with
    | some f => ⟨.error f, b, ⟨.reader r :: below, o⟩, []⟩
    | none =>
      if b.size = 0 then ⟨.ok 0, b, ⟨.reader r :: below, o⟩, []⟩
      else r.atop (serve .checked below o b)
  | .file a :: below, o, b =>
    if a.attached then a.atop (serve .unchecked below o b)
    else ⟨.error .closedSource, b, ⟨.file a :: below, o⟩, []⟩

def bufferless : List Layer → Origin σ → Failure
  | [], o => o.bufferless
  | .reader r :: _, _ => r.refusal.getD .noBuffer
  | .file a :: below, o => if a.attached then bufferless below o else .closedSource

def closeLayers : List Layer → Origin σ → Turn (Stack σ) Unit
  | [], o =>
    let turn := o.close
    ⟨turn.outcome, ⟨[], turn.state⟩, turn.events⟩
  | .reader r :: below, o =>
    if r.closed then ⟨.ok (), ⟨.reader r :: below, o⟩, []⟩
    else
      let turn := closeLayers below o
      ⟨turn.outcome, { turn.state with layers := .reader { r with closed := true } :: turn.state.layers },
        turn.events⟩
  | .file a :: below, o =>
    if a.owned && a.attached then
      let turn := closeLayers below o
      match turn.outcome with
      | .error f => ⟨.error f, { turn.state with layers := .file a :: turn.state.layers }, turn.events⟩
      | .ok _ =>
        ⟨.ok (), { turn.state with layers := .file { a with attached := false } :: turn.state.layers },
          turn.events⟩
    else ⟨.ok (), ⟨.file { a with attached := false } :: below, o⟩, []⟩

def request (s : Stack σ) (b : Buffer) : Fill (Stack σ) Int :=
  serve .checked s.layers s.origin b

def readInto (s : Stack σ) (b : Buffer) : Fill (Stack σ) (Option Int) :=
  match s.layers, s.origin with
  | [], .direct source =>
    if (ByteSource.api source).readInto then
      let filled := ByteSource.readInto source b
      ⟨filled.outcome, filled.buffer, ⟨[], .direct filled.source⟩, [.call (.readInto b.size)]⟩
    else ⟨.error (.noMethod .source "readinto"), b, s, []⟩
  | layers, origin =>
    let fill := serve .checked layers origin b
    ⟨fill.outcome.map some, fill.buffer, fill.state, fill.events⟩

def noBuffer (s : Stack σ) : Failure :=
  match s.layers, s.origin with
  | [], .direct source =>
    if (ByteSource.api source).readInto then ByteSource.noBuffer source else .noMethod .source "readinto"
  | layers, origin => bufferless layers origin

def close (s : Stack σ) : Turn (Stack σ) Unit :=
  closeLayers s.layers s.origin

def push (s : Stack σ) (l : Layer) : Stack σ :=
  { s with layers := l :: s.layers }

theorem serve_turns (intake : Intake) (layers : List Layer) (o : Origin σ) (b : Buffer) :
    b.Turns (serve intake layers o b).buffer := by
  induction layers generalizing intake with
  | nil => exact o.supply_turns intake b
  | cons l below ih =>
    cases l with
    | reader r =>
      simp only [serve]
      split
      · exact .refl b
      · split
        · exact .refl b
        · exact (ih .checked).trans (r.atop_becomes _).toTurns
    | file a =>
      simp only [serve]
      split
      · exact ih .unchecked
      · exact .refl b

theorem serve_size [KeepsLength σ] (intake : Intake) (layers : List Layer) (o : Origin σ) (b : Buffer) :
    (serve intake layers o b).buffer.size = b.size := by
  induction layers generalizing intake with
  | nil => exact o.supply_size intake b
  | cons l below ih =>
    cases l with
    | reader r =>
      simp only [serve]
      split
      · rfl
      · split
        · rfl
        · exact (r.atop_becomes _).size.trans (ih .checked)
    | file a =>
      simp only [serve]
      split
      · exact ih .unchecked
      · rfl

theorem length_serve (intake : Intake) (layers : List Layer) (o : Origin σ) (b : Buffer) :
    (serve intake layers o b).state.layers.length = layers.length := by
  induction layers generalizing intake with
  | nil => rfl
  | cons l below ih =>
    cases l with
    | reader r =>
      simp only [serve]
      split
      · rfl
      · split
        · rfl
        · simp only [Reader.atop]
          split <;> simp [ih]
    | file a =>
      simp only [serve]
      split
      · simp [FileAdapter.atop, ih]
      · rfl

theorem length_closeLayers (layers : List Layer) (o : Origin σ) :
    (closeLayers layers o).state.layers.length = layers.length := by
  induction layers with
  | nil => rfl
  | cons l below ih =>
    cases l with
    | reader r =>
      simp only [closeLayers]
      split
      · rfl
      · simp [ih]
    | file a =>
      simp only [closeLayers]
      split
      · split <;> simp [ih]
      · rfl

end Stack

end StreamGuard
