import StreamGuard.Proofs.Likeness
import StreamGuard.Proofs.Loop

namespace StreamGuard

inductive Interleaves {α : Type} : List α → List α → List α → Prop
  | nil : Interleaves [] [] []
  | left {x : α} {xs ys both : List α} (h : Interleaves xs ys both) : Interleaves (x :: xs) ys (x :: both)
  | right {y : α} {xs ys both : List α} (h : Interleaves xs ys both) : Interleaves xs (y :: ys) (y :: both)

inductive Move
  | plain (op : Operation)
  | readLine (limit : Int) (budget : Nat)
  | next (budget : Nat)
  | readLines (hint : Int) (budget : Nat)

def Buffer.Whole (b : Buffer) : Prop := b.items * b.itemSize = b.size

namespace Buffer.Whole

variable {b b' : Buffer}

theorem zeroed (n : Nat) : (Buffer.zeroed n).Whole := by
  rw [Whole, items_zeroed, size_zeroed]
  exact Nat.mul_one n

theorem reused {σ : Type} [ByteSource σ] {n : Nat} (hb : b.Reused σ n) : b.Whole := by
  unfold Whole items size
  rw [hb.turns.itemSize]
  simp [Buffer.zeroed]

end Buffer.Whole

namespace Stack

variable {σ : Type}

def top? (s : Stack σ) : Option Reader :=
  match s.layers with
  | .reader r :: _ => some r
  | _ => none

def below (s : Stack σ) : Stack σ :=
  { s with layers := s.layers.tail }

theorem layers_of_top? {s : Stack σ} {r : Reader} (h : s.top? = some r) : s.layers = .reader r :: s.below.layers := by
  obtain ⟨_ | ⟨_ | _, below⟩, o⟩ := s <;> cases h
  rfl

theorem eq_of_top? {s : Stack σ} {r : Reader} (h : s.top? = some r) :
    s = ⟨.reader r :: s.below.layers, s.origin⟩ := by
  rw [← layers_of_top? h]

theorem layered_of_top? {s : Stack σ} {r : Reader} (h : s.top? = some r) : s.layers ≠ [] := by
  rw [layers_of_top? h]
  simp

theorem state?_of_top? {s : Stack σ} {r : Reader} (h : s.top? = some r) : s.state? = some r.state := by
  rw [state?, layers_of_top? h]

theorem state_of_state? {s : Stack σ} {r : Reader} {state : ReaderState} (h : s.top? = some r)
    (hs : s.state? = some state) : r.state = state := by
  rw [state?_of_top? h] at hs
  exact Option.some.inj hs

def play {α : Type} (step : Stack σ → α → Option (Turn (Stack σ × Option Buffer) Value)) (s : Stack σ) :
    List α → Option (List (Turn (Stack σ × Option Buffer) Value) × Stack σ)
  | [] => some ([], s)
  | m :: ms =>
    match step s m with
    | none => none
    | some turn => (play step turn.state.1 ms).map fun r => (turn :: r.1, r.2)

theorem play_cons {α : Type} {step : Stack σ → α → Option (Turn (Stack σ × Option Buffer) Value)} {s t : Stack σ}
    {m : α} {ms : List α} {turns : List (Turn (Stack σ × Option Buffer) Value)} :
    play step s (m :: ms) = some (turns, t) ↔
      ∃ turn rest, step s m = some turn ∧ play step turn.state.1 ms = some (rest, t) ∧ turns = turn :: rest := by
  simp only [play]
  cases step s m with
  | none => simp
  | some turn =>
    constructor
    · intro h
      obtain ⟨⟨rest, _⟩, hrest, he⟩ := Option.map_eq_some_iff.1 h
      cases he
      exact ⟨turn, rest, rfl, hrest, rfl⟩
    · rintro ⟨_, rest, ⟨⟩, hrest, rfl⟩
      simp [hrest]

variable [ByteSource σ]

def move (s : Stack σ) : Move → Option (Turn (Stack σ × Option Buffer) Value)
  | .plain op => s.operate op
  | .readLine limit budget => (s.readLine limit budget).map (bare .bytes)
  | .next budget =>
    (s.readLine (-1) budget).map (bare fun line => if line.isEmpty then .none else .bytes line)
  | .readLines hint budget => (s.readLines hint budget).map (bare .lines)

def Wrapped (s : Stack σ) : Prop :=
  ∀ b, s.readInto b =
    ⟨(s.request b).outcome.map some, (s.request b).buffer, (s.request b).state, (s.request b).events⟩

inductive Reaches (s : Stack σ) : List Event → Stack σ → Prop
  | refl : Reaches s [] s
  | request {t : Stack σ} {es : List Event} (h : Reaches s es t) (b : Buffer) :
      Reaches s (es ++ (t.request b).events) (t.request b).state
  | close {t : Stack σ} {es : List Event} (h : Reaches s es t) : Reaches s (es ++ t.close.events) t.close.state

theorem readInto_state_layered {s : Stack σ} (h : s.layers ≠ []) (b : Buffer) : (s.readInto b).state.layers ≠ [] := by
  rw [readInto_layered h]
  exact request_layered h b

theorem close_layered {s : Stack σ} (h : s.layers ≠ []) : s.close.state.layers ≠ [] := by
  intro hnil
  have hlen := length_closeLayers s.layers s.origin
  rw [← close, hnil] at hlen
  exact h (List.length_eq_zero_iff.1 hlen.symm)

theorem read_state (s : Stack σ) (n : Nat) : (s.read n).state = (s.request (.zeroed n)).state := by
  simp only [read]
  split
  · rfl
  · split
    · rfl
    · split <;> rfl

theorem read_of_count {s : Stack σ} {n k : Nat} (ho : (s.request (.zeroed n)).outcome = .ok k)
    (hk : k ≤ (s.request (.zeroed n)).buffer.size) :
    (s.read n).outcome = .ok ((s.request (.zeroed n)).buffer.bytes.take k) := by
  have hcount : (0 : Int) ≤ k ∧ (k : Int) ≤ (s.request (.zeroed n)).buffer.size := by omega
  simp only [read, ho, if_pos hcount, Int.toNat_natCast]

theorem read_events (s : Stack σ) (n : Nat) : (s.read n).events = (s.request (.zeroed n)).events := by
  simp only [read]
  split
  · rfl
  · split
    · rfl
    · split <;> rfl

section

variable {I : Stack σ → List Event → Prop} {fits : Buffer → Prop}
  (hfits : ∀ {n : Nat} {b : Buffer}, b.Reused σ n → fits b)
  (hI : ∀ {t es}, I t es → ∀ {b}, fits b → I (t.request b).state (es ++ (t.request b).events))
  {s : Stack σ} {es : List Event} (hi : I s es)

include hfits hI hi

theorem gatherReads_keeps {n : Nat} {enough : Nat → Bytes → Bool} {budget : Nat} {answer : Turn (Stack σ) (List Bytes)}
    (h : gather (fun t => some (untilEmpty (t.read n))) enough budget s {} = some answer) :
    I answer.state (es ++ answer.events) := by
  refine gather_keeps h (fun t fs => I t (es ++ fs)) ?_ (by simpa [Gathered.allEvents] using hi)
  rintro t fs turn ht hs
  cases hs
  rw [← List.append_assoc]
  simpa only [untilEmpty, read_state, read_events] using hI ht (hfits (.zeroed n))

theorem readLine_keeps {limit : Int} {budget : Nat} {turn : Turn (Stack σ) Bytes}
    (h : s.readLine limit budget = some turn) : I turn.state (es ++ turn.events) := by
  obtain ⟨answer, ha, rfl⟩ := Option.map_eq_some_iff.1 h
  exact gatherReads_keeps hfits hI hi ha

theorem readLines_keeps {hint : Int} {budget : Nat} {turn : Turn (Stack σ) (List Bytes)}
    (h : s.readLines hint budget = some turn) : I turn.state (es ++ turn.events) := by
  unfold readLines at h
  split at h
  · cases h
    simpa using hi
  · refine gather_keeps h (fun t fs => I t (es ++ fs)) ?_ (by simpa [Gathered.allEvents] using hi)
    rintro t fs turn ht hs
    obtain ⟨line, hline, rfl⟩ := Option.map_eq_some_iff.1 hs
    rw [← List.append_assoc]
    exact readLine_keeps hfits hI ht hline

theorem readToEnd_keeps (hl : ∀ {t es}, I t es → t.Wrapped) {chunk : Int} {budget : Nat}
    {turn : Turn (Stack σ) Bytes} (h : s.readToEnd chunk budget = some turn) : I turn.state (es ++ turn.events) := by
  unfold readToEnd at h
  split at h
  · cases h
    simpa using hi
  · obtain ⟨answer, ha, rfl⟩ := Option.map_eq_some_iff.1 h
    refine (gather_keeps ha (fun t fs => I t.1 (es ++ fs) ∧ t.2.Reused σ chunk.toNat) ?_
      ⟨by simpa [Gathered.allEvents] using hi, .zeroed _⟩).1
    rintro ⟨t, b⟩ fs turn ⟨ht, hb⟩ hs
    cases hs
    rw [← List.append_assoc]
    refine ⟨?_, hb.readInto t⟩
    simpa only [drainStep, hl ht b] using hI ht (hfits hb)

theorem move_keeps (hl : ∀ {t es}, I t es → t.Wrapped) {m : Move} (hm : m ≠ .plain .close)
    (hb : ∀ b, m = .plain (.readInto (some b)) → fits b)
    {turn : Turn (Stack σ × Option Buffer) Value} (h : s.move m = some turn) :
    I turn.state.1 (es ++ turn.events) := by
  cases m with
  | plain op =>
    cases op with
    | readInto b =>
      cases b with
      | none =>
        cases h
        simpa using hi
      | some b =>
        cases h
        simpa only [hl hi b] using hI hi (hb b rfl)
    | read n =>
      cases h
      simpa only [bare, read_state, read_events] using hI hi (hfits (.zeroed n))
    | readAll budget =>
      obtain ⟨all, hall, rfl⟩ := Option.map_eq_some_iff.1 h
      obtain ⟨answer, ha, rfl⟩ := Option.map_eq_some_iff.1 hall
      exact gatherReads_keeps hfits hI hi ha
    | readToEnd chunk budget =>
      obtain ⟨all, hall, rfl⟩ := Option.map_eq_some_iff.1 h
      exact readToEnd_keeps hfits hI hi hl hall
    | close => exact absurd rfl hm
  | readLine limit budget =>
    obtain ⟨line, hline, rfl⟩ := Option.map_eq_some_iff.1 h
    exact readLine_keeps hfits hI hi hline
  | next budget =>
    obtain ⟨line, hline, rfl⟩ := Option.map_eq_some_iff.1 h
    exact readLine_keeps hfits hI hi hline
  | readLines hint budget =>
    obtain ⟨lines, hlines, rfl⟩ := Option.map_eq_some_iff.1 h
    exact readLines_keeps hfits hI hi hlines

theorem play_keeps (hl : ∀ {t es}, I t es → t.Wrapped)
    (hclose : ∀ {t es}, I t es → I t.close.state (es ++ t.close.events)) {ms : List Move}
    (hms : ∀ b, .plain (.readInto (some b)) ∈ ms → fits b) {turns : List (Turn (Stack σ × Option Buffer) Value)}
    {t : Stack σ} (h : play move s ms = some (turns, t)) : I t (es ++ turns.flatMap Turn.events) := by
  induction ms generalizing s es turns with
  | nil =>
    cases h
    simpa using hi
  | cons m ms ih =>
    obtain ⟨turn, rest, hm, hrest, rfl⟩ := play_cons.1 h
    rw [List.flatMap_cons, ← List.append_assoc]
    refine ih ?_ (fun b hb => hms b (List.mem_cons_of_mem _ hb)) hrest
    by_cases hc : m = .plain .close
    · subst hc
      cases hm
      exact hclose hi
    · exact move_keeps hfits hI hi hl hc (fun b hb => hms b (by simp [hb])) hm

end

theorem move_reaches {s u : Stack σ} {es : List Event} (hs : u.layers ≠ []) (hr : Reaches s es u) {m : Move}
    {turn : Turn (Stack σ × Option Buffer) Value} (h : u.move m = some turn) :
    Reaches s (es ++ turn.events) turn.state.1 ∧ turn.state.1.layers ≠ [] := by
  by_cases hm : m = .plain .close
  · subst hm
    cases h
    exact ⟨hr.close, close_layered hs⟩
  · exact move_keeps (I := fun t es => Reaches s es t ∧ t.layers ≠ []) (fun _ => trivial)
      (fun ht b _ => ⟨ht.1.request b, request_layered ht.2 b⟩) ⟨hr, hs⟩ (fun ht => readInto_layered ht.2) hm
      (fun _ _ => trivial) h

theorem play_reaches {s : Stack σ} (hs : s.layers ≠ []) {ms : List Move}
    {turns : List (Turn (Stack σ × Option Buffer) Value)} {t : Stack σ} (h : play move s ms = some (turns, t)) :
    Reaches s (turns.flatMap Turn.events) t :=
  (play_keeps (I := fun t es => Reaches s es t ∧ t.layers ≠ []) (fun _ => trivial)
    (fun ht b _ => ⟨ht.1.request b, request_layered ht.2 b⟩) ⟨.refl, hs⟩ (fun ht => readInto_layered ht.2)
    (fun ht => ⟨ht.1.close, close_layered ht.2⟩) (fun _ _ => trivial) h).1

end Stack

end StreamGuard
