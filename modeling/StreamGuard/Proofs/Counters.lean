import StreamGuard.Proofs.Accumulator
import StreamGuard.Proofs.Gauge
import StreamGuard.Proofs.Openings
import StreamGuard.Proofs.Uses

namespace StreamGuard

def added : Except Failure Int → Int
  | .ok count => count
  | .error _ => 0

/-- The source gives no more than it is asked for, tells how much that is, and gives nothing if it fails. All that it
has given is `taken`. -/
structure ByteSource.Exact {σ : Type} [ByteSource σ] (I : σ → Prop) (taken : σ → Nat) : Prop extends Modest I where
  taken_readInto : ∀ {s} b, I s → taken (ByteSource.readInto s b).source =
    taken s + Gauged.counted (ByteSource.readInto s b).outcome
  taken_read : ∀ {s} n, I s → taken (ByteSource.read s n).source =
    taken s + Gauged.measured (ByteSource.read s n).outcome
  close : ∀ {s}, I s → I (ByteSource.close s).source
  taken_close : ∀ {s}, I s → taken (ByteSource.close s).source = taken s

theorem Gauged.exact {σ : Type} [ByteSource σ] {I : σ → Prop} (hI : ByteSource.Modest I)
    (hclose : ∀ {s}, I s → I (ByteSource.close s).source) :
    ByteSource.Exact (fun g : Gauged σ => I g.source) Gauged.given where
  toTells := Gauged.tells hI.toTells
  read_le hs ho := hI.read_le hs ho
  taken_readInto _ _ := rfl
  taken_read _ _ := rfl
  close hs := hclose hs
  taken_close _ := rfl

theorem Buffer.receive_writable {b : Buffer} (hw : b.writable = true) {intake : Intake} {bs : Bytes}
    (hfit : bs.length ≤ b.items) : (b.receive intake (.bytes bs)).1 = .ok bs.length := by
  have hput := Buffer.put_eq_ok.2 ⟨hw, Nat.le_trans hfit b.items_le_size, rfl⟩
  have hover : ¬ (intake = .checked ∧ b.items < bs.length) := fun h => Nat.not_le.2 h.2 hfit
  simp only [receive, if_neg hover, hput]

namespace Origin

variable {σ : Type} [ByteSource σ] {I : σ → Prop} {taken : σ → Nat} (hσ : ByteSource.Exact I taken)

include hσ

theorem copy_exact {s : σ} (hs : I s) (intake : Intake) {b : Buffer} (hw : b.writable = true) :
    (taken (copy intake s b).state : Int) = taken s + added ((copy intake s b).outcome.map Int.ofNat) := by
  rw [copy_source, hσ.taken_read _ hs]
  simp only [copy]
  rcases hread : (ByteSource.read s b.items).outcome with f | bs | t | _
  · simp [Gauged.measured, added, Except.map]
  · simp [Gauged.measured, added, Except.map, Buffer.receive_writable hw (hσ.read_le hs hread)]
  · simp only [Gauged.measured, Buffer.receive]
    split <;> simp [added, Except.map]
  · simp [Gauged.measured, added, Except.map, Buffer.receive]

theorem supply_exact {o : Origin σ} (ho : I o.source) (intake : Intake) {b : Buffer} (hw : b.writable = true) :
    (taken (o.supply intake b).state.source : Int) = taken o.source + added (o.supply intake b).outcome := by
  cases o with
  | direct s =>
    change I s at ho
    simp only [supply, supplyDirect, source]
    by_cases hinto : (ByteSource.api s).readInto = true
    · simp only [if_pos hinto]
      rw [hσ.taken_readInto b ho]
      rcases hread : (ByteSource.readInto s b).outcome with f | _ | count
      · simp [Gauged.counted, countOf, added]
      · simp [Gauged.counted, countOf, added]
      · obtain ⟨hpos, -⟩ := hσ.counted ho hread
        simp only [Gauged.counted, countOf, added]
        omega
    · by_cases hread : (ByteSource.api s).read = true
      · simp only [if_neg hinto, if_pos hread]
        exact copy_exact hσ ho intake hw
      · simp [if_neg hinto, if_neg hread, added]
  | remote r s =>
    have hcopy := copy_exact hσ ho .unchecked hw
    simp only [supply, supplyRemote, source] at hcopy ⊢
    by_cases hatt : r.attached = true
    · simp only [if_pos hatt]
      cases hout : (copy .unchecked s b).outcome with
      | error f => simpa [hout, added, Except.map] using hcopy
      | ok n => simpa [hout, added, Except.map] using hcopy
    · simp [if_neg hatt, added]

theorem close_exact {o : Origin σ} (ho : I o.source) :
    I o.close.state.source ∧ taken o.close.state.source = taken o.source := by
  cases o with
  | direct s =>
    simp only [close]
    split
    · exact ⟨hσ.close ho, hσ.taken_close ho⟩
    · exact ⟨ho, rfl⟩
  | remote r s =>
    simp only [close]
    split
    · split <;> exact ⟨hσ.close ho, hσ.taken_close ho⟩
    · exact ⟨ho, rfl⟩

end Origin

namespace Stack

section

variable {σ : Type}

def counter? (s : Stack σ) : Option Int :=
  match s.layers, s.origin with
  | .file a :: _, _ => some a.bytesRead
  | [], .remote r _ => some r.bytesRead
  | _, _ => none

variable [ByteSource σ] {s : Stack σ} {n : Int}

theorem request_counter (h : s.counter? = some n) (b : Buffer) :
    (s.request b).state.counter? = some (n + added (s.request b).outcome) := by
  obtain ⟨_ | ⟨_ | a, below⟩, o⟩ := s
  · cases o with
    | direct => cases h
    | remote r body =>
      cases h
      simp only [request, serve, Origin.supply, Origin.supplyRemote]
      split
      · split <;> simp [counter?, added]
      · simp [counter?, added]
  · cases h
  · cases h
    simp only [request, serve]
    split
    · simp only [FileAdapter.atop]
      split <;> simp [counter?, added, *]
    · simp [counter?, added]

theorem close_counter (h : s.counter? = some n) : s.close.state.counter? = some n := by
  obtain ⟨_ | ⟨_ | a, below⟩, o⟩ := s
  · cases o with
    | direct => cases h
    | remote r body =>
      cases h
      simp only [close, closeLayers, Origin.close]
      split
      · split <;> rfl
      · rfl
  · cases h
  · cases h
    simp only [close, closeLayers]
    split
    · split <;> rfl
    · rfl

end

section

variable {σ : Type} [ByteSource σ]

structure Tracks (P : Stack σ → Int → Prop) (fits : Buffer → Prop) : Prop where
  request : ∀ {s n b}, P s n → fits b → P (s.request b).state (n + added (s.request b).outcome)
  close : ∀ {s n}, P s n → P s.close.state n

theorem tracks_counter (fits : Buffer → Prop) : Tracks (fun (s : Stack σ) n => s.counter? = some n) fits where
  request h _ := request_counter h _
  close h := close_counter h

structure Drawing (I : σ → Prop) (taken : σ → Nat) (before : Nat) (s : Stack σ) (n : Int) : Prop where
  counter : s.counter? = some n
  bare : s.layers.tail = []
  source : I s.origin.source
  taken : (taken s.origin.source : Int) = before + n

omit [ByteSource σ] in
theorem Drawing.cases {I : σ → Prop} {taken : σ → Nat} {before : Nat} {s : Stack σ} {n : Int}
    (h : Drawing I taken before s n) : s = ⟨[], s.origin⟩ ∨ ∃ a, s = ⟨[.file a], s.origin⟩ := by
  obtain ⟨hcount, hbare, -, -⟩ := h
  obtain ⟨_ | ⟨_ | a, below⟩, o⟩ := s
  · exact .inl rfl
  · cases hcount
  · cases hbare
    exact .inr ⟨a, rfl⟩

theorem tail_eq_nil {α : Type} {xs ys : List α} (h : xs.length = ys.length) (hy : ys.tail = []) : xs.tail = [] := by
  apply List.eq_nil_of_length_eq_zero
  rw [List.length_tail, h, ← List.length_tail, hy]
  rfl

section

variable {I : σ → Prop} {taken : σ → Nat} (hσ : ByteSource.Exact I taken) {before : Nat} {s : Stack σ} {n : Int}
  (h : Drawing I taken before s n)

include hσ h

theorem Drawing.request {b : Buffer} (hw : b.writable = true) :
    Drawing I taken before (s.request b).state (n + added (s.request b).outcome) := by
  have htaken : (taken (s.request b).state.origin.source : Int) =
      taken s.origin.source + added (s.request b).outcome := by
    obtain hs | ⟨a, hs⟩ := h.cases
    · rw [hs]
      exact Origin.supply_exact hσ h.source .checked hw
    · rw [hs]
      simp only [Stack.request, serve]
      split
      · exact Origin.supply_exact hσ h.source .unchecked hw
      · simp [added]
  refine ⟨request_counter h.counter b, tail_eq_nil (length_serve ..) h.bare, ?_, ?_⟩
  · exact (serve_tells hσ.toTells Buffer.holds_of_le_room h.source b).2
  · rw [htaken, h.taken, Int.add_assoc]

theorem Drawing.close : Drawing I taken before s.close.state n := by
  obtain ⟨hkept, hsame⟩ := Origin.close_exact hσ h.source
  have hclose : s.close.state.origin = s.origin ∨ s.close.state.origin = s.origin.close.state := by
    obtain hs | ⟨a, hs⟩ := h.cases
    · rw [hs]
      exact .inr rfl
    · rw [hs]
      simp only [Stack.close, closeLayers]
      repeat' split
      · exact .inr rfl
      · exact .inr rfl
      · exact .inl rfl
  refine ⟨close_counter h.counter, tail_eq_nil (length_closeLayers ..) h.bare, ?_, ?_⟩
  · obtain hs | hs := hclose
    · rw [hs]
      exact h.source
    · rw [hs]
      exact hkept
  · obtain hs | hs := hclose
    · rw [hs]
      exact h.taken
    · rw [hs, hsame]
      exact h.taken

end

theorem tracks_drawing {I : σ → Prop} {taken : σ → Nat} (hσ : ByteSource.Exact I taken) (before : Nat) :
    Tracks (Drawing I taken before) (fun b => b.writable = true) where
  request h hw := h.request hσ hw
  close h := h.close hσ

def Levelled (P : Stack σ → Int → Prop) (s : Stack σ) (limit : Nat) (n : Int) : Prop :=
  ∃ r, s.top? = some r ∧ r.check = .bound ⟨limit, n⟩ ∧ P s.below n

namespace Levelled

variable {P : Stack σ → Int → Prop} {fits : Buffer → Prop} (hP : Tracks P fits) {s : Stack σ} {limit : Nat} {n : Int}
  (h : Levelled P s limit n)

include hP h

theorem request {b : Buffer} (hb : fits b) :
    ∃ n', Levelled P (s.request b).state limit n' ∧ (n' = n + added (s.request b).outcome ∨ limit < n') := by
  obtain ⟨r, hr, hcheck, hbelow⟩ := h
  have hnext := hP.request hbelow hb
  have htouch := touched hr (.request b)
  change ∃ n', Levelled P (s.touch (.request b)).stack limit n' ∧ _
  generalize s.touch (.request b) = x at htouch ⊢
  cases htouch with
  | refused _ hout =>
    rw [hout, added, Int.add_zero]
    exact ⟨n, ⟨r, hr, hcheck, hbelow⟩, .inl rfl⟩
  | empty _ _ hout =>
    rw [hout, added, Int.add_zero]
    exact ⟨n, ⟨r, hr, hcheck, hbelow⟩, .inl rfl⟩
  | @failed _ f _ _ ho hout =>
    rw [ho, added, Int.add_zero] at hnext
    rw [hout, added, Int.add_zero]
    exact ⟨n, ⟨_, rfl, Reader.bound_after hcheck f, hnext⟩, .inl rfl⟩
  | @ruled _ count ruling _ _ ho hrule hout =>
    rw [ho, added] at hnext
    rw [hcheck] at hrule
    by_cases hl : n + count ≤ limit
    · obtain ⟨state, events, -, hr'⟩ := BoundCheck.rule_within (c := ⟨limit, n⟩) hl (s.below.request b).buffer
      cases hr'.symm.trans hrule
      rw [hout, added]
      exact ⟨n + count, ⟨_, rfl, rfl, hnext⟩, .inl rfl⟩
    · have hover : limit < n + count := Int.not_le.1 hl
      obtain ⟨f, b', events, hr'⟩ := BoundCheck.rule_beyond (c := ⟨limit, n⟩) hover (s.below.request b).buffer
      cases hr'.symm.trans hrule
      exact ⟨n + count, ⟨_, rfl, rfl, hnext⟩, .inr hover⟩

theorem close : Levelled P s.close.state limit n := by
  obtain ⟨r, hr, hcheck, hbelow⟩ := h
  have htouch := touched hr .close
  change Levelled P (s.touch .close).stack limit n
  generalize s.touch .close = x at htouch ⊢
  cases htouch with
  | shut => exact ⟨r, hr, hcheck, hbelow⟩
  | closing => exact ⟨_, rfl, hcheck, hP.close hbelow⟩

theorem touch {a : Touch} (ha : ∀ b, a = .request b → fits b) : ∃ n', Levelled P (s.touch a).stack limit n' := by
  cases a with
  | request b =>
    obtain ⟨n', h', -⟩ := h.request hP (ha b rfl)
    exact ⟨n', h'⟩
  | close => exact ⟨n, h.close hP⟩

end Levelled

def bounding (base : Stack σ) (limit : Nat) : Stack σ :=
  base.push (.reader (.bound limit))

def verifying (base : Stack σ) (limit : Nat) (expected : Bytes) : Stack σ :=
  (bounding base limit).push (.reader (.digest expected))

theorem chronicle_levelled {P : Stack σ → Int → Prop} {fits : Buffer → Prop} (hP : Tracks P fits) {base : Stack σ}
    (h : P base 0) (limit : Nat) {as : List Touch} (has : ∀ b, .request b ∈ as → fits b) :
    ∃ n, Levelled P ((bounding base limit).chronicle as).stack limit n := by
  induction as using List.reverseRecOn with
  | nil => exact ⟨0, .bound limit, rfl, rfl, h⟩
  | append_singleton as a ih =>
    obtain ⟨n, hn⟩ := ih fun b hb => has b (by simp [hb])
    rw [chronicle_concat]
    exact hn.touch hP fun b hb => has b (by simp [hb])

theorem chronicle_levelled_below {P : Stack σ → Int → Prop} {fits : Buffer → Prop} (hP : Tracks P fits)
    {base : Stack σ} (h : P base 0) (limit : Nat) (expected : Bytes) {as : List Touch}
    (has : ∀ b, .request b ∈ as → fits b) :
    ∃ n, Levelled P ((verifying base limit expected).chronicle as).stack.below limit n := by
  refine chronicle_below (Q := fun u => ∃ n, Levelled P u limit n) (top?_push _ _) ?_ ?_ ?_ has
  · rintro u b ⟨n, hn⟩ hb
    obtain ⟨n', hn', -⟩ := hn.request hP hb
    exact ⟨n', hn'⟩
  · rintro u ⟨n, hn⟩
    exact ⟨n, hn.close hP⟩
  · exact ⟨0, .bound limit, rfl, rfl, h⟩

section

variable {I : σ → Prop} {taken : σ → Nat} (hσ : ByteSource.Exact I taken) {before limit : Nat}

include hσ

theorem touch_fed {s : Stack σ} {r : Reader} (hr : s.top? = some r) {expected D : Bytes}
    (hhash : r.Hashing expected D) {n : Int} (h : Levelled (Drawing I taken before) s.below limit n)
    (hD : n ≤ limit → (D.length : Int) = n) {a : Touch} (ha : ∀ b, a = .request b → b.writable = true) :
    ∃ n', Levelled (Drawing I taken before) (s.touch a).stack.below limit n' ∧
      (n' ≤ limit → ((D ++ (s.touch a).handed).length : Int) = n') := by
  have htouch := touched hr a
  generalize s.touch a = x at htouch ⊢
  cases htouch with
  | refused | empty | shut =>
    rw [List.append_nil]
    exact ⟨n, h, hD⟩
  | failed _ _ ho =>
    obtain ⟨n', hn', hgrown⟩ := h.request (tracks_drawing hσ before) (ha _ rfl)
    rw [ho, added, Int.add_zero] at hgrown
    rw [List.append_nil]
    refine ⟨n', hn', fun hl => ?_⟩
    obtain rfl | hover := hgrown
    · exact hD hl
    · omega
  | @ruled b count ruling hf _ ho hrule =>
    obtain ⟨n', hn', hgrown⟩ := h.request (tracks_drawing hσ before) (ha _ rfl)
    rw [ho, added] at hgrown
    refine ⟨n', hn', fun hl => ?_⟩
    have hholds : (s.below.request b).buffer.Holds count := by
      obtain ⟨_, _, _, hdraw⟩ := h
      exact (serve_tells hσ.toTells Buffer.holds_of_le_room hdraw.source b).1 count ho
    have hslice := hholds.length_upTo
    have hpos := hholds.1
    have hbefore := hD (by omega)
    cases DigestCheck.rules_of_check (hhash.streaming (Reader.streaming_of_refusal hf)) hrule with
    | piece =>
      change ((D ++ (s.below.request b).buffer.bytes.upTo count).length : Int) = n'
      rw [List.length_append]
      omega
    | verified | mismatched =>
      simp only [Buffer.handed, Except.map, Bytes.upTo_zero, List.append_nil]
      omega
  | closing =>
    rw [List.append_nil]
    exact ⟨n, h.close (tracks_drawing hσ before), hD⟩

theorem chronicle_fed {base : Stack σ} (h : Drawing I taken before base 0) (limit : Nat) (expected : Bytes)
    {as : List Touch} (has : ∀ b, .request b ∈ as → b.writable = true) :
    let x := (verifying base limit expected).chronicle as
    ∃ n, Levelled (Drawing I taken before) x.stack.below limit n ∧ (n ≤ limit → (x.handed.length : Int) = n) := by
  induction as using List.reverseRecOn with
  | nil => exact ⟨0, ⟨.bound limit, rfl, rfl, h⟩, fun _ => rfl⟩
  | append_singleton as a ih =>
    obtain ⟨n, hn, hhanded⟩ := ih fun b hb => has b (by simp [hb])
    obtain ⟨r, hr, hhash⟩ := chronicle_hashing (bounding base limit) expected as
    rw [chronicle_concat]
    exact touch_fed hσ hr hhash hn hhanded fun b hb => has b (by simp [hb])

end

end

end Stack

end StreamGuard
