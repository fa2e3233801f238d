import StreamGuard.Proofs.Likeness
import StreamGuard.Proofs.Tally
import StreamGuard.Sources.Careless

/-!
A digest and a limit can be put over a source in either order. Main statement: over a source whose counts can be true,
no caller can tell the two orders apart, even by what it sees after a failure.
-/

namespace StreamGuard

/-- The count may be the number of bytes that were put into the buffer. -/
def Buffer.Holds (b : Buffer) (count : Int) : Prop :=
  0 ≤ count ∧ count ≤ b.room

/-- The buffer has as many bytes as are counted, though none may have been put there. -/
def Buffer.Spans (b : Buffer) (count : Int) : Prop :=
  0 ≤ count ∧ count ≤ b.size

theorem Buffer.holds_of_le_room (b : Buffer) (n : Nat) (h : n ≤ b.room) : b.Holds n :=
  ⟨Int.natCast_nonneg n, Int.ofNat_le.2 h⟩

theorem Buffer.Spans.holds {b : Buffer} {k : Int} (h : b.Spans k) (hw : b.writable = true) : b.Holds k :=
  ⟨h.1, by simpa only [room, hw, if_true] using h.2⟩

theorem Buffer.Holds.clear {b : Buffer} {k : Int} (h : b.Holds k) (hk : k ≠ 0) :
    ∃ cleared, b.clear k = .ok cleared := by
  obtain ⟨hpos, hroom⟩ := h
  cases hw : b.writable with
  | false =>
    simp only [room, hw] at hroom
    exact absurd (Int.le_antisymm hroom hpos) hk
  | true =>
    simp only [room, hw, if_true] at hroom
    exact ⟨_, clear_eq_ok.2 ⟨hw, hpos, hroom, rfl⟩⟩

theorem Buffer.Holds.length_upTo {b : Buffer} {k : Int} (h : b.Holds k) : ((b.bytes.upTo k).length : Int) = k := by
  obtain ⟨hpos, hroom⟩ := h
  obtain ⟨n, rfl⟩ := Int.eq_ofNat_of_zero_le hpos
  have hfit : n ≤ b.bytes.length := by
    have := b.room_le_size
    simp only [size] at this
    omega
  simp only [Bytes.upTo_natCast, List.length_take, Nat.min_eq_left hfit]

def Buffer.Clearable (fits : Buffer → Prop) (P : Buffer → Int → Prop) : Prop :=
  ∀ b b' k, fits b → b.size ≠ 0 → b.Turns b' → P b' k → k ≠ 0 → ∃ cleared, b'.clear k = .ok cleared

theorem Buffer.clearable_holds : Clearable (fun _ => True) Holds :=
  fun _ _ _ _ _ _ hk hz => hk.clear hz

theorem Buffer.clearable_spans : Clearable (fun b => b.writable = true ∨ b.size = 0) Spans := by
  intro b b' k hb hsize hturns hk hz
  have hw : b'.writable = true := hturns.writable.trans (hb.resolve_right hsize)
  exact (hk.holds hw).clear hz

theorem Reader.atop_ruled {σ : Type} {r : Reader} {x : Fill (Stack σ) Int} {count : Int} {ruling : Ruling}
    (h : x.outcome = .ok count) (hrule : r.check.rule count x.buffer = ruling) :
    r.atop x =
      ⟨ruling.outcome, ruling.buffer, x.state.push (.reader (r.settle ruling)), x.events ++ ruling.events⟩ := by
  rw [atop_ok h, hrule]

namespace Stack

variable {σ : Type}

def digestOuter (base : Stack σ) (d : DigestCheck) (c : BoundCheck) (closed : Bool) : Stack σ :=
  (base.push (.reader ⟨.bound c, .streaming, closed⟩)).push (.reader ⟨.digest d, .streaming, closed⟩)

def limitOuter (base : Stack σ) (d : DigestCheck) (c : BoundCheck) (closed : Bool) : Stack σ :=
  (base.push (.reader ⟨.digest d, .streaming, closed⟩)).push (.reader ⟨.bound c, .streaming, closed⟩)

variable [ByteSource σ]

inductive Swapped (P : Buffer → Int → Prop) : Stack σ → Stack σ → Prop
  | streaming {base : Stack σ} {d : DigestCheck} {acc : Sha256.Accumulator} {c : BoundCheck} {closed : Bool}
      (hbase : closed = false → base.Tells P) (hd : d.hashing = some acc) (hc : c.received ≤ c.limit) :
      Swapped P (digestOuter base d c closed) (limitOuter base d c closed)
  | ended {base : Stack σ} {outer outer' inner inner' : Reader} (hended : outer.state ≠ .streaming)
      (hstate : outer.state = outer'.state) (hclosed : outer.closed = outer'.closed)
      (hinner : inner.closed = outer.closed) (hinner' : inner'.closed = outer'.closed) :
      Swapped P ((base.push (.reader inner)).push (.reader outer)) ((base.push (.reader inner')).push (.reader outer'))

theorem close_push_closed {r : Reader} (hr : r.closed = true) (base : Stack σ) :
    (base.push (.reader r)).close = ⟨.ok (), base.push (.reader r), []⟩ := by
  simp only [Stack.close, push, closeLayers, hr, if_true]

theorem close_push_open {r : Reader} (hr : r.closed = false) (base : Stack σ) :
    (base.push (.reader r)).close =
      ⟨base.close.outcome, base.close.state.push (.reader { r with closed := true }), base.close.events⟩ := by
  simp only [Stack.close, push, closeLayers, hr]
  rfl

section

variable {base : Stack σ} {d : DigestCheck} {c : BoundCheck} {b : Buffer} (hb : b.size ≠ 0)

include hb

theorem request_digestOuter :
    (digestOuter base d c false).request b =
      Reader.atop ⟨.digest d, .streaming, false⟩ (Reader.atop ⟨.bound c, .streaming, false⟩ (base.request b)) := by
  rw [digestOuter, request_push rfl hb, request_push rfl hb]

theorem request_limitOuter :
    (limitOuter base d c false).request b =
      Reader.atop ⟨.bound c, .streaming, false⟩ (Reader.atop ⟨.digest d, .streaming, false⟩ (base.request b)) := by
  rw [limitOuter, request_push rfl hb, request_push rfl hb]

end

namespace Swapped

variable {P : Buffer → Int → Prop} {s t base : Stack σ} {b : Buffer} {d : DigestCheck} {acc : Sha256.Accumulator}
  {c : BoundCheck}

theorem refused {r r' : Reader} {f : Failure} {l l' : List Layer} {o o' : Origin σ} (hr : r.refusal = some f)
    (hr' : r'.refusal = some f) (h : Swapped P ⟨.reader r :: l, o⟩ ⟨.reader r' :: l', o'⟩) (b : Buffer) :
    Fill.Like (Swapped P) (request ⟨.reader r :: l, o⟩ b) (request ⟨.reader r' :: l', o'⟩ b) := by
  simp only [request, serve_refused hr, serve_refused hr']
  exact ⟨rfl, rfl, rfl, h⟩

theorem empty {r r' : Reader} {l l' : List Layer} {o o' : Origin σ} (hr : r.refusal = none) (hr' : r'.refusal = none)
    (hb : b.size = 0) (h : Swapped P ⟨.reader r :: l, o⟩ ⟨.reader r' :: l', o'⟩) :
    Fill.Like (Swapped P) (request ⟨.reader r :: l, o⟩ b) (request ⟨.reader r' :: l', o'⟩ b) := by
  simp only [request, serve_empty hr hb, serve_empty hr' hb]
  exact ⟨rfl, rfl, rfl, h⟩

section

variable (hd : d.hashing = some acc) (hc : c.received ≤ c.limit) (hb : b.size ≠ 0)

include hd hc hb

theorem request_failure (hbase : base.Tells P) {f : Failure} (ho : (base.request b).outcome = .error f) :
    Fill.Like (Swapped P) ((digestOuter base d c false).request b) ((limitOuter base d c false).request b) := by
  rw [request_digestOuter hb, request_limitOuter hb]
  simp only [Reader.atop_error ho]
  rw [Reader.atop_error rfl, Reader.atop_error rfl]
  refine ⟨rfl, rfl, rfl, ?_⟩
  by_cases hf : f.endsStream = true
  · simp only [Reader.after_of_endsStream hf]
    exact .ended (by simp [Reader.fail]) rfl rfl rfl rfl
  · simp only [Reader.after_of_not_endsStream (by simpa using hf)]
    exact .streaming (fun _ => hbase.step b) hd hc

theorem request_end (ho : (base.request b).outcome = .ok 0) :
    Fill.Like (Swapped P) ((digestOuter base d c false).request b) ((limitOuter base d c false).request b) := by
  rw [request_digestOuter hb, request_limitOuter hb]
  rw [Reader.atop_ruled (r := ⟨.bound c, _, _⟩) ho (BoundCheck.rule_end hc)]
  by_cases he : acc.finish = d.expected
  · rw [Reader.atop_ruled (r := ⟨.digest d, _, _⟩) rfl (DigestCheck.rule_match hd he _),
      Reader.atop_ruled (r := ⟨.digest d, _, _⟩) ho (DigestCheck.rule_match hd he _),
      Reader.atop_ruled (r := ⟨.bound c, _, _⟩) rfl (BoundCheck.rule_end hc)]
    refine ⟨rfl, rfl, ?_, ?_⟩
    · simp
    · exact .ended (by simp [Reader.settle]) rfl rfl rfl rfl
  · rw [Reader.atop_ruled (r := ⟨.digest d, _, _⟩) rfl (DigestCheck.rule_mismatch hd he _),
      Reader.atop_ruled (r := ⟨.digest d, _, _⟩) ho (DigestCheck.rule_mismatch hd he _),
      Reader.atop_error rfl, Reader.after_of_endsStream rfl]
    refine ⟨rfl, rfl, ?_, ?_⟩
    · simp
    · exact .ended (by simp [Reader.settle]) rfl rfl rfl rfl

end

section

variable (hbase : base.Tells P) (hd : d.hashing = some acc) (hb : b.size ≠ 0) {k : Int}
  (ho : (base.request b).outcome = .ok k)

include hbase hd hb ho

theorem request_within (hk : k ≠ 0) (hl : c.received + k ≤ c.limit) :
    Fill.Like (Swapped P) ((digestOuter base d c false).request b) ((limitOuter base d c false).request b) := by
  rw [request_digestOuter hb, request_limitOuter hb]
  rw [Reader.atop_ruled (r := ⟨.bound c, _, _⟩) ho (BoundCheck.rule_piece hl hk),
    Reader.atop_ruled (r := ⟨.digest d, _, _⟩) rfl (DigestCheck.rule_piece hd hk _),
    Reader.atop_ruled (r := ⟨.digest d, _, _⟩) ho (DigestCheck.rule_piece hd hk _),
    Reader.atop_ruled (r := ⟨.bound c, _, _⟩) rfl (BoundCheck.rule_piece hl hk)]
  exact ⟨rfl, rfl, rfl, .streaming (fun _ => hbase.step b) rfl hl⟩

theorem request_beyond {fits : Buffer → Prop} (hP : Buffer.Clearable fits P) (hfits : fits b) (hk : k ≠ 0)
    (hl : c.limit < c.received + k) :
    Fill.Like (Swapped P) ((digestOuter base d c false).request b) ((limitOuter base d c false).request b) := by
  obtain ⟨cleared, hclear⟩ := hP b _ k hfits hb (request_turns base b) (hbase.request ho) hk
  have hover := BoundCheck.rule_over hl hclear
  rw [request_digestOuter hb, request_limitOuter hb]
  rw [Reader.atop_ruled (r := ⟨.digest d, _, _⟩) ho (DigestCheck.rule_piece hd hk _),
    Reader.atop_ruled (r := ⟨.bound c, _, _⟩) ho hover, Reader.atop_error (r := ⟨.digest d, _, _⟩) rfl,
    Reader.after_of_endsStream rfl,
    Reader.atop_ruled (r := ⟨.bound c, _, _⟩) (x := ⟨_, (base.request b).buffer, _, _⟩) rfl hover]
  refine ⟨rfl, rfl, ?_, ?_⟩
  · simp
  · exact .ended (by simp [Reader.fail]) rfl rfl rfl rfl

end

theorem request {fits : Buffer → Prop} (hP : Buffer.Clearable fits P) (h : Swapped P s t) (hfits : fits b) :
    Fill.Like (Swapped P) (s.request b) (t.request b) := by
  cases h with
  | @ended base outer outer' inner inner' hended hstate hclosed hinner hinner' =>
    obtain ⟨f, hf⟩ : ∃ f, outer.refusal = some f := by
      apply Option.ne_none_iff_exists'.1
      intro hn
      exact hended (Reader.refusal_eq_none_iff.1 hn).2
    have hf' : outer'.refusal = some f := by
      simp only [Reader.refusal, ← hstate, ← hclosed]
      exact hf
    exact refused hf hf' (.ended hended hstate hclosed hinner hinner') b
  | @streaming base d acc c closed hbase hd hc =>
    cases closed with
    | true => exact refused rfl rfl (.streaming hbase hd hc) b
    | false =>
      by_cases hb : b.size = 0
      · exact empty rfl rfl hb (.streaming hbase hd hc)
      · cases ho : (base.request b).outcome with
        | error f => exact request_failure hd hc hb (hbase rfl) ho
        | ok k =>
          by_cases hk : k = 0
          · subst hk
            exact request_end hd hc hb ho
          · by_cases hl : c.received + k ≤ c.limit
            · exact request_within (hbase rfl) hd hb ho hk hl
            · exact request_beyond (hbase rfl) hd hb ho hP hfits hk (Int.not_le.1 hl)

theorem close (h : Swapped P s t) : Turn.Like (Swapped P) s.close t.close := by
  cases h with
  | @streaming base d acc c closed hbase hd hc =>
    cases closed with
    | true =>
      rw [digestOuter, limitOuter, close_push_closed rfl, close_push_closed rfl]
      exact ⟨rfl, rfl, .streaming hbase hd hc⟩
    | false =>
      rw [digestOuter, limitOuter, close_push_open rfl, close_push_open rfl, close_push_open rfl,
        close_push_open rfl]
      exact ⟨rfl, rfl, .streaming (fun hopen => by cases hopen) hd hc⟩
  | @ended base outer outer' inner inner' hended hstate hclosed hinner hinner' =>
    cases ho : outer.closed with
    | true =>
      rw [close_push_closed ho, close_push_closed (hclosed.symm.trans ho)]
      exact ⟨rfl, rfl, .ended hended hstate hclosed hinner hinner'⟩
    | false =>
      have ho' : outer'.closed = false := hclosed.symm.trans ho
      rw [close_push_open ho, close_push_open ho', close_push_open (hinner.trans ho),
        close_push_open (hinner'.trans ho')]
      exact ⟨rfl, rfl, .ended hended hstate rfl rfl rfl⟩

theorem noBuffer (h : Swapped P s t) : s.noBuffer = t.noBuffer := by
  cases h with
  | streaming => rfl
  | @ended base outer outer' inner inner' hended hstate hclosed hinner hinner' =>
    change outer.refusal.getD .noBuffer = outer'.refusal.getD .noBuffer
    simp only [Reader.refusal, hstate, hclosed]

theorem bisimulation {fits : Buffer → Prop} (hwritable : ∀ {b}, b.writable = true → fits b)
    (hP : Buffer.Clearable fits P) : Bisimulation fits (@Swapped σ _ P) where
  writable := hwritable
  layered h := by cases h <;> exact ⟨by simp [digestOuter, push], by simp [limitOuter, push]⟩
  state? h := by
    cases h with
    | streaming => rfl
    | ended _ hstate => exact congrArg some hstate
  closed h := by
    cases h with
    | streaming => rfl
    | ended _ _ hclosed => exact hclosed
  request h _ hb := request hP h hb
  noBuffer := noBuffer
  close := close

end Swapped

theorem wrap_orders_agree {base : Stack σ} (limit : Nat) (expected : Bytes) (ops : List Operation)
    (hbase : base.Tells Buffer.Holds ∨
      base.Tells Buffer.Spans ∧ ∀ b, .readInto (some b) ∈ ops → b.writable = true ∨ b.size = 0) :
    ((base.push (.reader (.bound limit))).push (.reader (.digest expected))).trace ops =
      ((base.push (.reader (.digest expected))).push (.reader (.bound limit))).trace ops := by
  have hstart : ∀ {P : Buffer → Int → Prop}, base.Tells P →
      Swapped P ((base.push (.reader (.bound limit))).push (.reader (.digest expected)))
        ((base.push (.reader (.digest expected))).push (.reader (.bound limit))) :=
    fun hbase => .streaming (c := ⟨limit, 0⟩) (fun _ => hbase) rfl (Int.natCast_nonneg limit)
  obtain hholds | ⟨hspans, hops⟩ := hbase
  · exact (Swapped.bisimulation (fun _ => trivial) Buffer.clearable_holds).trace_eq (hstart hholds)
      fun _ _ => trivial
  · exact (Swapped.bisimulation .inl Buffer.clearable_spans).trace_eq (hstart hspans) hops

def hesitant : Stack Script :=
  ⟨[], .direct { api := {}, items := [.data [1, 2, 3] none, .failure (.raised .runtime "busy"), .data [4, 5] none] }⟩

theorem hesitant_tells : hesitant.Tells Buffer.Holds := by
  apply tells_of_source (Script.tells_of_reports (Q := fun _ => False) Buffer.holds_of_le_room fun _ _ _ => False.elim)
    Buffer.holds_of_le_room
  simp [hesitant, Origin.source, Script.Reports]

def mixedUse : List Operation :=
  [.readInto none, .readInto (some ⟨[], 1, false⟩), .read 8, .readAll 2, .readInto (some ⟨[7, 7, 7, 7], 2, true⟩),
    .readToEnd 2 9, .close, .read 1]

theorem wrap_orders_agree_hesitant :
    ((hesitant.push (.reader (.bound 4))).push (.reader (.digest []))).trace mixedUse =
        ((hesitant.push (.reader (.digest []))).push (.reader (.bound 4))).trace mixedUse ∧
      (((hesitant.push (.reader (.bound 4))).push (.reader (.digest []))).trace mixedUse).map
          (Option.map fun seen => (seen.outcome.toOption, seen.state, seen.calls)) =
        [some (none, some .streaming, []), some (some (.count 0), some .streaming, []),
          some (some (.bytes [1, 2, 3]), some .streaming, [.readInto 8]),
          some (none, some .streaming, [.readInto 8192]), some (none, some .failed, [.readInto 4]),
          some (none, some .failed, []), some (some .none, some .failed, [.close]), some (none, some .failed, [])] :=
  ⟨wrap_orders_agree 4 [] mixedUse (.inl hesitant_tells), by decide +kernel⟩

def careless : Stack Careless :=
  ⟨[], .direct ⟨[9]⟩⟩

-- More is counted than can be cleared: of the first buffer nothing, of the second one the byte that is left of it.
theorem wrap_orders_differ_careless :
    (∀ (s : Careless) (b : Buffer), (s.readInto b).outcome = .ok (some b.size)) ∧
      (((careless.push (.reader (.bound 1))).push (.reader (.digest []))).trace
          [.readInto (some ⟨[7, 7], 1, false⟩)]).map (Option.map Observation.state) = [some (some .streaming)] ∧
      (((careless.push (.reader (.digest []))).push (.reader (.bound 1))).trace
          [.readInto (some ⟨[7, 7], 1, false⟩)]).map (Option.map Observation.state) = [some (some .failed)] ∧
      (((careless.push (.reader (.bound 1))).push (.reader (.digest []))).trace
          [.readInto (some ⟨[7, 7], 1, true⟩)]).map (Option.map Observation.state) = [some (some .streaming)] ∧
      (((careless.push (.reader (.digest []))).push (.reader (.bound 1))).trace
          [.readInto (some ⟨[7, 7], 1, true⟩)]).map (Option.map Observation.state) = [some (some .failed)] :=
  ⟨fun _ _ => rfl, by decide +kernel, by decide +kernel, by decide +kernel, by decide +kernel⟩

end Stack

end StreamGuard
