import StreamGuard.Proofs.Handout
import StreamGuard.Proofs.Likeness
import StreamGuard.Proofs.Tally

namespace StreamGuard

theorem Bytes.length_upTo_le_count (bs : Bytes) {k : Int} (h : 0 ≤ k) : (bs.upTo k).length ≤ k := by
  obtain ⟨n, rfl⟩ := Int.eq_ofNat_of_zero_le h
  simp only [upTo_natCast, List.length_take]
  omega

namespace Buffer

variable {b : Buffer} {k : Nat}

theorem sizeFault_of_le_memoryLimit (outOfRange negative : Failure) (h : (k : Int) ≤ memoryLimit) :
    sizeFault outOfRange negative k = none := by
  have hindex : isIndex k = true := by
    simp only [isIndex, Bool.and_eq_true, decide_eq_true_eq]
    simp only [memoryLimit, indexLimit] at h ⊢
    omega
  have hbytes : (k : Int) ≤ byteLimit := by
    simp only [memoryLimit, byteLimit, indexLimit] at h ⊢
    omega
  simp [sizeFault, hindex, Int.not_lt.2 (Int.natCast_nonneg k), Int.not_lt.2 hbytes, Int.not_lt.2 h]

theorem take_cleared {b' : Buffer} (h : b.clear k = .ok b') : b'.bytes.take k = Bytes.zeros (min k b'.size) := by
  have hsize : b'.size = b.size := (clear_becomes h).size
  obtain ⟨-, -, hfit, rfl⟩ := clear_eq_ok.1 h
  rw [hsize, Nat.min_eq_left (Int.ofNat_le.1 hfit)]
  simpa using Bytes.take_overwrite b.bytes (.zeros k)

theorem clear_beyond (hw : b.writable = true) (hk : b.size < k) (hm : (k : Int) ≤ memoryLimit) :
    b.clear k = .error .sliceMismatch := by
  have hout : ¬ (0 ≤ (k : Int) ∧ (k : Int) ≤ b.size) := by omega
  simp only [clear, hout, if_false, sizeFault_of_le_memoryLimit _ _ hm, hw, if_true]

end Buffer

namespace Stack

variable {σ : Type}

def metered (base : Stack σ) (limit : Nat) (n : Int) (state : ReaderState) : Stack σ :=
  base.push (.reader ⟨.bound ⟨limit, n⟩, state, false⟩)

def received? (s : Stack σ) : Option Int :=
  match s.layers with
  | .reader ⟨.bound c, _, _⟩ :: _ => some c.received
  | _ => none

theorem metered_inj {base base' : Stack σ} {limit : Nat} {n n' : Int} {state state' : ReaderState}
    (h : metered base limit n state = metered base' limit n' state') : base = base' ∧ n = n' ∧ state = state' := by
  obtain ⟨layers, o⟩ := base
  obtain ⟨layers', o'⟩ := base'
  cases h
  exact ⟨rfl, rfl, rfl⟩

variable [ByteSource σ]

inductive Metering (base : Stack σ) (limit : Nat) (n : Int) (b : Buffer) : Fill (Stack σ) (Option Int) → Prop
  | refused {state f} : Metering base limit n b ⟨.error f, b, metered base limit n state, []⟩
  | empty {state} : Metering base limit n b ⟨.ok (some 0), b, metered base limit n state, []⟩
  | failed {state f} (ho : (base.request b).outcome = .error f) :
      Metering base limit n b
        ⟨.error f, (base.request b).buffer, metered (base.request b).state limit n state, (base.request b).events⟩
  | within {state k events} (ho : (base.request b).outcome = .ok k) (hl : n + k ≤ limit) :
      Metering base limit n b
        ⟨.ok (some k), (base.request b).buffer, metered (base.request b).state limit (n + k) state, events⟩
  | beyond {k f b' events} (ho : (base.request b).outcome = .ok k) (hl : limit < n + k) :
      Metering base limit n b ⟨.error f, b', metered (base.request b).state limit (n + k) .failed, events⟩

section

variable {base : Stack σ} {limit : Nat} {n : Int} {b : Buffer}

theorem readInto_metered (hb : b.size ≠ 0) :
    (metered base limit n .streaming).readInto b =
      let fill := Reader.atop ⟨.bound ⟨limit, n⟩, .streaming, false⟩ (base.request b)
      ⟨fill.outcome.map some, fill.buffer, fill.state, fill.events⟩ := by
  rw [readInto_layered (by simp [metered, push]), metered, request_push rfl hb]

theorem metering (base : Stack σ) (limit : Nat) (n : Int) (state : ReaderState) (b : Buffer) :
    Metering base limit n b ((metered base limit n state).readInto b) := by
  have hserved := served .checked ⟨.bound ⟨limit, n⟩, state, false⟩ base.layers base.origin b
  rw [metered, push, readInto_cons]
  generalize serve .checked (.reader ⟨.bound ⟨limit, n⟩, state, false⟩ :: base.layers) base.origin b = fill
    at hserved ⊢
  cases hserved with
  | refused => exact .refused
  | empty => exact .empty
  | @failed f _ _ ho =>
    by_cases hf : f.endsStream = true
    · rw [Reader.after_of_endsStream hf]
      exact .failed ho
    · rw [Reader.after_of_not_endsStream (by simpa using hf)]
      exact .failed ho
  | @ruled k _ _ _ ho hrule =>
    by_cases hl : n + k ≤ limit
    · obtain ⟨state, events, -, hr⟩ := BoundCheck.rule_within (c := ⟨limit, n⟩) hl (base.request b).buffer
      obtain rfl := hr.symm.trans hrule
      exact .within ho hl
    · have hover : limit < n + k := Int.not_le.1 hl
      obtain ⟨f, b', events, hr⟩ := BoundCheck.rule_beyond (c := ⟨limit, n⟩) hover (base.request b).buffer
      obtain rfl := hr.symm.trans hrule
      exact .beyond ho hover

end

def Grown (limit : Nat) (m : Int) (s : Stack σ) (D : Bytes) : Prop :=
  ∃ base n state, s = metered base limit n state ∧ base.Tells (fun _ k => 0 ≤ k) ∧ D.length ≤ limit ∧
    D.length ≤ n ∧ m ≤ n

theorem readInto_grown {limit : Nat} {m : Int} {s : Stack σ} {D : Bytes} (h : Grown limit m s D) (b : Buffer) :
    Grown limit m (s.readInto b).state (D ++ handed (s.readInto b)) := by
  obtain ⟨base, n, state, rfl, ht, hlimit, hcount, hm⟩ := h
  have hmeter := metering base limit n state b
  have hnext : (base.request b).state.Tells fun _ k => 0 ≤ k := ht.step b
  generalize (metered base limit n state).readInto b = fill at hmeter ⊢
  cases hmeter with
  | refused | empty =>
    refine ⟨base, n, _, rfl, ht, ?_⟩
    simpa [handed, Buffer.handed] using ⟨hlimit, hcount, hm⟩
  | failed =>
    refine ⟨_, n, _, rfl, hnext, ?_⟩
    simpa [handed, Buffer.handed] using ⟨hlimit, hcount, hm⟩
  | @within _ k _ ho hl =>
    have hk : 0 ≤ k := ht.request ho
    have hslice := Bytes.length_upTo_le_count (base.request b).buffer.bytes hk
    refine ⟨_, n + k, _, rfl, hnext, ?_⟩
    simp only [handed, Buffer.handed, List.length_append]
    omega
  | @beyond k _ _ _ ho hl =>
    have hk : 0 ≤ k := ht.request ho
    refine ⟨_, n + k, _, rfl, hnext, ?_⟩
    simp only [handed, Buffer.handed, List.append_nil]
    omega

theorem useAll_grown {limit : Nat} {m : Int} {s t : Stack σ} {D E : Bytes} {us : List Use} (hs : Grown limit m s D)
    (h : useAll s us = some (t, E)) : Grown limit m t (D ++ E) :=
  useAll_keeps (Grown limit m) (fun _ _ => True.intro) (fun _ _ b _ ht => readInto_grown ht b)
    (fun _ _ => True.intro) hs h

theorem limit_of_nonneg_counts {base : Stack σ} (hbase : base.Tells fun _ k => 0 ≤ k) (limit : Nat) :
    (∀ chunk budget turn bs, 0 < chunk →
        (base.push (.reader (.bound limit))).readToEnd chunk budget = some turn → turn.outcome = .ok bs →
        bs.length ≤ limit) ∧
      ∀ us vs t t' D E, useAll (base.push (.reader (.bound limit))) us = some (t, D) →
        useAll t vs = some (t', E) →
        ∃ n n', t.received? = some n ∧ t'.received? = some n' ∧ n ≤ n' := by
  have hstart : Grown limit 0 (base.push (.reader (.bound limit))) [] :=
    ⟨base, 0, .streaming, rfl, hbase, Nat.zero_le _, Int.le_refl _, Int.le_refl _⟩
  constructor
  · intro chunk budget turn bs hc h hout
    obtain ⟨t, b, ⟨_, _, _, -, -, hlimit, -⟩, -, -, hend⟩ :=
      readToEnd_last (Grown limit 0) hc h (fun _ _ b _ ht => readInto_grown ht b) hstart
    rcases hend with ⟨f, -, hf⟩ | ⟨-, hok⟩
    · cases hout.symm.trans hf
    · cases hout.symm.trans hok
      exact hlimit
  · intro us vs t t' D E ht ht'
    obtain ⟨base', n, state, rfl, htells, hlimit, hcount, -⟩ := useAll_grown hstart ht
    have hmid : Grown limit n (metered base' limit n state) D :=
      ⟨base', n, state, rfl, htells, hlimit, hcount, Int.le_refl n⟩
    obtain ⟨base'', n', state', rfl, -, -, -, hle⟩ := useAll_grown hmid ht'
    exact ⟨n, n', rfl, rfl, hle⟩

def boastful : Stack Script :=
  ⟨[], .direct { api := {}, items := [.data [1, 2] (some 5), .data [3] none, .data [4] (some 9)] }⟩

theorem boastful_tells : boastful.Tells fun _ k => 0 ≤ k := by
  have hP : ∀ (b : Buffer) (n : Nat), n ≤ b.room → (0 : Int) ≤ n := fun _ n _ => Int.natCast_nonneg n
  apply tells_of_source (Script.tells_of_reports (Q := fun k => 0 ≤ k) hP fun _ _ _ hk => hk) hP
  simp only [boastful, Origin.source, Script.Reports, List.mem_cons, Script.Item.data.injEq]
  rintro bytes k (⟨-, hk⟩ | ⟨-, hk⟩ | ⟨-, hk⟩ | h)
  · cases hk
    decide
  · cases hk
  · cases hk
    decide
  · cases h

theorem limit_of_nonneg_counts_boastful :
    (∃ turn, (boastful.push (.reader (.bound 20))).readToEnd 3 9 = some turn ∧
        turn.outcome = .ok [1, 2, 0, 3, 4, 2, 0] ∧ [1, 2, 0, 3, 4, 2, 0].length ≤ 20) ∧
      ∃ t t', useAll (boastful.push (.reader (.bound 6))) [.readInto (.zeroed 3)] = some (t, [1, 2, 0]) ∧
        useAll t [.readToEnd 3 9] = some (t', [3]) ∧
        ∃ n n', t.received? = some n ∧ t'.received? = some n' ∧ n ≤ n' := by
  constructor
  · exact ⟨_, rfl, rfl, (limit_of_nonneg_counts boastful_tells 20).1 3 9 _ _ (by decide) rfl rfl⟩
  · exact ⟨_, _, rfl, rfl,
      (limit_of_nonneg_counts boastful_tells 6).2 [.readInto (.zeroed 3)] [.readToEnd 3 9] _ _ _ _ rfl rfl⟩

def recanting : Stack Script :=
  ⟨[], .direct { api := {}, items := [.data [] (some (-1))] }⟩

theorem negative_count_undoes_limit :
    (∃ turn, (recanting.push (.reader (.bound 0))).readToEnd 4 3 = some turn ∧ turn.outcome = .ok [0, 0, 0] ∧
        ¬ [0, 0, 0].length ≤ 0) ∧
      (recanting.push (.reader (.bound 0))).received? = some 0 ∧
      ((recanting.push (.reader (.bound 0))).readInto (.zeroed 4)).state.received? = some (-1) ∧ ¬ (0 : Int) ≤ -1 :=
  ⟨⟨_, rfl, rfl, by decide⟩, rfl, rfl, by decide⟩

structure ReportsOverflow (fill : Fill (Stack σ) (Option Int)) (below : Fill (Stack σ) Int) (limit k : Nat)
    (total : Int) : Prop where
  outcome : fill.outcome = .error (.sizeExceeded limit)
  events : fill.events = below.events ++ [.log (.sizeExceeded limit total)]
  cleared : fill.buffer.bytes.take k = Bytes.zeros (min k fill.buffer.size)
  ended : fill.state.state? = some .failed

section

variable {base : Stack σ} {limit k : Nat} {n : Int} {b : Buffer} (hb : b.size ≠ 0)
  (ho : (base.request b).outcome = .ok k) (hl : limit < n + k)

include hb ho hl

theorem readInto_over {b' : Buffer} (hclear : (base.request b).buffer.clear k = .ok b') :
    (metered base limit n .streaming).readInto b =
      ⟨.error (.sizeExceeded limit), b', metered (base.request b).state limit (n + k) .failed,
        (base.request b).events ++ [.log (.sizeExceeded limit (n + k))]⟩ := by
  rw [readInto_metered hb, Reader.atop_ok ho]
  simp only [Check.rule, BoundCheck.rule_over (c := ⟨limit, n⟩) hl hclear]
  rfl

theorem readInto_uncleared {f : Failure} (hclear : (base.request b).buffer.clear k = .error f) :
    (metered base limit n .streaming).readInto b =
      ⟨.error f, (base.request b).buffer, metered (base.request b).state limit (n + k) .failed,
        (base.request b).events⟩ := by
  rw [readInto_metered hb, Reader.atop_ok ho]
  simp only [Check.rule, BoundCheck.rule_uncleared (c := ⟨limit, n⟩) hl hclear, List.append_nil]
  rfl

end

theorem useAll_metered {base t : Stack σ} {limit : Nat} {us : List Use} {D : Bytes}
    (h : useAll (base.push (.reader (.bound limit))) us = some (t, D)) :
    ∃ base' n state, t = metered base' limit n state := by
  refine useAll_keeps (fun s _ => ∃ base' n state, s = metered base' limit n state)
    (fun _ _ => True.intro) ?_ (fun _ _ => True.intro) (D := []) ⟨base, 0, .streaming, rfl⟩ h
  rintro _ _ b - ⟨base', n, state, rfl⟩
  have hmeter := metering base' limit n state b
  generalize (metered base' limit n state).readInto b = fill at hmeter ⊢
  cases hmeter <;> exact ⟨_, _, _, rfl⟩

theorem overflow_reported_iff (limit : Nat) {base : Stack σ} {us : List Use} {t : Stack σ} {D : Bytes}
    (h : useAll (base.push (.reader (.bound limit))) us = some (t, D)) :
    ∃ base' n state, t = metered base' limit n state ∧
      ∀ (b : Buffer) (k : Nat), b.writable = true → b.size ≠ 0 → state = .streaming →
        (base'.request b).outcome = .ok k → k ≤ Buffer.memoryLimit → limit < n + k →
        (ReportsOverflow (t.readInto b) (base'.request b) limit k (n + k) ↔ k ≤ (base'.request b).buffer.size) ∧
          (t.readInto b).state = metered (base'.request b).state limit (n + k) .failed ∧
          ((base'.request b).buffer.size < k → (t.readInto b).outcome = .error .sliceMismatch ∧
            (t.readInto b).buffer = (base'.request b).buffer ∧ (t.readInto b).events = (base'.request b).events) ∧
          (KeepsLength σ → (base'.request b).buffer.size = b.size) := by
  obtain ⟨base', n, state, rfl⟩ := useAll_metered h
  refine ⟨base', n, state, rfl, ?_⟩
  rintro b k hw hb rfl ho hm hl
  have hwritable : (base'.request b).buffer.writable = true := (request_turns base' b).writable.trans hw
  have hsize : KeepsLength σ → (base'.request b).buffer.size = b.size := fun _ => (request_becomes base' b).size
  by_cases hk : k ≤ (base'.request b).buffer.size
  · have hclear := Buffer.clear_eq_ok.2 ⟨hwritable, Int.natCast_nonneg k, Int.ofNat_le.2 hk, rfl⟩
    rw [readInto_over hb ho hl hclear]
    refine ⟨iff_of_true ?_ hk, rfl, ?_, hsize⟩
    · exact ⟨rfl, rfl, Buffer.take_cleared hclear, rfl⟩
    · intro hlt
      exact absurd hk (Nat.not_le.2 hlt)
  · -- The zeros are as many as were counted, which is more than the slice that they are put into.
    have hlong : (base'.request b).buffer.size < k := Nat.not_le.1 hk
    rw [readInto_uncleared hb ho hl (Buffer.clear_beyond hwritable hlong hm)]
    refine ⟨iff_of_false ?_ hk, rfl, fun _ => ⟨rfl, rfl, rfl⟩, hsize⟩
    intro hreports
    cases hreports.outcome

theorem overflow_unreported :
    ((boastful.request (.zeroed 2)).outcome = .ok (5 : Nat) ∧ (1 : Int) < 0 + (5 : Nat)) ∧
      ¬ ReportsOverflow ((boastful.push (.reader (.bound 1))).readInto (.zeroed 2)) (boastful.request (.zeroed 2)) 1 5
        (0 + 5) ∧
      ((boastful.push (.reader (.bound 1))).readInto (.zeroed 2)).outcome = .error .sliceMismatch ∧
      ((boastful.push (.reader (.bound 1))).readInto (.zeroed 2)).buffer.bytes = [1, 2] ∧
      ((boastful.push (.reader (.bound 1))).readInto (.zeroed 2)).events = [.call (.readInto 2)] := by
  refine ⟨⟨rfl, by decide⟩, fun h => ?_, rfl, rfl, rfl⟩
  cases h.outcome

theorem overflow_reported_iff_boastful :
    ∃ t, useAll (boastful.push (.reader (.bound 7))) [.readInto (.zeroed 2), .readInto (.zeroed 2)] =
        some (t, [1, 2, 3]) ∧
      (t.readInto (.zeroed 8)).outcome = .error .sliceMismatch ∧
      (t.readInto (.zeroed 9)).outcome = .error (.sizeExceeded 7) := by
  have hrun : useAll (boastful.push (.reader (.bound 7))) [.readInto (.zeroed 2), .readInto (.zeroed 2)] =
      some (metered ⟨[], .direct { api := {}, items := [.data [4] (some 9)] }⟩ 7 6 .streaming, [1, 2, 3]) := rfl
  obtain ⟨base', n, state, ht, hcall⟩ := overflow_reported_iff 7 hrun
  obtain ⟨rfl, rfl, rfl⟩ := metered_inj ht
  refine ⟨_, hrun, ?_, ?_⟩
  · exact ((hcall (.zeroed 8) 9 rfl (by decide) rfl rfl (by decide) (by decide)).2.2.1 (by decide)).1
  · exact ((hcall (.zeroed 9) 9 rfl (by decide) rfl rfl (by decide) (by decide)).1.2 (by decide)).outcome

end Stack

end StreamGuard
