import StreamGuard.Proofs.Handout
import StreamGuard.Sources.Careless
import StreamGuard.Sources.Script

namespace StreamGuard

structure DigestCheck.Hashes (d : DigestCheck) (state : ReaderState) (expected D : Bytes) : Prop where
  expects : d.expected = expected
  streaming : state = .streaming → d.hashing = some (Sha256.Accumulator.empty.update D)
  succeeded : state = .succeeded → Sha256.digest D = expected

namespace DigestCheck.Hashes

variable {d : DigestCheck} {state : ReaderState} {expected D : Bytes}

theorem failed (he : d.expected = expected) : d.Hashes .failed expected D :=
  ⟨he, by simp, by simp⟩

theorem rule (h : d.Hashes .streaming expected D) (count : Int) (b : Buffer) :
    ∃ d', (d.rule count b).check = .digest d' ∧ d'.Hashes (d.rule count b).state expected
      (D ++ (d.rule count b).buffer.handed ((d.rule count b).outcome.map some)) := by
  have hacc := h.streaming rfl
  by_cases hc : count = 0
  · subst hc
    by_cases he : (Sha256.Accumulator.empty.update D).finish = d.expected
    · refine ⟨{ d with hashing := none }, by rw [rule_match hacc he], h.expects, ?_, fun _ => ?_⟩
      · rw [rule_match hacc he]
        intro h
        cases h
      · rw [rule_match hacc he]
        simpa [Buffer.handed, Except.map, Sha256.digest, h.expects] using he
    · refine ⟨{ d with hashing := none }, by rw [rule_mismatch hacc he], ?_⟩
      rw [rule_mismatch hacc he]
      exact failed h.expects
  · rw [rule_piece hacc hc]
    refine ⟨_, rfl, h.expects, fun _ => ?_, by simp⟩
    simp [Buffer.handed, Except.map, Sha256.Accumulator.update_append]

end DigestCheck.Hashes

namespace Stack

variable {σ : Type}

def Hashes (s : Stack σ) (expected D : Bytes) : Prop :=
  ∃ r d below, s.layers = .reader r :: below ∧ r.check = .digest d ∧ d.Hashes r.state expected D

theorem hashes_digest (expected : Bytes) (below : List Layer) (o : Origin σ) :
    Hashes ⟨.reader (.digest expected) :: below, o⟩ expected [] :=
  ⟨_, _, _, rfl, rfl, rfl, fun _ => rfl, fun h => by cases h⟩

variable [ByteSource σ]

theorem readInto_hashes {s : Stack σ} {expected D : Bytes} (h : s.Hashes expected D) (b : Buffer) :
    (s.readInto b).state.Hashes expected (D ++ handed (s.readInto b)) := by
  obtain ⟨layers, o⟩ := s
  obtain ⟨r, d, below, rfl, hd, hr⟩ := h
  have hserved := served .checked r below o b
  rw [readInto_cons]
  generalize serve .checked (.reader r :: below) o b = fill at hserved ⊢
  cases hserved with
  | refused | empty => exact ⟨r, d, below, rfl, hd, by simpa [handed, Buffer.handed, Except.map] using hr⟩
  | @failed f =>
    simp only [handed, Except.map, Buffer.handed, List.append_nil]
    by_cases hf : f.endsStream = true
    · rw [Reader.after_of_endsStream hf]
      exact ⟨r.fail, { d with hashing := none }, _, rfl, by simp [Reader.fail, hd, Check.abandon],
        .failed hr.expects⟩
    · rw [Reader.after_of_not_endsStream (by simpa using hf)]
      exact ⟨r, d, _, rfl, hd, hr⟩
  | @ruled count _ href _ _ hrule =>
    rw [(Reader.refusal_eq_none_iff.1 href).2] at hr
    obtain ⟨d', hd', hr'⟩ := hr.rule count (request ⟨below, o⟩ b).buffer
    rw [hd] at hrule
    subst hrule
    exact ⟨_, d', _, rfl, hd', hr'⟩

theorem digest_of_zero {s : Stack σ} {expected D : Bytes} (h : s.Hashes expected D) {b : Buffer}
    (hb : b.size ≠ 0) (hz : (s.readInto b).outcome = .ok (some 0)) : Sha256.digest D = expected := by
  obtain ⟨layers, o⟩ := s
  obtain ⟨r, d, below, rfl, hd, hr⟩ := h
  have hserved := served .checked r below o b
  rw [readInto_cons] at hz
  generalize serve .checked (.reader r :: below) o b = fill at hserved hz
  obtain ⟨_, ho, he⟩ := map_eq_ok_iff.1 hz
  cases he
  cases hserved with
  | refused | failed => cases ho
  | empty _ hempty => exact absurd hempty hb
  | @ruled count _ href _ _ hrule =>
    have hacc := hr.streaming (Reader.refusal_eq_none_iff.1 href).2
    subst hrule
    obtain ⟨rfl, -⟩ := Check.rule_ok ho
    by_cases he : (Sha256.Accumulator.empty.update D).finish = d.expected
    · rwa [hr.expects] at he
    · simp [hd, Check.rule, DigestCheck.rule_mismatch hacc he] at ho

theorem readInto_ne_none {s : Stack σ} {expected D : Bytes} (h : s.Hashes expected D) (b : Buffer) :
    (s.readInto b).outcome ≠ .ok none := by
  obtain ⟨layers, o⟩ := s
  obtain ⟨r, d, below, rfl, -, -⟩ := h
  intro ho
  obtain ⟨_, -, he⟩ := map_eq_ok_iff.1 ho
  cases he

theorem digest_integrity (expected : Bytes) (below : List Layer) (o : Origin σ) :
    (∀ us t D, (⟨.reader (.digest expected) :: below, o⟩ : Stack σ).useAll us = some (t, D) →
      ∃ r d below', t.layers = .reader r :: below' ∧ r.check = .digest d ∧ d.expected = expected ∧
        (r.state = .streaming → d.hashing = some (Sha256.Accumulator.empty.update D)) ∧
        (r.state = .succeeded → Sha256.digest D = expected)) ∧
    ∀ chunk budget turn bs,
      (⟨.reader (.digest expected) :: below, o⟩ : Stack σ).readToEnd chunk budget = some turn →
      turn.outcome = .ok bs →
      (KeepsLength σ ∨ ∃ r below', turn.state.layers = .reader r :: below' ∧ r.state = .succeeded) →
      Sha256.digest bs = expected := by
  have hfresh := hashes_digest expected below o
  constructor
  · intro us t D h
    have hkeep := useAll_keeps (fun s D => s.Hashes expected D) (fun _ _ => trivial)
      (fun _ _ b (_ : True) ht => readInto_hashes ht b) (fun _ _ => trivial) hfresh h
    obtain ⟨r, d, below', hl, hd, hr⟩ := hkeep
    exact ⟨r, d, below', hl, hd, hr.expects, hr.streaming, hr.succeeded⟩
  · intro chunk budget turn bs h hok hgood
    by_cases hc : 0 < chunk
    · obtain ⟨t, b, ht, hb, hstate, hend⟩ := readToEnd_last (fun s D => s.Hashes expected D) hc h
        (fun _ _ b _ ht => readInto_hashes ht b) hfresh
      rcases hend with ⟨f, -, hf⟩ | ⟨hd, ho⟩
      · rw [hf] at hok
        cases hok
      · rw [ho] at hok
        cases hok
        have hzero := hd.resolve_left (readInto_ne_none ht b)
        rcases hgood with hkeeps | ⟨r, below', hl, hr⟩
        · have hsize : b.size ≠ 0 := by
            rw [hb.size hkeeps]
            omega
          exact digest_of_zero ht hsize hzero
        · have hlast := readInto_hashes ht b
          rw [← hstate] at hlast
          obtain ⟨r', d, below'', hl', -, hr'⟩ := hlast
          rw [hl] at hl'
          cases hl'
          simpa [handed, Buffer.handed, hzero] using hr'.succeeded hr
    · rw [readToEnd_of_nonpos (Int.not_lt.1 hc)] at h
      cases h
      cases hok

def playing (c : Bytes) (items : List Script.Item) : Stack Script :=
  ⟨[.reader (.digest (Sha256.digest c))], .direct { api := {}, items }⟩

-- The source counts a byte too few, is busy once, and then counts bytes that there is no room for.
theorem digest_integrity_miscounted :
    (∃ t r d below, useAll (playing [97, 98, 99, 100, 0]
          [.data [97, 98, 99] (some (-1)), .failure (.raised .runtime "busy"), .data [100] (some 9)])
        [.readInto (.zeroed 4), .readInto (.zeroed 4), .readInto (.zeroed 2)] =
          some (t, [97, 98, 99, 100, 0]) ∧
      t.layers = .reader r :: below ∧ r.check = .digest d ∧ r.state = .streaming ∧
      d.hashing = some (Sha256.Accumulator.empty.update [97, 98, 99, 100, 0])) ∧
    ∃ turn bs, readToEnd 2 3 (playing [100, 0] [.data [100] (some 9)]) = some turn ∧ turn.outcome = .ok bs ∧
      Sha256.digest bs = Sha256.digest [100, 0] := by
  constructor
  · have hrun : (useAll (playing [97, 98, 99, 100, 0]
          [.data [97, 98, 99] (some (-1)), .failure (.raised .runtime "busy"), .data [100] (some 9)])
        [.readInto (.zeroed 4), .readInto (.zeroed 4), .readInto (.zeroed 2)]).map (fun r => (r.2, r.1.layers)) =
        some ([97, 98, 99, 100, 0], [.reader ⟨.digest ⟨Sha256.digest [97, 98, 99, 100, 0], .sha256,
          some (Sha256.Accumulator.empty.update [97, 98, 99, 100, 0])⟩, .streaming, false⟩]) := by decide +kernel
    obtain ⟨⟨t, D⟩, ht, he⟩ := Option.map_eq_some_iff.1 hrun
    simp only [Prod.mk.injEq] at he
    obtain ⟨rfl, hlayers⟩ := he
    obtain ⟨r, d, below, hl, hd, -, hstream, -⟩ := (digest_integrity _ [] _).1 _ t _ ht
    have hs : r.state = .streaming := by
      rw [hlayers] at hl
      cases hl
      rfl
    exact ⟨t, r, d, below, ht, hl, hd, hs, hstream hs⟩
  · have hrun : (readToEnd 2 3 (playing [100, 0] [.data [100] (some 9)])).map (fun turn => turn.outcome.toOption) =
        some (some [100, 0]) := by decide +kernel
    obtain ⟨⟨outcome, t, events⟩, ht, ho⟩ := Option.map_eq_some_iff.1 hrun
    cases outcome with
    | error f => cases ho
    | ok bs => exact ⟨_, bs, ht, rfl, (digest_integrity _ [] _).2 _ _ _ bs ht rfl (.inl inferInstance)⟩

-- The buffer of eight bytes becomes one of four, then an empty one, and to that the reader answers zero.
theorem digest_integrity_careless :
    ∃ turn bs, readToEnd 8 4 (⟨[.reader (.digest (Sha256.digest [103, 111, 111, 100]))],
        .direct ⟨[101, 118, 105, 108]⟩⟩ : Stack Careless) = some turn ∧
      turn.outcome = .ok bs ∧ bs = [101, 118, 105, 108] ∧ Sha256.digest bs ≠ Sha256.digest [103, 111, 111, 100] := by
  have hrun : (readToEnd 8 4 (⟨[.reader (.digest (Sha256.digest [103, 111, 111, 100]))],
      .direct ⟨[101, 118, 105, 108]⟩⟩ : Stack Careless)).map (fun turn => turn.outcome.toOption) =
      some (some [101, 118, 105, 108]) := by decide +kernel
  obtain ⟨⟨outcome, t, events⟩, ht, ho⟩ := Option.map_eq_some_iff.1 hrun
  cases outcome with
  | error f => cases ho
  | ok bs =>
    cases ho
    exact ⟨_, _, ht, rfl, rfl, by decide +kernel⟩

end Stack

end StreamGuard
