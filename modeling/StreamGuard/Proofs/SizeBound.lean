import StreamGuard.Proofs.Honesty
import StreamGuard.Proofs.Refusal

namespace StreamGuard

theorem Buffer.clear_overwrite {b : Buffer} {front : Bytes} (hb : b.writable = true) (hf : front.length ≤ b.size) :
    ({ b with bytes := b.bytes.overwrite front } : Buffer).clear front.length =
      .ok { b with bytes := .zeros front.length ++ b.bytes.drop front.length } := by
  have hsize : (front.length : Int) ≤ ({ b with bytes := b.bytes.overwrite front } : Buffer).size := by
    simp only [size, Bytes.length_overwrite _ _ hf]
    exact_mod_cast hf
  refine clear_eq_ok.2 ⟨hb, Int.natCast_nonneg _, hsize, ?_⟩
  simp [Bytes.overwrite]

structure BoundCheck.Counts (c : BoundCheck) (state : ReaderState) (limit : Nat) (D : Bytes) : Prop where
  limits : c.limit = limit
  within : D.length ≤ limit
  counted : state ≠ .failed → c.received = D.length

namespace BoundCheck.Counts

variable {τ : Type} {c : BoundCheck} {limit : Nat} {D : Bytes} {b : Buffer} {k : Int} {fill : Fill τ Int}

theorem rule_within (h : c.Counts .streaming limit D) (hk : D.length + k ≤ limit) (b : Buffer) :
    ∃ state events, c.rule k b = ⟨.ok k, b, .bound ⟨limit, D.length + k⟩, state, events⟩ ∧ state ≠ .failed := by
  have hr := h.counted (by simp)
  obtain ⟨limit', received⟩ := c
  obtain rfl := h.limits
  simp only at hr
  subst hr
  obtain ⟨state, events, hstate, hrule⟩ := BoundCheck.rule_within (c := ⟨limit', D.length⟩) hk b
  exact ⟨state, events, hrule, hstate⟩

theorem rule_beyond (h : c.Counts .streaming limit D) (hb : b.writable = true) (hf : fill.Honest b)
    (ho : fill.outcome = .ok k) (hk : limit < D.length + k) :
    c.rule k fill.buffer = ⟨.error (.sizeExceeded limit),
      { b with bytes := .zeros k.toNat ++ b.bytes.drop k.toNat }, .bound ⟨limit, D.length + k⟩, .failed,
      [.log (.sizeExceeded limit (D.length + k))]⟩ := by
  have hr := h.counted (by simp)
  obtain ⟨limit', received⟩ := c
  obtain rfl := h.limits
  simp only at hr
  subst hr
  obtain ⟨front, rfl, hfit, hbuf⟩ := hf k ho
  have hclear := Buffer.clear_overwrite hb hfit
  rw [← hbuf] at hclear
  rw [rule_over hk hclear, Int.toNat_natCast]

end BoundCheck.Counts

namespace Stack

variable {σ : Type} [ByteSource σ]

def Counts (s : Stack σ) (limit : Nat) (D : Bytes) : Prop :=
  ∃ r c below, s.layers = .reader r :: below ∧ r.closed = false ∧ r.check = .bound c ∧
    c.Counts r.state limit D ∧ Honest ⟨below, s.origin⟩

theorem counts_bound (limit : Nat) {below : List Layer} {o : Origin σ} (h : Honest ⟨below, o⟩) :
    Counts ⟨.reader (.bound limit) :: below, o⟩ limit [] :=
  ⟨_, _, _, rfl, rfl, rfl, ⟨rfl, Nat.zero_le _, fun _ => rfl⟩, h⟩

theorem readInto_counts {s : Stack σ} {limit : Nat} {D : Bytes} {b : Buffer} (hb : b.writable = true)
    (h : s.Counts limit D) : (s.readInto b).state.Counts limit (D ++ handed (s.readInto b)) := by
  obtain ⟨layers, o⟩ := s
  obtain ⟨r, c, below, rfl, hopen, hc, hr, hh⟩ := h
  have hbelow : (request ⟨below, o⟩ b).Honest b := hh.request hb
  have hnext : (request ⟨below, o⟩ b).state.Honest := hh.step hb
  have hserved := served .checked r below o b
  rw [readInto_cons]
  generalize serve .checked (.reader r :: below) o b = fill at hserved ⊢
  cases hserved with
  | refused | empty =>
    exact ⟨r, c, below, rfl, hopen, hc, by simpa [handed, Buffer.handed, Except.map] using hr, hh⟩
  | @failed f =>
    simp only [handed, Except.map, Buffer.handed, List.append_nil]
    by_cases hf : f.endsStream = true
    · rw [Reader.after_of_endsStream hf]
      exact ⟨r.fail, c, _, rfl, hopen, by simp [Reader.fail, hc, Check.abandon],
        ⟨hr.limits, hr.within, fun hn => absurd rfl hn⟩, hnext⟩
    · rw [Reader.after_of_not_endsStream (by simpa using hf)]
      exact ⟨r, c, _, rfl, hopen, hc, hr, hnext⟩
  | @ruled k _ href _ ho hruling =>
    rw [(Reader.refusal_eq_none_iff.1 href).2] at hr
    rw [hc, Check.rule] at hruling
    by_cases hk : D.length + k ≤ limit
    · obtain ⟨state, events, hrule, -⟩ := hr.rule_within hk (request ⟨below, o⟩ b).buffer
      obtain ⟨front, rfl, hfit, hbuf⟩ := hbelow k ho
      rw [hrule] at hruling
      subst hruling
      simp only [handed, Except.map, Buffer.handed, hbuf, Bytes.upTo_natCast, Bytes.take_overwrite]
      refine ⟨_, _, _, rfl, hopen, rfl, ⟨rfl, ?_, fun _ => ?_⟩, hnext⟩
      · simp only [List.length_append]
        omega
      · simp
    · rw [hr.rule_beyond hb hbelow ho (by omega)] at hruling
      subst hruling
      simp only [handed, Except.map, Buffer.handed, List.append_nil]
      exact ⟨_, _, _, rfl, hopen, rfl, ⟨rfl, hr.within, fun hn => absurd rfl hn⟩, hnext⟩

theorem size_bound (limit : Nat) {below : List Layer} {o : Origin σ} (hh : Honest ⟨below, o⟩) {us : List Use}
    (hu : ∀ b, .readInto b ∈ us → b.writable = true) {t : Stack σ} {D : Bytes}
    (h : useAll ⟨.reader (.bound limit) :: below, o⟩ us = some (t, D)) :
    D.length ≤ limit ∧ ∃ r c below', t.layers = .reader r :: below' ∧ r.check = .bound c ∧
      (r.state = .streaming ∨ r.state = .succeeded → c.received = D.length) ∧
      ∀ b k, b.writable = true → b.size ≠ 0 → r.state = .streaming →
        (request ⟨below', t.origin⟩ b).outcome = .ok k →
        ((t.readInto b).outcome = .error (.sizeExceeded limit) ↔ limit < D.length + k) ∧
        (limit < D.length + k →
          (t.readInto b).buffer.bytes = .zeros k.toNat ++ b.bytes.drop k.toNat ∧
          (∃ r', (t.readInto b).state.layers = .reader r' :: (request ⟨below', t.origin⟩ b).state.layers ∧
            r'.state = .failed ∧ r'.check = .bound ⟨limit, D.length + k⟩) ∧
          Refuses (t.readInto b).state (.streamEnded .failed)) := by
  have hkeep := useAll_keeps (fun s D => s.Counts limit D) (fun _ hb => hb)
    (fun _ _ _ hb ht => readInto_counts hb ht) hu (counts_bound limit hh) h
  rw [List.nil_append] at hkeep
  obtain ⟨layers, o'⟩ := t
  obtain ⟨r, c, below', rfl, hopen, hc, hr, hh'⟩ := hkeep
  refine ⟨hr.within, r, c, below', rfl, hc, fun hs => hr.counted ?_, ?_⟩
  · rcases hs with hs | hs <;> simp [hs]
  · intro b k hb hs hstream hk
    have hbelow : (request ⟨below', o'⟩ b).Honest b := hh'.request hb
    have href : r.refusal = none := Reader.refusal_eq_none_iff.2 ⟨hopen, hstream⟩
    simp only [readInto_cons, serve_open href hs]
    simp only [request] at hk hbelow ⊢
    rw [hstream] at hr
    rw [Reader.atop_ok hk, hc]
    by_cases hlim : limit < D.length + k
    · have hrule := hr.rule_beyond hb hbelow hk hlim
      simp only [Check.rule, hrule]
      refine ⟨⟨fun _ => hlim, fun _ => rfl⟩, fun _ => ⟨trivial, ⟨_, rfl, rfl, rfl⟩, ?_⟩⟩
      apply refuses_of_refusal
      simp [Reader.refusal, Reader.settle, hopen]
    · obtain ⟨state, events, hrule, -⟩ := hr.rule_within (Int.not_lt.1 hlim) (serve .checked below' o' b).buffer
      simp only [Check.rule, hrule, hlim, iff_false, false_implies, and_true]
      intro h
      cases h

theorem size_bound_overrun :
    ∃ t, useAll ⟨[.reader (.bound 3)], .direct (Memory.ofBytes [1, 2, 3, 4, 5] 0)⟩ [.readInto (.zeroed 2)] =
        some (t, [1, 2]) ∧
      (t.readInto ⟨.replicate 6 7, 2, true⟩).outcome = .error (.sizeExceeded 3) ∧
      (t.readInto ⟨.replicate 6 7, 2, true⟩).buffer.bytes = [0, 0, 0, 7, 7, 7] ∧
      Refuses (t.readInto ⟨.replicate 6 7, 2, true⟩).state (.streamEnded .failed) := by
  have hh : Honest (⟨[], .direct (Memory.ofBytes [1, 2, 3, 4, 5] 0)⟩ : Stack Memory) :=
    honest_of_truthful Memory.truthful _
  have hu : ∀ b, .readInto b ∈ [Use.readInto (.zeroed 2)] → b.writable = true := by
    intro b hb
    cases List.mem_singleton.1 hb
    rfl
  refine ⟨⟨[.reader { check := .bound ⟨3, 2⟩ }], .direct { position := 2, rest := [3, 4, 5] }⟩, rfl, ?_⟩
  obtain ⟨-, r, c, below, hl, -, -, hcall⟩ := size_bound 3 hh hu rfl
  cases hl
  obtain ⟨hover, hafter⟩ := hcall ⟨.replicate 6 7, 2, true⟩ 3 rfl (by decide) rfl rfl
  obtain ⟨hbytes, -, hrefuses⟩ := hafter (by decide)
  exact ⟨hover.2 (by decide), hbytes, hrefuses⟩

end Stack

end StreamGuard
