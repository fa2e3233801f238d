import StreamGuard.Stack

namespace StreamGuard

theorem map_eq_ok_iff {α β : Type} {x : Except Failure α} {f : α → β} {y : β} :
    x.map f = .ok y ↔ ∃ a, x = .ok a ∧ f a = y := by
  cases x <;> simp [Except.map]

theorem map_eq_error_iff {α β : Type} {x : Except Failure α} {f : α → β} {e : Failure} :
    x.map f = .error e ↔ x = .error e := by
  cases x <;> simp [Except.map]

variable {σ : Type}

namespace DigestCheck

variable {d : DigestCheck} {acc : Sha256.Accumulator}

theorem rule_piece (hd : d.hashing = some acc) {count : Int} (hc : count ≠ 0) (b : Buffer) :
    d.rule count b =
      ⟨.ok count, b, .digest { d with hashing := some (acc.update (b.bytes.upTo count)) }, .streaming, []⟩ := by
  simp [rule, hd, hc]

theorem rule_match (hd : d.hashing = some acc) (he : acc.finish = d.expected) (b : Buffer) :
    d.rule 0 b = ⟨.ok 0, b, .digest { d with hashing := none }, .succeeded,
      [.finalized, .log (.digestVerified d.algorithm acc.finish)]⟩ := by
  simp [rule, hd, he]

theorem rule_mismatch (hd : d.hashing = some acc) (he : acc.finish ≠ d.expected) (b : Buffer) :
    d.rule 0 b = ⟨.error (.digestMismatch acc.finish d.expected), b, .digest { d with hashing := none }, .failed,
      [.finalized, .log (.digestMismatch d.algorithm acc.finish d.expected)]⟩ := by
  simp [rule, hd, he]

end DigestCheck

namespace BoundCheck

variable {c : BoundCheck} {count : Int} {b b' : Buffer}

theorem rule_over (hl : c.limit < c.received + count) (hb : b.clear count = .ok b') :
    c.rule count b = ⟨.error (.sizeExceeded c.limit), b', .bound { c with received := c.received + count },
      .failed, [.log (.sizeExceeded c.limit (c.received + count))]⟩ := by
  simp [rule, hl, hb]

theorem rule_uncleared {f : Failure} (hl : c.limit < c.received + count) (hb : b.clear count = .error f) :
    c.rule count b = ⟨.error f, b, .bound { c with received := c.received + count }, .failed, []⟩ := by
  simp [rule, hl, hb]

theorem rule_piece (hl : c.received + count ≤ c.limit) (hc : count ≠ 0) :
    c.rule count b = ⟨.ok count, b, .bound { c with received := c.received + count }, .streaming, []⟩ := by
  simp [rule, hc, Int.not_lt.2 hl]

theorem rule_end (hl : c.received ≤ c.limit) :
    c.rule 0 b = ⟨.ok 0, b, .bound c, .succeeded, [.log (.sizeWithin c.received c.limit)]⟩ := by
  simp [rule, Int.not_lt.2 hl]

theorem rule_within (hl : c.received + count ≤ c.limit) (b : Buffer) :
    ∃ state events, state ≠ .failed ∧
      c.rule count b = ⟨.ok count, b, .bound { c with received := c.received + count }, state, events⟩ := by
  by_cases hz : count = 0
  · subst hz
    rw [Int.add_zero] at hl ⊢
    exact ⟨_, _, by simp, rule_end hl⟩
  · exact ⟨_, _, by simp, rule_piece hl hz⟩

theorem rule_beyond (hl : c.limit < c.received + count) (b : Buffer) :
    ∃ f b' events,
      c.rule count b = ⟨.error f, b', .bound { c with received := c.received + count }, .failed, events⟩ := by
  cases hb : b.clear count with
  | error f => exact ⟨_, _, _, rule_uncleared hl hb⟩
  | ok b' => exact ⟨_, _, _, rule_over hl hb⟩

end BoundCheck

theorem Check.rule_ok {c : Check} {count k : Int} {b : Buffer} (h : (c.rule count b).outcome = .ok k) :
    k = count ∧ (c.rule count b).buffer = b := by
  cases c with
  | digest d =>
    simp only [rule, DigestCheck.rule] at h ⊢
    repeat' split at h
    all_goals simp_all
  | bound c =>
    simp only [rule] at h ⊢
    by_cases hl : c.received + count ≤ c.limit
    · obtain ⟨state, events, -, hr⟩ := c.rule_within hl b
      rw [hr] at h ⊢
      cases h
      exact ⟨rfl, rfl⟩
    · obtain ⟨f, b', events, hr⟩ := c.rule_beyond (Int.not_le.1 hl) b
      rw [hr] at h
      cases h

namespace Reader

variable {r : Reader} {below : Fill (Stack σ) Int}

theorem atop_error {f : Failure} (h : below.outcome = .error f) :
    r.atop below = ⟨.error f, below.buffer, below.state.push (.reader (r.after f)), below.events⟩ := by
  simp [atop, h, Stack.push]

theorem atop_ok {count : Int} (h : below.outcome = .ok count) :
    r.atop below =
      let ruling := r.check.rule count below.buffer
      ⟨ruling.outcome, ruling.buffer, below.state.push (.reader (r.settle ruling)),
        below.events ++ ruling.events⟩ := by
  simp [atop, h, Stack.push]

end Reader

namespace Stack

variable [ByteSource σ] {r : Reader} {b : Buffer}

theorem serve_refused {f : Failure} (h : r.refusal = some f) (intake : Intake) (below : List Layer)
    (o : Origin σ) (b : Buffer) :
    serve intake (.reader r :: below) o b = ⟨.error f, b, ⟨.reader r :: below, o⟩, []⟩ := by
  simp [serve, h]

theorem serve_empty (h : r.refusal = none) (hb : b.size = 0) (intake : Intake) (below : List Layer)
    (o : Origin σ) :
    serve intake (.reader r :: below) o b = ⟨.ok 0, b, ⟨.reader r :: below, o⟩, []⟩ := by
  simp [serve, h, hb]

theorem serve_open (h : r.refusal = none) (hb : b.size ≠ 0) (intake : Intake) (below : List Layer)
    (o : Origin σ) :
    serve intake (.reader r :: below) o b = r.atop (serve .checked below o b) := by
  simp [serve, h, hb]

inductive Served (r : Reader) (below : List Layer) (o : Origin σ) (b : Buffer) : Fill (Stack σ) Int → Prop
  | refused {f : Failure} (hr : r.refusal = some f) :
      Served r below o b ⟨.error f, b, ⟨.reader r :: below, o⟩, []⟩
  | empty (hr : r.refusal = none) (hb : b.size = 0) : Served r below o b ⟨.ok 0, b, ⟨.reader r :: below, o⟩, []⟩
  | failed {f : Failure} (hr : r.refusal = none) (hb : b.size ≠ 0)
      (ho : (request ⟨below, o⟩ b).outcome = .error f) :
      Served r below o b ⟨.error f, (request ⟨below, o⟩ b).buffer,
        (request ⟨below, o⟩ b).state.push (.reader (r.after f)), (request ⟨below, o⟩ b).events⟩
  | ruled {count : Int} {ruling : Ruling} (hr : r.refusal = none) (hb : b.size ≠ 0)
      (ho : (request ⟨below, o⟩ b).outcome = .ok count)
      (hrule : r.check.rule count (request ⟨below, o⟩ b).buffer = ruling) :
      Served r below o b ⟨ruling.outcome, ruling.buffer,
        (request ⟨below, o⟩ b).state.push (.reader (r.settle ruling)),
        (request ⟨below, o⟩ b).events ++ ruling.events⟩

theorem served (intake : Intake) (r : Reader) (below : List Layer) (o : Origin σ) (b : Buffer) :
    Served r below o b (serve intake (.reader r :: below) o b) := by
  cases hr : r.refusal with
  | some f =>
    rw [serve_refused hr]
    exact .refused hr
  | none =>
    by_cases hb : b.size = 0
    · rw [serve_empty hr hb]
      exact .empty hr hb
    · rw [serve_open hr hb]
      cases ho : (serve .checked below o b).outcome with
      | error f =>
        rw [Reader.atop_error ho]
        exact .failed hr hb ho
      | ok count =>
        rw [Reader.atop_ok ho]
        exact .ruled hr hb ho rfl

theorem readInto_cons (l : Layer) (below : List Layer) (o : Origin σ) (b : Buffer) :
    (⟨l :: below, o⟩ : Stack σ).readInto b =
      let fill := serve .checked (l :: below) o b
      ⟨fill.outcome.map some, fill.buffer, fill.state, fill.events⟩ := rfl

theorem readInto_layered {s : Stack σ} (hs : s.layers ≠ []) (b : Buffer) :
    s.readInto b =
      ⟨(s.request b).outcome.map some, (s.request b).buffer, (s.request b).state, (s.request b).events⟩ := by
  obtain ⟨layers, o⟩ := s
  cases layers with
  | nil => exact absurd rfl hs
  | cons l below => rfl

theorem request_layered {s : Stack σ} (h : s.layers ≠ []) (b : Buffer) : (s.request b).state.layers ≠ [] := by
  intro hnil
  have hlen := length_serve .checked s.layers s.origin b
  rw [← request, hnil] at hlen
  exact h (List.length_eq_zero_iff.1 hlen.symm)

theorem request_push (hr : r.refusal = none) (hb : b.size ≠ 0) (base : Stack σ) :
    (base.push (.reader r)).request b = r.atop (base.request b) :=
  serve_open hr hb .checked base.layers base.origin

theorem request_turns (s : Stack σ) (b : Buffer) : b.Turns (s.request b).buffer :=
  serve_turns .checked s.layers s.origin b

theorem readInto_turns (s : Stack σ) (b : Buffer) : b.Turns (s.readInto b).buffer := by
  unfold readInto
  split
  · split
    · exact ByteSource.readInto_turns _ b
    · exact .refl b
  · exact serve_turns .checked _ _ b

theorem readInto_size [KeepsLength σ] (s : Stack σ) (b : Buffer) : (s.readInto b).buffer.size = b.size := by
  unfold readInto
  split
  · split
    · exact KeepsLength.readInto_size _ b
    · rfl
  · exact serve_size .checked _ _ b

theorem request_becomes [KeepsLength σ] (s : Stack σ) (b : Buffer) : b.Becomes (s.request b).buffer :=
  ⟨request_turns s b, serve_size .checked s.layers s.origin b⟩

end Stack

structure Buffer.Reused (σ : Type) [ByteSource σ] (n : Nat) (b : Buffer) : Prop where
  turns : (Buffer.zeroed n).Turns b
  size : KeepsLength σ → b.size = n

namespace Buffer.Reused

variable [ByteSource σ] {n : Nat} {b : Buffer}

theorem zeroed (n : Nat) : (Buffer.zeroed n).Reused σ n :=
  ⟨.refl _, fun _ => size_zeroed n⟩

theorem writable (h : b.Reused σ n) : b.writable = true :=
  h.turns.writable

theorem readInto (h : b.Reused σ n) (s : Stack σ) : (s.readInto b).buffer.Reused σ n :=
  ⟨h.turns.trans (s.readInto_turns b), fun hkeeps => (s.readInto_size b).trans (h.size hkeeps)⟩

end Buffer.Reused

end StreamGuard
