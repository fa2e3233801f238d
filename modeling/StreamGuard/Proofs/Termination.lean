import StreamGuard.Proofs.Handout
import StreamGuard.Proofs.Honesty
import StreamGuard.Workspace

namespace StreamGuard

namespace Script

theorem weight_rest_le (bytes : Bytes) (n : Nat) (items : List Item) :
    weight (rest bytes n items) ≤ bytes.length - n + 1 + weight items := by
  by_cases h : bytes.length ≤ n
  · rw [rest_of_length_le items h]
    omega
  · rw [rest_of_lt items (by omega)]
    simp [weight]

theorem weight_rest_lt {bytes : Bytes} {n : Nat} (items : List Item) (h : n ≠ 0) :
    weight (rest bytes n items) < bytes.length + 1 + weight items := by
  by_cases hb : bytes.length ≤ n
  · rw [rest_of_length_le items hb]
    omega
  · have := weight_rest_le bytes n items
    omega

theorem weight_read {s : Script} {n : Nat} {front : Bytes} (h : (s.read n).outcome = .ok (.bytes front))
    (hf : front ≠ []) : weight (s.read n).source.items < weight s.items := by
  obtain ⟨api, items, closes, fails⟩ := s
  cases items with
  | nil => simp [read, hf.symm] at h
  | cons item items =>
    cases item with
    | data bytes count =>
      simp only [read, Except.ok.injEq, Chunk.bytes.injEq] at h ⊢
      refine weight_rest_lt items ?_
      rintro rfl
      exact hf h.symm
    | raw bytes =>
      simp only [read, weight]
      omega
    | text | nothing | failure => simp [read] at h

theorem weight_readInto {s : Script} {b : Buffer} {k : Int} (h : (s.readInto b).outcome = .ok (some k)) (hk : k ≠ 0)
    (hb : b.size ≠ 0) : weight (s.readInto b).source.items < weight s.items := by
  obtain ⟨api, items, closes, fails⟩ := s
  cases items with
  | nil =>
    simp only [readInto, fill] at h
    split at h
    · cases h
      exact absurd rfl hk
    · cases h
  | cons item items =>
    cases item with
    | data bytes count =>
      simp only [readInto, fill_source, weight]
      exact weight_rest_lt items hb
    | raw bytes =>
      simp only [readInto, fill_source, weight]
      omega
    | text | nothing | failure => simp [readInto] at h

end Script

namespace Memory

theorem length_advance_lt {m : Memory} {n : Nat} (h : m.rest.take n ≠ []) :
    (m.advance n).rest.length < m.rest.length := by
  have hlen := List.length_pos_iff.2 h
  simp only [List.length_take] at hlen
  simp only [advance, List.length_drop]
  omega

theorem source_of_answer {α : Type} {m : Memory} {wants : Bool} {a a' : α} {n : Nat}
    (h : (m.answer wants a n).outcome = .ok a') : (m.answer wants a n).source = m.advance n := by
  unfold answer at h ⊢
  split at h
  · cases h
  · rename_i hc
    rw [if_neg hc]

theorem length_read {m : Memory} {n : Nat} {front : Bytes} (h : (m.read n).outcome = .ok (.bytes front))
    (hf : front ≠ []) : (m.read n).source.rest.length < m.rest.length := by
  have hfront : Chunk.bytes front = .bytes (m.rest.take n) := eq_of_answer h
  cases hfront
  rw [read, source_of_answer h]
  exact length_advance_lt hf

theorem length_readInto {m : Memory} {b : Buffer} {k : Int} (h : (m.readInto b).outcome = .ok (some k)) (hk : k ≠ 0) :
    (m.readInto b).source.rest.length < m.rest.length := by
  simp only [readInto] at h ⊢
  split at h
  · cases h
  · rename_i hw
    rw [if_neg hw]
    split at h
    · cases h
    · rename_i front hfront
      simp only [Except.ok.injEq, Option.some.injEq] at h
      simp only [source_of_answer hfront]
      refine length_advance_lt fun he => hk ?_
      rw [← h, eq_of_answer hfront, he]
      rfl

end Memory

namespace Endpoint

variable {e : Endpoint}

theorem weight_read {n : Nat} {front : Bytes} (h : (ByteSource.read e n).outcome = .ok (.bytes front))
    (hf : front ≠ []) : (ByteSource.read e n).source.weight < e.weight := by
  cases e with
  | script s => exact Script.weight_read h hf
  | memory m => exact Memory.length_read h hf

theorem weight_readInto {b : Buffer} {k : Int} (h : (ByteSource.readInto e b).outcome = .ok (some k)) (hk : k ≠ 0)
    (hb : b.size ≠ 0) : (ByteSource.readInto e b).source.weight < e.weight := by
  cases e with
  | script s => exact Script.weight_readInto h hk hb
  | memory m => exact Memory.length_readInto h hk

end Endpoint

namespace Origin

def weight : Origin Endpoint → Nat
  | direct e => e.weight
  | remote _ e => e.weight

variable {intake : Intake} {e : Endpoint} {o : Origin Endpoint} {b : Buffer}

theorem weight_copy {n : Nat} (h : (copy intake e b).outcome = .ok n) (hn : n ≠ 0) :
    (copy intake e b).state.weight < e.weight := by
  simp only [copy] at h ⊢
  split at h
  · cases h
  · rename_i chunk hc
    obtain ⟨front, rfl, rfl, -, -⟩ := Buffer.receive_ok h
    exact Endpoint.weight_read hc (List.length_pos_iff.1 (Nat.pos_of_ne_zero hn))

theorem weight_supplyDirect {k : Int} (h : (supplyDirect intake e b).outcome = .ok k) (hk : k ≠ 0)
    (hb : b.size ≠ 0) : (supplyDirect intake e b).state.weight < e.weight := by
  simp only [supplyDirect] at h ⊢
  by_cases hinto : (ByteSource.api e).readInto = true
  · rw [if_pos hinto] at h ⊢
    cases ho : (ByteSource.readInto e b).outcome with
    | error f => simp [ho, countOf] at h
    | ok count =>
      cases count with
      | none => simp [ho, countOf] at h
      | some count =>
        simp only [ho, countOf, Except.ok.injEq] at h
        subst h
        exact Endpoint.weight_readInto ho hk hb
  · by_cases hread : (ByteSource.api e).read = true
    · rw [if_neg hinto, if_pos hread] at h ⊢
      obtain ⟨n, ho, rfl⟩ := map_eq_ok_iff.1 h
      exact weight_copy ho (by rintro rfl; exact hk rfl)
    · rw [if_neg hinto, if_neg hread] at h
      cases h

theorem weight_supply {k : Int} (h : (o.supply intake b).outcome = .ok k) (hk : k ≠ 0) (hb : b.size ≠ 0) :
    (o.supply intake b).state.weight < o.weight := by
  cases o with
  | direct e => exact weight_supplyDirect h hk hb
  | remote r e =>
    simp only [supply, supplyRemote] at h ⊢
    split at h
    · rename_i hatt
      simp only [hatt, if_true]
      cases ho : (copy .unchecked e b).outcome with
      | error f => simp [ho] at h
      | ok n =>
        simp only [ho, Except.ok.injEq] at h
        refine weight_copy ho ?_
        rintro rfl
        exact hk h.symm
    · cases h

end Origin

namespace Stack

variable {b : Buffer} {k : Int}

theorem weight_serve {intake : Intake} {layers : List Layer} {o : Origin Endpoint}
    (h : (serve intake layers o b).outcome = .ok k) (hk : k ≠ 0) (hb : b.size ≠ 0) :
    (serve intake layers o b).state.origin.weight < o.weight := by
  induction layers generalizing intake k with
  | nil => exact Origin.weight_supply h hk hb
  | cons l below ih =>
    cases l with
    | reader r =>
      have hserved := served intake r below o b
      generalize serve intake (.reader r :: below) o b = fill at hserved h ⊢
      cases hserved with
      | refused | failed => cases h
      | empty _ hempty => exact absurd hempty hb
      | ruled _ _ ho hrule =>
        subst hrule
        obtain ⟨rfl, -⟩ := Check.rule_ok h
        exact ih ho hk
    | file a =>
      simp only [serve] at h ⊢
      split at h
      · rename_i hatt
        simp only [hatt, if_true]
        exact ih h hk
      · cases h

theorem weight_readInto {s : Stack Endpoint} (h : (s.readInto b).outcome = .ok (some k)) (hk : k ≠ 0)
    (hb : b.size ≠ 0) : (s.readInto b).state.origin.weight < s.origin.weight := by
  obtain ⟨layers, o⟩ := s
  have hserve : ((serve .checked layers o b).outcome.map some : Except Failure (Option Int)) = .ok (some k) →
      (serve .checked layers o b).state.origin.weight < o.weight := by
    intro h
    obtain ⟨_, ho, he⟩ := map_eq_ok_iff.1 h
    cases he
    exact weight_serve ho hk hb
  cases layers with
  | cons l below => exact hserve h
  | nil =>
    cases o with
    | remote r e => exact hserve h
    | direct e =>
      simp only [readInto] at h ⊢
      split at h
      · rename_i hapi
        rw [if_pos hapi]
        exact Endpoint.weight_readInto h hk hb
      · cases h

theorem budget_eq (s : Stack Endpoint) : Workspace.budget s = s.origin.weight + 2 := by
  obtain ⟨layers, o⟩ := s
  cases o <;> rfl

theorem weight_read {s : Stack Endpoint} {n : Nat} (hn : n ≠ 0) {p : Bytes} (h : (s.read n).outcome = .ok p)
    (hp : p ≠ []) : (s.read n).state.origin.weight < s.origin.weight := by
  simp only [read] at h ⊢
  split at h
  · cases h
  · rename_i count ho
    have hlower : count ≠ 0 → (s.request (.zeroed n)).state.origin.weight < s.origin.weight :=
      fun hc => weight_serve ho hc (by rwa [Buffer.size_zeroed])
    by_cases hcount : 0 ≤ count ∧ count ≤ (s.request (.zeroed n)).buffer.size
    · rw [if_pos hcount] at h ⊢
      apply hlower
      rintro rfl
      cases h
      exact hp List.take_zero
    · rw [if_neg hcount] at h ⊢
      have hzero : count ≠ 0 := by omega
      split at h
      · cases h
      · exact hlower hzero

theorem readUntilEmpty_finishes (s : Stack Endpoint) {n : Nat} (hn : n ≠ 0) :
    ∃ turn, readUntilEmpty n (Workspace.budget s) s = some turn := by
  have hbudget : s.origin.weight < Workspace.budget s := by
    rw [budget_eq]
    omega
  obtain ⟨answer, ha⟩ : ∃ answer, gather (fun t => some (untilEmpty (t.read n))) never (Workspace.budget s) s {} =
      some answer := by
    apply gather_finishes (fun _ => True) (fun t => t.origin.weight) ?_ trivial hbudget
    intro t _
    refine ⟨_, rfl, fun p hp => ⟨trivial, ?_⟩⟩
    obtain ⟨bs, ho, hbs⟩ := map_eq_ok_iff.1 hp
    refine weight_read hn ho ?_
    rintro rfl
    cases hbs
  refine ⟨joined answer id, ?_⟩
  rw [readUntilEmpty, ha]
  rfl

theorem readToEnd_finishes (s : Stack Endpoint) (chunk : Int) :
    ∃ turn, readToEnd chunk (Workspace.budget s) s = some turn := by
  by_cases hc : 0 < chunk
  · have hb : (Buffer.zeroed chunk.toNat).size ≠ 0 := by
      simp only [Buffer.size, Buffer.zeroed, Bytes.length_zeros]
      omega
    have hbudget : s.origin.weight < Workspace.budget s := by
      rw [budget_eq]
      omega
    obtain ⟨answer, ha⟩ : ∃ answer, gather (fun t => some (drainStep t)) never (Workspace.budget s)
        (s, .zeroed chunk.toNat) {} = some answer := by
      -- A request on an empty buffer need not lower the weight, so its size is part of the invariant.
      apply gather_finishes (fun t => t.2.size ≠ 0) (fun t => t.1.origin.weight) ?_ hb hbudget
      intro t hi
      refine ⟨_, rfl, fun p hp => ?_⟩
      obtain ⟨k, hk, ho⟩ := drainStep_count hp
      refine ⟨?_, weight_readInto ho hk hi⟩
      rwa [drainStep, readInto_size]
    refine ⟨joined answer Prod.fst, ?_⟩
    rw [readToEnd, if_neg (Int.not_le.2 hc), ha]
    rfl
  · exact ⟨_, readToEnd_of_nonpos (Int.not_lt.1 hc) _ s⟩

theorem looped_readToEnd {s : Stack Endpoint} {chunk : Int} {budget : Nat} {turn : Turn (Stack Endpoint) Bytes}
    (h : readToEnd chunk budget s = some turn) : Workspace.looped (readToEnd chunk) s = turn := by
  obtain ⟨turn', h'⟩ := readToEnd_finishes s chunk
  rw [Workspace.looped, h', Option.getD_some]
  exact readToEnd_agree h' h

end Stack

end StreamGuard
