import StreamGuard.Proofs.Adapter

namespace StreamGuard

inductive Cue
  | piece (p : Bytes)
  | failure (f : Failure)

namespace Cue

def renamed (g : Failure → Failure) : Cue → Cue
  | piece p => piece p
  | failure f => failure (g f)

def item : Cue → Script.Item
  | piece p => .data p none
  | failure f => .failure f

def content : List Cue → Bytes
  | piece p :: cues => p ++ content cues
  | _ => []

def ending : List Cue → Option Failure
  | [] => none
  | piece _ :: cues => ending cues
  | failure f :: _ => some f

def rest (p : Bytes) (k : Nat) (cues : List Cue) : List Cue :=
  if k < p.length then piece (p.drop k) :: cues else cues

variable {p : Bytes} {k : Nat}

theorem rest_of_lt (h : k < p.length) (cues : List Cue) : rest p k cues = piece (p.drop k) :: cues := if_pos h

theorem rest_of_le (h : p.length ≤ k) (cues : List Cue) : rest p k cues = cues := if_neg (Nat.not_lt.2 h)

theorem rest_min (p : Bytes) (k : Nat) (cues : List Cue) : rest p (min k p.length) cues = rest p k cues := by
  by_cases h : k < p.length
  · rw [Nat.min_eq_left (Nat.le_of_lt h)]
  · rw [Nat.min_eq_right (Nat.not_lt.1 h), rest_of_le (Nat.le_refl _), rest_of_le (Nat.not_lt.1 h)]

theorem map_renamed_rest (g : Failure → Failure) (p : Bytes) (k : Nat) (cues : List Cue) :
    rest p k (cues.map (renamed g)) = (rest p k cues).map (renamed g) := by
  unfold rest
  split <;> rfl

theorem map_item_rest (p : Bytes) (n : Nat) (cues : List Cue) :
    Script.rest p n (cues.map item) = (rest p n cues).map item := by
  by_cases h : n < p.length
  · rw [Script.rest_of_lt _ h, rest_of_lt h, List.map_cons, item]
  · rw [Script.rest_of_length_le _ (Nat.not_lt.1 h), rest_of_le (Nat.not_lt.1 h)]

end Cue

/-- Asked by `ask`, what `P` relates to a list of cues plays them in order. A request takes some of the piece that is
next, never none and never more than there is room for. No bytes can be put into a read-only buffer: a request on one
gives none or fails, and what becomes of the script by such a failure is left open. -/
structure Performs {τ : Type} (ask : τ → Buffer → Fill τ Int) (P : τ → List Cue → Prop) : Prop where
  done : ∀ {t b}, P t [] → b.Usable → (ask t b).outcome = .ok 0 ∧ P (ask t b).state []
  failure : ∀ {t f cues b}, P t (.failure f :: cues) → b.Usable →
    (ask t b).outcome = .error f ∧ P (ask t b).state cues
  piece : ∀ {t p cues b}, P t (.piece p :: cues) → b.Usable → ∃ k, 0 < k ∧ k ≤ p.length ∧ k ≤ b.size ∧
    (ask t b).outcome = .ok k ∧ (ask t b).buffer = { b with bytes := b.bytes.overwrite (p.take k) } ∧
    P (ask t b).state (Cue.rest p k cues)
  frozen : ∀ {t cues b}, P t cues → b.writable = false → (ask t b).outcome = .ok 0 ∨
    ∃ f cues', (ask t b).outcome = .error f ∧ P (ask t b).state cues'

namespace Performs

variable {τ τ' : Type} {ask : τ → Buffer → Fill τ Int} {ask' : τ' → Buffer → Fill τ' Int}
  {P : τ → List Cue → Prop} (h : Performs ask P)

include h

theorem delivers_piece {cues : List Cue} {ending : Option Failure} {c : Bytes}
    (hnext : ∀ {t}, P t cues → Delivers Buffer.Usable ask ending t c) {t : τ} {p : Bytes}
    (ht : P t (.piece p :: cues)) : Delivers Buffer.Usable ask ending t (p ++ c) := by
  -- By the length of the piece: what a request leaves of it is the next piece.
  induction hn : p.length using Nat.strongRecOn generalizing t p with
  | ind n ih =>
    have hcount : ∀ b, ∃ k, b.Usable → 0 < k ∧ k ≤ p.length ∧ k ≤ b.size ∧ (ask t b).outcome = .ok k ∧
        (ask t b).buffer = { b with bytes := b.bytes.overwrite (p.take k) } ∧
        P (ask t b).state (Cue.rest p k cues) := by
      intro b
      by_cases hb : b.Usable
      · obtain ⟨k, hk⟩ := h.piece ht hb
        exact ⟨k, fun _ => hk⟩
      · exact ⟨0, fun hb' => absurd hb' hb⟩
    choose k hk using hcount
    refine .more k (fun b hb => (hk b hb).2.2.2.1) (fun b hb => (hk b hb).1) (fun b hb => (hk b hb).2.2.1)
      (fun b hb => ?_) (fun b hb => ?_) fun b hb => ?_
    · have := (hk b hb).2.1
      simp only [List.length_append]
      omega
    · obtain ⟨-, hle, -, -, hbuf, -⟩ := hk b hb
      rw [hbuf, List.take_append_of_le_length hle]
    · obtain ⟨hpos, hle, -, -, -, hstate⟩ := hk b hb
      rw [List.drop_append_of_le_length hle]
      by_cases hlt : k b < p.length
      · rw [Cue.rest_of_lt hlt] at hstate
        exact ih (p.drop (k b)).length (by simp only [List.length_drop]; omega) hstate rfl
      · rw [Cue.rest_of_le (Nat.not_lt.1 hlt)] at hstate
        rw [List.drop_eq_nil_of_le (Nat.not_lt.1 hlt)]
        exact hnext hstate

theorem delivers {t : τ} {cues : List Cue} (ht : P t cues) :
    Delivers Buffer.Usable ask (Cue.ending cues) t (Cue.content cues) := by
  induction cues generalizing t with
  | nil => exact .done fun b hb => (h.done ht hb).1
  | cons cue cues ih =>
    cases cue with
    | failure f => exact .done fun b hb => (h.failure ht hb).1
    | piece p => exact h.delivers_piece (fun ht => ih ht) ht

theorem retold {g : Failure → Failure} {R : τ → τ' → Prop} (hR : Retells g R ask ask') :
    Performs ask' fun t' cues' => ∃ t cues, P t cues ∧ R t t' ∧ cues' = cues.map (Cue.renamed g) where
  done {t' b} := by
    rintro ⟨t, cues, ht, hr, hcues⟩ hb
    obtain rfl : cues = [] := List.map_eq_nil_iff.1 hcues.symm
    obtain ⟨hout, hnext⟩ := h.done ht hb
    obtain ⟨hout', -, hr'⟩ := hR t t' b hr
    exact ⟨by rw [hout', hout]; rfl, _, [], hnext, hr', rfl⟩
  failure {t' f cues' b} := by
    rintro ⟨t, _ | ⟨_ | f, cues⟩, ht, hr, hcues⟩ hb <;> cases hcues
    obtain ⟨hout, hnext⟩ := h.failure ht hb
    obtain ⟨hout', -, hr'⟩ := hR t t' b hr
    exact ⟨by rw [hout', hout]; rfl, _, cues, hnext, hr', rfl⟩
  piece {t' p cues' b} := by
    rintro ⟨t, _ | ⟨p | _, cues⟩, ht, hr, hcues⟩ hb <;> cases hcues
    obtain ⟨k, hpos, hle, hroom, hout, hbuf, hnext⟩ := h.piece ht hb
    obtain ⟨hout', hbuf', hr'⟩ := hR t t' b hr
    refine ⟨k, hpos, hle, hroom, by rw [hout', hout]; rfl, by rw [hbuf', hbuf], _, _, hnext, hr', ?_⟩
    rw [Cue.map_renamed_rest]
  frozen {t' cues' b} := by
    rintro ⟨t, cues, ht, hr, -⟩ hb
    obtain ⟨hout', -, hr'⟩ := hR t t' b hr
    obtain hout | ⟨f, cues'', hout, hnext⟩ := h.frozen ht hb
    · exact .inl (by rw [hout', hout]; rfl)
    · exact .inr ⟨g f, _, by rw [hout', hout]; rfl, _, cues'', hnext, hr', rfl⟩

end Performs

namespace Script

structure Follows (api : Api) (s : Script) (cues : List Cue) : Prop where
  api : s.api = api
  items : s.items = cues.map Cue.item
  filled : ∀ p, .piece p ∈ cues → p ≠ []

namespace Follows

variable {api : Api} {s : Script} {p : Bytes} {f : Failure} {cues : List Cue}

theorem plain (h : s.Follows api cues) : s.Plain := by
  intro item hitem
  rw [h.items] at hitem
  obtain ⟨cue, -, rfl⟩ := List.mem_map.1 hitem
  cases cue <;> trivial

theorem tail {cue : Cue} (h : s.Follows api (cue :: cues)) :
    Follows api { s with items := cues.map Cue.item } cues :=
  ⟨h.api, rfl, fun p hp => h.filled p (List.mem_cons_of_mem _ hp)⟩

theorem deal_nil (h : s.Follows api []) (n : Nat) : s.deal n = (.ok [], s) := by
  have hitems : s.items = [] := h.items
  simp [deal, hitems]

theorem deal_failure (h : s.Follows api (.failure f :: cues)) (n : Nat) :
    s.deal n = (.error f, { s with items := cues.map Cue.item }) := by
  have hitems : s.items = .failure f :: cues.map Cue.item := h.items
  simp [deal, hitems]

theorem deal_piece (h : s.Follows api (.piece p :: cues)) (n : Nat) :
    (s.deal n).1 = .ok (p.take n) ∧ Follows api (s.deal n).2 (Cue.rest p n cues) := by
  have hitems : s.items = .data p none :: cues.map Cue.item := h.items
  simp only [deal, hitems, Cue.map_item_rest]
  refine ⟨trivial, h.api, rfl, fun q hq => ?_⟩
  by_cases hlt : n < p.length
  · rw [Cue.rest_of_lt hlt] at hq
    rcases List.mem_cons.1 hq with he | hq
    · cases he
      exact fun hnil => absurd (List.drop_eq_nil_iff.1 hnil) (Nat.not_le.2 hlt)
    · exact h.tail.filled q hq
  · rw [Cue.rest_of_le (Nat.not_lt.1 hlt)] at hq
    exact h.tail.filled q hq

theorem deal_follows (h : s.Follows api cues) (n : Nat) : ∃ cues', Follows api (s.deal n).2 cues' := by
  cases cues with
  | nil =>
    rw [h.deal_nil]
    exact ⟨[], h⟩
  | cons cue cues =>
    cases cue with
    | piece p => exact ⟨_, (h.deal_piece n).2⟩
    | failure f =>
      rw [h.deal_failure]
      exact ⟨cues, h.tail⟩

end Follows

structure Deals (ask : Script → Buffer → Fill Script Int) (api : Api) : Prop where
  usable : ∀ {s b}, s.Plain → s.api = api → b.Usable → ∃ n es, 0 < n ∧ n ≤ b.size ∧ ask s b = answered b (s.deal n) es
  frozen : ∀ {s b}, s.Plain → s.api = api → b.writable = false →
    (∃ f, (ask s b).outcome = .error f) ∧ ∃ n, (ask s b).state = (s.deal n).2

theorem Deals.performs {ask : Script → Buffer → Fill Script Int} {api : Api} (h : Deals ask api) :
    Performs ask (Follows api) where
  done {s b} hs hb := by
    obtain ⟨n, es, -, -, hask⟩ := h.usable hs.plain hs.api hb
    rw [hask, hs.deal_nil]
    exact ⟨rfl, hs⟩
  failure {s f cues b} hs hb := by
    obtain ⟨n, es, -, -, hask⟩ := h.usable hs.plain hs.api hb
    rw [hask, hs.deal_failure]
    exact ⟨rfl, hs.tail⟩
  piece {s p cues b} hs hb := by
    obtain ⟨n, es, hpos, hroom, hask⟩ := h.usable hs.plain hs.api hb
    obtain ⟨hgiven, hnext⟩ := hs.deal_piece n
    have hlen : 0 < p.length := List.length_pos_iff.2 (hs.filled p List.mem_cons_self)
    refine ⟨min n p.length, by omega, by omega, by omega, ?_⟩
    rw [hask, ← List.take_eq_take_min, Cue.rest_min]
    simp only [answered, hgiven, List.length_take]
    exact ⟨trivial, trivial, hnext⟩
  frozen {s cues b} hs hb := by
    obtain ⟨⟨f, hout⟩, n, hstate⟩ := h.frozen hs.plain hs.api hb
    obtain ⟨cues', hnext⟩ := hs.deal_follows n
    rw [hstate]
    exact .inr ⟨f, cues', hout, hnext⟩

theorem deals_read (intake : Intake) (api : Api) : Deals (Origin.supplyRead intake) api where
  usable hs _ hb := ⟨_, _, Nat.pos_of_ne_zero hb.items, Buffer.items_le_size _, supplyRead_plain hs hb.writable intake⟩
  frozen {s b} hs _ hb := by
    have hfail : ∀ front, ∃ f, (b.receive intake (.bytes front)).1 = .error f := by
      intro front
      simp only [Buffer.receive, Buffer.put, hb]
      split <;> exact ⟨_, rfl⟩
    simp only [Origin.supplyRead, Origin.copy, ByteSource.read, read_plain hs]
    cases (s.deal b.items).1 with
    | error f => exact ⟨⟨f, rfl⟩, _, rfl⟩
    | ok front =>
      obtain ⟨f, hf⟩ := hfail front
      exact ⟨⟨f, by simp [Except.map, hf]⟩, _, rfl⟩

theorem readInto_frozen {s : Script} {b : Buffer} (hs : s.Plain) (hb : b.writable = false) :
    (∃ f, (s.readInto b).outcome = .error f) ∧ (s.readInto b).source = (s.deal b.size).2 := by
  unfold readInto deal
  cases hi : s.items with
  | nil => simp [fill, Buffer.put, hb]
  | cons item items =>
    have hitem : item.Plain := hs item (by simp [hi])
    cases item with
    | data bytes count => simp [fill, Buffer.put, hb]
    | failure f => exact ⟨⟨f, rfl⟩, rfl⟩
    | raw | text | nothing => exact absurd hitem id

theorem deals_direct {api : Api} (h : api.readInto = true ∨ api.read = true) (intake : Intake) :
    Deals (Origin.supplyDirect intake) api := by
  by_cases hinto : api.readInto = true
  · constructor
    · rintro s b hs rfl hb
      exact ⟨_, _, Nat.pos_of_ne_zero hb.size, Nat.le_refl _, supplyDirect_into_plain hs hb.writable hinto intake⟩
    · rintro s b hs rfl hb
      obtain ⟨⟨f, hf⟩, hsource⟩ := readInto_frozen hs hb
      simp only [Origin.supplyDirect, ByteSource.api, hinto, if_true, ByteSource.readInto, hf, hsource]
      exact ⟨⟨f, rfl⟩, _, rfl⟩
  · have hread : api.read = true := h.resolve_left hinto
    have heq : ∀ {s : Script}, s.api = api → ∀ b, Origin.supplyDirect intake s b = Origin.supplyRead intake s b := by
      rintro s rfl b
      exact Origin.supplyDirect_of_read (by simpa [ByteSource.api] using hinto) hread intake b
    have hdeals := deals_read intake api
    constructor
    · intro s b hs ha hb
      rw [heq ha]
      exact hdeals.usable hs ha hb
    · intro s b hs ha hb
      rw [heq ha]
      exact hdeals.frozen hs ha hb

end Script

end StreamGuard
