import StreamGuard.Proofs.Responses

namespace StreamGuard

namespace Object.Stem

def isBody : Stem → Bool
  | body _ => true
  | _ => false

def isRemote : Stem → Bool
  | body _ | remoteSource _ => true
  | _ => false

def layer? : Stem → Option Nat
  | reader below | localSource below => some below
  | _ => none

end Object.Stem

open Object (Stem)

def Public (stems : List Stem) (i : Nat) : Prop :=
  ∃ s, stems[i]? = some s ∧ s.isBody = false

theorem Public.lt {stems : List Stem} {i : Nat} (h : Public stems i) : i < stems.length := by
  obtain ⟨s, hs, -⟩ := h
  exact (List.getElem?_eq_some_iff.1 hs).1

structure Sound (stems : List Stem) (names : List (String × Nat)) : Prop where
  named : ∀ n ∈ names, Public stems n.2
  layer : ∀ {i below : Nat} {s : Stem}, stems[i]? = some s → s.layer? = some below → Public stems below ∧ below < i
  response : ∀ {i below : Nat}, stems[i]? = some (Stem.remoteSource below) → ∃ url, stems[below]? = some (Stem.body url)
  unique : ∀ {i j below : Nat}, stems[i]? = some (Stem.remoteSource below) →
    stems[j]? = some (Stem.remoteSource below) → i = j

structure Fits (stems : List Stem) (s : Stem) : Prop where
  layer : ∀ {below : Nat}, s.layer? = some below → Public stems below
  response : ∀ {below : Nat}, s = Stem.remoteSource below → ∃ url, stems[below]? = some (Stem.body url)
  unique : ∀ {i below : Nat}, s = Stem.remoteSource below → stems[i]? ≠ some (Stem.remoteSource below)

theorem getElem?_append_of_some {α : Type} {xs : List α} {x : α} {i : Nat} (h : xs[i]? = some x) (ys : List α) :
    (xs ++ ys)[i]? = some x := by
  rw [List.getElem?_append_left (List.getElem?_eq_some_iff.1 h).1, h]

theorem getElem?_concat_eq_some {α : Type} {xs : List α} {x y : α} {i : Nat} (h : (xs ++ [x])[i]? = some y) :
    xs[i]? = some y ∨ i = xs.length ∧ x = y := by
  by_cases hi : i < xs.length
  · rw [List.getElem?_append_left hi] at h
    exact .inl h
  · have hlen := (List.getElem?_eq_some_iff.1 h).1
    rw [List.length_append, List.length_singleton] at hlen
    obtain rfl : i = xs.length := by omega
    rw [List.getElem?_concat_length] at h
    exact .inr ⟨rfl, Option.some.inj h⟩

theorem Public.append {stems : List Stem} {i : Nat} (h : Public stems i) (more : List Stem) :
    Public (stems ++ more) i := by
  obtain ⟨s, hs, hb⟩ := h
  exact ⟨s, getElem?_append_of_some hs more, hb⟩

theorem Sound.concat {stems : List Stem} {names : List (String × Nat)} (h : Sound stems names) {s : Stem}
    (hs : Fits stems s) : Sound (stems ++ [s]) names where
  named n hn := (h.named n hn).append [s]
  layer hi hl := by
    rcases getElem?_concat_eq_some hi with hi | ⟨rfl, rfl⟩
    · obtain ⟨hbelow, hlt⟩ := h.layer hi hl
      exact ⟨hbelow.append _, hlt⟩
    · have hbelow := hs.layer hl
      exact ⟨hbelow.append _, hbelow.lt⟩
  response hi := by
    rcases getElem?_concat_eq_some hi with hi | ⟨-, rfl⟩
    · obtain ⟨url, hurl⟩ := h.response hi
      exact ⟨url, getElem?_append_of_some hurl _⟩
    · obtain ⟨url, hurl⟩ := hs.response rfl
      exact ⟨url, getElem?_append_of_some hurl _⟩
  unique hi hj := by
    rcases getElem?_concat_eq_some hi with hold | ⟨rfl, hnew⟩
    · rcases getElem?_concat_eq_some hj with hold' | ⟨-, hnew⟩
      · exact h.unique hold hold'
      · exact absurd hold (hs.unique hnew)
    · rcases getElem?_concat_eq_some hj with hold' | ⟨rfl, -⟩
      · exact absurd hold' (hs.unique hnew)
      · rfl

namespace Entry

def callOn? (i : Nat) : Entry → Option Call
  | call j c => if j = i then some c else none
  | _ => none

def callsOn (i : Nat) (es : List Entry) : List Call :=
  es.filterMap (callOn? i)

theorem callsOn_append (i : Nat) (es fs : List Entry) : callsOn i (es ++ fs) = callsOn i es ++ callsOn i fs :=
  List.filterMap_append

theorem callsOn_ofEvent (i source : Nat) (es : List Event) :
    callsOn i (es.filterMap (ofEvent? source)) = if source = i then Event.calls es else [] := by
  induction es with
  | nil => simp [callsOn]
  | cons e es ih =>
    cases e with
    | call c =>
      have hcons : callsOn i ((Event.call c :: es).filterMap (ofEvent? source)) =
          (if source = i then [c] else []) ++ callsOn i (es.filterMap (ofEvent? source)) := by
        by_cases hs : source = i <;> simp [callsOn, ofEvent?, callOn?, hs]
      rw [hcons, ih]
      split <;> rfl
    | log => exact ih
    | finalized => exact ih

end Entry

inductive Inventory (objects : List Object) (l : Located) : Prop
  | direct {e : Endpoint} (ho : l.stack.origin = .direct e)
      (hids : ∀ i ∈ l.ids, ∀ o, objects[i]? = some o → o.stem.isRemote = false)
  | remote {r : Remote} {body : Script} {j : Nat} {url : String} (ho : l.stack.origin = .remote r (.script body))
      (hj : objects[j]? = some (.remoteSource r l.source)) (hb : objects[l.source]? = some (.body url body))
      (hids : ∀ i ∈ l.ids, ∀ o, objects[i]? = some o → o.stem.isRemote = true → i = j ∨ i = l.source)

theorem Object.stem_of_layer? {o : Object} {x : Layer} {below : Nat} (h : o.layer? = some (x, below)) :
    o.stem.layer? = some below ∧ o.stem.isRemote = false := by
  cases o <;> cases h <;> exact ⟨rfl, rfl⟩

theorem Standing.inventory {objects : List Object} {names : List (String × Nat)} {id : Nat} {l : Located}
    (hs : Sound (objects.map Object.stem) names) (h : Standing objects id l)
    (hp : Public (objects.map Object.stem) id) : Inventory objects l := by
  induction h with
  | @source id o e ho he =>
    refine .direct rfl fun i hi o' ho' => ?_
    obtain rfl : i = id := by simpa [Located.ids, Located.ofSource] using hi
    obtain rfl : o = o' := Option.some.inj (ho.symm.trans ho')
    obtain ⟨st, hst, hbody⟩ := hp
    obtain rfl : o.stem = st := Option.some.inj ((getElem?_stem ho).symm.trans hst)
    cases o with
    | body => cases hbody
    | script | memory | file => rfl
    | reader | localSource | remoteSource => cases he
  | @remote id below r o e ho hb he =>
    obtain ⟨url, hurl⟩ := hs.response (getElem?_stem ho)
    obtain ⟨body, hbody⟩ := body_of_stem hurl
    obtain rfl := Option.some.inj (hb.symm.trans hbody)
    cases he
    refine .remote rfl ho hb fun i hi _ _ _ => ?_
    simpa [Located.ids, Located.ofRemote] using hi
  | @layer id below o x l ho hx hlt h ih =>
    obtain ⟨hlayer, hlocal⟩ := Object.stem_of_layer? hx
    have hid : ∀ o', objects[id]? = some o' → o'.stem.isRemote = false := by
      intro o' ho'
      rwa [← Option.some.inj (ho.symm.trans ho')]
    cases ih (hs.layer (getElem?_stem ho) hlayer).1 with
    | direct horigin hids =>
      refine .direct horigin fun i hi o' ho' => ?_
      rcases List.mem_cons.1 hi with rfl | hi
      · exact hid o' ho'
      · exact hids i hi o' ho'
    | remote horigin hj hb hids =>
      refine .remote horigin hj hb fun i hi o' ho' hremote => ?_
      rcases List.mem_cons.1 hi with rfl | hi
      · rw [hid o' ho'] at hremote
        cases hremote
      · exact hids i hi o' ho' hremote

namespace Object

def ended : Object → Bool
  | reader r _ => r.closed
  | remoteSource r _ => !r.attached
  | _ => true

end Object

def endedAt (objects : List Object) (i : Nat) : Bool :=
  (objects[i]?.map Object.ended).getD true

def Ordered (objects : List Object) : Prop :=
  ∀ {i below : Nat} {r : Reader}, objects[i]? = some (.reader r below) → r.closed = true → endedAt objects below = true

namespace Standing

variable {objects : List Object} {id : Nat} {l : Located}

theorem source_lt (h : Standing objects id l) : l.source < objects.length := by
  induction h with
  | source ho => exact (List.getElem?_eq_some_iff.1 ho).1
  | remote _ hb => exact (List.getElem?_eq_some_iff.1 hb).1
  | layer _ _ _ _ ih => exact ih

theorem ends (h : Standing objects id l) : l.ids.map (endedAt objects) = l.stack.ends := by
  induction h with
  | @source id o e ho he => cases o <;> cases he <;> simp [Located.ids, Located.ofSource, endedAt, ho] <;> rfl
  | @remote id below r o e ho hb he =>
    cases o <;> cases he <;> simp [Located.ids, Located.ofRemote, endedAt, ho, hb] <;> rfl
  | @layer id below o x l ho hx _ _ ih =>
    rw [Located.ids_push, List.map_cons, ih]
    cases o <;> cases hx <;> simp [endedAt, ho] <;> rfl

theorem head?_ids (h : Standing objects id l) : l.ids.head? = some id := by
  cases h <;> rfl

theorem next_ids (h : Standing objects id l) {k i below : Nat} {r : Reader} (hk : l.ids[k]? = some i)
    (hi : objects[i]? = some (.reader r below)) : l.ids[k + 1]? = some below := by
  have hsource : ∀ {i : Nat} {o : Object} {e : Endpoint}, objects[i]? = some o → o.endpoint? = some e →
      objects[i]? ≠ some (.reader r below) := by
    intro i o e ho he hr
    rw [ho] at hr
    cases hr
    cases he
  induction h generalizing k with
  | source ho he =>
    cases k with
    | zero =>
      cases hk
      exact absurd hi (hsource ho he)
    | succ k => cases hk
  | remote ho hb he =>
    match k with
    | 0 =>
      cases hk
      rw [ho] at hi
      cases hi
    | 1 =>
      cases hk
      exact absurd hi (hsource hb he)
    | k + 2 => cases hk
  | layer ho hx _ h ih =>
    cases k with
    | zero =>
      cases hk
      rw [ho] at hi
      cases hi
      cases hx
      rw [Located.ids_push, List.getElem?_cons_succ, ← List.head?_eq_getElem?]
      exact h.head?_ids
    | succ k => exact ih hk

theorem getElem?_ends (h : Standing objects id l) {k i : Nat} (hk : l.ids[k]? = some i) :
    l.stack.ends[k]? = some (endedAt objects i) := by
  rw [← h.ends, List.getElem?_map, hk]
  rfl

theorem endedAt_store {i : Nat} (hi : i ∉ l.ids) (t : Stack Endpoint) :
    endedAt (l.store t objects) i = endedAt objects i := by
  rw [endedAt, Located.store_of_not_mem hi, endedAt]

variable {t : Stack Endpoint} (h : Standing objects id l) (hm : t.molds = l.stack.molds)
  (hs : Stack.Settles l.stack.ends t.ends)

include h hm hs

theorem endedAt_mono {i : Nat} (he : endedAt objects i = true) : endedAt (l.store t objects) i = true := by
  by_cases hi : i ∈ l.ids
  · obtain ⟨k, hk⟩ := List.mem_iff_getElem?.1 hi
    have hold := h.getElem?_ends hk
    rw [he] at hold
    have hnew : t.ends[k]? = some (endedAt (l.store t objects) i) := (h.store hm).getElem?_ends hk
    rw [hs.mono hold] at hnew
    exact (Option.some.inj hnew).symm
  · rwa [endedAt_store hi]

theorem endedAt_next {i below : Nat} {r : Reader} (hi : objects[i]? = some (.reader r below))
    (he : endedAt objects i = false) (he' : endedAt (l.store t objects) i = true) :
    endedAt (l.store t objects) below = true := by
  have hmem : i ∈ l.ids := by
    apply Decidable.byContradiction
    intro hmem
    rw [endedAt_store hmem, he] at he'
    cases he'
  have hends : ∀ {k i : Nat}, l.ids[k]? = some i → t.ends[k]? = some (endedAt (l.store t objects) i) :=
    fun hk => (h.store hm).getElem?_ends hk
  obtain ⟨k, hk⟩ := List.mem_iff_getElem?.1 hmem
  have hend := hends hk
  rw [he'] at hend
  rcases hs.next hend with hold | hbelow
  · rw [h.getElem?_ends hk, he] at hold
    cases hold
  · rw [hends (h.next_ids hk hi)] at hbelow
    exact Option.some.inj hbelow

theorem ordered_store (ho : Ordered objects) : Ordered (l.store t objects) := by
  intro i below r hi hr
  obtain ⟨o, hobj, hstem⟩ := Located.exists_of_store hi
  obtain ⟨r₀, rfl⟩ : ∃ r₀, o = .reader r₀ below := by
    cases o <;> cases hstem
    exact ⟨_, rfl⟩
  cases he : endedAt objects i with
  | true =>
    have hr₀ : r₀.closed = true := by simpa [endedAt, hobj, Object.ended] using he
    exact h.endedAt_mono hm hs (ho hobj hr₀)
  | false =>
    apply h.endedAt_next hm hs hobj he
    simp [endedAt, hi, Object.ended, hr]

end Standing

end StreamGuard
