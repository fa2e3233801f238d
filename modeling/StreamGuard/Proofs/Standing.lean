import StreamGuard.Proofs.Locate

/-!
Where the stacks of a workspace stand. Main statements: a stack that is put back is found again with the same objects,
all other objects are as they were, and an object stays of its kind.
-/

namespace StreamGuard

inductive Standing (objects : List Object) : Nat → Located → Prop
  | source {id : Nat} {o : Object} {e : Endpoint} (ho : objects[id]? = some o) (he : o.endpoint? = some e) :
      Standing objects id (.ofSource id e)
  | remote {id below : Nat} {r : Remote} {o : Object} {e : Endpoint} (ho : objects[id]? = some (.remoteSource r below))
      (hb : objects[below]? = some o) (he : o.endpoint? = some e) : Standing objects id (.ofRemote id below r e)
  | layer {id below : Nat} {o : Object} {x : Layer} {l : Located} (ho : objects[id]? = some o)
      (hx : o.layer? = some (x, below)) (hlt : below < id) (h : Standing objects below l) :
      Standing objects id (l.push id x)

inductive Mold
  | reader
  | file (owned : Bool)
  | remote (url : String)
  | script (closeFails : Bool)
  | memory
  deriving DecidableEq

namespace Endpoint

def mold : Endpoint → Mold
  | script s => .script s.closeFails
  | memory _ => .memory

def closings : Endpoint → Nat
  | script s => s.closes
  | memory m => m.closed.toNat

end Endpoint

namespace Layer

def mold : Layer → Mold
  | reader _ => .reader
  | file a => .file a.owned

def closings : Layer → Nat
  | reader r => r.closed.toNat
  | file a => (!a.attached).toNat

end Layer

namespace Origin

def molds : Origin Endpoint → List Mold
  | direct e => [e.mold]
  | remote r e => [.remote r.url, e.mold]

def closings : Origin Endpoint → List Nat
  | direct e => [e.closings]
  | remote r e => [(!r.attached).toNat, e.closings]

end Origin

namespace Stack

def molds (s : Stack Endpoint) : List Mold :=
  s.layers.map Layer.mold ++ s.origin.molds

def closings (s : Stack Endpoint) : List Nat :=
  s.layers.map Layer.closings ++ s.origin.closings

theorem molds_push (s : Stack Endpoint) (x : Layer) : (s.push x).molds = x.mold :: s.molds := rfl

theorem closings_push (s : Stack Endpoint) (x : Layer) : (s.push x).closings = x.closings :: s.closings := rfl

variable {s : Stack Endpoint}

theorem eq_of_molds_direct {e : Endpoint} (h : s.molds = molds ⟨[], .direct e⟩) :
    ∃ e', s = ⟨[], .direct e'⟩ ∧ e'.mold = e.mold := by
  obtain ⟨_ | ⟨y, ys⟩, e' | ⟨r', e'⟩⟩ := s
  · exact ⟨e', rfl, by simpa [molds, Origin.molds] using h⟩
  · simp [molds, Origin.molds] at h
  all_goals cases y <;> cases e <;> simp [molds, Origin.molds, Layer.mold, Endpoint.mold] at h

theorem eq_of_molds_remote {r : Remote} {e : Endpoint} (h : s.molds = molds ⟨[], .remote r e⟩) :
    ∃ r' e', s = ⟨[], .remote r' e'⟩ ∧ r'.url = r.url ∧ e'.mold = e.mold := by
  obtain ⟨_ | ⟨y, ys⟩, e' | ⟨r', e'⟩⟩ := s
  · simp [molds, Origin.molds] at h
  · exact ⟨r', e', rfl, by simpa [molds, Origin.molds] using h⟩
  all_goals cases y <;> simp [molds, Origin.molds, Layer.mold] at h

theorem eq_of_molds_layer {x : Layer} {xs : List Layer} {o : Origin Endpoint} (h : s.molds = molds ⟨x :: xs, o⟩) :
    ∃ y ys, s = ⟨y :: ys, s.origin⟩ ∧ y.mold = x.mold ∧ molds ⟨ys, s.origin⟩ = molds ⟨xs, o⟩ := by
  obtain ⟨_ | ⟨y, ys⟩, o'⟩ := s
  · rcases o' with ⟨_ | _⟩ | ⟨_, _⟩ <;> cases x <;> simp [molds, Origin.molds, Layer.mold, Endpoint.mold] at h
  · simp only [molds, List.map_cons, List.cons_append, List.cons.injEq] at h
    exact ⟨y, ys, rfl, h.1, h.2⟩

end Stack

namespace Located

def ids (l : Located) : List Nat :=
  l.layers ++ l.remote.toList ++ [l.source]

def store (l : Located) (s : Stack Endpoint) (objects : List Object) : List Object :=
  let layered := (l.layers.zip s.layers).foldl (fun os p => os.modify p.1 (·.setLayer p.2)) objects
  match s.origin with
  | .direct e => layered.modify l.source (·.setEndpoint e)
  | .remote r e =>
    let responded := match l.remote with
      | some id => layered.modify id (·.setRemote r)
      | none => layered
    responded.modify l.source (·.setEndpoint e)

theorem ids_push (l : Located) (id : Nat) (x : Layer) : (l.push id x).ids = id :: l.ids := rfl

theorem store_push (l : Located) (id : Nat) (x y : Layer) (ys : List Layer) (o : Origin Endpoint)
    (objects : List Object) :
    (l.push id x).store ⟨y :: ys, o⟩ objects = l.store ⟨ys, o⟩ (objects.modify id (·.setLayer y)) := rfl

end Located

namespace Workspace

theorem putBack_eq (w : Workspace) (l : Located) (s : Stack Endpoint) :
    w.putBack l s = { w with objects := l.store s w.objects } := by
  unfold putBack Located.store
  cases s.origin <;> rfl

end Workspace

namespace Object

def closings : Object → Nat
  | script _ s | body _ s => s.closes
  | memory m | file m => m.closed.toNat
  | reader r _ => r.closed.toNat
  | localSource a _ => (!a.attached).toNat
  | remoteSource r _ => (!r.attached).toNat

inductive Stem
  | script (label : String)
  | memory
  | file
  | body (url : String)
  | reader (below : Nat)
  | localSource (below : Nat)
  | remoteSource (below : Nat)
  deriving DecidableEq

def stem : Object → Stem
  | script label _ => .script label
  | memory _ => .memory
  | file _ => .file
  | body url _ => .body url
  | reader _ below => .reader below
  | localSource _ below => .localSource below
  | remoteSource _ below => .remoteSource below

theorem stem_setLayer (o : Object) (x : Layer) : (o.setLayer x).stem = o.stem := by
  cases o <;> cases x <;> rfl

theorem stem_setEndpoint (o : Object) (e : Endpoint) : (o.setEndpoint e).stem = o.stem := by
  cases o <;> cases e <;> rfl

theorem stem_setRemote (o : Object) (r : Remote) : (o.setRemote r).stem = o.stem := by
  cases o <;> rfl

theorem endpoint?_of_layer? {o : Object} {p : Layer × Nat} (h : o.layer? = some p) : o.endpoint? = none := by
  cases o with
  | reader | localSource | remoteSource => rfl
  | script | memory | file | body => cases h

end Object

section

open Object (Stem)

variable {objects : List Object} {i below : Nat}

theorem getElem?_stem {o : Object} (h : objects[i]? = some o) : (objects.map Object.stem)[i]? = some o.stem := by
  rw [List.getElem?_map, h]
  rfl

theorem exists_of_stem {s : Stem} (h : (objects.map Object.stem)[i]? = some s) :
    ∃ o, objects[i]? = some o ∧ o.stem = s := by
  rw [List.getElem?_map] at h
  exact Option.map_eq_some_iff.1 h

theorem body_of_stem {url : String} (h : (objects.map Object.stem)[i]? = some (Stem.body url)) :
    ∃ body, objects[i]? = some (.body url body) := by
  obtain ⟨o, ho, hstem⟩ := exists_of_stem h
  cases o <;> cases hstem
  exact ⟨_, ho⟩

theorem reader_of_stem (h : (objects.map Object.stem)[i]? = some (Stem.reader below)) :
    ∃ r, objects[i]? = some (.reader r below) := by
  obtain ⟨o, ho, hstem⟩ := exists_of_stem h
  cases o <;> cases hstem
  exact ⟨_, ho⟩

theorem remoteSource_of_stem (h : (objects.map Object.stem)[i]? = some (Stem.remoteSource below)) :
    ∃ r, objects[i]? = some (.remoteSource r below) := by
  obtain ⟨o, ho, hstem⟩ := exists_of_stem h
  cases o <;> cases hstem
  exact ⟨_, ho⟩

end

namespace Standing

variable {objects objects' : List Object} {id i : Nat} {l : Located} {s : Stack Endpoint}

theorem of_locate (h : locate objects id = some l) : Standing objects id l := by
  induction hn : id using Nat.strongRecOn generalizing id l with
  | ind n ih =>
    subst hn
    rw [locate] at h
    cases ho : objects[id]? with
    | none => simp [ho] at h
    | some o =>
      rw [ho] at h
      cases o with
      | reader r below =>
        simp only [Option.ite_none_right_eq_some, Option.map_eq_some_iff] at h
        obtain ⟨hlt, l', hl, rfl⟩ := h
        exact .layer ho rfl hlt (ih below hlt hl rfl)
      | localSource a below =>
        simp only [Option.ite_none_right_eq_some, Option.map_eq_some_iff] at h
        obtain ⟨hlt, l', hl, rfl⟩ := h
        exact .layer ho rfl hlt (ih below hlt hl rfl)
      | remoteSource r below =>
        simp only at h
        cases hb : objects[below]? with
        | none => simp [hb] at h
        | some o =>
          rw [hb] at h
          obtain ⟨e, he, rfl⟩ := Option.map_eq_some_iff.1 h
          exact .remote ho hb he
      | script | memory | file | body =>
        cases h
        exact .source ho rfl

theorem locate_eq (h : Standing objects id l) : locate objects id = some l := by
  induction h with
  | source ho he => exact locate_endpoint ho he
  | remote ho hb he =>
    rw [locate, ho]
    simp [hb, he]
  | @layer id below o x l ho hx hlt _ ih =>
    rw [locate, ho]
    cases o with
    | reader | localSource =>
      cases hx
      simp [hlt, ih]
    | script | memory | file | body | remoteSource => cases hx

theorem ids_le (h : Standing objects id l) (hi : i ∈ l.ids) :
    i ≤ id ∨ ∃ o e, objects[i]? = some o ∧ o.endpoint? = some e := by
  induction h with
  | source ho he =>
    simp [Located.ids, Located.ofSource] at hi
    exact .inl (Nat.le_of_eq hi)
  | remote ho hb he =>
    simp only [Located.ids, Located.ofRemote, Option.toList_some, List.nil_append, List.cons_append, List.mem_cons,
      List.not_mem_nil, or_false] at hi
    rcases hi with rfl | rfl
    · exact .inl (Nat.le_refl _)
    · exact .inr ⟨_, _, hb, he⟩
  | layer ho hx hlt _ ih =>
    rw [Located.ids_push, List.mem_cons] at hi
    rcases hi with rfl | hi
    · exact .inl (Nat.le_refl _)
    · rcases ih hi with hle | he
      · exact .inl (by omega)
      · exact .inr he

theorem not_mem_ids {below : Nat} {o : Object} {x : Layer} (h : Standing objects below l) (ho : objects[id]? = some o)
    (hx : o.layer? = some (x, below)) (hlt : below < id) : id ∉ l.ids := by
  intro hi
  rcases h.ids_le hi with hle | ⟨o', e, ho', he⟩
  · omega
  · rw [ho] at ho'
    cases ho'
    rw [Object.endpoint?_of_layer? hx] at he
    cases he

theorem agree (h : Standing objects id l) (hsame : ∀ i ∈ l.ids, objects'[i]? = objects[i]?) :
    Standing objects' id l := by
  induction h with
  | @source id o e ho he => exact .source ((hsame id (by simp [Located.ids, Located.ofSource])).trans ho) he
  | @remote id below r o e ho hb he =>
    have hid := hsame id (by simp [Located.ids, Located.ofRemote])
    have hbelow := hsame below (by simp [Located.ids, Located.ofRemote])
    exact .remote (hid.trans ho) (hbelow.trans hb) he
  | layer ho hx hlt _ ih =>
    rw [Located.ids_push] at hsame
    exact .layer ((hsame _ List.mem_cons_self).trans ho) hx hlt (ih fun i hi => hsame i (List.mem_cons_of_mem _ hi))

theorem of_append {more : List Object} (hmore : ∀ o ∈ more, o.endpoint? = none)
    (h : Standing (objects ++ more) id l) (hid : id < objects.length) : Standing objects id l := by
  generalize hall : objects ++ more = all at h
  induction h with
  | source ho he =>
    subst hall
    rw [List.getElem?_append_left hid] at ho
    exact .source ho he
  | @remote id below r o e ho hb he =>
    subst hall
    rw [List.getElem?_append_left hid] at ho
    by_cases hlt : below < objects.length
    · rw [List.getElem?_append_left hlt] at hb
      exact .remote ho hb he
    · rw [List.getElem?_append_right (Nat.not_lt.1 hlt)] at hb
      rw [hmore o (List.mem_of_getElem? hb)] at he
      cases he
  | layer ho hx hlt _ ih =>
    subst hall
    rw [List.getElem?_append_left hid] at ho
    exact .layer ho hx hlt (ih (by omega))

theorem of_concat {o : Object} {x : Layer} {below : Nat} (ho : o.layer? = some (x, below)) (hb : below < objects.length)
    (h : Standing (objects ++ [o]) objects.length l) :
    ∃ l', Standing objects below l' ∧ l = l'.push objects.length x := by
  have hlast : (objects ++ [o])[objects.length]? = some o := List.getElem?_concat_length
  have hn := Object.endpoint?_of_layer? ho
  cases h with
  | source ho' he =>
    rw [hlast] at ho'
    cases ho'
    rw [hn] at he
    cases he
  | remote ho' =>
    rw [hlast] at ho'
    cases ho'
    cases ho
  | layer ho' hx _ hbelow =>
    rw [hlast] at ho'
    cases ho'
    rw [ho] at hx
    cases hx
    exact ⟨_, hbelow.of_append (by simpa using hn) hb, rfl⟩

end Standing

namespace Located

variable {objects : List Object} {i : Nat}

theorem foldl_modify_of_not_mem {ids : List Nat} (hi : i ∉ ids) (xs : List Layer) :
    ((ids.zip xs).foldl (fun os p => os.modify p.1 (·.setLayer p.2)) objects)[i]? = objects[i]? := by
  induction ids generalizing xs objects with
  | nil => rfl
  | cons id ids ih =>
    cases xs with
    | nil => rfl
    | cons x xs =>
      simp only [List.mem_cons, not_or] at hi
      rw [List.zip_cons_cons, List.foldl_cons, ih hi.2, List.getElem?_modify_ne _ _ (Ne.symm hi.1)]

theorem store_of_not_mem {l : Located} (hi : i ∉ l.ids) (s : Stack Endpoint) :
    (l.store s objects)[i]? = objects[i]? := by
  simp only [ids, List.mem_append, List.mem_singleton, not_or] at hi
  obtain ⟨⟨hlayers, hremote⟩, hsource⟩ := hi
  simp only [store]
  split
  · rw [List.getElem?_modify_ne _ _ (Ne.symm hsource), foldl_modify_of_not_mem hlayers]
  · rw [List.getElem?_modify_ne _ _ (Ne.symm hsource)]
    split
    · rename_i id hid
      have hne : id ≠ i := by
        rintro rfl
        simp [hid] at hremote
      rw [List.getElem?_modify_ne _ _ hne, foldl_modify_of_not_mem hlayers]
    · exact foldl_modify_of_not_mem hlayers s.layers

end Located

namespace Standing

variable {objects objects' : List Object} {id i : Nat} {l : Located} {s : Stack Endpoint}

theorem setEndpoint_endpoint? {o : Object} {e e' : Endpoint} (h : o.endpoint? = some e) (he : e'.mold = e.mold) :
    (o.setEndpoint e').endpoint? = some e' := by
  cases o with
  | script | body =>
    cases h
    cases e' with
    | script => rfl
    | memory => cases he
  | memory | file =>
    cases h
    cases e' with
    | script => cases he
    | memory => rfl
  | reader | localSource | remoteSource => cases h

theorem setLayer_layer? {o : Object} {x y : Layer} {below : Nat} (h : o.layer? = some (x, below))
    (hy : y.mold = x.mold) : (o.setLayer y).layer? = some (y, below) := by
  cases o with
  | reader =>
    cases h
    cases y with
    | reader => rfl
    | file => cases hy
  | localSource =>
    cases h
    cases y with
    | reader => cases hy
    | file => rfl
  | script | memory | file | body | remoteSource => cases h

theorem store (h : Standing objects id l) (hs : s.molds = l.stack.molds) :
    Standing (l.store s objects) id { l with stack := s } := by
  -- By the layers, with other objects that agree where the stack stands: the layers above have been put back already.
  suffices hall : ∀ objects' : List Object, (∀ i ∈ l.ids, objects'[i]? = objects[i]?) →
      Standing (l.store s objects') id { l with stack := s } from hall objects fun _ _ => rfl
  induction h generalizing s with
  | @source id o e ho he =>
    intro objects' hsame
    obtain ⟨e', rfl, he'⟩ := Stack.eq_of_molds_direct hs
    have hid := (hsame id (by simp [Located.ids, Located.ofSource])).trans ho
    refine .source (o := o.setEndpoint e') ?_ (setEndpoint_endpoint? he he')
    simp [Located.store, Located.ofSource, List.getElem?_modify_eq, hid]
  | @remote id below r o e ho hb he =>
    intro objects' hsame
    obtain ⟨r', e', rfl, -, he'⟩ := Stack.eq_of_molds_remote hs
    have hid := (hsame id (by simp [Located.ids, Located.ofRemote])).trans ho
    have hbelow := (hsame below (by simp [Located.ids, Located.ofRemote])).trans hb
    have hne : below ≠ id := by
      rintro rfl
      rw [ho] at hb
      cases hb
      cases he
    refine .remote (o := o.setEndpoint e') ?_ ?_ (setEndpoint_endpoint? he he')
    · simp [Located.store, Located.ofRemote, List.getElem?_modify_ne _ _ hne, List.getElem?_modify_eq, hid,
        Object.setRemote]
    · simp [Located.store, Located.ofRemote, List.getElem?_modify_eq, List.getElem?_modify_ne _ _ hne.symm, hbelow]
  | @layer id below o x l ho hx hlt h ih =>
    intro objects' hsame
    have hnot := h.not_mem_ids ho hx hlt
    have hpushed : s.molds = Stack.molds ⟨x :: l.stack.layers, l.stack.origin⟩ := hs
    obtain ⟨y, ys, hs', hy, hbelow⟩ := Stack.eq_of_molds_layer hpushed
    rw [Located.ids_push] at hsame
    rw [hs', Located.store_push]
    refine .layer (o := o.setLayer y) (l := { l with stack := ⟨ys, s.origin⟩ }) ?_ (setLayer_layer? hx hy) hlt ?_
    · rw [Located.store_of_not_mem hnot, List.getElem?_modify_eq, hsame id List.mem_cons_self, ho]
      rfl
    · apply ih hbelow
      intro i hi
      have hne : id ≠ i := fun heq => hnot (heq ▸ hi)
      rw [List.getElem?_modify_ne _ _ hne]
      exact hsame i (List.mem_cons_of_mem _ hi)

theorem modify_self {o : Object} {f : Object → Object} (ho : objects[id]? = some o) (hf : f o = o) :
    objects.modify id f = objects := by
  apply List.ext_getElem?
  intro j
  rw [List.getElem?_modify]
  by_cases hj : id = j
  · subst hj
    simp [ho, hf]
  · simp [hj]

theorem setLayer_self {o : Object} {x : Layer} {below : Nat} (h : o.layer? = some (x, below)) : o.setLayer x = o := by
  cases o <;> cases h <;> rfl

theorem setEndpoint_self {o : Object} {e : Endpoint} (h : o.endpoint? = some e) : o.setEndpoint e = o := by
  cases o <;> cases h <;> rfl

theorem store_self (h : Standing objects id l) : l.store l.stack objects = objects := by
  induction h with
  | source ho he => exact modify_self ho (setEndpoint_self he)
  | @remote id below r o e ho hb he =>
    have hremote : objects.modify id (·.setRemote r) = objects := modify_self ho rfl
    simp only [Located.store, Located.ofRemote, List.zip_nil_left, List.foldl_nil, hremote]
    exact modify_self hb (setEndpoint_self he)
  | @layer id below o x l ho hx _ _ ih =>
    have hpush : (l.push id x).store (l.push id x).stack objects =
        l.store l.stack (objects.modify id (·.setLayer x)) := rfl
    rw [hpush, modify_self ho (setLayer_self hx), ih]

theorem closings (h : Standing objects id l) :
    l.ids.map (fun i => (objects[i]?.map Object.closings).getD 0) = l.stack.closings := by
  induction h with
  | @source id o e ho he => cases o <;> cases he <;> simp [Located.ids, Located.ofSource, ho] <;> rfl
  | @remote id below r o e ho hb he => cases o <;> cases he <;> simp [Located.ids, Located.ofRemote, ho, hb] <;> rfl
  | @layer id below o x l ho hx _ _ ih =>
    rw [Located.ids_push, List.map_cons, ih]
    cases o <;> cases hx <;> simp [ho] <;> rfl

end Standing

namespace Located

theorem stems_store (l : Located) (s : Stack Endpoint) (objects : List Object) :
    (l.store s objects).map Object.stem = objects.map Object.stem := by
  have hmodify : ∀ {f : Object → Object}, (∀ o, (f o).stem = o.stem) → ∀ (os : List Object) (i : Nat),
      (os.modify i f).map Object.stem = os.map Object.stem := by
    intro f hf os i
    apply List.ext_getElem?
    intro j
    simp only [List.getElem?_map, List.getElem?_modify]
    cases os[j]? with
    | none => rfl
    | some o =>
      by_cases hj : i = j
      · simp [hj, hf]
      · simp [hj]
  have hlayers : ∀ (ps : List (Nat × Layer)) (os : List Object),
      (ps.foldl (fun os p => os.modify p.1 (·.setLayer p.2)) os).map Object.stem = os.map Object.stem := by
    intro ps
    induction ps with
    | nil => exact fun _ => rfl
    | cons p ps ih => exact fun os => (ih _).trans (hmodify (fun o => o.stem_setLayer p.2) os p.1)
  simp only [store]
  split
  · rename_i e _
    rw [hmodify fun o => o.stem_setEndpoint e, hlayers]
  · rename_i r e _
    rw [hmodify fun o => o.stem_setEndpoint e]
    split
    · rw [hmodify fun o => o.stem_setRemote r, hlayers]
    · exact hlayers _ _

theorem exists_of_store {l : Located} {s : Stack Endpoint} {objects : List Object} {i : Nat} {o : Object}
    (h : (l.store s objects)[i]? = some o) : ∃ o', objects[i]? = some o' ∧ o'.stem = o.stem := by
  have hstem := getElem?_stem h
  rw [stems_store] at hstem
  exact exists_of_stem hstem

theorem length_store (l : Located) (s : Stack Endpoint) (objects : List Object) :
    (l.store s objects).length = objects.length := by
  simpa using congrArg List.length (l.stems_store s objects)

end Located

end StreamGuard
