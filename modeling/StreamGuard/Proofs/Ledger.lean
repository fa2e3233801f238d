import StreamGuard.Proofs.References

/-!
What has been asked of the responses of a workspace. Main statement: as long as names and layers do not refer to
responses, each is read while its source is attached and closed once when that ends, whatever is done with the objects
that have names.
-/

namespace StreamGuard

open Object (Stem)

def Accounted (objects : List Object) (es : List Entry) (i : Nat) (body : Script) : Prop :=
  body.closeFails = false ∧ ∃ attached, Conversation attached (Entry.callsOn i es) ∧
    ∀ {j : Nat} {r : Remote}, objects[j]? = some (.remoteSource r i) → r.attached = attached

structure Ledger (objects : List Object) (names : List (String × Nat)) (es : List Entry) : Prop where
  sound : Sound (objects.map Object.stem) names
  ordered : Ordered objects
  absent : ∀ i, objects.length ≤ i → Entry.callsOn i es = []
  response : ∀ {i : Nat} {url : String} {body : Script}, objects[i]? = some (.body url body) →
    Accounted objects es i body

section

variable {objects : List Object} {names : List (String × Nat)} {id : Nat} {l : Located} {t : Stack Endpoint}
  {es : List Entry} {events : List Event}

theorem callsOn_elsewhere {i : Nat} (hi : l.source ≠ i) :
    Entry.callsOn i (es ++ events.filterMap (Entry.ofEvent? l.source)) = Entry.callsOn i es := by
  rw [Entry.callsOn_append, Entry.callsOn_ofEvent, if_neg hi, List.append_nil]

variable (h : Ledger objects names es)

include h

theorem accounted_elsewhere {i : Nat} {url : String} {body : Script}
    (hbody : (l.store t objects)[i]? = some (.body url body)) (hi : i ∉ l.ids)
    (hsources : ∀ {j : Nat} {r : Remote}, (l.store t objects)[j]? = some (.remoteSource r i) → j ∉ l.ids) :
    Accounted (l.store t objects) (es ++ events.filterMap (Entry.ofEvent? l.source)) i body := by
  have hne : l.source ≠ i := by
    rintro rfl
    simp [Located.ids] at hi
  rw [Located.store_of_not_mem hi] at hbody
  obtain ⟨hf, attached, hconv, hatt⟩ := h.response hbody
  refine ⟨hf, attached, ?_, fun {j r} hj => hatt (j := j) ?_⟩
  · rwa [callsOn_elsewhere hne]
  · rwa [← Located.store_of_not_mem (hsources hj) t]

variable (hl : Standing objects id l) (hp : Public (objects.map Object.stem) id)
  (hlaw : l.stack.Lawful events t)

include hl hp hlaw

theorem accounted_below {r : Remote} {body body' : Script} {url url' : String} {j : Nat}
    (horigin : l.stack.origin = .remote r (.script body)) (hj : objects[j]? = some (.remoteSource r l.source))
    (hb : objects[l.source]? = some (.body url body))
    (hbody : (l.store t objects)[l.source]? = some (.body url' body')) :
    Accounted (l.store t objects) (es ++ events.filterMap (Entry.ofEvent? l.source)) l.source body' := by
  obtain ⟨hf, attached, hconv, hatt⟩ := h.response hb
  obtain ⟨r', body₁, horigin', hf', hcontinues⟩ := hlaw.continues horigin hf
  have hstems := l.stems_store t objects
  have hsound : Sound ((l.store t objects).map Object.stem) names := hstems ▸ h.sound
  -- The source of the response is found where the stack has been put back.
  cases (hl.store hlaw.molds).inventory hsound (hstems ▸ hp) with
  | direct hdirect =>
    rw [horigin'] at hdirect
    cases hdirect
  | @remote r₂ body₂ k url₂ horigin₂ hk hb₂ _ =>
    rw [horigin'] at horigin₂
    cases horigin₂
    rw [hbody] at hb₂
    cases hb₂
    refine ⟨hf', r'.attached, ?_, fun {i q} hi => ?_⟩
    · rw [Entry.callsOn_append, Entry.callsOn_ofEvent, if_pos rfl]
      rw [← hatt hj] at hconv
      exact hcontinues hconv
    · obtain rfl : i = k := hsound.unique (getElem?_stem hi) (getElem?_stem hk)
      rw [hi] at hk
      cases hk
      rfl

theorem accounted_store {i : Nat} {url : String} {body : Script}
    (hbody : (l.store t objects)[i]? = some (.body url body)) :
    Accounted (l.store t objects) (es ++ events.filterMap (Entry.ofEvent? l.source)) i body := by
  obtain ⟨o, ho, hstem⟩ := Located.exists_of_store hbody
  cases hl.inventory h.sound hp with
  | direct _ hids =>
    apply accounted_elsewhere h hbody
    · intro hi
      have hlocal := hids i hi o ho
      rw [hstem] at hlocal
      cases hlocal
    · intro j r hj hmem
      obtain ⟨o', ho', hstem'⟩ := Located.exists_of_store hj
      have hlocal := hids j hmem o' ho'
      rw [hstem'] at hlocal
      cases hlocal
  | @remote r body' j url' horigin hj hb hids =>
    by_cases hi : i = l.source
    · subst hi
      exact accounted_below h hl hp hlaw horigin hj hb hbody
    · apply accounted_elsewhere h hbody
      · intro hmem
        rcases hids i hmem o ho (by rw [hstem]; rfl) with rfl | he
        · rw [hj] at ho
          cases ho
          cases hstem
        · exact hi he
      · intro k q hk hmem
        obtain ⟨o', ho', hstem'⟩ := Located.exists_of_store hk
        rcases hids k hmem o' ho' (by rw [hstem']; rfl) with rfl | rfl
        · rw [hj] at ho'
          cases ho'
          cases hstem'
          exact hi rfl
        · rw [hb] at ho'
          cases ho'
          cases hstem'

omit hlaw in
theorem Ledger.polite : l.stack.Polite := by
  intro r body ho
  cases hl.inventory h.sound hp with
  | direct horigin =>
    rw [horigin] at ho
    cases ho
  | remote horigin _ hb =>
    rw [horigin] at ho
    cases ho
    exact (h.response hb).1

end

theorem Ledger.through {w w' : Workspace} {id : Nat} {es fs : List Entry} (h : Ledger w.objects w.names es)
    (hp : Public (w.objects.map Object.stem) id) (ht : w.Through id Stack.Lawful w' fs) :
    Ledger w'.objects w'.names (es ++ fs) := by
  cases ht with
  | absent => rwa [List.append_nil]
  | @present l events t hl hlaw =>
    refine ⟨?_, hl.ordered_store hlaw.molds (hlaw.settles (h.polite hl hp)) h.ordered, fun i hi => ?_,
      accounted_store h hl hp hlaw⟩
    · rw [Located.stems_store]
      exact h.sound
    · rw [Located.length_store] at hi
      rw [callsOn_elsewhere (Nat.ne_of_lt (Nat.lt_of_lt_of_le hl.source_lt hi))]
      exact h.absent i hi

namespace Workspace

variable {w : Workspace} {id : Nat}

theorem close_lawful (w : Workspace) (id : Nat) :
    w.Through id Stack.Lawful (w.close id).workspace (w.close id).entries :=
  (w.close_through id).mono fun _ _ _ _ h => h.lawful

theorem use_lawful {o : Object} (ho : w.objects[id]? = some o) (a : Action) :
    w.Through id Stack.Lawful (w.use id o a).step.workspace (w.use id o a).step.entries := by
  cases he : o.endpoint? with
  | none =>
    cases ha : a.closes with
    | false => exact (use_asks ho he ha).mono fun _ _ _ _ h => h.lawful
    | true => exact (use_closes he ha).mono fun _ _ _ _ h => h.lawful
  | some e =>
    -- A source by itself is no response, and stays one.
    refine (use_remolded ho a).mono fun l es t hl hm => ?_
    obtain rfl : Located.ofSource id e = l := Option.some.inj ((locate_endpoint ho he).symm.trans hl.locate_eq)
    obtain ⟨e', rfl, -⟩ := Stack.eq_of_molds_direct hm
    refine ⟨hm, fun hs => ?_, fun _ => .refl _⟩
    cases hs

end Workspace

inductive Fresh (objects : List Object) (es : List Entry) : Object → List Entry → Prop
  | source {o : Object} {e : Endpoint} (he : o.endpoint? = some e) (hb : o.stem.isBody = false) : Fresh objects es o []
  | reader {r : Reader} {below : Nat} (hp : Public (objects.map Object.stem) below) (hr : r.closed = false) :
      Fresh objects es (.reader r below) []
  | localSource {a : FileAdapter} {below : Nat} (hp : Public (objects.map Object.stem) below) :
      Fresh objects es (.localSource a below) []
  | body {url : String} {body : Script} {fs : List Entry} {attached : Bool} (hf : body.closeFails = false)
      (hcalls : ∀ i, i ≠ objects.length → Entry.callsOn i fs = [])
      (hconv : Conversation attached (Entry.callsOn objects.length fs)) : Fresh objects es (.body url body) fs
  | remoteSource {r : Remote} {i : Nat} {url : String} {body : Script} (hb : objects[i]? = some (.body url body))
      (hr : r.attached = true) (hes : Entry.callsOn i es = [])
      (hnew : ∀ j : Nat, (objects.map Object.stem)[j]? ≠ some (Stem.remoteSource i)) :
      Fresh objects es (.remoteSource r i) []

namespace Fresh

variable {objects : List Object} {es fs : List Entry} {o : Object}

theorem fits (h : Fresh objects es o fs) : Fits (objects.map Object.stem) o.stem := by
  cases h with
  | @source o e he hb =>
    have hstem : o.stem.layer? = none ∧ o.stem.isRemote = false := by
      cases o <;> cases he <;> cases hb <;> exact ⟨rfl, rfl⟩
    refine ⟨fun hl => ?_, fun hs => ?_, fun hs => ?_⟩
    · rw [hstem.1] at hl
      cases hl
    all_goals
      rw [hs] at hstem
      cases hstem.2
  | reader hp | localSource hp => exact ⟨fun hl => by cases hl; exact hp, nofun, nofun⟩
  | body => exact ⟨nofun, nofun, nofun⟩
  | @remoteSource r i url body hb _ _ hnew =>
    refine ⟨nofun, ?_, ?_⟩
    · rintro _ ⟨⟩
      exact ⟨url, getElem?_stem hb⟩
    · rintro j _ ⟨⟩
      exact hnew j

theorem callsOn_of_ne (h : Fresh objects es o fs) {i : Nat} (hi : i ≠ objects.length) : Entry.callsOn i fs = [] := by
  cases h with
  | body _ hcalls => exact hcalls i hi
  | source | reader | localSource | remoteSource => rfl

end Fresh

namespace Ledger

variable {objects : List Object} {names : List (String × Nat)} {es fs : List Entry}

theorem note (h : Ledger objects names es) (hfs : ∀ i, Entry.callsOn i fs = []) : Ledger objects names (es ++ fs) := by
  have hcalls : ∀ i, Entry.callsOn i (es ++ fs) = Entry.callsOn i es := by
    intro i
    rw [Entry.callsOn_append, hfs, List.append_nil]
  refine ⟨h.sound, h.ordered, fun i hi => ?_, fun {i url body} hb => ?_⟩
  · rw [hcalls]
    exact h.absent i hi
  · rw [Accounted, hcalls]
    exact h.response hb

theorem stem_lt (h : Ledger objects names es) {j i : Nat} {r : Remote} (hj : objects[j]? = some (.remoteSource r i)) :
    i < objects.length := by
  obtain ⟨url, hurl⟩ := h.sound.response (getElem?_stem hj)
  simpa using (List.getElem?_eq_some_iff.1 hurl).1

theorem add (h : Ledger objects names es) {o : Object} (ho : Fresh objects es o fs) :
    Ledger (objects ++ [o]) names (es ++ fs) where
  sound := by
    rw [List.map_append]
    exact h.sound.concat ho.fits
  ordered {i below r} hi hr := by
    rcases getElem?_concat_eq_some hi with hi | ⟨rfl, rfl⟩
    · have hbelow := (h.sound.layer (getElem?_stem hi) rfl).1.lt
      rw [List.length_map] at hbelow
      rw [endedAt, List.getElem?_append_left hbelow]
      exact h.ordered hi hr
    · cases ho with
      | source he => cases he
      | reader _ hopen =>
        rw [hr] at hopen
        cases hopen
  absent i hi := by
    rw [List.length_append, List.length_singleton] at hi
    rw [Entry.callsOn_append, h.absent i (by omega), ho.callsOn_of_ne (by omega), List.append_nil]
  response {i url body} hi := by
    rcases getElem?_concat_eq_some hi with hi | ⟨rfl, rfl⟩
    · have hlt := (List.getElem?_eq_some_iff.1 hi).1
      obtain ⟨hf, attached, hconv, hatt⟩ := h.response hi
      refine ⟨hf, attached, ?_, fun {j r} hj => ?_⟩
      · rwa [Entry.callsOn_append, ho.callsOn_of_ne (Nat.ne_of_lt hlt), List.append_nil]
      · rcases getElem?_concat_eq_some hj with hj | ⟨-, rfl⟩
        · exact hatt hj
        · cases ho with
          | source he => cases he
          | remoteSource _ hr hes =>
            rw [hes] at hconv
            rw [hr, hconv.of_nil]
    · cases ho with
      | source _ hb => cases hb
      | @body _ _ _ attached hf _ hconv =>
        refine ⟨hf, attached, ?_, fun {j r} hj => ?_⟩
        · rwa [Entry.callsOn_append, h.absent _ (Nat.le_refl _), List.nil_append]
        · rcases getElem?_concat_eq_some hj with hj | ⟨-, hj⟩
          · exact absurd (h.stem_lt hj) (Nat.lt_irrefl _)
          · cases hj

theorem bind (h : Ledger objects names es) {id : Nat} (hp : Public (objects.map Object.stem) id) (name : String) :
    Ledger objects ((names.filter fun n => n.1 != name) ++ [(name, id)]) es := by
  refine ⟨⟨fun n hn => ?_, h.sound.layer, h.sound.response, h.sound.unique⟩, h.ordered, h.absent, h.response⟩
  rcases List.mem_append.1 hn with hn | hn
  · exact h.sound.named n (List.mem_filter.1 hn).1
  · cases List.mem_singleton.1 hn
    exact hp

end Ledger

end StreamGuard
