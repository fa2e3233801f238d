import StreamGuard.Proofs.Ledger
import StreamGuard.Proofs.Ownership
import StreamGuard.Scenario

namespace StreamGuard

namespace Entry

def isNetwork : Entry → Bool
  | newSession | get .. => true
  | call .. | log _ => false

theorem isNetwork_ofEvent (i : Nat) (es : List Event) : ∀ e ∈ es.filterMap (ofEvent? i), e.isNetwork = false := by
  intro e he
  obtain ⟨event, -, hevent⟩ := List.mem_filterMap.1 he
  cases event <;> cases hevent <;> rfl

end Entry

namespace NamedTarget

def resolve? (w : Workspace) : NamedTarget → Option Target
  | named name => (w.find? name).map .object
  | plain t => some t

def address? (w : Workspace) (t : NamedTarget) : Option (String × Option Int) :=
  (t.resolve? w).bind fun t => (w.placeOf t).address?

end NamedTarget

namespace Recipe

def target? : Recipe → Option NamedTarget
  | openTarget t | openLocal t | fetchDigest t _ _ | fetchBound t _ => some t
  | memory .. | script _ | digest .. | bound .. | openRemote .. => none

def address? (w : Workspace) : Recipe → Option (String × Option Int)
  | openTarget t | fetchDigest t _ _ | fetchBound t _ => t.address? w
  | openRemote url timeout => some (url, timeout)
  | memory .. | script _ | digest .. | bound .. | openLocal _ => none

end Recipe

namespace Command

def address? (w : Workspace) : Command → Option (String × Option Int)
  | build _ recipe => recipe.address? w
  | use .. => none

/-- The command refers to objects by their names, which responses do not have. -/
def ByName : Command → Prop
  | build _ recipe => ∀ id, recipe.target? ≠ some (.plain (.object id))
  | use .. => True

end Command

def visit (session : Bool) : Option (String × Option Int) → List Entry
  | none => []
  | some (url, timeout) => (if session then [] else [.newSession]) ++ [.get url true timeout]

theorem callsOn_visit (i : Nat) (session : Bool) (address : Option (String × Option Int)) :
    Entry.callsOn i (visit session address) = [] := by
  cases address <;> cases session <;> rfl

namespace Workspace

open Object (Stem)

structure Advanced {α : Type} (w : Workspace) (es : List Entry) (address : Option (String × Option Int)) (s : Step α) :
    Prop where
  ledger : Ledger s.workspace.objects s.workspace.names (es ++ s.entries)
  entries : ∃ later, s.entries = visit w.session address ++ later ∧ ∀ e ∈ later, e.isNetwork = false
  session : s.workspace.session = (w.session || address.isSome)
  stems : w.objects.map Object.stem <+: s.workspace.objects.map Object.stem

structure Entered (w : Workspace) (es : List Entry) (address : Option (String × Option Int)) (s : Step Nat) :
    Prop extends Advanced w es address s where
  made : ∀ id, s.outcome = .ok id → Public (s.workspace.objects.map Object.stem) id

theorem Advanced.entered {w : Workspace} {es : List Entry} {address : Option (String × Option Int)} {s : Step Nat}
    (h : Advanced w es address s) {f : Failure} (hs : s.outcome = .error f) : Entered w es address s := by
  refine ⟨h, fun id hid => ?_⟩
  rw [hs] at hid
  cases hid

section

variable {w : Workspace} {es : List Entry} (h : Ledger w.objects w.names es)

include h

theorem advanced_idle {α : Type} (outcome : Except Failure α) : Advanced w es none ⟨outcome, w, []⟩ :=
  ⟨by rwa [List.append_nil], ⟨[], rfl, by simp⟩, by simp, List.prefix_refl _⟩

theorem entered_fail (f : Failure) : Entered w es none (w.fail f) :=
  (advanced_idle h _).entered rfl

theorem advanced_through {α : Type} {id : Nat} {s : Step α} (hp : Public (w.objects.map Object.stem) id)
    (ht : w.Through id Stack.Lawful s.workspace s.entries) : Advanced w es none s := by
  have hledger := h.through hp ht
  have hstems := ht.stems
  obtain ⟨outcome, w', entries⟩ := s
  refine ⟨hledger, ?_, ?_, hstems ▸ List.prefix_refl _⟩
  · cases ht with
    | absent => exact ⟨[], rfl, by simp⟩
    | present => exact ⟨_, rfl, Entry.isNetwork_ofEvent _ _⟩
  · cases ht <;> exact (Bool.or_false _).symm

theorem find?_public {name : String} {id : Nat} (hf : w.find? name = some id) :
    Public (w.objects.map Object.stem) id := by
  obtain ⟨n, hn, rfl⟩ := Option.map_eq_some_iff.1 hf
  exact h.sound.named n (List.mem_of_find?_eq_some hn)

theorem add_entered {o : Object} (ho : Fresh w.objects es o []) (hb : o.stem.isBody = false) :
    Entered w es none (w.add o) := by
  refine ⟨⟨h.add ho, ⟨[], rfl, by simp⟩, by simp [add], by simp [add]⟩, ?_⟩
  rintro _ ⟨⟩
  exact ⟨o.stem, by simp [add], hb⟩

theorem addReader_entered {made : Except Failure Reader} (hm : ∀ r, made = .ok r → r.closed = false) {id : Nat}
    (hp : Public (w.objects.map Object.stem) id) : Entered w es none (w.addReader made id) := by
  cases made with
  | ok r => exact add_entered h (.reader hp (hm r rfl)) rfl
  | error f =>
    refine Advanced.entered ?_ rfl
    exact advanced_through h hp (w.close_lawful id)

end

section

variable {α : Type} {w : Workspace} {es : List Entry} {address : Option (String × Option Int)} {s : Step α}

theorem Advanced.andThen {β : Type} (h : Advanced w es address s) {f : α → Workspace → Step β}
    (hf : ∀ a, s.outcome = .ok a → Advanced s.workspace (es ++ s.entries) none (f a s.workspace)) :
    Advanced w es address (s.andThen f) := by
  unfold Step.andThen
  cases hs : s.outcome with
  | error e => exact ⟨h.ledger, h.entries, h.session, h.stems⟩
  | ok a =>
    have hnext := hf a hs
    obtain ⟨later, hlater, hlocal⟩ := h.entries
    obtain ⟨last, hlast, hlocal'⟩ := hnext.entries
    refine ⟨?_, ⟨later ++ last, ?_, ?_⟩, ?_, h.stems.trans hnext.stems⟩
    · rw [← List.append_assoc]
      exact hnext.ledger
    · simp only [hlater, hlast, visit, List.nil_append, List.append_assoc]
    · intro e he
      exact (List.mem_append.1 he).elim (hlocal e) (hlocal' e)
    · simp only [hnext.session, h.session, Option.isSome_none, Bool.or_false]

theorem Entered.addReader {s : Step Nat} (h : Entered w es address s) {made : Except Failure Reader}
    (hm : ∀ r, made = .ok r → r.closed = false) : Entered w es address (s.andThen fun id w => w.addReader made id) := by
  have hnext : ∀ id, s.outcome = .ok id → Entered s.workspace (es ++ s.entries) none (s.workspace.addReader made id) :=
    fun id hs => addReader_entered h.ledger hm (h.made id hs)
  refine ⟨h.toAdvanced.andThen fun id hs => (hnext id hs).toAdvanced, fun id hid => ?_⟩
  unfold Step.andThen at hid ⊢
  cases hs : s.outcome with
  | error => simp [hs] at hid
  | ok id' =>
    simp only [hs] at hid ⊢
    exact (hnext id' hs).made id hid

end

section

variable {w : Workspace} {es : List Entry} (h : Ledger w.objects w.names es)

include h

theorem response_entered {url : String} {timeout : Option Int} {items : List Script.Item} {length : Option Int} :
    Entered w es (some (url, timeout)) ⟨.ok (w.objects.length + 1),
      { w with
        session := true
        objects := w.objects ++ [.body url (Web.body items),
          .remoteSource { url, contentLength := length } w.objects.length] },
      w.greeting url timeout ++ [.log (.openedRemote url length)]⟩ := by
  have hgreeting : ∀ i, Entry.callsOn i (w.greeting url timeout) = [] :=
    fun i => callsOn_visit i w.session (some (url, timeout))
  have hnew : ∀ j : Nat, ((w.objects ++ [Object.body url (Web.body items)]).map Object.stem)[j]? ≠
      some (Stem.remoteSource w.objects.length) := by
    intro j hj
    rw [List.map_append] at hj
    rcases getElem?_concat_eq_some hj with hj | ⟨-, hj⟩
    · obtain ⟨url', hurl⟩ := h.sound.response hj
      simpa using (List.getElem?_eq_some_iff.1 hurl).1
    · cases hj
  have hbody : Ledger (w.objects ++ [.body url (Web.body items)]) w.names (es ++ w.greeting url timeout) :=
    h.add (.body rfl (fun i _ => hgreeting i) (by rw [hgreeting]; exact .nil))
  have hcalls : Entry.callsOn w.objects.length (es ++ w.greeting url timeout) = [] := by
    rw [Entry.callsOn_append, h.absent _ (Nat.le_refl _), hgreeting]
    rfl
  have hsource := hbody.add
    (.remoteSource (r := { url, contentLength := length }) List.getElem?_concat_length rfl hcalls hnew)
  have hledger : Ledger _ w.names (_ ++ [.log (.openedRemote url length)]) := hsource.note fun _ => rfl
  rw [List.append_nil, List.append_assoc, List.append_assoc] at hledger
  refine ⟨⟨hledger, ⟨_, rfl, by simp [Entry.isNetwork]⟩, by simp, by simp⟩, ?_⟩
  rintro _ ⟨⟩
  exact ⟨Stem.remoteSource w.objects.length, by simp [Object.stem], rfl⟩

theorem file_entered (p : PathText) (c : Bytes) (ending : Option Failure) :
    Entered w es none ⟨.ok (w.objects.length + 1),
      { w with objects := w.objects ++ [.file (.opened c ending), .localSource { owned := true } w.objects.length] },
      [.log (.openedLocal p.plain)]⟩ := by
  have hfile := h.add (.source (o := Object.file (.opened c ending)) rfl rfl)
  have hpublic : Public ((w.objects ++ [Object.file (.opened c ending)]).map Object.stem) w.objects.length :=
    ⟨.file, by simp [Object.stem], rfl⟩
  have hsource := hfile.add (.localSource (a := { owned := true }) hpublic)
  have hledger : Ledger _ w.names (_ ++ [.log (.openedLocal p.plain)]) := hsource.note fun _ => rfl
  rw [List.append_nil, List.append_nil, List.append_assoc] at hledger
  refine ⟨⟨hledger, ⟨_, rfl, by simp [Entry.isNetwork]⟩, by simp, by simp⟩, ?_⟩
  rintro _ ⟨⟩
  exact ⟨Stem.localSource w.objects.length, by simp [Object.stem], rfl⟩

theorem opening_entered {place : Place} (hp : ∀ id, place = .object id → Public (w.objects.map Object.stem) id)
    {s : Step Nat} (ho : Opening w place s) : Entered w es place.address? s := by
  have hgreeting : ∀ url timeout i, Entry.callsOn i (w.greeting url timeout) = [] :=
    fun url timeout i => callsOn_visit i w.session (some (url, timeout))
  cases ho with
  | refused hlocal f =>
    rw [hlocal]
    exact entered_fail h f
  | adopted => exact add_entered h (.localSource (hp _ rfl)) rfl
  | file p c ending => exact file_entered h p c ending
  | @unanswered url timeout f =>
    refine Advanced.entered ?_ rfl
    exact ⟨h.note (hgreeting url timeout), ⟨[], (List.append_nil _).symm, by simp⟩, by simp [Place.address?],
      List.prefix_refl _⟩
  | @badStatus url timeout status headers items =>
    have hcalls : ∀ i, Entry.callsOn i (w.greeting url timeout ++ [.call w.objects.length .close]) =
        if w.objects.length = i then [.close] else [] := by
      intro i
      rw [Entry.callsOn_append, hgreeting, List.nil_append]
      by_cases hi : w.objects.length = i <;> simp [Entry.callsOn, Entry.callOn?, hi]
    have hconv : Conversation false
        (Entry.callsOn w.objects.length (w.greeting url timeout ++ [.call w.objects.length .close])) := by
      rw [hcalls, if_pos rfl]
      exact Conversation.nil.close
    refine Advanced.entered ?_ rfl
    refine ⟨h.add (.body rfl (fun i hi => ?_) hconv), ⟨_, rfl, by simp [Entry.isNetwork]⟩, by simp [Place.address?],
      by simp⟩
    rw [hcalls, if_neg hi.symm]
  | @badLength url timeout status headers items =>
    have hconv : Conversation true (Entry.callsOn w.objects.length (w.greeting url timeout)) := by
      rw [hgreeting]
      exact .nil
    refine Advanced.entered ?_ rfl
    exact ⟨h.add (.body rfl (fun i _ => hgreeting url timeout i) hconv), ⟨[], (List.append_nil _).symm, by simp⟩,
      by simp [Place.address?], by simp⟩
  | response => exact response_entered h

theorem withName_entered {name : String} {f : Nat → Step Nat}
    (hf : ∀ id, Public (w.objects.map Object.stem) id → Entered w es none (f id)) :
    Entered w es none (w.withName name f) := by
  unfold withName
  cases hid : w.find? name with
  | none => exact entered_fail h _
  | some id => exact hf id (find?_public h hid)

theorem withTarget_entered {t : NamedTarget} (ht : ∀ id, t ≠ .plain (.object id))
    {address : Target → Option (String × Option Int)} {f : Target → Step Nat}
    (hf : ∀ t, (∀ id, t = .object id → Public (w.objects.map Object.stem) id) → Entered w es (address t) (f t)) :
    Entered w es ((t.resolve? w).bind address) (w.withTarget t f) := by
  cases t with
  | named name =>
    simp only [withTarget, withName, NamedTarget.resolve?]
    cases hid : w.find? name with
    | none => exact entered_fail h _
    | some id =>
      apply hf
      rintro _ ⟨⟩
      exact find?_public h hid
  | plain t =>
    apply hf
    rintro id rfl
    exact absurd rfl (ht id)

theorem open_local_entered {t : Target} (ht : ∀ id, t = .object id → Public (w.objects.map Object.stem) id)
    {s : Step Nat} (ho : Opening w t.localPlace s) : Entered w es none s := by
  rw [← t.localPlace_address?]
  apply opening_entered h ?_ ho
  intro id hid
  apply ht
  cases t <;> cases hid
  rfl

theorem open_entered {t : Target} (ht : ∀ id, t = .object id → Public (w.objects.map Object.stem) id) :
    Entered w es (w.placeOf t).address? (w.openTarget t) := by
  have hopening := w.opening_target t
  unfold placeOf at hopening ⊢
  split at hopening
  · rename_i hpage
    rw [if_pos hpage]
    exact opening_entered h (fun _ hid => by cases hid) hopening
  · rename_i hlocal
    rw [if_neg hlocal, t.localPlace_address?]
    exact open_local_entered h ht hopening

theorem make_entered {name : String} {recipe : Recipe} (hr : Command.ByName (.build name recipe)) :
    Entered w es (recipe.address? w) (w.make name recipe) := by
  have hbound : ∀ (limit : Scalar) (r : Reader), (limitOf limit).map Reader.bound = .ok r → r.closed = false := by
    intro limit r hr
    obtain ⟨n, -, rfl⟩ := map_eq_ok_iff.1 hr
    rfl
  have hdigest : ∀ (expected : DigestValue) (r : Reader), expected.toBytes.map Reader.digest = .ok r →
      r.closed = false := by
    intro expected r hr
    obtain ⟨digest, -, rfl⟩ := map_eq_ok_iff.1 hr
    rfl
  have htarget : ∀ {t : NamedTarget}, recipe.target? = some t → ∀ id, t ≠ .plain (.object id) := by
    rintro t ht id rfl
    exact hr id ht
  cases recipe with
  | memory content position =>
    simp only [make]
    split
    · exact add_entered h (.source rfl rfl) rfl
    · exact entered_fail h _
  | script s => exact add_entered h (.source rfl rfl) rfl
  | digest source expected => exact withName_entered h fun id hid => addReader_entered h (hdigest expected) hid
  | bound source limit => exact withName_entered h fun id hid => addReader_entered h (hbound limit) hid
  | openTarget t => exact withTarget_entered h (htarget rfl) fun t ht => open_entered h ht
  | openLocal t =>
    have hlocal := withTarget_entered h (htarget rfl) fun t ht => open_local_entered h ht (w.opening_local t)
    rwa [Option.bind_fun_none] at hlocal
  | openRemote url timeout =>
    apply opening_entered h ?_ (w.opening_remote url timeout)
    rintro id ⟨⟩
  | fetchDigest t limit expected =>
    exact withTarget_entered h (htarget rfl) fun t ht =>
      ((open_entered h ht).addReader (hbound limit)).addReader (hdigest expected)
  | fetchBound t limit =>
    exact withTarget_entered h (htarget rfl) fun t ht => (open_entered h ht).addReader (hbound limit)

theorem perform_advanced {c : Command} (hc : c.ByName) : Advanced w es (c.address? w) (w.perform c).step := by
  cases c with
  | build name recipe =>
    have hmade := make_entered h hc
    change Advanced w es (recipe.address? w) ((w.make name recipe).andThen fun id w =>
      (⟨.ok (.built (w.kindOf id)), w.bind name id, []⟩ : Step Value))
    apply hmade.toAdvanced.andThen
    intro id hid
    refine ⟨?_, ⟨[], rfl, by simp⟩, by simp [bind], List.prefix_refl _⟩
    rw [List.append_nil]
    exact hmade.ledger.bind (hmade.made id hid) name
  | use name a =>
    simp only [perform]
    split
    · exact advanced_idle h _
    · rename_i id hid
      split
      · exact advanced_idle h _
      · rename_i o ho
        exact advanced_through h (find?_public h hid) (use_lawful ho a)

end

end Workspace

end StreamGuard
