import StreamGuard.Proofs.Network

namespace StreamGuard

def Addressed (s : String) : Prop :=
  ∃ rest, s = "http://" ++ rest ∨ s = "https://" ++ rest

theorem Path.isAddress_iff {s : String} : isAddress s = true ↔ Addressed s := by
  have hprefix : ∀ {p : String}, p.toList <+: s.toList ↔ ∃ rest, s = p ++ rest := by
    intro p
    constructor
    · rintro ⟨rest, h⟩
      refine ⟨String.ofList rest, ?_⟩
      rw [← String.toList_inj, String.toList_append, String.toList_ofList, h]
    · rintro ⟨rest, rfl⟩
      rw [String.toList_append]
      exact List.prefix_append ..
  have hhttp : ['h', 't', 't', 'p', ':', '/', '/'] = "http://".toList := by decide
  have hhttps : ['h', 't', 't', 'p', 's', ':', '/', '/'] = "https://".toList := by decide
  simp only [isAddress, isAddressChars, Bool.or_eq_true, List.isPrefixOf_iff_prefix, hhttp, hhttps, hprefix, Addressed,
    exists_or]

namespace Target

/-- A text that begins as an address is looked for under it, and so is an object that cannot be read and prints so. -/
inductive Online (w : Workspace) : Target → String → Prop
  | text {url : String} (h : Addressed url) : Online w (.text url) url
  | object {id : Nat} {url : String} (hread : w.hasRead id = false) (hp : w.printed (.object id) = url)
      (h : Addressed url) : Online w (.object id) url

inductive Local (w : Workspace) : Target → Prop
  | text {s : String} (h : ¬ Addressed s) : Local w (.text s)
  | path (s : String) : Local w (.path s)
  | bytes (bs : Bytes) : Local w (.bytes bs)
  | readable {id : Nat} (h : w.hasRead id = true) : Local w (.object id)
  | other {id : Nat} (h : ¬ Addressed (w.printed (.object id))) : Local w (.object id)

end Target

inductive Entrance
  | source
  | bound (limit : Scalar)
  | digest (limit : Scalar) (expected : DigestValue)

namespace Entrance

def enter (e : Entrance) (w : Workspace) (t : Target) : Step Nat :=
  match e with
  | source => w.openTarget t
  | bound limit => w.fetchBound t limit
  | digest limit expected => w.fetchDigest t limit expected

def wrapped (e : Entrance) (opened : Step Nat) : Step Nat :=
  match e with
  | source => opened
  | bound limit => opened.andThen fun id w => w.addBound limit id
  | digest limit expected =>
    (opened.andThen fun id w => w.addBound limit id).andThen fun id w => w.addDigest expected id

theorem enter_eq (e : Entrance) (w : Workspace) (t : Target) : e.enter w t = e.wrapped (w.openTarget t) := by
  cases e <;> rfl

theorem wrapped_keeps {P : Step Nat → Prop}
    (hP : ∀ {s : Step Nat} (made : Except Failure Reader), P s → P (s.andThen fun id w => w.addReader made id))
    (e : Entrance) {s : Step Nat} (h : P s) : P (e.wrapped s) := by
  cases e with
  | source => exact h
  | bound => exact hP _ h
  | digest => exact hP _ (hP _ h)

end Entrance

namespace Workspace

structure Visited (w : Workspace) (address : Option (String × Option Int)) (s : Step Nat) : Prop where
  entries : ∃ later, s.entries = visit w.session address ++ later ∧ ∀ e ∈ later, e.isNetwork = false
  session : s.workspace.session = (w.session || address.isSome)

theorem Opening.visited {w : Workspace} {place : Place} {s : Step Nat} (h : Opening w place s) :
    Visited w place.address? s := by
  cases h with
  | refused hlocal =>
    rw [hlocal]
    exact ⟨⟨[], rfl, by simp⟩, by simp⟩
  | adopted => exact ⟨⟨[], rfl, by simp⟩, by simp [Place.address?]⟩
  | file => exact ⟨⟨_, rfl, by simp [Entry.isNetwork]⟩, by simp [Place.address?]⟩
  | unanswered | badLength => exact ⟨⟨[], (List.append_nil _).symm, by simp⟩, by simp [Place.address?]⟩
  | badStatus | response => exact ⟨⟨_, rfl, by simp [Entry.isNetwork]⟩, by simp [Place.address?]⟩

theorem close_local (w : Workspace) (id : Nat) :
    (∀ e ∈ (w.close id).entries, e.isNetwork = false) ∧ (w.close id).workspace.session = w.session := by
  have hclose := w.close_through id
  generalize (w.close id).workspace = w' at hclose ⊢
  generalize (w.close id).entries = entries at hclose ⊢
  cases hclose with
  | absent => exact ⟨by simp, rfl⟩
  | present => exact ⟨Entry.isNetwork_ofEvent _ _, rfl⟩

theorem addReader_local (w : Workspace) (made : Except Failure Reader) (id : Nat) :
    (∀ e ∈ (w.addReader made id).entries, e.isNetwork = false) ∧
      (w.addReader made id).workspace.session = w.session := by
  cases made with
  | ok => exact ⟨by simp [addReader, add], rfl⟩
  | error => exact w.close_local id

theorem Visited.addReader {w : Workspace} {address : Option (String × Option Int)} {s : Step Nat}
    (made : Except Failure Reader) (h : Visited w address s) :
    Visited w address (s.andThen fun id w => w.addReader made id) := by
  obtain ⟨outcome, w', entries⟩ := s
  cases outcome with
  | error => exact h
  | ok id =>
    obtain ⟨⟨later, hlater, hlocal⟩, hsession⟩ := h
    obtain ⟨hentries, hkept⟩ := w'.addReader_local made id
    refine ⟨⟨later ++ (w'.addReader made id).entries, ?_, ?_⟩, hkept.trans hsession⟩
    · change entries ++ (w'.addReader made id).entries = _
      rw [← List.append_assoc]
      exact congrArg (· ++ _) hlater
    · intro e he
      exact (List.mem_append.1 he).elim (hlocal e) (hentries e)

structure Aside (f : Workspace → Workspace) : Prop where
  objects : ∀ w, (f w).objects = w.objects
  store : ∀ w objects, f { w with objects } = { f w with objects }

theorem aside_files (files : FileTree) : Aside fun w => { w with files } :=
  ⟨fun _ => rfl, fun _ _ => rfl⟩

theorem aside_network (web : Web) (session : Bool) : Aside fun w => { w with web, session } :=
  ⟨fun _ => rfl, fun _ _ => rfl⟩

end Workspace

def Step.beside {α : Type} (f : Workspace → Workspace) (s : Step α) : Step α :=
  ⟨s.outcome, f s.workspace, s.entries⟩

namespace Workspace

namespace Aside

theorem andThen {f : Workspace → Workspace} {α β : Type} {s : Step α} {g : α → Workspace → Step β}
    (hg : ∀ a w, g a (f w) = (g a w).beside f) : (s.beside f).andThen g = (s.andThen g).beside f := by
  obtain ⟨outcome, w, entries⟩ := s
  cases outcome with
  | error => rfl
  | ok a => simp only [Step.andThen, Step.beside, hg]

variable {f : Workspace → Workspace} (hf : Aside f)

include hf

theorem add (w : Workspace) (o : Object) : (f w).add o = (w.add o).beside f := by
  have hstore := hf.store w (w.objects ++ [o])
  simp only [Workspace.add, Step.beside, hf.objects, hstore]

theorem run {α : Type} (w : Workspace) (id : Nat) (g : Stack Endpoint → Turn (Stack Endpoint) α) :
    (f w).run id g = (w.run id g).beside f := by
  unfold Workspace.run
  rw [hf.objects]
  cases locate w.objects id with
  | none => rfl
  | some l =>
    have hstore := hf.store w (l.store (g l.stack).state w.objects)
    simp only [putBack_eq, Step.beside, hf.objects, hstore]

theorem addReader (made : Except Failure Reader) (w : Workspace) (id : Nat) :
    (f w).addReader made id = (w.addReader made id).beside f := by
  cases made with
  | ok r => exact hf.add w _
  | error e => simp only [Workspace.addReader, Step.before, fail, close, hf.run, Step.beside, List.nil_append]

theorem takeResponse (w : Workspace) (url : String) (status : Int) (headers : List (String × String)) (body : Nat) :
    (f w).takeResponse url status headers body = (w.takeResponse url status headers body).beside f := by
  unfold Workspace.takeResponse
  split
  · rw [Workspace.close, hf.run]
    exact andThen fun _ _ => rfl
  · cases Remote.announced headers with
    | error => rfl
    | ok length => exact andThen (s := w.note _) fun _ w => hf.add w _

theorem wrapped (e : Entrance) {s t : Step Nat} (h : t = s.beside f) : e.wrapped t = (e.wrapped s).beside f := by
  have hadd : ∀ {s t : Step Nat} (made : Except Failure Reader), t = s.beside f →
      (t.andThen fun id w => w.addReader made id) = (s.andThen fun id w => w.addReader made id).beside f := by
    rintro s t made rfl
    exact andThen fun id w => hf.addReader made w id
  cases e with
  | source => exact h
  | bound => exact hadd _ h
  | digest => exact hadd _ (hadd _ h)

end Aside

theorem openRemote_beside (w : Workspace) (files : FileTree) (url : String) (timeout : Option Int) :
    ({ w with files } : Workspace).openRemote url timeout =
      (w.openRemote url timeout).beside fun w => { w with files } := by
  let f : Workspace → Workspace := fun w => { w with files }
  have hf : Aside f := aside_files files
  refine Aside.andThen (f := f) (s := w.startSession) fun _ w => ?_
  refine Aside.andThen (f := f) (s := w.note [.get url true timeout]) fun _ w => ?_
  have hweb : (f w).web = w.web := rfl
  rw [hweb]
  cases w.web.answer url with
  | failure => rfl
  | response status headers items =>
    simp only
    rw [hf.add]
    exact Aside.andThen fun body w => hf.takeResponse w url status headers body

theorem openPath_beside (w : Workspace) (web : Web) (session : Bool) (p : PathText) :
    ({ w with web, session } : Workspace).openPath p = (w.openPath p).beside fun w => { w with web, session } := by
  have hcontent : ({ w with web, session } : Workspace).contentAt p = w.contentAt p := rfl
  unfold openPath
  rw [hcontent]
  cases w.contentAt p <;> rfl

theorem openLocal_beside (w : Workspace) (web : Web) (session : Bool) (t : Target) :
    ({ w with web, session } : Workspace).openLocal t = (w.openLocal t).beside fun w => { w with web, session } := by
  cases t with
  | object id =>
    have hread : ({ w with web, session } : Workspace).hasRead id = w.hasRead id := rfl
    simp only [openLocal, hread]
    split <;> rfl
  | text | path | bytes => exact openPath_beside ..

theorem printed_path (w : Workspace) (s : String) : ¬ Addressed (w.printed (.path s)) := by
  rw [← Path.isAddress_iff, printed, Path.isAddress_plain]
  exact Bool.false_ne_true

theorem printed_bytes (w : Workspace) (bs : Bytes) : ¬ Addressed (w.printed (.bytes bs)) := by
  rw [← Path.isAddress_iff, printed, Path.isAddress_quotedBytes]
  exact Bool.false_ne_true

section

variable {w : Workspace} {t : Target} {url : String}

theorem placeOf_online (h : t.Online w url) : w.placeOf t = .page url (some Web.defaultTimeout) := by
  cases h with
  | text h => exact placeOf_address (Path.isAddress_iff.2 h)
  | @object id url hread hp h =>
    rw [← Path.isAddress_iff, ← hp] at h
    rw [placeOf, if_pos ⟨hread, h⟩, hp]

theorem printed_local (h : t.Local w) : w.isFileLike t = true ∨ ¬ Path.isAddress (w.printed t) = true := by
  rw [Path.isAddress_iff]
  cases h with
  | text h => exact .inr h
  | path s => exact .inr (w.printed_path s)
  | bytes bs => exact .inr (w.printed_bytes bs)
  | readable h => exact .inl h
  | other h => exact .inr h

theorem placeOf_local (h : t.Local w) : (w.placeOf t).address? = none := by
  have hplace : w.placeOf t = t.localPlace := by
    apply if_neg
    rintro ⟨hread, ha⟩
    rcases printed_local h with hread' | hno
    · rw [hread] at hread'
      cases hread'
    · exact hno ha
  rw [hplace, t.localPlace_address?]

theorem openTarget_local (h : t.Local w) : w.openTarget t = w.openLocal t := by
  unfold openTarget
  rcases printed_local h with hread | hno
  · rw [if_pos hread]
  · rw [if_neg hno, ite_self]

theorem online_or_local (w : Workspace) (t : Target) : (∃ url, t.Online w url) ∨ t.Local w := by
  cases t with
  | text s =>
    by_cases ha : Addressed s
    · exact .inl ⟨s, .text ha⟩
    · exact .inr (.text ha)
  | path s => exact .inr (.path s)
  | bytes bs => exact .inr (.bytes bs)
  | object id =>
    cases hread : w.hasRead id with
    | true => exact .inr (.readable hread)
    | false =>
      by_cases ha : Addressed (w.printed (.object id))
      · exact .inl ⟨_, .object hread rfl ha⟩
      · exact .inr (.other ha)

end

theorem enter_visited (w : Workspace) (t : Target) (e : Entrance) : Visited w (w.placeOf t).address? (e.enter w t) := by
  rw [e.enter_eq]
  exact e.wrapped_keeps (fun made h => h.addReader made) (w.opening_target t).visited

theorem enter_beside {w : Workspace} {t : Target} {f : Workspace → Workspace} (hf : Aside f) (e : Entrance)
    (h : (f w).openTarget t = (w.openTarget t).beside f) : e.enter (f w) t = (e.enter w t).beside f := by
  rw [e.enter_eq, e.enter_eq]
  exact hf.wrapped e h

theorem openLocal_made {w : Workspace} {t : Target} {id : Nat} (h : (w.openLocal t).outcome = .ok id) :
    ∃ a below, (w.openLocal t).workspace.objects[id]? = some (.localSource a below) := by
  have hopening := w.opening_local t
  have hlocal := t.localPlace_address?
  generalize w.openLocal t = s at h hopening ⊢
  generalize t.localPlace = place at hlocal hopening
  cases hopening with
  | refused => cases h
  | adopted =>
    cases h
    exact ⟨_, _, List.getElem?_concat_length⟩
  | file =>
    cases h
    exact ⟨{ owned := true }, w.objects.length, by simp⟩
  | unanswered | badStatus | badLength | response => cases hlocal

theorem enter_online {w : Workspace} {t : Target} {url : String} (ht : t.Online w url) (e : Entrance) :
    e.enter w t = e.wrapped (w.openRemote url (some Web.defaultTimeout)) ∧
      Visited w (some (url, some Web.defaultTimeout)) (e.enter w t) ∧
      ∀ files, e.enter { w with files } t = (e.enter w t).beside fun w => { w with files } := by
  have hopen := openTarget_of_page (placeOf_online ht)
  refine ⟨?_, ?_, fun files => ?_⟩
  · rw [e.enter_eq, hopen]
  · have hvisited := enter_visited w t e
    rwa [placeOf_online ht] at hvisited
  · have ht' : t.Online { w with files } url := by
      cases ht with
      | text h => exact .text h
      | object hread hp h => exact .object hread hp h
    apply enter_beside (aside_files files)
    rw [hopen, openTarget_of_page (placeOf_online ht')]
    exact w.openRemote_beside files url _

theorem enter_local {w : Workspace} {t : Target} (ht : t.Local w) (e : Entrance) :
    e.enter w t = e.wrapped (w.openLocal t) ∧ Visited w none (e.enter w t) ∧
      ∀ web session, e.enter { w with web, session } t = (e.enter w t).beside fun w => { w with web, session } := by
  refine ⟨?_, ?_, fun web session => ?_⟩
  · rw [e.enter_eq, openTarget_local ht]
  · have hvisited := enter_visited w t e
    rwa [placeOf_local ht] at hvisited
  · have ht' : t.Local { w with web, session } := by
      cases ht with
      | text hno => exact .text hno
      | path s => exact .path s
      | bytes bs => exact .bytes bs
      | readable hread => exact .readable hread
      | other hno => exact .other hno
    apply enter_beside (aside_network web session)
    rw [openTarget_local ht, openTarget_local ht']
    exact w.openLocal_beside web session t

theorem Visited.not_network {w : Workspace} {s : Step Nat} (h : Visited w none s) :
    (∀ x ∈ s.entries, x.isNetwork = false) ∧ s.workspace.session = w.session := by
  obtain ⟨⟨later, hlater, hlocal⟩, hsession⟩ := h
  rw [hlater, visit, List.nil_append]
  exact ⟨hlocal, by rw [hsession, Option.isSome_none, Bool.or_false]⟩

theorem only_addresses_reach_network (w : Workspace) (e : Entrance) :
    (∀ t, (∃ x ∈ (e.enter w t).entries, x.isNetwork = true) ∨ (e.enter w t).workspace.session ≠ w.session →
        ∃ url, t.Online w url) ∧
      (∀ t url, t.Online w url →
        e.enter w t = e.wrapped (w.openRemote url (some Web.defaultTimeout)) ∧
        Visited w (some (url, some Web.defaultTimeout)) (e.enter w t) ∧
        ∀ files, e.enter { w with files } t = (e.enter w t).beside fun w => { w with files }) ∧
      (∀ t, t.Local w →
        e.enter w t = e.wrapped (w.openLocal t) ∧ Visited w none (e.enter w t) ∧
        (∀ web session, e.enter { w with web, session } t = (e.enter w t).beside fun w => { w with web, session }) ∧
        ∀ id, (w.openLocal t).outcome = .ok id →
          ∃ a below, (w.openLocal t).workspace.objects[id]? = some (.localSource a below)) ∧
      (∀ s, ¬ Addressed (w.printed (.path s))) ∧ (∀ bs, ¬ Addressed (w.printed (.bytes bs))) ∧
      ∀ id, w.hasRead id = true → e.enter w (.object id) = e.wrapped (w.add (.localSource {} id)) := by
  refine ⟨?_, fun t url ht => enter_online ht e, ?_, w.printed_path, w.printed_bytes, ?_⟩
  · intro t hnetwork
    rcases online_or_local w t with honline | ht
    · exact honline
    exfalso
    obtain ⟨-, hvisited, -⟩ := enter_local ht e
    obtain ⟨hentries, hsession⟩ := hvisited.not_network
    rcases hnetwork with ⟨x, hx, hnet⟩ | hchanged
    · rw [hentries x hx] at hnet
      cases hnet
    · exact hchanged hsession
  · intro t ht
    obtain ⟨henter, hvisited, hbeside⟩ := enter_local ht e
    exact ⟨henter, hvisited, hbeside, fun id => openLocal_made⟩
  · intro id hread
    rw [(enter_local (.readable hread) e).1]
    simp only [openLocal, hread, if_true]

-- The second object cannot be read and prints as an address. A file lies where the address leads as a path.
def signpost : Workspace :=
  { shelf with
    objects := shelf.objects ++ [.script "s" { api := { read := false }, items := [], printed := "http://h/f" }]
    files := { files := [("http:/h/f", [7])] } }

theorem only_addresses_reach_network_signpost :
    let e := Entrance.bound (.number 8)
    Visited signpost (some ("http://h/f", some 30)) (e.enter signpost (.text "http://h/f")) ∧
      Visited signpost (some ("http://h/f", some 30)) (e.enter signpost (.object 1)) ∧
      (Visited signpost none (e.enter signpost (.path "http://h/f")) ∧
        (e.enter signpost (.path "http://h/f")).outcome.toOption = some 4) ∧
      Visited signpost none (e.enter signpost (.bytes [104, 116, 116, 112, 58, 47, 47, 104, 47, 102])) ∧
      e.enter signpost (.object 0) = e.wrapped (signpost.add (.localSource {} 0)) := by
  intro e
  obtain ⟨-, honline, hlocal, -, -, hreadable⟩ := only_addresses_reach_network signpost e
  have haddress : Addressed "http://h/f" := ⟨"h/f", .inl rfl⟩
  obtain ⟨-, htext, -⟩ := honline (.text "http://h/f") _ (.text haddress)
  obtain ⟨-, hobject, -⟩ := honline (.object 1) _ (.object rfl rfl haddress)
  obtain ⟨-, hpath, -⟩ := hlocal (.path "http://h/f") (.path _)
  obtain ⟨-, hbytes, -⟩ := hlocal (.bytes [104, 116, 116, 112, 58, 47, 47, 104, 47, 102]) (.bytes _)
  exact ⟨htext, hobject, ⟨hpath, by decide +kernel⟩, hbytes, hreadable 0 rfl⟩

theorem object_reaches_network :
    (signpost.openTarget (.object 1)).entries =
        [.newSession, .get "http://h/f" true (some 30), .log (.openedRemote "http://h/f" none)] ∧
      ¬ ∀ t, (∃ x ∈ (signpost.openTarget t).entries, x.isNetwork = true) → ∃ url, t = .text url ∧ Addressed url := by
  have hentries : (signpost.openTarget (.object 1)).entries =
      [.newSession, .get "http://h/f" true (some 30), .log (.openedRemote "http://h/f" none)] := by
    decide +kernel
  refine ⟨hentries, fun hall => ?_⟩
  obtain ⟨url, ht, -⟩ := hall (.object 1) ⟨.newSession, by rw [hentries]; exact List.mem_cons_self, rfl⟩
  cases ht

end Workspace

end StreamGuard
