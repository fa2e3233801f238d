import StreamGuard.Proofs.Fetch
import StreamGuard.Proofs.Standing

namespace StreamGuard

inductive Place
  | object (id : Nat)
  | path
  | page (url : String) (timeout : Option Int)

namespace Place

def address? : Place → Option (String × Option Int)
  | page url timeout => some (url, timeout)
  | object _ | path => none

end Place

def Target.localPlace : Target → Place
  | object id => .object id
  | text _ | path _ | bytes _ => .path

theorem Target.localPlace_address? (t : Target) : t.localPlace.address? = none := by
  cases t <;> rfl

namespace Workspace

def placeOf (w : Workspace) (t : Target) : Place :=
  if w.isFileLike t = false ∧ Path.isAddress (w.printed t) = true then .page (w.printed t) (some Web.defaultTimeout)
  else t.localPlace

def greeting (w : Workspace) (url : String) (timeout : Option Int) : List Entry :=
  (if w.session then [] else [.newSession]) ++ [.get url true timeout]

inductive Opening (w : Workspace) : Place → Step Nat → Prop
  | refused {place : Place} (hp : place.address? = none) (f : Failure) : Opening w place ⟨.error f, w, []⟩
  | adopted {id : Nat} (h : id < w.objects.length) :
      Opening w (.object id) ⟨.ok w.objects.length, { w with objects := w.objects ++ [.localSource {} id] }, []⟩
  | file (p : PathText) (c : Bytes) (ending : Option Failure) :
      Opening w .path ⟨.ok (w.objects.length + 1),
        { w with objects := w.objects ++ [.file (.opened c ending), .localSource { owned := true } w.objects.length] },
        [.log (.openedLocal p.plain)]⟩
  | unanswered {url : String} {timeout : Option Int} {f : Failure} (h : w.web.answer url = .failure f) :
      Opening w (.page url timeout)
        ⟨.error (Remote.ofRequest f), { w with session := true }, w.greeting url timeout⟩
  | badStatus {url : String} {timeout : Option Int} {status : Int} {headers : List (String × String)}
      {items : List Script.Item} (h : w.web.answer url = .response status headers items)
      (hs : Web.errorStatus ≤ status) :
      Opening w (.page url timeout) ⟨.error (.badStatus status),
        { w with session := true, objects := w.objects ++ [.body url { Web.body items with closes := 1 }] },
        w.greeting url timeout ++ [.call w.objects.length .close]⟩
  | badLength {url : String} {timeout : Option Int} {status : Int} {headers : List (String × String)}
      {items : List Script.Item} {f : Failure} (h : w.web.answer url = .response status headers items)
      (hs : status < Web.errorStatus) (hl : Remote.announced headers = .error f) :
      Opening w (.page url timeout) ⟨.error f,
        { w with session := true, objects := w.objects ++ [.body url (Web.body items)] }, w.greeting url timeout⟩
  | response {url : String} {timeout : Option Int} {status : Int} {headers : List (String × String)}
      {items : List Script.Item} {length : Option Int} (h : w.web.answer url = .response status headers items)
      (hs : status < Web.errorStatus) (hl : Remote.announced headers = .ok length) :
      Opening w (.page url timeout) ⟨.ok (w.objects.length + 1),
        { w with
          session := true
          objects := w.objects ++ [.body url (Web.body items),
            .remoteSource { url, contentLength := length } w.objects.length] },
        w.greeting url timeout ++ [.log (.openedRemote url length)]⟩

variable (w : Workspace)

theorem opening_path (p : PathText) : Opening w .path (w.openPath p) := by
  unfold openPath
  cases w.contentAt p with
  | error f => exact .refused rfl f
  | ok content =>
    simp only [add, note, Step.andThen, List.append_assoc, List.length_append, List.length_singleton]
    exact .file p content.1 content.2

theorem opening_local (t : Target) : Opening w t.localPlace (w.openLocal t) := by
  cases t with
  | object id =>
    simp only [openLocal]
    split
    · rename_i h
      apply Opening.adopted
      cases ho : w.objects[id]? with
      | none => simp [hasRead, ho] at h
      | some o => exact (List.getElem?_eq_some_iff.1 ho).1
    · exact .refused rfl _
  | text | path | bytes => exact w.opening_path _

theorem modify_last {α : Type} (os : List α) (o : α) (f : α → α) : (os ++ [o]).modify os.length f = os ++ [f o] := by
  induction os with
  | nil => rfl
  | cons a os ih => exact congrArg (a :: ·) ih

theorem close_body (url : String) (items : List Script.Item) :
    ({ w with objects := w.objects ++ [.body url (Web.body items)] } : Workspace).close w.objects.length =
      ⟨.ok (), { w with objects := w.objects ++ [.body url { Web.body items with closes := 1 }] },
        [.call w.objects.length .close]⟩ := by
  have hget : (w.objects ++ [Object.body url (Web.body items)])[w.objects.length]? =
      some (.body url (Web.body items)) :=
    List.getElem?_concat_length
  have hstore := modify_last w.objects (.body url (Web.body items))
    (·.setEndpoint (.script { Web.body items with closes := 1 }))
  simp only [close, run, locate_endpoint hget rfl, putBack_eq]
  exact congrArg (fun os => Step.mk (.ok ()) { w with objects := os } [.call w.objects.length .close]) hstore

theorem opening_remote (url : String) (timeout : Option Int) :
    Opening w (.page url timeout) (w.openRemote url timeout) := by
  simp only [openRemote, startSession, note, Step.andThen]
  cases h : w.web.answer url with
  | failure f => exact .unanswered h
  | response status headers items =>
    simp only [add, takeResponse]
    split
    · rename_i hs
      have hclose := close_body { w with session := true } url items
      simp only [hclose, Step.andThen, fail, List.append_nil, List.nil_append]
      simpa only [greeting, List.append_assoc] using Opening.badStatus h hs
    · rename_i hs
      have hs := Int.not_le.1 hs
      cases hl : Remote.announced headers with
      | error f => exact .badLength h hs hl
      | ok length =>
        simp only [note, Step.andThen, List.append_nil, List.nil_append, List.append_assoc, List.length_append,
          List.length_singleton]
        simpa only [greeting, List.append_assoc, List.singleton_append] using Opening.response h hs hl

theorem opening_target (t : Target) : Opening w (w.placeOf t) (w.openTarget t) := by
  unfold openTarget placeOf
  cases hread : w.isFileLike t with
  | true => exact w.opening_local t
  | false =>
    by_cases ha : Path.isAddress (w.printed t) = true
    · rw [if_pos ⟨rfl, ha⟩, if_neg Bool.false_ne_true, if_pos ha]
      exact w.opening_remote _ _
    · rw [if_neg fun h => ha h.2, if_neg Bool.false_ne_true, if_neg ha]
      exact w.opening_local t

section

variable {w : Workspace} {t : Target} {url : String} {timeout : Option Int}

theorem openTarget_of_page (h : w.placeOf t = .page url timeout) : w.openTarget t = w.openRemote url timeout := by
  unfold placeOf at h
  split at h
  · rename_i ha
    cases h
    rw [openTarget, ha.1, if_neg Bool.false_ne_true, if_pos ha.2]
  · have hlocal := t.localPlace_address?
    rw [h] at hlocal
    cases hlocal

theorem placeOf_eq_page (h : (w.placeOf t).address? = some (url, timeout)) : w.placeOf t = .page url timeout := by
  cases hp : w.placeOf t with
  | page =>
    rw [hp] at h
    cases h
    rfl
  | object | path =>
    rw [hp] at h
    cases h

theorem placeOf_address (ha : Path.isAddress url = true) :
    w.placeOf (.text url) = .page url (some Web.defaultTimeout) :=
  if_pos ⟨rfl, ha⟩

end

end Workspace

end StreamGuard
