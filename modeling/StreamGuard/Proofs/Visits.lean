import Mathlib
import StreamGuard.Proofs.Ownership

namespace StreamGuard

namespace Workspace

inductive Visits (w : Workspace) (url : String) : Step Nat → Prop
  | remote (timeout : Option Int) : Visits w url (w.openRemote url timeout)
  | target {t : Target} {timeout : Option Int} (ht : w.placeOf t = .page url timeout) : Visits w url (w.openTarget t)
  | fetch {t : Target} {timeout : Option Int} {s : Step Nat} (ht : w.placeOf t = .page url timeout)
      (h : Fetches w t s) : Visits w url s

section

variable {w : Workspace} {url : String} {status : Int} {headers : List (String × String)} {items : List Script.Item}

/-- The first object added to `w` is the response of the page, and the calls tell how often it has been closed. -/
def Answered (w : Workspace) (url : String) (closes : Nat) (s : Step Nat) : Prop :=
  ∃ body, s.workspace.objects[w.objects.length]? = some (.body url body) ∧ body.closes = closes ∧
    s.entries.count (.call w.objects.length .close) = closes

theorem Visits.page_or_fetch {s : Step Nat} (h : Visits w url s) :
    (∃ timeout, Opening w (.page url timeout) s) ∨
      ∃ t timeout, Opening w (.page url timeout) (w.openTarget t) ∧ Fetches w t s := by
  cases h with
  | remote timeout => exact .inl ⟨timeout, w.opening_remote url timeout⟩
  | @target t timeout ht => exact .inl ⟨timeout, ht ▸ w.opening_target t⟩
  | @fetch t timeout _ ht h => exact .inr ⟨t, timeout, ht ▸ w.opening_target t, h⟩

theorem addReader_stems {made : Except Failure Reader} {id i : Nat} {stem : Object.Stem}
    (h : (w.objects.map Object.stem)[i]? = some stem) :
    ((w.addReader made id).workspace.objects.map Object.stem)[i]? = some stem := by
  cases made with
  | ok r =>
    simp only [Workspace.addReader, add, List.map_append]
    rw [List.getElem?_append_left (List.getElem?_eq_some_iff.1 h).1, h]
  | error f =>
    simp only [Workspace.addReader, Step.before, fail]
    rw [(close_through w id).stems, h]

theorem Fetches.stems {t : Target} {s : Step Nat} (h : Fetches w t s) {i : Nat} {stem : Object.Stem}
    (hi : ((w.openTarget t).workspace.objects.map Object.stem)[i]? = some stem) :
    (s.workspace.objects.map Object.stem)[i]? = some stem := by
  have hthen : ∀ {s : Step Nat} {made : Except Failure Reader}, (s.workspace.objects.map Object.stem)[i]? = some stem →
      ((s.andThen fun id w => w.addReader made id).workspace.objects.map Object.stem)[i]? = some stem := by
    intro s made hi
    unfold Step.andThen
    cases s.outcome with
    | error => exact hi
    | ok id => exact addReader_stems hi
  cases h with
  | bound limit => exact hthen hi
  | digest limit expected => exact hthen (hthen hi)

theorem Handed.answered {s : Step Nat} (h : Handed w true s) {f : Failure} (hf : s.outcome = .error f)
    (hbody : (s.workspace.objects.map Object.stem)[w.objects.length]? = some (.body url)) : Answered w url 1 s := by
  obtain ⟨body, hbody⟩ := body_of_stem hbody
  have hcloses := h.resource rfl
  have hcount := h.closes w.objects.length
  rw [hf, if_pos rfl] at hcount
  rw [hf, closings, hbody] at hcloses
  exact ⟨body, hbody, hcloses, hcount⟩

section

variable (hw : w.web.answer url = .response status headers items)

include hw

theorem Opening.failed {timeout : Option Int} {s : Step Nat} (h : Opening w (.page url timeout) s) {f : Failure}
    (hf : s.outcome = .error f) :
    ∃ closes ≤ 1, Answered w url closes s ∧
      (closes = 1 ↔ Web.errorStatus ≤ status ∨ ∃ length, Remote.announced headers = .ok length) := by
  cases h with
  | refused hp => cases hp
  | unanswered h =>
    rw [hw] at h
    cases h
  | badStatus h hs =>
    rw [hw] at h
    cases h
    refine ⟨1, Nat.le_refl 1, ⟨_, List.getElem?_concat_length, rfl, ?_⟩, by simp [hs]⟩
    simp [count_close_greeting]
  | badLength h hs hl =>
    rw [hw] at h
    cases h
    refine ⟨0, Nat.zero_le 1, ⟨_, List.getElem?_concat_length, rfl, count_close_greeting ..⟩, ?_⟩
    simp [hl, Int.not_le.2 hs]
  | response => cases hf

theorem Opening.succeeded {timeout : Option Int} {s : Step Nat} (h : Opening w (.page url timeout) s) {id : Nat}
    (hid : s.outcome = .ok id) : status < Web.errorStatus ∧ (∃ length, Remote.announced headers = .ok length) ∧
      (s.workspace.objects.map Object.stem)[w.objects.length]? = some (.body url) := by
  cases h with
  | refused | unanswered | badStatus | badLength => cases hid
  | response h hs hl =>
    rw [hw] at h
    cases h
    exact ⟨hs, ⟨_, hl⟩, by simp [Object.stem]⟩

theorem Fetches.failed {t : Target} {timeout : Option Int} (hopening : Opening w (.page url timeout) (w.openTarget t))
    {s : Step Nat} (h : Fetches w t s) {f : Failure} (hf : s.outcome = .error f) :
    ∃ closes ≤ 1, Answered w url closes s ∧
      (closes = 1 ↔ Web.errorStatus ≤ status ∨ ∃ length, Remote.announced headers = .ok length) := by
  cases hopen : (w.openTarget t).outcome with
  | error e =>
    rw [h.of_failed_open hopen] at hf ⊢
    exact hopening.failed hw hf
  | ok source =>
    obtain ⟨-, hlength, hstem⟩ := hopening.succeeded hw hopen
    obtain ⟨own, hhanded, hresource⟩ := hopening.handed hopen
    obtain ⟨body, hbody⟩ := body_of_stem hstem
    obtain ⟨rfl, -⟩ := hresource w.objects.length ⟨Nat.le_refl _, _, hbody, rfl⟩
    exact ⟨1, Nat.le_refl 1, (h.handed hhanded).answered hf (h.stems hstem), by simp [hlength]⟩

theorem Visits.succeeded {s : Step Nat} (hs : Visits w url s) {id : Nat} (hid : s.outcome = .ok id) :
    status < Web.errorStatus ∧ (s.workspace.objects.map Object.stem)[w.objects.length]? = some (.body url) := by
  rcases hs.page_or_fetch with ⟨timeout, hopening⟩ | ⟨t, timeout, hopening, hfetch⟩
  · obtain ⟨hstatus, -, hstem⟩ := hopening.succeeded hw hid
    exact ⟨hstatus, hstem⟩
  · cases hopen : (w.openTarget t).outcome with
    | error e =>
      rw [hfetch.of_failed_open hopen, hopen] at hid
      cases hid
    | ok source =>
      obtain ⟨hstatus, -, hstem⟩ := hopening.succeeded hw hopen
      exact ⟨hstatus, hfetch.stems hstem⟩

theorem Visits.answered {s : Step Nat} (hs : Visits w url s) :
    (s.workspace.objects.map Object.stem)[w.objects.length]? = some (.body url) ∧
      (Web.errorStatus ≤ status ∨ (∃ f, s.outcome = .error f) ∧ (∃ length, Remote.announced headers = .ok length) →
        .call w.objects.length .close ∈ s.entries) := by
  cases hout : s.outcome with
  | error f =>
    obtain ⟨closes, -, ⟨body, hbody, -, hcount⟩, hcloses⟩ : ∃ closes ≤ 1, Answered w url closes s ∧
        (closes = 1 ↔ Web.errorStatus ≤ status ∨ ∃ length, Remote.announced headers = .ok length) := by
      rcases hs.page_or_fetch with ⟨timeout, hopening⟩ | ⟨t, timeout, hopening, hfetch⟩
      · exact hopening.failed hw hout
      · exact hfetch.failed hw hopening hout
    refine ⟨getElem?_stem hbody, fun hc => ?_⟩
    rw [hcloses.2 (hc.imp_right And.right)] at hcount
    exact List.count_pos_iff.1 (by omega)
  | ok id =>
    obtain ⟨hstatus, hstem⟩ := hs.succeeded hw hout
    refine ⟨hstem, ?_⟩
    rintro (hle | ⟨⟨f, hf⟩, -⟩)
    · exact absurd hstatus (Int.not_lt.2 hle)
    · cases hf

theorem response_closes_iff {s : Step Nat} {f : Failure} (hs : Visits w url s) (hf : s.outcome = .error f) :
    ∃ closes ≤ 1, Answered w url closes s ∧
      (closes = 1 ↔ Web.errorStatus ≤ status ∨ ∃ length, Remote.announced headers = .ok length) := by
  rcases hs.page_or_fetch with ⟨timeout, hopening⟩ | ⟨t, timeout, hopening, hfetch⟩
  · exact hopening.failed hw hf
  · exact hfetch.failed hw hopening hf

end

end

theorem response_closes_iff_shelf :
    (∃ closes ≤ 1, Answered shelf "http://h/n" closes (shelf.openRemote "http://h/n" none) ∧
      (closes = 1 ↔ Web.errorStatus ≤ 404 ∨ ∃ length, Remote.announced [] = .ok length)) ∧
    ∃ closes ≤ 1, Answered shelf "http://h/f" closes (shelf.fetchBound (.text "http://h/f") .missing) ∧
      (closes = 1 ↔ Web.errorStatus ≤ 200 ∨ ∃ length, Remote.announced [] = .ok length) := by
  have hmissing : (shelf.openRemote "http://h/n" none).outcome = .error (.badStatus 404) := by cbv
  have hrefused : (shelf.fetchBound (.text "http://h/f") .missing).outcome = .error (.limitType .missing) := rfl
  constructor
  · exact response_closes_iff rfl (.remote none) hmissing
  · exact response_closes_iff rfl (.fetch (placeOf_address (by decide)) (.bound .missing)) hrefused

theorem response_left_open :
    (shelf.openRemote "http://h/x" none).outcome = .error (.badNumber "x") ∧
      Answered shelf "http://h/x" 0 (shelf.openRemote "http://h/x" none) := by
  have hopen : shelf.openRemote "http://h/x" none = ⟨.error (.badNumber "x"),
      { shelf with session := true, objects := shelf.objects ++ [.body "http://h/x" (Web.body [])] },
      shelf.greeting "http://h/x" none⟩ := by
    cbv
  rw [hopen]
  exact ⟨rfl, _, rfl, rfl, rfl⟩

end Workspace

end StreamGuard
