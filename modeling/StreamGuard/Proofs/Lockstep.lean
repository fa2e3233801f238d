import StreamGuard.Proofs.Counters
import StreamGuard.Proofs.Ownership
import StreamGuard.Proofs.Records

namespace StreamGuard

namespace Stack

structure Level {σ : Type} (s : Stack σ) (n : Int) : Prop where
  received : s.received? = some n
  counter : s.below.counter? = some n

theorem Levelled.level {σ : Type} {P : Stack σ → Int → Prop} {s : Stack σ} {limit : Nat} {n : Int}
    (h : Levelled P s limit n) (hP : ∀ {s n}, P s n → s.counter? = some n) : Level s n := by
  obtain ⟨r, hr, hcheck, hbelow⟩ := h
  exact ⟨received?_of_top? hr hcheck, hP hbelow⟩

structure Accounted {σ : Type} (taken : σ → Nat) (before : Nat) (s : Stack σ) (n : Int) : Prop extends Level s n where
  taken : (taken s.origin.source : Int) = before + n

theorem Levelled.accounted {σ : Type} {I : σ → Prop} {taken : σ → Nat} {before limit : Nat} {s : Stack σ} {n : Int}
    (h : Levelled (Drawing I taken before) s limit n) : Accounted taken before s n := by
  refine ⟨h.level Drawing.counter, ?_⟩
  obtain ⟨-, -, -, hdraw⟩ := h
  exact hdraw.taken

theorem push_layers {σ : Type} (s : Stack σ) (x : Layer) : (s.push x).layers ≠ [] :=
  List.cons_ne_nil _ _

theorem Reaches.molds {s t : Stack Endpoint} {es : List Event} (h : Reaches s es t) : t.molds = s.molds := by
  induction h with
  | refl => rfl
  | request _ b ih => exact (request_unclosed _ b).molds.trans ih
  | close _ ih => exact (close_molds _).trans ih

section

variable {σ : Type} [ByteSource σ] {s t u : Stack σ} {es fs : List Event}

theorem Reaches.trans (h : Reaches s es t) (k : Reaches t fs u) : Reaches s (es ++ fs) u := by
  induction k with
  | refl => simpa using h
  | request _ b ih =>
    rw [← List.append_assoc]
    exact ih.request b
  | close _ ih =>
    rw [← List.append_assoc]
    exact ih.close

theorem Reaches.layered (h : Reaches s es t) (hs : s.layers ≠ []) : t.layers ≠ [] := by
  induction h with
  | refl => exact hs
  | request _ b ih => exact request_layered ih b
  | close _ ih => exact close_layered ih

end

end Stack

namespace Workspace

open Stack

theorem use_reaches {w : Workspace} {id : Nat} {o : Object} (ho : w.objects[id]? = some o) (hn : o.endpoint? = none)
    (a : Action) : Through w id Reaches (w.use id o a).step.workspace (w.use id o a).step.entries := by
  cases ha : a.closes with
  | false => exact (use_asks ho hn ha).mono fun _ _ _ _ h => h.reaches
  | true => exact (use_closes hn ha).mono fun _ _ _ _ h => h.reaches

theorem Standing.object {objects : List Object} {id : Nat} {l : Located} (h : Standing objects id l)
    (hs : l.stack.layers ≠ []) : ∃ o, objects[id]? = some o ∧ o.endpoint? = none := by
  cases h with
  | source | remote => exact absurd rfl hs
  | layer ho hx => exact ⟨_, ho, Object.endpoint?_of_layer? hx⟩

theorem course_reaches {w : Workspace} {id : Nat} {l : Located} (hl : Standing w.objects id l)
    (hs : l.stack.layers ≠ []) (actions : List Action) :
    ∃ es t, Reaches l.stack es t ∧ Standing (course (·.useAt id) w actions).2.objects id { l with stack := t } := by
  induction actions generalizing w l with
  | nil => exact ⟨[], l.stack, .refl, hl⟩
  | cons a actions ih =>
    obtain ⟨o, ho, hn⟩ := Standing.object hl hs
    have hused := use_reaches ho hn a
    have hstep : w.useAt id a = w.use id o a := by rw [useAt, ho]
    rw [← hstep] at hused
    change ∃ es t, _ ∧ Standing (course (·.useAt id) (w.useAt id a).step.workspace actions).2.objects id _
    generalize (w.useAt id a).step.workspace = w' at hused ⊢
    generalize (w.useAt id a).step.entries = entries at hused
    cases hused with
    | absent hnone =>
      rw [hl.locate_eq] at hnone
      cases hnone
    | @present l' es t hl' hreach =>
      obtain rfl : l' = l := Option.some.inj (hl'.locate_eq.symm.trans hl.locate_eq)
      let w' : Workspace := { w with objects := l'.store t w.objects }
      have hnext : Standing w'.objects id { l' with stack := t } := hl.store hreach.molds
      obtain ⟨fs, u, hrest, hlast⟩ := ih hnext (hreach.layered hs)
      exact ⟨es ++ fs, u, hreach.trans hrest, hlast⟩

structure Made (s : Step Nat) (id : Nat) (P : Stack Endpoint → Prop) : Prop where
  lt : id < s.workspace.objects.length
  stack : ∀ l, Standing s.workspace.objects id l → P l.stack

theorem Opening.made {w : Workspace} {place : Place} {s : Step Nat} (h : Opening w place s) {id : Nat}
    (hs : s.outcome = .ok id) : Made s id fun t => t.counter? = some 0 := by
  cases h with
  | refused | unanswered | badStatus | badLength => cases hs
  | adopted hbelow =>
    cases hs
    refine ⟨by simp, fun l hl => ?_⟩
    obtain ⟨l', -, rfl⟩ := hl.of_concat rfl hbelow
    rfl
  | file p c ending =>
    cases hs
    refine ⟨by simp, fun l hl => ?_⟩
    have hstand : Standing (w.objects ++ [.file (.opened c ending), .localSource { owned := true } w.objects.length])
        (w.objects.length + 1) ((Located.ofSource w.objects.length (.memory (.opened c ending))).push
          (w.objects.length + 1) (.file { owned := true })) :=
      .layer (o := .localSource { owned := true } w.objects.length) (by simp) rfl (by simp)
        (.source (o := .file (.opened c ending)) (by simp) rfl)
    cases hl.locate_eq.symm.trans hstand.locate_eq
    rfl
  | @response url timeout status headers items length =>
    cases hs
    refine ⟨by simp, fun l hl => ?_⟩
    have hstand : Standing (w.objects ++ [.body url (Web.body items),
          .remoteSource { url, contentLength := length } w.objects.length]) (w.objects.length + 1)
        (.ofRemote (w.objects.length + 1) w.objects.length { url, contentLength := length }
          (.script (Web.body items))) :=
      .remote (by simp) (o := .body url (Web.body items)) (by simp) rfl
    cases hl.locate_eq.symm.trans hstand.locate_eq
    rfl

section

variable {w : Workspace} {t : Target} {limit : Scalar} {expected : DigestValue} {id : Nat}

theorem andThen_ok {s : Step Nat} {f : Nat → Workspace → Step Nat} (h : (s.andThen f).outcome = .ok id) :
    ∃ source, s.outcome = .ok source ∧ (f source s.workspace).outcome = .ok id ∧
      (s.andThen f).workspace = (f source s.workspace).workspace := by
  unfold Step.andThen at h ⊢
  cases hs : s.outcome with
  | error e => simp [hs] at h
  | ok source =>
    rw [hs] at h
    exact ⟨source, rfl, h, rfl⟩

theorem Made.addReader {s : Step Nat} {P : Stack Endpoint → Prop}
    (hmade : ∀ source, s.outcome = .ok source → Made s source P) {made : Except Failure Reader}
    (h : (s.andThen fun source w => w.addReader made source).outcome = .ok id) :
    ∃ r, made = .ok r ∧ Made (s.andThen fun source w => w.addReader made source) id fun t =>
      ∃ below, P below ∧ t = below.push (.reader r) := by
  obtain ⟨source, hs, hadd, hw⟩ := andThen_ok h
  obtain ⟨hlt, hstack⟩ := hmade source hs
  cases made with
  | error => cases hadd
  | ok r =>
    cases hadd
    refine ⟨r, rfl, ?_, ?_⟩
    · rw [hw]
      simp [Workspace.addReader, add]
    · intro l hl
      rw [hw] at hl
      obtain ⟨l', hl', rfl⟩ := hl.of_concat rfl hlt
      exact ⟨l'.stack, hstack l' hl', rfl⟩

theorem fetchBound_made (h : (w.fetchBound t limit).outcome = .ok id) :
    ∃ n, limitOf limit = .ok n ∧ Made (w.fetchBound t limit) id fun s =>
      ∃ base : Stack Endpoint, base.counter? = some 0 ∧ s = bounding base n := by
  obtain ⟨r, hr, hmade⟩ := Made.addReader (fun _ hs => (w.opening_target t).made hs) h
  obtain ⟨n, hn, rfl⟩ := map_eq_ok_iff.1 hr
  exact ⟨n, hn, hmade⟩

theorem fetchDigest_made (h : (w.fetchDigest t limit expected).outcome = .ok id) :
    ∃ n e, limitOf limit = .ok n ∧ expected.toBytes = .ok e ∧ Made (w.fetchDigest t limit expected) id fun s =>
      ∃ base : Stack Endpoint, base.counter? = some 0 ∧ s = verifying base n e := by
  obtain ⟨bounded, hbounded, -, -⟩ := andThen_ok h
  obtain ⟨n, hn, -⟩ := fetchBound_made hbounded
  have hinner : ∀ id, (w.fetchBound t limit).outcome = .ok id → Made (w.fetchBound t limit) id fun s =>
      ∃ base : Stack Endpoint, base.counter? = some 0 ∧ s = bounding base n := by
    intro id hid
    obtain ⟨n', hn', hmade⟩ := fetchBound_made hid
    cases hn.symm.trans hn'
    exact hmade
  obtain ⟨r, hr, hlt, hstack⟩ := Made.addReader hinner h
  obtain ⟨e, he, rfl⟩ := map_eq_ok_iff.1 hr
  refine ⟨n, e, hn, he, hlt, fun l hl => ?_⟩
  obtain ⟨below, ⟨base, hbase, rfl⟩, hl⟩ := hstack l hl
  exact ⟨base, hbase, hl⟩

end

def Keeps (w : Workspace) (id : Nat) (l : Located) (P : Stack Endpoint → Prop) : Prop :=
  ∀ actions, ∃ as,
    locate (course (·.useAt id) w actions).2.objects id = some { l with stack := (l.stack.chronicle as).stack } ∧
      P (l.stack.chronicle as).stack

theorem Made.keeps {s : Step Nat} {id : Nat} {P Q : Stack Endpoint → Prop} (h : Made s id P) {l : Located}
    (hl : locate s.workspace.objects id = some l)
    (hP : ∀ t, P t → t.layers ≠ [] ∧ ∀ as, Q (t.chronicle as).stack) : P l.stack ∧ s.workspace.Keeps id l Q := by
  have hstand := Standing.of_locate hl
  have hstack := h.stack l hstand
  obtain ⟨hlayers, hQ⟩ := hP l.stack hstack
  refine ⟨hstack, fun actions => ?_⟩
  obtain ⟨es, t, hreach, hlast⟩ := course_reaches hstand hlayers actions
  obtain ⟨as, rfl, -, -⟩ := Chronicled.of_reaches hreach
  exact ⟨as, hlast.locate_eq, hQ as⟩

end Workspace

namespace Stack

section

variable {σ : Type} [ByteSource σ] {base : Stack σ}

section

variable (hbase : base.counter? = some 0) (limit : Nat) (expected : Bytes) (as : List Touch)

include hbase

theorem level_bounding : ∃ n, Level ((bounding base limit).chronicle as).stack n := by
  have hfits : ∀ b, .request b ∈ as → True := fun _ _ => trivial
  obtain ⟨n, h⟩ := chronicle_levelled (tracks_counter fun _ => True) hbase limit hfits
  exact ⟨n, h.level id⟩

theorem level_verifying : ∃ n, Level ((verifying base limit expected).chronicle as).stack.below n := by
  have hfits : ∀ b, .request b ∈ as → True := fun _ _ => trivial
  obtain ⟨n, h⟩ := chronicle_levelled_below (tracks_counter fun _ => True) hbase limit expected hfits
  exact ⟨n, h.level id⟩

end

section

variable {I : σ → Prop} {taken : σ → Nat} (hσ : ByteSource.Exact I taken)
  (h : Drawing I taken (taken base.origin.source) base 0) (limit : Nat) (expected : Bytes) {as : List Touch}
  (has : ∀ b, .request b ∈ as → b.writable = true)

include hσ h has

theorem accounted_bounding :
    ∃ n, Accounted taken (taken base.origin.source) ((bounding base limit).chronicle as).stack n := by
  obtain ⟨n, hn⟩ := chronicle_levelled (tracks_drawing hσ _) h limit has
  exact ⟨n, hn.accounted⟩

theorem accounted_verifying :
    let x := (verifying base limit expected).chronicle as
    ∃ n, Accounted taken (taken base.origin.source) x.stack.below n ∧
      (n ≤ limit → x.handed.length = n ∧ ∀ acc, x.stack.hashing? = some acc →
        acc = Sha256.Accumulator.empty.update x.handed ∧ acc.fed = n) := by
  intro x
  obtain ⟨n, hn, hfed⟩ := chronicle_fed hσ h limit expected has
  refine ⟨n, hn.accounted, fun hl => ?_⟩
  have hhanded : (x.handed.length : Int) = n := hfed hl
  refine ⟨hhanded, fun acc hacc => ?_⟩
  obtain ⟨r, hr, hhash⟩ := chronicle_hashing (bounding base limit) expected as
  have hupdate : acc = Sha256.Accumulator.empty.update x.handed := eq_update_of_hashing? hr hhash hacc
  refine ⟨hupdate, ?_⟩
  rw [hupdate, Sha256.Accumulator.fed_update]
  simpa [Sha256.Accumulator.empty] using hhanded

end

end

theorem fetched_counters_agree {σ : Type} [ByteSource σ] {base : Stack σ} (hbase : base.counter? = some 0) (limit : Nat)
    (expected : Bytes) :
    (∀ as, (∃ n, Level ((bounding base limit).chronicle as).stack n) ∧
        ∃ n, Level ((verifying base limit expected).chronicle as).stack.below n) ∧
      (∀ (I : σ → Prop) (taken : σ → Nat), ByteSource.Exact I taken → base.layers.tail = [] → I base.origin.source →
        ∀ as, (∀ b, .request b ∈ as → b.writable = true) →
          (∃ n, Accounted taken (taken base.origin.source) ((bounding base limit).chronicle as).stack n) ∧
            let x := (verifying base limit expected).chronicle as
            ∃ n, Accounted taken (taken base.origin.source) x.stack.below n ∧
              (n ≤ limit → x.handed.length = n ∧ ∀ acc, x.stack.hashing? = some acc →
                acc = Sha256.Accumulator.empty.update x.handed ∧ acc.fed = n)) ∧
      (∀ s, s = bounding base limit ∨ s = verifying base limit expected →
        ∀ fits : Buffer → Prop, (∀ {n : Nat} {b : Buffer}, b.Reused σ n → fits b) →
          ∀ ms turns t, (∀ b, .plain (.readInto (some b)) ∈ ms → fits b) → play move s ms = some (turns, t) →
            Chronicled s fits (turns.flatMap Turn.events) t) ∧
      ∀ (w : Workspace) (t : Target) (given : Scalar) (value : DigestValue) (id : Nat) (l : Located),
        ((w.fetchBound t given).outcome = .ok id → locate (w.fetchBound t given).workspace.objects id = some l →
          ∃ b n, b.counter? = some 0 ∧ Workspace.limitOf given = .ok n ∧ l.stack = bounding b n ∧
            (w.fetchBound t given).workspace.Keeps id l fun s => ∃ n, Level s n) ∧
        ((w.fetchDigest t given value).outcome = .ok id →
          locate (w.fetchDigest t given value).workspace.objects id = some l →
            ∃ b n e, b.counter? = some 0 ∧ Workspace.limitOf given = .ok n ∧ value.toBytes = .ok e ∧
              l.stack = verifying b n e ∧
              (w.fetchDigest t given value).workspace.Keeps id l fun s => ∃ n, Level s.below n) := by
  refine ⟨?_, ?_, ?_, ?_⟩
  · intro as
    exact ⟨level_bounding hbase limit as, level_verifying hbase limit expected as⟩
  · intro I taken hσ hbare hI as has
    have hdraw : Drawing I taken (taken base.origin.source) base 0 := ⟨hbase, hbare, hI, by simp⟩
    exact ⟨accounted_bounding hσ hdraw limit has, accounted_verifying hσ hdraw limit expected has⟩
  · rintro s hs fits hfits ms turns t hms hp
    refine .of_play hfits ?_ hms hp
    obtain rfl | rfl := hs
    · exact push_layers _ _
    · exact push_layers _ _
  · intro w t given value id l
    constructor
    · intro hok hl
      obtain ⟨n, hn, hmade⟩ := Workspace.fetchBound_made hok
      obtain ⟨⟨b, hb, hs⟩, hkeeps⟩ := hmade.keeps (Q := fun s => ∃ m, Level s m) hl <| by
        rintro _ ⟨b, hb, rfl⟩
        exact ⟨push_layers _ _, level_bounding hb n⟩
      exact ⟨b, n, hb, hn, hs, hkeeps⟩
    · intro hok hl
      obtain ⟨n, e, hn, he, hmade⟩ := Workspace.fetchDigest_made hok
      obtain ⟨⟨b, hb, hs⟩, hkeeps⟩ := hmade.keeps (Q := fun s => ∃ m, Level s.below m) hl <| by
        rintro _ ⟨b, hb, rfl⟩
        exact ⟨push_layers _ _, level_verifying hb n e⟩
      exact ⟨b, n, e, hb, hn, he, hs, hkeeps⟩

-- The first reader keeps within its limit and is closed, the second one runs over it.
theorem fetched_counters_agree_fountain :
    let base : Stack (Gauged Fountain) := ⟨[.file {}], .direct ⟨⟨7⟩, 0⟩⟩
    let x := (verifying base 9 []).chronicle [.request (.zeroed 4), .request (.zeroed 4), .close]
    let y := (bounding base 9).chronicle [.request (.zeroed 4), .request (.zeroed 10)]
    (Accounted Gauged.given 0 x.stack.below 8 ∧ ∃ acc, x.stack.hashing? = some acc ∧ acc.fed = 8) ∧
      Accounted Gauged.given 0 y.stack 14 ∧
      ∃ n l, locate (Workspace.course (·.useAt 4)
          (Workspace.shelf.fetchDigest (.text "http://h/f") (.number 8) (.bytes [])).workspace
          [.read (some 1), .close]).2.objects 4 = some l ∧ Level l.stack.below n := by
  intro base x y
  have hmodest : ByteSource.Exact (fun _ : Gauged Fountain => True) Gauged.given :=
    Gauged.exact Fountain.modest fun _ => trivial
  have hbase : base.counter? = some 0 := rfl
  obtain ⟨-, hexact, -, hfetched⟩ := fetched_counters_agree hbase 9 []
  refine ⟨?_, ?_, ?_⟩
  · obtain ⟨-, n, hn, hfed⟩ := hexact _ _ hmodest rfl trivial
      [.request (.zeroed 4), .request (.zeroed 4), .close] (by simp [Buffer.zeroed])
    have hcount : x.stack.below.received? = some 8 := by decide +kernel
    cases hcount.symm.trans hn.received
    obtain ⟨-, hacc⟩ := hfed (by decide)
    have hhash : x.stack.hashing?.isSome = true := by decide +kernel
    obtain ⟨acc, hx⟩ := Option.isSome_iff_exists.1 hhash
    exact ⟨hn, acc, hx, Int.ofNat_inj.1 (hacc acc hx).2⟩
  · obtain ⟨⟨n, hn⟩, -⟩ := hexact _ _ hmodest rfl trivial [.request (.zeroed 4), .request (.zeroed 10)]
      (by simp [Buffer.zeroed])
    have hcount : y.stack.received? = some 14 := by decide +kernel
    cases hcount.symm.trans hn.received
    exact hn
  · have hstand : Standing (Workspace.shelf.fetchDigest (.text "http://h/f") (.number 8) (.bytes [])).workspace.objects
        4 _ := .layer rfl rfl (by decide) (.layer rfl rfl (by decide) (.remote rfl rfl rfl))
    obtain ⟨-, hdigest⟩ := hfetched Workspace.shelf (.text "http://h/f") (.number 8) (.bytes []) 4 _
    obtain ⟨b, k, e, -, -, -, -, hkeeps⟩ := hdigest rfl hstand.locate_eq
    obtain ⟨as, hlocate, n, hlevel⟩ := hkeeps [.read (some 1), .close]
    exact ⟨n, _, hlocate, hlevel⟩

end Stack

end StreamGuard
