import StreamGuard.Proofs.Openings
import StreamGuard.Proofs.Uses
import StreamGuard.Proofs.WrapOrder

namespace StreamGuard

theorem eq_of_toNat_eq : ∀ {x y : Bool}, x.toNat = y.toNat → x = y := by
  decide

namespace Stack

inductive Fetched (closed : Bool) : Bool → List Nat → Nat → Stack Endpoint → Prop
  | file {a : FileAdapter} {m : Memory} (ho : a.owned = true) (ha : a.attached = !closed) (hm : m.closed = closed) :
      Fetched closed true [] 2 ⟨[.file a], .direct (.memory m)⟩
  | response {r : Remote} {s : Script} (hr : r.attached = !closed) (hc : s.closes = closed.toNat)
      (hf : s.closeFails = false) : Fetched closed true [] 2 ⟨[], .remote r (.script s)⟩
  | adopted {a : FileAdapter} {base : Stack Endpoint} {lent : List Nat} (ho : a.owned = false)
      (ha : a.attached = !closed) (hl : base.closings = lent) : Fetched closed false lent 1 (base.push (.file a))
  | reader {own : Bool} {lent : List Nat} {n : Nat} {r : Reader} {s : Stack Endpoint} (hr : r.closed = closed)
      (h : Fetched closed own lent n s) : Fetched closed own lent (n + 1) (s.push (.reader r))

namespace Fetched

variable {closed own : Bool} {lent : List Nat} {n : Nat} {s t : Stack Endpoint}

theorem closings (h : Fetched closed own lent n s) : s.closings = List.replicate n closed.toNat ++ lent := by
  induction h with
  | file _ ha hm => simp [Stack.closings, Origin.closings, Layer.closings, Endpoint.closings, ha, hm]
  | response hr hc => simp [Stack.closings, Origin.closings, Endpoint.closings, hr, hc]
  | adopted _ ha hl =>
    rw [closings_push, hl]
    simp [Layer.closings, ha]
  | reader hr _ ih =>
    rw [closings_push, ih]
    simp [Layer.closings, hr, List.replicate_succ]

theorem of_molds (h : Fetched closed own lent n s) (hm : t.molds = s.molds) (hc : t.closings = s.closings) :
    Fetched closed own lent n t := by
  induction h generalizing t with
  | @file a m ho ha hcl =>
    obtain ⟨xs, o⟩ := t
    obtain ⟨y, ys, ht, hy, hbelow⟩ := eq_of_molds_layer hm
    cases ht
    obtain ⟨e, he, hmold⟩ := eq_of_molds_direct hbelow
    cases he
    cases y with
    | reader => cases hy
    | file a' =>
      cases e with
      | script => cases hmold
      | memory m' =>
        obtain ⟨ha', hm'⟩ : (!a'.attached).toNat = (!a.attached).toNat ∧ m'.closed.toNat = m.closed.toNat := by
          simpa [Stack.closings, Origin.closings, Layer.closings, Endpoint.closings] using hc
        refine .file ((Mold.file.inj hy).trans ho) ?_ ((eq_of_toNat_eq hm').trans hcl)
        exact (Bool.not_inj (eq_of_toNat_eq ha')).trans ha
  | @response r s hr hcl hf =>
    obtain ⟨r', e', rfl, -, he⟩ := eq_of_molds_remote hm
    cases e' with
    | memory => cases he
    | script s' =>
      obtain ⟨hr', hs'⟩ : (!r'.attached).toNat = (!r.attached).toNat ∧ s'.closes = s.closes := by
        simpa [Stack.closings, Origin.closings, Endpoint.closings] using hc
      refine .response ?_ (hs'.trans hcl) ((Mold.script.inj he).trans hf)
      exact (Bool.not_inj (eq_of_toNat_eq hr')).trans hr
  | @adopted a base lent ho ha hl =>
    obtain ⟨xs, o⟩ := t
    obtain ⟨y, ys, ht, hy, hbelow⟩ := eq_of_molds_layer hm
    cases ht
    cases y with
    | reader => cases hy
    | file a' =>
      obtain ⟨ha', hl'⟩ := List.cons.inj hc
      have hpush : (⟨.file a' :: ys, o⟩ : Stack Endpoint) = Stack.push ⟨ys, o⟩ (.file a') := rfl
      have hattached := (Bool.not_inj (eq_of_toNat_eq ha')).trans ha
      rw [hpush]
      exact .adopted ((Mold.file.inj hy).trans ho) hattached (hl'.trans hl)
  | @reader own lent n r s hr h ih =>
    obtain ⟨xs, o⟩ := t
    obtain ⟨y, ys, ht, hy, hbelow⟩ := eq_of_molds_layer hm
    cases ht
    cases y with
    | file => cases hy
    | reader r' =>
      obtain ⟨hr', hs'⟩ := List.cons.inj hc
      exact .reader (s := ⟨ys, o⟩) ((eq_of_toNat_eq hr').trans hr) (ih hbelow hs')

theorem close (h : Fetched closed own lent n s) :
    Fetched true own lent n s.close.state ∧ s.close.events.count (.call .close) = (own && !closed).toNat := by
  induction h with
  | @file a m ho ha hm =>
    cases closed with
    | true =>
      have hclose : Stack.close ⟨[.file a], .direct (Endpoint.memory m)⟩ =
          ⟨.ok (), ⟨[.file { a with attached := false }], .direct (.memory m)⟩, []⟩ := by
        simp [Stack.close, closeLayers, ha]
      rw [hclose]
      exact ⟨.file ho rfl hm, rfl⟩
    | false =>
      have hclose : Stack.close ⟨[.file a], .direct (Endpoint.memory m)⟩ =
          ⟨.ok (), ⟨[.file { a with attached := false }], .direct (.memory { m with closed := true })⟩,
            [.call .close]⟩ := by
        simp only [Stack.close, closeLayers, ho, ha, Bool.not_false, Bool.and_true, if_true]
        rfl
      rw [hclose]
      exact ⟨.file ho rfl rfl, rfl⟩
  | @response r s hr hc hf =>
    cases closed with
    | true =>
      have hclose : Stack.close ⟨[], .remote r (Endpoint.script s)⟩ = ⟨.ok (), ⟨[], .remote r (.script s)⟩, []⟩ := by
        simp [Stack.close, closeLayers, Origin.close, hr]
      rw [hclose]
      exact ⟨.response hr hc hf, rfl⟩
    | false =>
      have hclose : Stack.close ⟨[], .remote r (Endpoint.script s)⟩ =
          ⟨.ok (), ⟨[], .remote { r with attached := false } (.script { s with closes := s.closes + 1 })⟩,
            [.call .close]⟩ := by
        simp [Stack.close, closeLayers, Origin.close, hr, ByteSource.close, Endpoint.ofReply, Script.close, hf]
      rw [hclose]
      exact ⟨.response rfl (congrArg (· + 1) hc) hf, rfl⟩
  | @adopted a base lent ho ha hl =>
    have hclose : (base.push (.file a)).close = ⟨.ok (), base.push (.file { a with attached := false }), []⟩ := by
      simp [Stack.close, push, closeLayers, ho]
    rw [hclose]
    exact ⟨.adopted ho rfl hl, rfl⟩
  | @reader own lent n r s hr h ih =>
    cases closed with
    | true =>
      rw [close_push_closed hr]
      exact ⟨.reader hr h, by simp⟩
    | false =>
      rw [close_push_open hr]
      exact ⟨.reader rfl ih.1, ih.2⟩

theorem not_source {e : Endpoint} (h : Fetched closed own lent n ⟨[], .direct e⟩) : False := by
  generalize hs : (⟨[], .direct e⟩ : Stack Endpoint) = s at h
  cases h <;> cases hs

end Fetched

end Stack

namespace Workspace

open Stack

def closings (w : Workspace) (i : Nat) : Nat :=
  (w.objects[i]?.map Object.closings).getD 0

def Opened (w w' : Workspace) (r : Nat) : Prop :=
  w.objects.length ≤ r ∧ ∃ o, w'.objects[r]? = some o ∧ o.endpoint?.isSome

structure Holding (w : Workspace) (own closed : Bool) (w' : Workspace) (id : Nat) : Prop where
  newer : w.objects.length ≤ id
  known : id < w'.objects.length
  callers : ∀ i < w.objects.length, w'.closings i = w.closings i
  resource : own = true → w'.closings w.objects.length = closed.toNat
  stack : (locate w'.objects id = none ∧ own = false) ∨ ∃ l ids rest lent,
    Standing w'.objects id l ∧ l.ids = ids ++ rest ∧ Fetched closed own lent ids.length l.stack ∧
      (∀ i ∈ ids, w.objects.length ≤ i) ∧ (∀ i ∈ rest, i < w.objects.length) ∧
      (own = true → l.source = w.objects.length)

theorem count_close_ofEvent (source i : Nat) (es : List Event) :
    (es.filterMap (Entry.ofEvent? source)).count (.call i .close) =
      if i = source then es.count (.call .close) else 0 := by
  induction es with
  | nil => simp
  | cons e es ih =>
    cases e with
    | call c =>
      simp only [List.filterMap_cons, Entry.ofEvent?, List.count_cons, ih]
      by_cases hi : i = source
      · cases c <;> simp [hi]
      · simp [hi, Ne.symm hi]
    | log => simpa [Entry.ofEvent?] using ih
    | finalized => rw [List.filterMap_cons_none rfl, ih, List.count_cons_of_ne (by simp)]

section

variable {w w' w'' : Workspace} {own closed : Bool} {id : Nat} {es : List Entry}

theorem closings_of_fetched {l : Located} {ids rest lent : List Nat} (h : Standing w.objects id l)
    (hids : l.ids = ids ++ rest) (hf : Fetched closed own lent ids.length l.stack) :
    (∀ i ∈ ids, w.closings i = closed.toNat) ∧ rest.map w.closings = lent := by
  have hall : l.ids.map w.closings = List.replicate ids.length closed.toNat ++ lent := h.closings.trans hf.closings
  rw [hids, List.map_append] at hall
  obtain ⟨hown, hlent⟩ := List.append_inj hall (by simp)
  refine ⟨fun i hi => ?_, hlent⟩
  exact List.eq_of_mem_replicate (hown ▸ List.mem_map_of_mem hi)

theorem Holding.through {P : Stack Endpoint → List Event → Stack Endpoint → Prop} {closed' : Bool} {k : Nat}
    (hP : ∀ {s fs t}, P s fs t → t.molds = s.molds ∧ ∀ {lent n}, Fetched closed own lent n s →
      Fetched closed' own lent n t ∧ fs.count (.call .close) = k) (hk : own = false → k = 0)
    (h : Holding w own closed w' id) (ht : Through w' id P w'' es) :
    Holding w own closed' w'' id ∧ ∀ i, es.count (.call i .close) = if i = w.objects.length then k else 0 := by
  cases ht with
  | absent hl =>
    rcases h.stack with ⟨hnone, rfl⟩ | ⟨l, ids, rest, lent, hstand, -⟩
    · refine ⟨⟨h.newer, h.known, h.callers, nofun, .inl ⟨hnone, rfl⟩⟩, ?_⟩
      simp [hk rfl]
    · rw [hstand.locate_eq] at hl
      cases hl
  | @present l fs t hl hp =>
    rcases h.stack with ⟨hnone, -⟩ | ⟨l', ids, rest, lent, hstand, hids, hf, hnew, hold, hsource⟩
    · rw [hl.locate_eq] at hnone
      cases hnone
    · obtain rfl : l' = l := Option.some.inj (hstand.locate_eq.symm.trans hl.locate_eq)
      obtain ⟨hmolds, hfetched⟩ := hP hp
      obtain ⟨hf', hcount⟩ := hfetched hf
      have hstand' := hstand.store hmolds
      obtain ⟨-, hlent⟩ := closings_of_fetched hstand hids hf
      obtain ⟨hown', hlent'⟩ :=
        closings_of_fetched (w := { w' with objects := l'.store t w'.objects }) hstand' hids hf'
      refine ⟨⟨h.newer, ?_, ?_, ?_, .inr ⟨_, ids, rest, lent, hstand', hids, hf', hnew, hold, hsource⟩⟩, ?_⟩
      · simpa only [Located.length_store] using h.known
      · intro i hi
        rw [← h.callers i hi]
        by_cases hmem : i ∈ l'.ids
        · have hrest : i ∈ rest := by
            rw [hids, List.mem_append] at hmem
            exact hmem.resolve_left fun hi' => Nat.not_lt.2 (hnew i hi') hi
          exact List.map_inj_left.1 (hlent'.trans hlent.symm) i hrest
        · simp only [closings, Located.store_of_not_mem hmem]
      · intro ho
        apply hown'
        have hmem : l'.source ∈ l'.ids := by simp [Located.ids]
        rw [hsource ho, hids, List.mem_append] at hmem
        exact hmem.resolve_right fun hi => Nat.lt_irrefl _ (hold _ hi)
      · intro i
        rw [count_close_ofEvent, hcount]
        cases own with
        | false => simp [hk rfl]
        | true => rw [hsource rfl]

theorem Holding.asks (h : Holding w own closed w' id) (ht : Through w' id Asks w'' es) :
    Holding w own closed w'' id ∧ ∀ i, es.count (.call i .close) = 0 := by
  have hk := h.through (k := 0) (fun hp => ⟨hp.unclosed.molds, fun hf =>
    ⟨hf.of_molds hp.unclosed.molds hp.unclosed.closings, List.count_eq_zero.2 hp.unclosed.events⟩⟩) (fun _ => rfl) ht
  simpa using hk

theorem Holding.closes (h : Holding w own closed w' id) (ht : Through w' id Closes w'' es) :
    Holding w own true w'' id ∧
      ∀ i, es.count (.call i .close) = if i = w.objects.length then (own && !closed).toNat else 0 := by
  refine h.through ?_ ?_ ht
  · rintro s fs t ⟨rfl, rfl⟩
    exact ⟨s.close_molds, fun hf => hf.close⟩
  · rintro rfl
    rfl

theorem closings_append (more : List Object) {i : Nat} (hi : i < w.objects.length) :
    closings { w with objects := w.objects ++ more } i = w.closings i := by
  simp only [closings, List.getElem?_append_left hi]

theorem Holding.reader (h : Holding w own closed w' id) {r : Reader} (hr : r.closed = closed) :
    Holding w own closed { w' with objects := w'.objects ++ [.reader r id] } w'.objects.length where
  newer := Nat.le_of_lt (Nat.lt_of_le_of_lt h.newer h.known)
  known := by simp
  callers i hi := by
    rw [closings_append _ (by have := h.newer; have := h.known; omega)]
    exact h.callers i hi
  resource ho := by
    rw [closings_append _ (Nat.lt_of_le_of_lt h.newer h.known)]
    exact h.resource ho
  stack := by
    rcases h.stack with ⟨hnone, rfl⟩ | ⟨l, ids, rest, lent, hstand, hids, hf, hnew, hold, hsource⟩
    · refine .inl ⟨?_, rfl⟩
      rw [Option.eq_none_iff_forall_ne_some]
      intro l hl
      obtain ⟨l', hbelow, -⟩ := (Standing.of_locate hl).of_concat rfl h.known
      rw [hbelow.locate_eq] at hnone
      cases hnone
    · have hnext := Standing.of_locate (locate_reader hstand.locate_eq r)
      refine .inr ⟨_, w'.objects.length :: ids, rest, lent, hnext, congrArg _ hids, .reader hr hf, ?_, hold, hsource⟩
      intro i hi
      rcases List.mem_cons.1 hi with rfl | hi
      · exact Nat.le_of_lt (Nat.lt_of_le_of_lt h.newer h.known)
      · exact hnew i hi

end

structure Handed (w : Workspace) (own : Bool) (s : Step Nat) : Prop where
  holding : ∀ id, s.outcome = .ok id → Holding w own false s.workspace id
  callers : ∀ i < w.objects.length, s.workspace.closings i = w.closings i
  resource : own = true → s.workspace.closings w.objects.length = (!s.outcome.isOk).toNat
  closes : ∀ i, s.entries.count (.call i .close) = if i = w.objects.length then (own && !s.outcome.isOk).toNat else 0

theorem Handed.addReader {w : Workspace} {own : Bool} {s : Step Nat} (h : Handed w own s)
    {made : Except Failure Reader} (hm : ∀ r, made = .ok r → r.closed = false) :
    Handed w own (s.andThen fun id w => w.addReader made id) := by
  have hcloses := h.closes
  have hresource := h.resource
  unfold Step.andThen
  cases hs : s.outcome with
  | error f =>
    rw [hs] at hcloses hresource
    exact ⟨by rintro _ ⟨⟩, h.callers, hresource, hcloses⟩
  | ok id =>
    rw [hs] at hcloses hresource
    have hold := h.holding id hs
    cases made with
    | ok r =>
      have hnext := hold.reader (hm r rfl)
      simp only [Workspace.addReader, add, List.append_nil]
      exact ⟨by rintro _ ⟨⟩; exact hnext, hnext.callers, hnext.resource, hcloses⟩
    | error f =>
      obtain ⟨hclosed, hcount⟩ := hold.closes (close_through s.workspace id)
      simp only [Workspace.addReader, Step.before, fail, List.nil_append]
      refine ⟨by rintro _ ⟨⟩, hclosed.callers, hclosed.resource, fun i => ?_⟩
      rw [List.count_append, hcloses, hcount]
      split <;> simp [Except.isOk, Except.toBool]

theorem count_close_greeting (w : Workspace) (url : String) (timeout : Option Int) (i : Nat) :
    (w.greeting url timeout).count (.call i .close) = 0 := by
  unfold greeting
  split <;> simp

section

variable {w : Workspace}

theorem opened_pair {w' : Workspace} {source x : Object} (hw : w'.objects = w.objects ++ [source, x])
    (hx : x.endpoint? = none) {r : Nat} (h : Opened w w' r) : r = w.objects.length := by
  obtain ⟨hle, o, ho, he⟩ := h
  rw [hw, List.getElem?_append_right hle] at ho
  match hr : r - w.objects.length with
  | 0 => omega
  | 1 =>
    rw [hr] at ho
    cases ho
    rw [hx] at he
    cases he
  | n + 2 =>
    rw [hr] at ho
    cases ho

theorem holding_pair {w' : Workspace} {source x : Object} {l : Located}
    (hw : w'.objects = w.objects ++ [source, x]) (hsource : source.closings = 0)
    (hl : Standing w'.objects (w.objects.length + 1) l) (hids : l.ids = [w.objects.length + 1, w.objects.length])
    (hf : Fetched false true [] 2 l.stack) : Holding w true false w' (w.objects.length + 1) where
  newer := Nat.le_succ _
  known := by simp [hw]
  callers i hi := by simp [closings, hw, List.getElem?_append_left hi]
  resource _ := by simp [closings, hw, hsource]
  stack := by
    refine .inr ⟨l, l.ids, [], [], hl, by simp, by rwa [hids], ?_, by simp, fun _ => ?_⟩
    · intro i hi
      simp only [hids, List.mem_cons, List.not_mem_nil, or_false] at hi
      omega
    · simpa [Located.ids] using congrArg List.getLast? hids

theorem handed_pair {w' : Workspace} {source x : Object} {l : Located} {es : List Entry}
    (hw : w'.objects = w.objects ++ [source, x]) (hsource : source.closings = 0)
    (hl : Standing w'.objects (w.objects.length + 1) l) (hids : l.ids = [w.objects.length + 1, w.objects.length])
    (hf : Fetched false true [] 2 l.stack) (hes : ∀ i, es.count (.call i .close) = 0) :
    Handed w true ⟨.ok (w.objects.length + 1), w', es⟩ where
  holding := by
    rintro _ ⟨⟩
    exact holding_pair hw hsource hl hids hf
  callers := (holding_pair hw hsource hl hids hf).callers
  resource := (holding_pair hw hsource hl hids hf).resource
  closes := by simp [hes, Except.isOk, Except.toBool]

theorem holding_adopted {below : Nat} (h : below < w.objects.length) :
    Holding w false false { w with objects := w.objects ++ [.localSource {} below] } w.objects.length where
  newer := Nat.le_refl _
  known := by simp
  callers i hi := closings_append _ hi
  resource := nofun
  stack := by
    cases hl : locate (w.objects ++ [.localSource {} below]) w.objects.length with
    | none => exact .inl ⟨rfl, rfl⟩
    | some l =>
      obtain ⟨l', hold, rfl⟩ := (Standing.of_locate hl).of_concat rfl h
      refine .inr ⟨_, [w.objects.length], l'.ids, l'.stack.closings, .of_locate hl, rfl, .adopted rfl rfl rfl,
        by simp, fun i hi => ?_, nofun⟩
      rcases hold.ids_le hi with hle | ⟨o, -, ho, -⟩
      · omega
      · exact (List.getElem?_eq_some_iff.1 ho).1

theorem Opening.handed {place : Place} {s : Step Nat} (h : Opening w place s) {id : Nat}
    (hs : s.outcome = .ok id) :
    ∃ own, Handed w own s ∧ ∀ r, Opened w s.workspace r → own = true ∧ r = w.objects.length := by
  cases h with
  | refused | unanswered | badStatus | badLength => cases hs
  | @adopted below hbelow =>
    have hold := holding_adopted hbelow
    refine ⟨false, ⟨by rintro _ ⟨⟩; exact hold, hold.callers, nofun, by simp⟩, fun r hr => ?_⟩
    obtain ⟨hle, o, ho, he⟩ := hr
    rw [List.getElem?_append_right hle] at ho
    rw [List.mem_singleton.1 (List.mem_of_getElem? ho)] at he
    cases he
  | file p c ending =>
    have hl : Standing (w.objects ++ [.file (.opened c ending), .localSource { owned := true } w.objects.length])
        (w.objects.length + 1) ((Located.ofSource w.objects.length (.memory (.opened c ending))).push
          (w.objects.length + 1) (.file { owned := true })) :=
      .layer (o := .localSource { owned := true } w.objects.length) (by simp) rfl (by simp)
        (.source (o := .file (.opened c ending)) (by simp) rfl)
    exact ⟨true, handed_pair rfl rfl hl rfl (.file rfl rfl rfl) (by simp), fun r hr => ⟨rfl, opened_pair rfl rfl hr⟩⟩
  | @response url timeout status headers items length hw hstatus hl =>
    have hl : Standing (w.objects ++ [.body url (Web.body items),
          .remoteSource { url, contentLength := length } w.objects.length]) (w.objects.length + 1)
        (.ofRemote (w.objects.length + 1) w.objects.length { url, contentLength := length }
          (.script (Web.body items))) :=
      .remote (by simp) (o := .body url (Web.body items)) (by simp) rfl
    exact ⟨true, handed_pair rfl rfl hl rfl (.response rfl rfl rfl) (by simp [count_close_greeting]),
      fun r hr => ⟨rfl, opened_pair rfl rfl hr⟩⟩

theorem Opening.callers {place : Place} {s : Step Nat} (h : Opening w place s) {i : Nat}
    (hi : i < w.objects.length) : s.entries.count (.call i .close) = 0 ∧ s.workspace.closings i = w.closings i := by
  cases h with
  | refused => exact ⟨rfl, rfl⟩
  | adopted => exact ⟨rfl, closings_append _ hi⟩
  | file => exact ⟨by simp, closings_append _ hi⟩
  | unanswered => exact ⟨count_close_greeting .., rfl⟩
  | badStatus =>
    refine ⟨?_, closings_append _ hi⟩
    simp [count_close_greeting, (Nat.ne_of_lt hi).symm]
  | badLength => exact ⟨count_close_greeting .., closings_append _ hi⟩
  | response => exact ⟨by simp [count_close_greeting], closings_append _ hi⟩

theorem Handed.addBound {own : Bool} {s : Step Nat} (h : Handed w own s) (limit : Scalar) :
    Handed w own (s.andThen fun source w => w.addBound limit source) := by
  apply h.addReader
  intro r hr
  obtain ⟨n, -, rfl⟩ := map_eq_ok_iff.1 hr
  rfl

theorem Handed.addDigest {own : Bool} {s : Step Nat} (h : Handed w own s) (expected : DigestValue) :
    Handed w own (s.andThen fun bounded w => w.addDigest expected bounded) := by
  apply h.addReader
  intro r hr
  obtain ⟨digest, -, rfl⟩ := map_eq_ok_iff.1 hr
  rfl

theorem Holding.no_source {own closed : Bool} {w' : Workspace} {id : Nat} (h : Holding w own closed w' id) {o : Object}
    (ho : w'.objects[id]? = some o) : o.endpoint? = none := by
  cases he : o.endpoint? with
  | none => rfl
  | some e =>
    have hl := locate_endpoint ho he
    rcases h.stack with ⟨hnone, -⟩ | ⟨l, ids, rest, lent, hstand, -, hf, -⟩
    · rw [hnone] at hl
      cases hl
    · rw [hstand.locate_eq] at hl
      cases hl
      exact hf.not_source.elim

theorem Holding.useAt {own closed : Bool} {w' : Workspace} {id : Nat} (h : Holding w own closed w' id) (a : Action) :
    Holding w own (closed || a.closes) (w'.useAt id a).step.workspace id ∧
      ∀ i, (w'.useAt id a).step.entries.count (.call i .close) =
        if i = w.objects.length then (own && !closed && a.closes).toNat else 0 := by
  have ho := List.getElem?_eq_getElem h.known
  have hn := h.no_source ho
  simp only [Workspace.useAt, ho]
  cases ha : a.closes with
  | false => simpa using h.asks (use_asks ho hn ha)
  | true => simpa using h.closes (use_closes hn ha)

theorem Holding.course {own closed : Bool} {w' : Workspace} {id : Nat} (h : Holding w own closed w' id)
    (actions : List Action) :
    Holding w own (closed || actions.any Action.closes) (w'.course (·.useAt id) actions).2 id ∧
      ∀ i, (w'.course (·.useAt id) actions).1.count (.call i .close) =
        if i = w.objects.length then (own && !closed && actions.any Action.closes).toNat else 0 := by
  induction actions generalizing w' closed with
  | nil => simpa [Workspace.course] using h
  | cons a actions ih =>
    obtain ⟨hnext, hcount⟩ := h.useAt a
    obtain ⟨hlast, hcounts⟩ := ih hnext
    simp only [Workspace.course, List.any_cons]
    constructor
    · rwa [← Bool.or_assoc]
    · intro i
      rw [List.count_append, hcount, hcounts]
      cases own <;> cases closed <;> cases a.closes <;> simp

theorem andThen_of_error {s : Step Nat} {e : Failure} (h : s.outcome = .error e) (f : Nat → Workspace → Step Nat) :
    s.andThen f = s := by
  obtain ⟨outcome, workspace, entries⟩ := s
  cases h
  rfl

inductive Fetches (w : Workspace) (t : Target) : Step Nat → Prop
  | bound (limit : Scalar) : Fetches w t (w.fetchBound t limit)
  | digest (limit : Scalar) (expected : DigestValue) : Fetches w t (w.fetchDigest t limit expected)

section

variable {t : Target} {fetch : Step Nat}

theorem Fetches.of_failed_open (h : Fetches w t fetch) {e : Failure} (hopen : (w.openTarget t).outcome = .error e) :
    fetch = w.openTarget t := by
  have hbound : ∀ limit, w.fetchBound t limit = w.openTarget t := fun _ => andThen_of_error hopen _
  cases h with
  | bound limit => exact hbound limit
  | digest limit expected =>
    rw [fetchDigest, hbound]
    exact andThen_of_error hopen _

theorem Fetches.handed (h : Fetches w t fetch) {own : Bool} (ho : Handed w own (w.openTarget t)) :
    Handed w own fetch := by
  cases h with
  | bound limit => exact ho.addBound limit
  | digest limit expected => exact (ho.addBound limit).addDigest expected

end

theorem fetch_owns_opened {t : Target} {fetch : Step Nat} (hfetch : Fetches w t fetch) :
    (∀ source f, (w.openTarget t).outcome = .ok source → fetch.outcome = .error f →
      ∀ r, Opened w (w.openTarget t).workspace r →
        fetch.entries.count (.call r .close) = 1 ∧ fetch.workspace.closings r = 1) ∧
    (∀ id, fetch.outcome = .ok id → ∀ actions r, Opened w (w.openTarget t).workspace r →
      (fetch.entries ++ (fetch.workspace.course (·.useAt id) actions).1).count (.call r .close) =
          (actions.any Action.closes).toNat ∧
        (fetch.workspace.course (·.useAt id) actions).2.closings r = (actions.any Action.closes).toNat) ∧
    ∀ i < w.objects.length, .call i .close ∉ fetch.entries ∧ fetch.workspace.closings i = w.closings i ∧
      ∀ id, fetch.outcome = .ok id → ∀ actions,
        .call i .close ∉ (fetch.workspace.course (·.useAt id) actions).1 ∧
          (fetch.workspace.course (·.useAt id) actions).2.closings i = w.closings i := by
  have hopening := w.opening_target t
  cases hopen : (w.openTarget t).outcome with
  | error e =>
    rw [hfetch.of_failed_open hopen, hopen]
    refine ⟨nofun, nofun, fun i hi => ?_⟩
    obtain ⟨hcount, hclosings⟩ := hopening.callers hi
    exact ⟨List.count_eq_zero.1 hcount, hclosings, nofun⟩
  | ok source =>
    obtain ⟨own, hhanded, hresource⟩ := hopening.handed hopen
    have h := hfetch.handed hhanded
    refine ⟨?_, ?_, ?_⟩
    · rintro - f - hf r hr
      obtain ⟨rfl, rfl⟩ := hresource r hr
      have hcount := h.closes w.objects.length
      have hclosings := h.resource rfl
      rw [hf] at hcount hclosings
      exact ⟨by simpa [Except.isOk, Except.toBool] using hcount, hclosings⟩
    · intro id hid actions r hr
      obtain ⟨rfl, rfl⟩ := hresource r hr
      obtain ⟨hlast, hcount⟩ := (h.holding id hid).course actions
      have hfirst := h.closes w.objects.length
      rw [hid] at hfirst
      refine ⟨?_, hlast.resource rfl⟩
      rw [List.count_append, hfirst, hcount]
      simp [Except.isOk, Except.toBool]
    · intro i hi
      have hne := Nat.ne_of_lt hi
      refine ⟨?_, h.callers i hi, fun id hid actions => ?_⟩
      · rw [← List.count_eq_zero, h.closes, if_neg hne]
      · obtain ⟨hlast, hcount⟩ := (h.holding id hid).course actions
        refine ⟨?_, hlast.callers i hi⟩
        rw [← List.count_eq_zero, hcount, if_neg hne]

end

def shelf : Workspace :=
  { objects := [.memory (.ofBytes [1, 2, 3] 0)]
    web := ⟨[("http://h/f", .response 200 [] [.data [104, 105] none]),
      ("http://h/x", .response 200 [("Content-Length", "x")] []), ("http://h/n", .response 404 [] [])]⟩ }

theorem fetch_owns_opened_shelf :
    ((shelf.fetchBound (.text "http://h/f") (.number (-1))).outcome = .error .negativeLimit ∧
      (shelf.fetchBound (.text "http://h/f") (.number (-1))).entries.count (.call 1 .close) = 1) ∧
    ∃ id, (shelf.fetchDigest (.text "http://h/f") (.number 8) (.bytes [])).outcome = .ok id ∧
      ((shelf.fetchDigest (.text "http://h/f") (.number 8) (.bytes [])).entries ++
        ((shelf.fetchDigest (.text "http://h/f") (.number 8) (.bytes [])).workspace.course (·.useAt id)
          [.read (some 1), .exit, .close]).1).count (.call 1 .close) = 1 := by
  have hopened : Opened shelf (shelf.openTarget (.text "http://h/f")).workspace 1 := ⟨by decide, _, rfl, rfl⟩
  constructor
  · obtain ⟨hfailed, -⟩ := fetch_owns_opened (Fetches.bound (w := shelf) (t := .text "http://h/f") (.number (-1)))
    exact ⟨rfl, (hfailed 2 .negativeLimit rfl rfl 1 hopened).1⟩
  · obtain ⟨-, hheld, -⟩ :=
      fetch_owns_opened (Fetches.digest (w := shelf) (t := .text "http://h/f") (.number 8) (.bytes []))
    exact ⟨4, rfl, (hheld 4 rfl [.read (some 1), .exit, .close] 1 hopened).1⟩

end Workspace

end StreamGuard
