import StreamGuard.Proofs.Lifecycle
import StreamGuard.Proofs.Tally

namespace StreamGuard

/-- Reading neither gives a source a `close` nor takes it away. -/
structure ByteSource.Steady (σ : Type) [ByteSource σ] : Prop where
  readInto : ∀ (s : σ) (b : Buffer), (api (readInto s b).source).close = (api s).close
  read : ∀ (s : σ) (n : Nat), (api (read s n).source).close = (api s).close

theorem Script.steady : ByteSource.Steady Script := by
  constructor
  · intro s b
    simp only [ByteSource.api, ByteSource.readInto, readInto]
    split <;> simp
  · intro s n
    simp only [ByteSource.api, ByteSource.read, read]
    split <;> rfl

theorem Check.close_not_mem_rule (c : Check) (count : Int) (b : Buffer) :
    Event.call .close ∉ (c.rule count b).events := by
  cases c with
  | digest d =>
    simp only [rule, DigestCheck.rule]
    repeat' split
    all_goals simp
  | bound c =>
    simp only [rule, BoundCheck.rule]
    repeat' split
    all_goals simp

namespace Reader

def shut (r : Reader) : Reader := { r with closed := true }

theorem shut_of_closed {r : Reader} (h : r.closed = true) : r.shut = r := by
  obtain ⟨check, state, closed⟩ := r
  cases h
  rfl

end Reader

def Nested (rs : List Reader) : Prop :=
  (rs.map Reader.closed).Pairwise fun above below => above = true → below = true

def innermostClosed (rs : List Reader) : Bool :=
  (rs.map Reader.closed).getLast? == some true

namespace Nested

variable {rs : List Reader}

theorem of_open (h : ∀ r ∈ rs, r.closed = false) : Nested rs := by
  rw [Nested, List.pairwise_map, List.pairwise_iff_getElem]
  intro i _ hi _ _ hc
  rw [h _ (List.getElem_mem hi)] at hc
  cases hc

theorem drop (h : Nested rs) (d : Nat) : Nested (rs.drop d) := by
  rw [Nested, List.map_drop]
  exact List.Pairwise.sublist (List.drop_sublist d _) h

theorem shut_from (h : Nested rs) (d : Nat) : Nested (rs.take d ++ (rs.drop d).map Reader.shut) := by
  have htake : Nested (rs.take d) := by
    rw [Nested, List.map_take]
    exact List.Pairwise.sublist (List.take_sublist d _) h
  rw [Nested, List.map_append, List.pairwise_append]
  refine ⟨htake, ?_, ?_⟩
  · rw [List.map_map, List.pairwise_map, List.pairwise_iff_getElem]
    exact fun _ _ _ _ _ _ => rfl
  · rintro above - below hbelow -
    rw [List.map_map] at hbelow
    obtain ⟨r, -, rfl⟩ := List.mem_map.1 hbelow
    rfl

theorem closed_below {r : Reader} (h : Nested (r :: rs)) (hr : r.closed = true) : ∀ q ∈ rs, q.closed = true := by
  intro q hq
  rw [Nested, List.map_cons, List.pairwise_cons] at h
  exact h.1 q.closed (List.mem_map_of_mem hq) hr

theorem map_shut {r : Reader} (h : Nested (r :: rs)) (hr : r.closed = true) : rs.map Reader.shut = rs := by
  conv => rhs; rw [← List.map_id rs]
  exact List.map_congr_left fun q hq => Reader.shut_of_closed (h.closed_below hr q hq)

end Nested

theorem innermostClosed_eq {rs qs : List Reader} (h : rs.map Reader.closed = qs.map Reader.closed) :
    innermostClosed rs = innermostClosed qs := by
  rw [innermostClosed, h, innermostClosed]

theorem innermostClosed_append (ps : List Reader) {rs : List Reader} (h : rs ≠ []) :
    innermostClosed (ps ++ rs) = innermostClosed rs := by
  cases rs with
  | nil => exact absurd rfl h
  | cons r rs => simp [innermostClosed, List.getLast?_append, List.getLast?_cons]

theorem innermostClosed_shut {rs : List Reader} (h : rs ≠ []) : innermostClosed (rs.map Reader.shut) = true := by
  cases rs with
  | nil => exact absurd rfl h
  | cons r rs =>
    rw [innermostClosed, List.map_map, List.getLast?_map, List.getLast?_cons]
    rfl

theorem Nested.innermost {rs : List Reader} (h : Nested rs) (hne : rs ≠ []) :
    innermostClosed rs = rs.any Reader.closed := by
  induction rs with
  | nil => exact absurd rfl hne
  | cons r rs ih =>
    cases rs with
    | nil => cases hr : r.closed <;> simp [innermostClosed, hr]
    | cons q rs =>
      have hbelow := ih (h.drop 1) (by simp)
      rw [List.any_cons, ← hbelow, ← List.singleton_append, innermostClosed_append _ (by simp)]
      cases hr : r.closed with
      | false => rfl
      | true => simp [hbelow, h.closed_below hr q List.mem_cons_self]

namespace Stack

variable {σ : Type}

def readers (rs : List Reader) (src : σ) : Stack σ :=
  ⟨rs.map .reader, .direct src⟩

variable [ByteSource σ]

def moveAt (s : Stack σ) : Nat × Move → Option (Turn (Stack σ × Option Buffer) Value)
  | (d, m) =>
    (move ⟨s.layers.drop d, s.origin⟩ m).map fun turn =>
      { turn with state := (⟨s.layers.take d ++ turn.state.1.layers, turn.state.1.origin⟩, turn.state.2) }

def closeSource (closed : Bool) (src : σ) : Turn σ Unit :=
  if closed || !(ByteSource.api src).close then ⟨.ok (), src, []⟩
  else ⟨(ByteSource.close src).outcome, (ByteSource.close src).source, [.call .close]⟩

/-- Closing at depth `d`: all readers from there on are closed, and the source if none of them was. -/
def closing (rs : List Reader) (src : σ) (d : Nat) : Turn (Stack σ × Option Buffer) Value :=
  let turn := closeSource ((rs.drop d).any Reader.closed) src
  ⟨turn.outcome.map fun _ => .none, (readers (rs.take d ++ (rs.drop d).map Reader.shut) turn.state, none),
    turn.events⟩

def ReadsTo (rs : List Reader) (src : σ) (es : List Event) (t : Stack σ) : Prop :=
  ∃ rs' src', t = readers rs' src' ∧ rs'.map Reader.closed = rs.map Reader.closed ∧
    (ByteSource.api src').close = (ByteSource.api src).close ∧ .call .close ∉ es

theorem ReadsTo.refl (rs : List Reader) (src : σ) : ReadsTo rs src [] (readers rs src) :=
  ⟨rs, src, rfl, rfl, rfl, by simp⟩

theorem supply_reads (hs : ByteSource.Steady σ) (intake : Intake) (src : σ) (b : Buffer) :
    ∃ src', (Origin.supply intake (.direct src) b).state = .direct src' ∧
      (ByteSource.api src').close = (ByteSource.api src).close ∧
      Event.call .close ∉ (Origin.supply intake (.direct src) b).events := by
  simp only [Origin.supply, Origin.supplyDirect]
  split
  · exact ⟨_, rfl, hs.readInto src b, by simp⟩
  · split
    · have hcopy : (Origin.copy intake src b).state = (ByteSource.read src b.items).source := Origin.copy_source src b
      refine ⟨_, rfl, by rw [hcopy]; exact hs.read src b.items, ?_⟩
      simp only [Origin.copy]
      split <;> simp
    · exact ⟨src, rfl, rfl, by simp⟩

theorem request_reads (hs : ByteSource.Steady σ) (rs : List Reader) (src : σ) (b : Buffer) :
    ReadsTo rs src ((readers rs src).request b).events ((readers rs src).request b).state := by
  induction rs with
  | nil =>
    obtain ⟨src', hstate, hclose, hevents⟩ := supply_reads hs .checked src b
    refine ⟨[], src', ?_, rfl, hclose, hevents⟩
    simp only [readers, request, List.map_nil, serve, hstate]
  | cons r rs ih =>
    obtain ⟨rs', src', hstate, hclosed, hclose, hevents⟩ := ih
    have hserved : Served r (rs.map .reader) (.direct src) b ((readers (r :: rs) src).request b) :=
      served .checked r (rs.map .reader) (.direct src) b
    generalize (readers (r :: rs) src).request b = x at hserved ⊢
    cases hserved with
    | refused => exact .refl (r :: rs) src
    | empty => exact .refl (r :: rs) src
    | @failed f =>
      refine ⟨r.after f :: rs', src', congrArg (push · _) hstate, ?_, hclose, hevents⟩
      rw [List.map_cons, List.map_cons, hclosed, r.closed_after]
    | @ruled count ruling _ _ _ hrule =>
      refine ⟨r.settle ruling :: rs', src', congrArg (push · _) hstate, ?_, hclose, ?_⟩
      · rw [List.map_cons, List.map_cons, hclosed, Reader.settle]
      · rw [List.mem_append, ← hrule]
        exact not_or.2 ⟨hevents, r.check.close_not_mem_rule _ _⟩

theorem ReadsTo.request (hs : ByteSource.Steady σ) {rs : List Reader} {src : σ} {es : List Event} {t : Stack σ}
    (h : ReadsTo rs src es t) (b : Buffer) : ReadsTo rs src (es ++ (t.request b).events) (t.request b).state := by
  obtain ⟨rs', src', rfl, hclosed, hclose, hes⟩ := h
  obtain ⟨rs'', src'', hstate, hclosed', hclose', hevents⟩ := request_reads hs rs' src' b
  refine ⟨rs'', src'', hstate, hclosed'.trans hclosed, hclose'.trans hclose, ?_⟩
  rw [List.mem_append]
  exact not_or.2 ⟨hes, hevents⟩

theorem ReadsTo.layered {rs : List Reader} {src : σ} {es : List Event} {t : Stack σ} (h : ReadsTo rs src es t)
    (hne : rs ≠ []) : t.layers ≠ [] := by
  obtain ⟨rs', src', rfl, hclosed, -⟩ := h
  intro hnil
  have hempty : rs' = [] := List.map_eq_nil_iff.1 hnil
  rw [hempty, List.map_nil] at hclosed
  exact hne (List.map_eq_nil_iff.1 hclosed.symm)

theorem moveAt_readers (rs : List Reader) (src : σ) (d : Nat) (m : Move) :
    (readers rs src).moveAt (d, m) = ((readers (rs.drop d) src).move m).map fun turn =>
      { turn with state := (⟨(rs.take d).map .reader ++ turn.state.1.layers, turn.state.1.origin⟩, turn.state.2) } := by
  simp only [moveAt, readers, List.map_drop, List.map_take]

theorem drop_ne_nil {rs : List Reader} {d : Nat} (hd : d < rs.length) : rs.drop d ≠ [] := by
  intro hnil
  have := List.drop_eq_nil_iff.1 hnil
  omega

theorem moveAt_reads (hs : ByteSource.Steady σ) {rs : List Reader} {src : σ} {d : Nat} (hd : d < rs.length) {m : Move}
    (hm : m ≠ .plain .close) {turn : Turn (Stack σ × Option Buffer) Value}
    (h : (readers rs src).moveAt (d, m) = some turn) : ReadsTo rs src turn.events turn.state.1 := by
  rw [moveAt_readers] at h
  obtain ⟨inner, hinner, rfl⟩ := Option.map_eq_some_iff.1 h
  have hread : ReadsTo (rs.drop d) src ([] ++ inner.events) inner.state.1 :=
    move_keeps (I := fun t es => ReadsTo (rs.drop d) src es t) (fun _ => trivial) (fun ht b _ => ht.request hs b)
      (.refl _ src) (fun ht => readInto_layered (ht.layered (drop_ne_nil hd))) hm (fun _ _ => trivial) hinner
  obtain ⟨qs, src', hstate, hclosed, hclose, hevents⟩ := hread
  refine ⟨rs.take d ++ qs, src', ?_, ?_, hclose, hevents⟩
  · simp only [hstate, readers, List.map_append]
  · rw [List.map_append, hclosed, ← List.map_append, List.take_append_drop]

theorem close_readers {rs : List Reader} (h : Nested rs) (src : σ) :
    (readers rs src).close =
      let turn := closeSource (rs.any Reader.closed) src
      ⟨turn.outcome, readers (rs.map Reader.shut) turn.state, turn.events⟩ := by
  induction rs with
  | nil =>
    simp only [close, readers, List.map_nil, closeLayers, Origin.close, List.any_nil, closeSource, Bool.false_or]
    cases (ByteSource.api src).close <;> rfl
  | cons r rs ih =>
    have hbelow := ih (h.drop 1)
    simp only [close, readers, List.map_cons, closeLayers] at hbelow ⊢
    by_cases hr : r.closed = true
    · rw [if_pos hr, List.any_cons, hr, h.map_shut hr, Reader.shut_of_closed hr]
      rfl
    · rw [if_neg hr, List.any_cons, Bool.eq_false_iff.2 hr, hbelow]
      rfl

theorem moveAt_close {rs : List Reader} (h : Nested rs) (src : σ) (d : Nat) :
    (readers rs src).moveAt (d, .plain .close) = some (closing rs src d) := by
  have hclose := close_readers (h.drop d) src
  rw [moveAt_readers]
  simp only [move, operate, bare, Option.map_some, closing, hclose]
  simp only [readers, List.map_append]

structure Kept (rs : List Reader) (src : σ) (es : List Event) (rs' : List Reader) (src' : σ) : Prop where
  length : rs'.length = rs.length
  nested : Nested rs'
  steady : innermostClosed rs' = false → (ByteSource.api src').close = (ByteSource.api src).close
  closed : innermostClosed rs = true → innermostClosed rs' = true
  once : es.count (.call .close) =
    (innermostClosed rs' && !innermostClosed rs && (ByteSource.api src).close).toNat

theorem Kept.refl {rs : List Reader} (h : Nested rs) (src : σ) : Kept rs src [] rs src :=
  ⟨rfl, h, fun _ => rfl, id, by cases innermostClosed rs <;> rfl⟩

theorem Kept.trans {rs mid rs' : List Reader} {src smid src' : σ} {es fs : List Event} (h : Kept rs src es mid smid)
    (k : Kept mid smid fs rs' src') : Kept rs src (es ++ fs) rs' src' where
  length := k.length.trans h.length
  nested := k.nested
  steady hopen := by
    have hmid : innermostClosed mid = false := by
      cases hm : innermostClosed mid with
      | false => rfl
      | true => rw [k.closed hm] at hopen; cases hopen
    exact (k.steady hopen).trans (h.steady hmid)
  closed hc := k.closed (h.closed hc)
  once := by
    -- The innermost reader is closed in one of the two parts at most, and only that part closes the source.
    rw [List.count_append, h.once, k.once]
    cases hm : innermostClosed mid with
    | false =>
      have hrs : innermostClosed rs = false := by
        cases hr : innermostClosed rs with
        | false => rfl
        | true => rw [h.closed hr] at hm; cases hm
      simp [hrs, h.steady hm]
    | true => simp [k.closed hm]

theorem moveAt_kept (hs : ByteSource.Steady σ) {rs : List Reader} (h : Nested rs) {src : σ} {d : Nat}
    (hd : d < rs.length) {m : Move} {turn : Turn (Stack σ × Option Buffer) Value}
    (ht : (readers rs src).moveAt (d, m) = some turn) :
    ∃ rs' src', turn.state.1 = readers rs' src' ∧ Kept rs src turn.events rs' src' := by
  by_cases hm : m = .plain .close
  · subst hm
    rw [moveAt_close h] at ht
    cases ht
    have hne := drop_ne_nil hd
    have hbefore : innermostClosed rs = (rs.drop d).any Reader.closed := by
      rw [← (h.drop d).innermost hne, ← innermostClosed_append (rs.take d) hne, List.take_append_drop]
    have hafter : innermostClosed (rs.take d ++ (rs.drop d).map Reader.shut) = true := by
      rw [innermostClosed_append _ (by simpa using hne), innermostClosed_shut hne]
    refine ⟨_, _, rfl, ?_, h.shut_from d, fun hopen => ?_, fun _ => hafter, ?_⟩
    · simp only [List.length_append, List.length_take, List.length_map, List.length_drop]
      omega
    · rw [hafter] at hopen
      cases hopen
    · rw [hafter, hbefore, closing, closeSource]
      cases (rs.drop d).any Reader.closed <;> cases (ByteSource.api src).close <;> rfl
  · obtain ⟨rs', src', hstate, hclosed, hclose, hevents⟩ := moveAt_reads hs hd hm ht
    have hsame := innermostClosed_eq hclosed
    refine ⟨rs', src', hstate, ?_, ?_, fun _ => hclose, fun hc => hsame.trans hc, ?_⟩
    · simpa using congrArg List.length hclosed
    · rw [Nested, hclosed]
      exact h
    · rw [hsame, List.count_eq_zero.2 hevents]
      cases innermostClosed rs <;> simp

theorem play_kept (hs : ByteSource.Steady σ) {rs : List Reader} (h : Nested rs) {src : σ} {ms : List (Nat × Move)}
    (hd : ∀ x ∈ ms, x.1 < rs.length) {turns : List (Turn (Stack σ × Option Buffer) Value)} {t : Stack σ}
    (hp : play moveAt (readers rs src) ms = some (turns, t)) :
    ∃ rs' src', t = readers rs' src' ∧ Kept rs src (turns.flatMap Turn.events) rs' src' := by
  induction ms generalizing rs src turns with
  | nil =>
    cases hp
    exact ⟨rs, src, rfl, .refl h src⟩
  | cons x ms ih =>
    obtain ⟨turn, rest, hturn, hrest, rfl⟩ := play_cons.1 hp
    obtain ⟨hx, hms⟩ := List.forall_mem_cons.1 hd
    obtain ⟨mid, smid, hstate, hkept⟩ := moveAt_kept hs h hx hturn
    rw [hstate] at hrest
    obtain ⟨rs', src', rfl, hlater⟩ := ih hkept.nested (by simpa only [hkept.length] using hms) hrest
    exact ⟨rs', src', rfl, hkept.trans hlater⟩

theorem request_blocked {rs : List Reader} (h : ∃ r ∈ rs, r.closed = true) (src : σ) {b : Buffer} (hb : b.size ≠ 0) :
    ∃ f rs', f.kind = .readerClosed ∧ (readers rs src).request b = ⟨.error f, b, readers rs' src, []⟩ := by
  induction rs with
  | nil => simp at h
  | cons r rs ih =>
    cases hr : r.refusal with
    | some f => exact ⟨f, r :: rs, Reader.refusal_readerClosed hr, request_refused hr _ _ b⟩
    | none =>
      have hbelow : ∃ q ∈ rs, q.closed = true := by
        obtain ⟨q, hq, hc⟩ := h
        rcases List.mem_cons.1 hq with rfl | hq
        · rw [(Reader.refusal_eq_none_iff.1 hr).1] at hc
          cases hc
        · exact ⟨q, hq, hc⟩
      obtain ⟨f, rs', hf, hreq⟩ := ih hbelow
      have hout : ((readers rs src).request b).outcome = .error f := by rw [hreq]
      refine ⟨f, r.after f :: rs', hf, ?_⟩
      have hpush := request_push hr hb (readers rs src)
      rw [Reader.atop_error hout, hreq] at hpush
      exact hpush

theorem readInto_over_closed {r : Reader} (hopen : r.refusal = none) {rs : List Reader}
    (h : ∃ q ∈ rs, q.closed = true) (src : σ) {b : Buffer} (hb : b.size ≠ 0) :
    ∃ f rs', f.kind = .readerClosed ∧
      (readers (r :: rs) src).readInto b = ⟨.error f, b, readers (r.fail :: rs') src, []⟩ := by
  obtain ⟨f, rs', hf, hreq⟩ := request_blocked h src hb
  have hends : f.endsStream = true := by simp [Failure.endsStream, hf]
  have hout : ((readers rs src).request b).outcome = .error f := by rw [hreq]
  have hpush := request_push hopen hb (readers rs src)
  rw [Reader.atop_error hout, hreq, Reader.after_of_endsStream hends] at hpush
  refine ⟨f, rs', hf, ?_⟩
  have hreaders : readers (r :: rs) src = (readers rs src).push (.reader r) := rfl
  rw [readInto_layered (by simp [readers]), hreaders, hpush]
  rfl

theorem readInto_blocked {rs : List Reader} {d : Nat} {r : Reader} (hr : rs[d]? = some r) (hopen : r.refusal = none)
    (h : ∃ q ∈ rs.drop (d + 1), q.closed = true) (src : σ) {b : Buffer} (hb : b.size ≠ 0) :
    ∃ f rs', f.kind = .readerClosed ∧ rs'[d]?.map Reader.state = some .failed ∧
      (readers rs src).moveAt (d, .plain (.readInto (some b))) =
        some ⟨.error f, (readers rs' src, some b), []⟩ := by
  obtain ⟨hd, rfl⟩ := List.getElem?_eq_some_iff.1 hr
  have hdrop := List.drop_eq_getElem_cons hd
  obtain ⟨f, below, hf, hread⟩ := readInto_over_closed hopen h src hb
  refine ⟨f, rs.take d ++ rs[d].fail :: below, hf, ?_, ?_⟩
  · have hlen : (rs.take d).length = d := List.length_take_of_le (by omega)
    rw [List.getElem?_append_right (by omega), hlen, Nat.sub_self]
    rfl
  · rw [moveAt_readers, hdrop]
    simp only [move, operate, hread, Option.map_some]
    simp only [readers, List.map_append]
    rfl

theorem closing_closed {rs : List Reader} (h : Nested rs) {d : Nat} {r : Reader} (hr : rs[d]? = some r)
    (hc : r.closed = true) (src : σ) : closing rs src d = ⟨.ok .none, (readers rs src, none), []⟩ := by
  obtain ⟨hd, rfl⟩ := List.getElem?_eq_some_iff.1 hr
  have hdrop := List.drop_eq_getElem_cons hd
  have hnested := h.drop d
  rw [hdrop] at hnested
  have hshut : (rs.drop d).map Reader.shut = rs.drop d := by
    rw [hdrop, List.map_cons, Reader.shut_of_closed hc, hnested.map_shut hc]
  have hany : (rs.drop d).any Reader.closed = true := by
    rw [hdrop, List.any_cons, hc, Bool.true_or]
  simp only [closing, hshut, hany, List.take_append_drop, closeSource, Bool.true_or, if_true]
  rfl

theorem use_exit {w : Workspace} {id below : Nat} {l : Located} {r : Reader} {a : Action}
    (hl : locate w.objects id = some l) (ha : a = .close ∨ a = .exit) :
    ∃ turn, l.stack.move (.plain .close) = some turn ∧
      (w.use id (.reader r below) a).step =
        ⟨turn.outcome, w.putBack l turn.state.1, turn.events.filterMap (Entry.ofEvent? l.source)⟩ := by
  refine ⟨_, rfl, ?_⟩
  rcases ha with rfl | rfl <;> exact Workspace.runAs_located hl _ close

theorem close_reaches_source_once (hs : ByteSource.Steady σ) {rs : List Reader} {src : σ}
    (hopen : ∀ r ∈ rs, r.closed = false) {ms : List (Nat × Move)} (hd : ∀ x ∈ ms, x.1 < rs.length)
    {turns : List (Turn (Stack σ × Option Buffer) Value)} {t : Stack σ}
    (hp : play moveAt (readers rs src) ms = some (turns, t)) :
    ∃ rs' src', t = readers rs' src' ∧ rs'.length = rs.length ∧ Nested rs' ∧
      (turns.flatMap Turn.events).count (.call .close) =
        (innermostClosed rs' && (ByteSource.api src).close).toNat ∧
      (∀ d, t.moveAt (d, .plain .close) = some (closing rs' src' d)) ∧
      (∀ d r, rs'[d]? = some r → r.closed = true →
        t.moveAt (d, .plain .close) = some ⟨.ok .none, (t, none), []⟩) ∧
      (∀ d r b, rs'[d]? = some r → r.refusal = none → (∃ q ∈ rs'.drop (d + 1), q.closed = true) → b.size ≠ 0 →
        ∃ f rs'', f.kind = .readerClosed ∧ rs''[d]?.map Reader.state = some .failed ∧
          t.moveAt (d, .plain (.readInto (some b))) = some ⟨.error f, (readers rs'' src', some b), []⟩) ∧
      ∀ (w : Workspace) (id below : Nat) (l : Located) (r : Reader) (a : Action), locate w.objects id = some l →
        a = .close ∨ a = .exit → ∃ turn, l.stack.move (.plain .close) = some turn ∧
          (w.use id (.reader r below) a).step =
            ⟨turn.outcome, w.putBack l turn.state.1, turn.events.filterMap (Entry.ofEvent? l.source)⟩ := by
  obtain ⟨rs', src', rfl, hkept⟩ := play_kept hs (.of_open hopen) hd hp
  have hstart : innermostClosed rs = false := by
    by_cases hne : rs = []
    · rw [hne]
      rfl
    · rw [(Nested.of_open hopen).innermost hne, List.any_eq_false]
      exact fun r hr => by simp [hopen r hr]
  refine ⟨rs', src', rfl, hkept.length, hkept.nested, ?_, moveAt_close hkept.nested src', ?_, ?_,
    fun w id below l r a hl ha => use_exit hl ha⟩
  · rw [hkept.once, hstart, Bool.not_false, Bool.and_true]
  · intro d r hr hc
    rw [moveAt_close hkept.nested, closing_closed hkept.nested hr hc]
  · intro d r b hr hrefusal hbelow hb
    exact readInto_blocked hr hrefusal hbelow src' hb

def unclosable : Script :=
  { api := {}, items := [.data [1, 2] none], closeFails := true }

theorem close_reaches_source_once_failing :
    ∃ turns t rs' src', play moveAt (readers [.bound 3, .bound 4, .bound 5] unclosable)
        [(0, .plain (.read 1)), (1, .plain .close), (0, .plain .close), (2, .plain .close)] = some (turns, t) ∧
      t = readers rs' src' ∧ turns.map (fun turn => turn.outcome.isOk) = [true, false, true, true] ∧
      (turns.flatMap Turn.events).count (.call .close) = 1 ∧ innermostClosed rs' = true ∧
      t.moveAt (1, .plain .close) = some (closing rs' src' 1) := by
  obtain ⟨turns, t, hplay, houtcomes, honce⟩ : ∃ turns t,
      play moveAt (readers [.bound 3, .bound 4, .bound 5] unclosable)
        [(0, .plain (.read 1)), (1, .plain .close), (0, .plain .close), (2, .plain .close)] = some (turns, t) ∧
      turns.map (fun turn => turn.outcome.isOk) = [true, false, true, true] ∧
      (turns.flatMap Turn.events).count (.call .close) = 1 := ⟨_, _, rfl, rfl, rfl⟩
  obtain ⟨rs', src', ht, -, -, hcount, hclose, -⟩ :=
    close_reaches_source_once Script.steady (by decide) (by decide) hplay
  refine ⟨turns, t, rs', src', hplay, ht, houtcomes, honce, ?_, hclose 1⟩
  rw [honce] at hcount
  cases hi : innermostClosed rs' with
  | true => rfl
  | false =>
    rw [hi] at hcount
    cases hcount

end Stack

end StreamGuard
