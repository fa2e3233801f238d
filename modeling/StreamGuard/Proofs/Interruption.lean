import StreamGuard.Proofs.Moves
import StreamGuard.Sources.Script

/-!
Sources that fail under a stack of open layers. Main statement: a failure of input and output ends every reader of the
stack and any other failure leaves no trace in it, so failures of the second kind that come between the items of a
script cost nothing but the requests that meet them.
-/

namespace StreamGuard

/-- A request beside the request `x` to another, which is at `t`: it meets the next of the failures `fs`, which are in
between, and nothing has happened, or it is answered as `x` is. `J` holds between the two afterwards. -/
inductive Meets {τ τ' α : Type} (J : List Failure → τ → τ' → Prop) (fs : List Failure) (t : τ) (b : Buffer)
    (x : Fill τ α) : Fill τ' α → Prop
  | hit {f : Failure} {fs' : List Failure} {t' : τ'} {es : List Event} (hf : fs = f :: fs') (ht : J fs' t t') :
      Meets J fs t b x ⟨.error f, b, t', es⟩
  | same {t' : τ'} {es : List Event} (ht : J fs x.state t') : Meets J fs t b x ⟨x.outcome, x.buffer, t', es⟩

def Interrupts {τ τ' : Type} (ask : τ → Buffer → Fill τ Int) (ask' : τ' → Buffer → Fill τ' Int)
    (J : List Failure → τ → τ' → Prop) : Prop :=
  ∀ fs t t' b, J fs t t' → Meets J fs t b (ask t b) (ask' t' b)

namespace Origin

variable {σ : Type} [ByteSource σ]

inductive Raises (b : Buffer) (f : Failure) : Origin σ → Prop
  | filling {s : σ} (ha : (ByteSource.api s).readInto = true) (h : (ByteSource.readInto s b).outcome = .error f) :
      Raises b f (.direct s)
  | reading {s : σ} (ha : (ByteSource.api s).readInto = false) (hr : (ByteSource.api s).read = true)
      (h : (ByteSource.read s b.items).outcome = .error f) : Raises b f (.direct s)
  | remote {r : Remote} {s : σ} (h : (supplyRemote r s b).outcome = .error f) : Raises b f (.remote r s)

theorem Raises.supply {o : Origin σ} {b : Buffer} {f : Failure} (h : o.Raises b f) (intake : Intake) :
    (o.supply intake b).outcome = .error f := by
  cases h with
  | filling ha h => simp [Origin.supply, supplyDirect, ha, h, countOf]
  | reading ha hr h => simp [Origin.supply, supplyDirect, ha, hr, copy, h, Except.map]
  | remote h => simp [Origin.supply, h]

end Origin

namespace Layer

def Open : Layer → Prop
  | reader r => r.refusal = none
  | file a => a.attached = true

def after (f : Failure) : Layer → Layer
  | reader r => reader (r.after f)
  | file a => file a

def count? : Layer → Option Int
  | reader r =>
    match r.check with
    | .bound c => some c.received
    | .digest _ => none
  | file a => some a.bytesRead

variable {f : Failure}

theorem after_of_not_endsStream (h : f.endsStream = false) (l : Layer) : l.after f = l := by
  cases l with
  | reader r => exact congrArg reader (Reader.after_of_not_endsStream h)
  | file a => rfl

theorem failed_of_after (h : f.endsStream = true) {l : Layer} {r : Reader} (hr : l.after f = .reader r) :
    r.state = .failed := by
  cases l with
  | reader r' =>
    rw [after, Reader.after_of_endsStream h] at hr
    cases hr
    rfl
  | file a => cases hr

theorem count?_after (f : Failure) (l : Layer) : (l.after f).count? = l.count? := by
  cases l with
  | reader r =>
    obtain ⟨check, state, closed⟩ := r
    simp only [after, Reader.after]
    cases f.endsStream <;> cases check <;> rfl
  | file a => rfl

end Layer

namespace Stack

variable {σ : Type} [ByteSource σ]

theorem serve_raised {layers : List Layer} (hl : ∀ l ∈ layers, l.Open) {o : Origin σ} {b : Buffer} (hb : b.size ≠ 0)
    {f : Failure} (h : o.Raises b f) (intake : Intake) :
    (serve intake layers o b).outcome = .error f ∧
      (serve intake layers o b).state.layers = layers.map (Layer.after f) := by
  induction layers generalizing intake with
  | nil => exact ⟨h.supply intake, rfl⟩
  | cons l below ih =>
    have hopen : l.Open := hl l List.mem_cons_self
    have hbelow := ih fun l hl' => hl l (List.mem_cons_of_mem _ hl')
    cases l with
    | reader r =>
      obtain ⟨hout, hlayers⟩ := hbelow .checked
      rw [serve_open hopen hb, Reader.atop_error hout]
      exact ⟨rfl, congrArg (Layer.reader (r.after f) :: ·) hlayers⟩
    | file a =>
      obtain ⟨hout, hlayers⟩ := hbelow .unchecked
      have hattached : a.attached = true := hopen
      simp only [serve, hattached, if_true, FileAdapter.atop, hout]
      exact ⟨trivial, congrArg (Layer.file a :: ·) hlayers⟩

end Stack

namespace Script

structure Interrupted (fs : List Failure) (s s' : Script) : Prop where
  api : s'.api = s.api
  items : Interleaves s.items (fs.map .failure) s'.items

namespace Interrupted

variable {fs : List Failure} {s s' : Script}

theorem rest {items items' : List Item} {ys : List Item} (h : Interleaves items ys items') (bytes : Bytes) (n : Nat) :
    Interleaves (rest bytes n items) ys (rest bytes n items') := by
  by_cases hn : bytes.length ≤ n
  · rwa [rest_of_length_le items hn, rest_of_length_le items' hn]
  · rw [rest_of_lt items (by omega), rest_of_lt items' (by omega)]
    exact .left h

theorem next (h : Interrupted fs s s') :
    (∃ f fs' items', fs = f :: fs' ∧ s'.items = .failure f :: items' ∧ Interrupted fs' s { s' with items := items' }) ∨
      (∃ item items items', s.items = item :: items ∧ s'.items = item :: items' ∧
        Interleaves items (fs.map .failure) items') ∨
      s.items = [] ∧ s'.items = [] := by
  obtain ⟨ha, hi⟩ := h
  generalize hx : s.items = xs at hi
  generalize hy : fs.map Item.failure = ys at hi
  generalize hz : s'.items = zs at hi
  cases hi with
  | nil => exact .inr (.inr ⟨rfl, rfl⟩)
  | left hi => exact .inr (.inl ⟨_, _, _, rfl, rfl, hi⟩)
  | right hi =>
    obtain ⟨f, fs', rfl, rfl, rfl⟩ := List.map_eq_cons_iff.1 hy
    refine .inl ⟨f, fs', _, rfl, rfl, ha, ?_⟩
    rwa [hx]

theorem readInto (h : Interrupted fs s s') (b : Buffer) :
    (∃ f fs' t', fs = f :: fs' ∧ s'.readInto b = ⟨.error f, b, t'⟩ ∧ Interrupted fs' s t') ∨
      (s'.readInto b).outcome = (s.readInto b).outcome ∧ (s'.readInto b).buffer = (s.readInto b).buffer ∧
        Interrupted fs (s.readInto b).source (s'.readInto b).source := by
  rcases h.next with ⟨f, fs', items', rfl, hi, hnext⟩ | ⟨item, items, items', hs, hs', hi⟩ | ⟨hs, hs'⟩
  · exact .inl ⟨f, fs', _, rfl, by simp only [Script.readInto, hi], hnext⟩
  · right
    cases item with
    | data bytes count =>
      simp only [Script.readInto, hs, hs', fill]
      cases b.put (bytes.take b.size) <;> exact ⟨rfl, rfl, h.api, rest hi bytes b.size⟩
    | raw bytes =>
      simp only [Script.readInto, hs, hs', fill]
      cases b.put (bytes.take b.size) <;> exact ⟨rfl, rfl, h.api, hi⟩
    | text | nothing | failure =>
      simp only [Script.readInto, hs, hs']
      exact ⟨trivial, trivial, h.api, hi⟩
  · right
    simp only [Script.readInto, hs, hs', fill]
    cases b.put [] <;> exact ⟨rfl, rfl, h⟩

theorem read (h : Interrupted fs s s') (n : Nat) :
    (∃ f fs' t', fs = f :: fs' ∧ s'.read n = ⟨.error f, t'⟩ ∧ Interrupted fs' s t') ∨
      (s'.read n).outcome = (s.read n).outcome ∧ Interrupted fs (s.read n).source (s'.read n).source := by
  rcases h.next with ⟨f, fs', items', rfl, hi, hnext⟩ | ⟨item, items, items', hs, hs', hi⟩ | ⟨hs, hs'⟩
  · exact .inl ⟨f, fs', _, rfl, by simp only [Script.read, hi], hnext⟩
  · right
    cases item with
    | data bytes count =>
      simp only [Script.read, hs, hs']
      exact ⟨trivial, h.api, rest hi bytes n⟩
    | raw | text | nothing | failure =>
      simp only [Script.read, hs, hs']
      exact ⟨trivial, h.api, hi⟩
  · right
    simp only [Script.read, hs, hs']
    exact ⟨trivial, h⟩

end Interrupted

end Script

namespace Origin

inductive Interrupted (fs : List Failure) : Origin Script → Origin Script → Prop
  | direct {s s' : Script} (h : Script.Interrupted fs s s') : Interrupted fs (.direct s) (.direct s')

theorem copy_meets {fs : List Failure} {s s' : Script} (h : Script.Interrupted fs s s') (intake : Intake)
    (b : Buffer) : Meets Script.Interrupted fs s b (copy intake s b) (copy intake s' b) := by
  rcases h.read b.items with ⟨f, fs', t', hf, hread, ht⟩ | ⟨hout, ht⟩
  · simp only [copy, ByteSource.read, hread]
    exact .hit hf ht
  · simp only [copy, ByteSource.read, hout]
    cases (s.read b.items).outcome <;> exact .same ht

theorem interrupts (intake : Intake) : Interrupts (supply intake) (supply intake) Interrupted := by
  rintro fs _ _ b ⟨h⟩
  rename_i s s'
  have hapi : ByteSource.api s' = ByteSource.api s := h.api
  simp only [supply, supplyDirect, hapi]
  by_cases hinto : (ByteSource.api s).readInto = true
  · simp only [hinto, if_true]
    rcases h.readInto b with ⟨f, fs', t', hf, hread, ht⟩ | ⟨hout, hbuf, ht⟩
    · simp only [ByteSource.readInto, hread, countOf]
      exact .hit hf (.direct ht)
    · simp only [ByteSource.readInto, hout, hbuf]
      exact .same (.direct ht)
  · by_cases hread : (ByteSource.api s).read = true
    · simp only [hinto, hread, if_true]
      have hcopy := copy_meets h intake b
      generalize copy intake s b = x at hcopy ⊢
      generalize copy intake s' b = y at hcopy ⊢
      cases hcopy with
      | hit hf ht => exact .hit hf (.direct ht)
      | same ht => exact .same (.direct ht)
    · simp only [hinto, hread]
      exact .same (.direct h)

end Origin

namespace Stack

structure Over {σ σ' : Type} (J : List Failure → Origin σ → Origin σ' → Prop) (fs : List Failure) (s : Stack σ)
    (s' : Stack σ') : Prop where
  layers : s'.layers = s.layers
  transient : ∀ f ∈ fs, f.endsStream = false
  origin : J fs s.origin s'.origin

theorem Over.push {σ σ' : Type} {J : List Failure → Origin σ → Origin σ' → Prop} {fs : List Failure} {s : Stack σ}
    {s' : Stack σ'} (h : Over J fs s s') (l : Layer) : Over J fs (s.push l) (s'.push l) :=
  ⟨congrArg (l :: ·) h.layers, h.transient, h.origin⟩

structure Exchange where
  asked : Buffer
  outcome : Except Failure (Option Int)
  buffer : Buffer
  before : List Layer
  after : List Layer

section

variable {σ : Type} [ByteSource σ]

def exchanges (s : Stack σ) : List Buffer → List Exchange
  | [] => []
  | b :: bs =>
    ⟨b, (s.readInto b).outcome, (s.readInto b).buffer, s.layers, (s.readInto b).state.layers⟩ ::
      exchanges (s.readInto b).state bs

/-- The second run is the first one with requests in between that meet the first few of `fs`, in this order, and leave
the buffer and the layers as they are. -/
def Repeated (fs : List Failure) (run run' : List Exchange) : Prop :=
  ∃ hits, Interleaves run hits run' ∧ hits.map Exchange.outcome = (fs.take hits.length).map .error ∧
    ∀ x ∈ hits, x.buffer = x.asked ∧ x.after = x.before

namespace Repeated

variable {fs : List Failure} {run run' : List Exchange}

theorem nil (fs : List Failure) : Repeated fs [] [] :=
  ⟨[], .nil, rfl, by simp⟩

theorem same (h : Repeated fs run run') (x : Exchange) : Repeated fs (x :: run) (x :: run') := by
  obtain ⟨hits, hi, hrest⟩ := h
  exact ⟨hits, .left hi, hrest⟩

theorem hit (h : Repeated fs run run') (f : Failure) (b : Buffer) (layers : List Layer) :
    Repeated (f :: fs) run (⟨b, .error f, b, layers, layers⟩ :: run') := by
  obtain ⟨hits, hi, hout, hhits⟩ := h
  exact ⟨_, .right hi, by simp [hout], by simpa using hhits⟩

end Repeated

end

section

variable {σ σ' : Type} [ByteSource σ] [ByteSource σ'] {J : List Failure → Origin σ → Origin σ' → Prop}
  (hJ : ∀ intake, Interrupts (Origin.supply intake) (Origin.supply intake) J)

include hJ

theorem serve_meets {fs : List Failure} (hfs : ∀ f ∈ fs, f.endsStream = false) {o : Origin σ} {o' : Origin σ'}
    (h : J fs o o') (layers : List Layer) (intake : Intake) (b : Buffer) :
    Meets (Over J) fs ⟨layers, o⟩ b (serve intake layers o b) (serve intake layers o' b) := by
  -- By the layers: a failure in between ends no stream, so every layer passes it on and stays as it is.
  induction layers generalizing intake with
  | nil =>
    have hsupply := hJ intake fs o o' b h
    simp only [serve]
    generalize o.supply intake b = x at hsupply ⊢
    generalize o'.supply intake b = y at hsupply ⊢
    cases hsupply with
    | hit hf ht => exact .hit hf ⟨rfl, fun f hf' => hfs f (by simp [hf, hf']), ht⟩
    | same ht => exact .same ⟨rfl, hfs, ht⟩
  | cons l below ih =>
    cases l with
    | reader r =>
      cases hr : r.refusal with
      | some f =>
        simp only [serve_refused hr]
        exact .same ⟨rfl, hfs, h⟩
      | none =>
        by_cases hb : b.size = 0
        · simp only [serve_empty hr hb]
          exact .same ⟨rfl, hfs, h⟩
        · simp only [serve_open hr hb]
          have hbelow := ih .checked
          generalize serve .checked below o b = x at hbelow ⊢
          generalize serve .checked below o' b = y at hbelow ⊢
          obtain ⟨outcome, buffer, state, events⟩ := x
          cases hbelow with
          | @hit f fs' t' es hf ht =>
            have hy : r.atop ⟨.error f, b, t', es⟩ = _ := Reader.atop_error rfl
            rw [hy, Reader.after_of_not_endsStream (hfs f (by simp [hf]))]
            exact .hit hf (ht.push (.reader r))
          | same ht =>
            cases outcome with
            | error f =>
              rw [Reader.atop_error rfl, Reader.atop_error rfl]
              exact .same (ht.push _)
            | ok count =>
              rw [Reader.atop_ok rfl, Reader.atop_ok rfl]
              exact .same (ht.push _)
    | file a =>
      simp only [serve]
      by_cases ha : a.attached = true
      · simp only [ha, if_true]
        have hbelow := ih .unchecked
        generalize serve .unchecked below o b = x at hbelow ⊢
        generalize serve .unchecked below o' b = y at hbelow ⊢
        cases hbelow with
        | hit hf ht => exact .hit hf (ht.push (.file a))
        | same ht => exact .same (ht.push _)
      · simp only [ha]
        exact .same ⟨rfl, hfs, h⟩

variable {fs : List Failure} {s : Stack σ} {s' : Stack σ'} (h : Over J fs s s') (hl : s.layers ≠ [])

include h hl

theorem readInto_meets (b : Buffer) : Meets (Over J) fs s b (s.readInto b) (s'.readInto b) := by
  have hserve := serve_meets hJ h.transient h.origin s.layers .checked b
  rw [readInto_layered hl, readInto_layered (by rwa [h.layers]), request, request, h.layers]
  generalize serve .checked s.layers s.origin b = x at hserve ⊢
  generalize serve .checked s.layers s'.origin b = y at hserve ⊢
  cases hserve with
  | hit hf ht => exact .hit hf ht
  | same ht => exact .same ht

theorem exchanges_repeat (bs' : List Buffer) : ∃ bs, Repeated fs (exchanges s bs) (exchanges s' bs') := by
  induction bs' generalizing fs s s' with
  | nil => exact ⟨[], .nil fs⟩
  | cons b bs' ih =>
    have hmeets := readInto_meets hJ h hl b
    simp only [exchanges]
    generalize s'.readInto b = y at hmeets ⊢
    cases hmeets with
    | hit hf ht =>
      subst hf
      obtain ⟨bs, hbs⟩ := ih ht hl
      refine ⟨bs, ?_⟩
      rw [h.layers, ht.layers]
      exact hbs.hit _ b s.layers
    | same ht =>
      obtain ⟨bs, hbs⟩ := ih ht (readInto_state_layered hl b)
      refine ⟨b :: bs, ?_⟩
      rw [h.layers, ht.layers]
      exact hbs.same _

theorem exchanges_repeated (bs : List Buffer) : ∃ bs', Repeated fs (exchanges s bs) (exchanges s' bs') := by
  induction bs generalizing fs s s' with
  | nil => exact ⟨[], .nil fs⟩
  | cons b bs ih =>
    have hsame : ∀ {fs s' t' es}, Over J fs s s' → Over J fs (s.readInto b).state t' →
        s'.readInto b = ⟨(s.readInto b).outcome, (s.readInto b).buffer, t', es⟩ →
        ∃ bs', Repeated fs (exchanges s (b :: bs)) (exchanges s' bs') := by
      intro fs s' t' es h ht hy
      obtain ⟨bs', hbs'⟩ := ih ht (readInto_state_layered hl b)
      refine ⟨b :: bs', ?_⟩
      simp only [exchanges, hy, h.layers, ht.layers]
      exact hbs'.same _
    -- The request is made again for as long as it meets failures that are in between.
    induction fs generalizing s' with
    | nil =>
      have hmeets := readInto_meets hJ h hl b
      generalize hy : s'.readInto b = y at hmeets
      cases hmeets with
      | hit hf => cases hf
      | same ht => exact hsame h ht hy
    | cons f fs again =>
      have hmeets := readInto_meets hJ h hl b
      generalize hy : s'.readInto b = y at hmeets
      cases hmeets with
      | @hit _ _ t' _ hf ht =>
        cases hf
        obtain ⟨bs', hbs'⟩ := again ht
        have hrun : exchanges s' (b :: bs') = ⟨b, .error f, b, s.layers, s.layers⟩ :: exchanges t' bs' := by
          rw [exchanges, hy, h.layers, ht.layers]
        exact ⟨b :: bs', hrun ▸ hbs'.hit f b s.layers⟩
      | same ht => exact hsame h ht hy

end

section

variable {σ σ' : Type} [ByteSource σ] [ByteSource σ']

theorem source_failure_terminal_or_traceless :
    (∀ {s : Stack σ}, s.layers ≠ [] → (∀ l ∈ s.layers, l.Open) → ∀ {b : Buffer}, b.size ≠ 0 →
      ∀ {f}, s.origin.Raises b f → (s.readInto b).outcome = .error f ∧
        (f.endsStream = true → ∀ r, .reader r ∈ (s.readInto b).state.layers → r.state = .failed) ∧
        (f.endsStream = false → (s.readInto b).state.layers = s.layers) ∧
        (s.readInto b).state.layers.map Layer.count? = s.layers.map Layer.count?) ∧
    (∀ {J : List Failure → Origin σ → Origin σ' → Prop},
      (∀ intake, Interrupts (Origin.supply intake) (Origin.supply intake) J) → ∀ {fs s s'}, Over J fs s s' →
        s.layers ≠ [] → (∀ bs', ∃ bs, Repeated fs (exchanges s bs) (exchanges s' bs')) ∧
          ∀ bs, ∃ bs', Repeated fs (exchanges s bs) (exchanges s' bs')) ∧
    ∀ intake, Interrupts (Origin.supply intake) (Origin.supply intake) Origin.Interrupted := by
  refine ⟨?_, fun hJ _ _ _ h hl => ⟨exchanges_repeat hJ h hl, exchanges_repeated hJ h hl⟩, Origin.interrupts⟩
  intro s hl hopen b hb f hf
  obtain ⟨hout, hlayers⟩ := serve_raised hopen hb hf .checked
  have hread := readInto_layered hl b
  simp only [request, hout] at hread
  rw [hread]
  refine ⟨rfl, fun he r hr => ?_, fun he => ?_, ?_⟩
  · rw [hlayers] at hr
    obtain ⟨l, -, hl⟩ := List.mem_map.1 hr
    exact Layer.failed_of_after he hl
  · rw [hlayers, funext (Layer.after_of_not_endsStream he), List.map_id']
  · rw [hlayers, List.map_map]
    exact List.map_congr_left fun l _ => l.count?_after f

theorem source_failure_terminal_or_traceless_hiccup :
    let layers := [Layer.reader (.digest []), .file { bytesRead := 7 }, .reader (.bound 3)]
    let calm : Stack Script := ⟨layers, .direct { api := {}, items := [.data [1, 2] none, .data [3] none] }⟩
    let hiccup : Failure := .raised .runtime "hiccup"
    let uneasy : Stack Script :=
      ⟨layers, .direct { api := {}, items := [.data [1, 2] none, .failure hiccup, .data [3] none] }⟩
    let torn : Stack Script := ⟨layers, .direct { api := {}, items := [.failure .closedSource] }⟩
    (∃ bs, Repeated [hiccup] (exchanges calm bs) (exchanges uneasy [.zeroed 2, .zeroed 2, .zeroed 2])) ∧
      ∀ r, .reader r ∈ (torn.readInto (.zeroed 2)).state.layers → r.state = .failed := by
  intro layers calm hiccup uneasy torn
  obtain ⟨hraised, hrepeat, hscript⟩ := @source_failure_terminal_or_traceless Script Script _ _
  have hover : Over Origin.Interrupted [hiccup] calm uneasy :=
    ⟨rfl, by decide, .direct ⟨rfl, .left (.right (.left .nil))⟩⟩
  have htorn : torn.origin.Raises (.zeroed 2) .closedSource := .filling rfl rfl
  have hopen : ∀ l ∈ torn.layers, l.Open := by
    simp only [torn, layers, List.forall_mem_cons]
    exact ⟨rfl, rfl, rfl, by simp⟩
  exact ⟨(hrepeat hscript hover (by simp [calm, layers])).1 _,
    (hraised (by simp [torn, layers]) hopen (by simp) htorn).2.1 rfl⟩

end

end Stack

end StreamGuard
