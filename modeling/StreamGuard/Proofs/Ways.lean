import StreamGuard.Action
import StreamGuard.Proofs.Cues
import StreamGuard.Proofs.Lifecycle
import StreamGuard.Proofs.Termination
import StreamGuard.Proofs.Verdict

namespace StreamGuard

theorem Buffer.Whole.usable {b : Buffer} (h : b.Whole) (hw : b.writable = true) (hs : b.size ≠ 0) : b.Usable := by
  refine ⟨hw, fun hi => hs ?_⟩
  rw [← h, hi, Nat.zero_mul]

theorem map_append_inj {D : Bytes} {x y : Except Failure Bytes} (h : x.map (D ++ ·) = y.map (D ++ ·)) : x = y := by
  cases x with
  | error f =>
    cases y with
    | error g => exact congrArg Except.error (Except.error.inj h)
    | ok bs => cases h
  | ok bs =>
    cases y with
    | error g => cases h
    | ok bs' => exact congrArg Except.ok (List.append_cancel_left (Except.ok.inj h))

def ReaderState.after : Except Failure Bytes → ReaderState
  | .ok _ => .succeeded
  | .error f => if f.endsStream then .failed else .streaming

theorem ReaderState.after_map (outcome : Except Failure Bytes) (g : Bytes → Bytes) :
    after (outcome.map g) = after outcome := by
  cases outcome <;> rfl

inductive Way
  | toEnd (chunk : Int)
  | all
  | repeated (size : Nat)

def Way.Fair : Way → Prop
  | toEnd chunk => 0 < chunk
  | all => True
  | repeated size => 0 < size

inductive Way.Taken : Way → Action → Prop
  | toEnd {chunk : Int} (h : chunk ≤ Buffer.memoryLimit) : Taken (toEnd chunk) (.readToEnd chunk)
  | readAll : Taken all .readAll
  | read : Taken all (.read none)
  | readNegative {n : Int} (hn : n < 0) (hi : Buffer.isIndex n = true) : Taken all (.read (some n))

namespace Stack

variable {σ : Type}

section

variable {ds : List Demand} {c : Bytes} {ending : Option Failure} {outcome outcome' : Except Failure Bytes}
  {states states' : List ReaderState}

theorem Verdict.head?_states (hne : ds ≠ []) (h : Verdict ds c ending outcome states) :
    states.head? = some (.after outcome) := by
  obtain ⟨d, ds', rfl⟩ := List.exists_cons_of_ne_nil hne
  cases h with
  | exceeded => rfl
  | broken => rfl
  | mismatched => rfl
  | passed => rfl

theorem innermost_mismatch {outer outer' inner inner' : List Demand} {e e' : Bytes}
    (h : outer ++ .digest e :: inner = outer' ++ .digest e' :: inner') (he : Sha256.digest c ≠ e)
    (he' : Sha256.digest c ≠ e') (hi : ∀ e, .digest e ∈ inner → Sha256.digest c = e)
    (hi' : ∀ e, .digest e ∈ inner' → Sha256.digest c = e) : e = e' := by
  rcases List.append_eq_append_iff.1 h with ⟨l, -, hl⟩ | ⟨l, -, hl⟩
  · cases l with
    | nil => cases hl; rfl
    | cons d l =>
      cases hl
      exact absurd (hi e' (by simp)) he'
  · cases l with
    | nil => cases hl; rfl
    | cons d l =>
      cases hl
      exact absurd (hi' e (by simp)) he

section

variable (h : Verdict ds c ending outcome states)

include h

theorem Verdict.of_exceeded (hone : ∀ m n, .limit m ∈ ds → .limit n ∈ ds → m = n) {n : Nat} (hn : .limit n ∈ ds)
    (hlt : n < c.length) : outcome = .error (.sizeExceeded n) := by
  cases h with
  | @exceeded outer inner m hd =>
    rw [hone m n (by simp [hd]) hn]
  | broken hl => exact absurd (hl n hn) (Nat.not_le_of_lt hlt)
  | mismatched hl => exact absurd (hl n hn) (Nat.not_le_of_lt hlt)
  | passed _ hm => exact absurd (hm _ hn) (Nat.not_le_of_lt hlt)

theorem Verdict.of_broken (hl : ∀ n, .limit n ∈ ds → c.length ≤ n) {f : Failure} (hf : ending = some f) :
    outcome = .error f := by
  cases h with
  | @exceeded outer inner n hd hn => exact absurd (hl n (by simp [hd])) (Nat.not_le_of_lt hn)
  | broken _ hf' =>
    rw [hf] at hf'
    cases hf'
    rfl
  | mismatched _ hf' => simp [hf] at hf'
  | passed hf' => simp [hf] at hf'

theorem Verdict.agree (hone : ∀ m n, .limit m ∈ ds → .limit n ∈ ds → m = n)
    (h' : Verdict ds c ending outcome' states') : outcome = outcome' := by
  cases h with
  | exceeded hd hn => exact (h'.of_exceeded hone (by simp [hd]) hn).symm
  | broken hl hf => exact (h'.of_broken hl hf).symm
  | @mismatched outer inner e hl hf hd he hi =>
    cases h' with
    | @exceeded outer' inner' n hd' hn => exact absurd (hl n (by simp [hd'])) (Nat.not_le_of_lt hn)
    | broken _ hf' => simp [hf] at hf'
    | mismatched _ _ hd' he' hi' => rw [innermost_mismatch (hd.symm.trans hd') he he' hi hi']
    | passed _ hm => exact absurd (hm (.digest e) (by simp [hd])) he
  | passed hf hm =>
    cases h' with
    | @exceeded outer' inner' n hd' hn => exact absurd (hm (.limit n) (by simp [hd'])) (Nat.not_le_of_lt hn)
    | broken _ hf' => simp [hf] at hf'
    | @mismatched outer' inner' e _ _ hd' he' => exact absurd (hm (.digest e) (by simp [hd'])) he'
    | passed => rfl

end

theorem Verdict.after_ne_streaming (h : Verdict ds c none outcome states) :
    ReaderState.after outcome ≠ .streaming := by
  cases h with
  | broken _ hf => cases hf
  | exceeded | mismatched => exact (by decide : ReaderState.failed ≠ .streaming)
  | passed => exact (by decide : ReaderState.succeeded ≠ .streaming)

end

theorem Topped.state? {s base : Stack σ} {fs : List Reader} (htop : s.Topped fs base) {state : ReaderState}
    (hs : (fs.map Reader.state).head? = some state) : s.state? = some state := by
  obtain _ | ⟨r, fs⟩ := fs
  · cases hs
  · rw [htop]
    exact hs

inductive Ready (ds : List Demand) (P : Stack σ → List Cue → Prop) : Stack σ → Prop
  | streaming {D : Bytes} {base : Stack σ} {cues : List Cue} (hl : ∀ n, .limit n ∈ ds → D.length ≤ n)
      (hbase : P base cues) : Ready ds P (demanding ds D base)
  | refusing {s : Stack σ} {r : Reader} {f : Failure} (hr : s.top? = some r) (hf : r.refusal = some f) : Ready ds P s

theorem Topped.ready {s base : Stack σ} {fs : List Reader} (htop : s.Topped fs base) {state : ReaderState}
    (hs : (fs.map Reader.state).head? = some state) (hne : state ≠ .streaming) {ds : List Demand}
    {P : Stack σ → List Cue → Prop} : Ready ds P s := by
  obtain _ | ⟨r, fs⟩ := fs
  · cases hs
  · have hr : s.top? = some r := by
      rw [htop]
      rfl
    have hstate : r.state = state := Option.some.inj hs
    obtain ⟨f, hf⟩ : ∃ f, r.refusal = some f := by
      apply Option.ne_none_iff_exists'.1
      intro hnone
      exact hne (hstate ▸ (Reader.refusal_eq_none_iff.1 hnone).2)
    exact .refusing hr hf

theorem Ready.top? {ds : List Demand} (hne : ds ≠ []) {P : Stack σ → List Cue → Prop} {s : Stack σ}
    (h : Ready ds P s) : ∃ r, s.top? = some r := by
  cases h with
  | refusing hr => exact ⟨_, hr⟩
  | streaming =>
    obtain ⟨d, ds, rfl⟩ := List.exists_cons_of_ne_nil hne
    exact ⟨_, rfl⟩

section

variable [ByteSource σ]

def drainBy (s : Stack σ) (budget : Nat) : Way → Option (Turn (Stack σ) Bytes)
  | .toEnd chunk => s.readToEnd chunk budget
  | .all => s.readAll budget
  | .repeated size => s.readUntilEmpty size budget

theorem read_polls (n : Nat) :
    Polls (fun s : Stack σ => untilEmpty (s.read n)) id (Buffer.zeroed n).Becomes fun _ => True := by
  intro s _
  refine ⟨.zeroed n, .refl _, ?_, fun f hf => ?_, fun ho => ?_, fun k hpos hk hkept ho => ?_, fun _ => trivial⟩
  · simp only [untilEmpty, read_state, id]
  · simp only [id] at hf
    simp [untilEmpty, read, hf, Except.map]
  · simp only [id] at ho
    have hread := read_of_count (k := 0) ho (Nat.zero_le _)
    simp [untilEmpty, hread, Except.map]
  · simp only [id] at ho hkept ⊢
    have hread := read_of_count ho (by rwa [Buffer.size, hkept.size])
    have hsome : (s.request (.zeroed n)).buffer.bytes.take k ≠ [] := by
      have hlen : (s.request (.zeroed n)).buffer.bytes.length = (Buffer.zeroed n).size := hkept.size
      rw [← List.length_pos_iff, List.length_take]
      omega
    simp [untilEmpty, hread, hsome, Except.map]

namespace Ready

variable {ds : List Demand} (hne : ds ≠ []) {P : Stack σ → List Cue → Prop} {s : Stack σ}

include hne

theorem of_end {D : Bytes} (hl : ∀ n, .limit n ∈ ds → D.length ≤ n) {base : Stack σ} {b : Buffer}
    (hb : b.size ≠ 0) (ho : (base.request b).outcome = .ok 0) : Ready ds P ((demanding ds D base).request b).state := by
  have hlast : (base.request b).outcome = (none : Option Failure).elim (.ok 0) .error := ho
  obtain ⟨fs, htop, ⟨-, hv⟩ | ⟨f, -, hv⟩⟩ := request_last hb hlast hl
  · exact htop.ready (hv.head?_states hne) hv.after_ne_streaming
  · exact htop.ready (hv.head?_states hne) hv.after_ne_streaming

theorem of_failure {D : Bytes} (hl : ∀ n, .limit n ∈ ds → D.length ≤ n) {base : Stack σ} {b : Buffer}
    (hb : b.size ≠ 0) {f : Failure} (ho : (base.request b).outcome = .error f) {cues : List Cue}
    (hnext : P (base.request b).state cues) : Ready ds P ((demanding ds D base).request b).state := by
  obtain ⟨-, htop⟩ : ((demanding ds D base).request b).outcome = .error f ∧ _ := request_failure hb ho
  cases hf : f.endsStream with
  | false =>
    simp only [Reader.after_of_not_endsStream hf] at htop
    rw [htop.demanding]
    exact .streaming hl hnext
  | true =>
    have hhead : ((ds.map fun d => (d.reader D).after f).map Reader.state).head? = some .failed := by
      rw [Demand.states_after]
      obtain ⟨d, ds, rfl⟩ := List.exists_cons_of_ne_nil hne
      simp [hf, List.replicate_succ]
    exact htop.ready hhead (by simp)

theorem close (h : Ready ds P s) : Ready ds P s.close.state := by
  obtain ⟨r, hr⟩ := h.top? hne
  obtain ⟨r', hr', -, hclosed⟩ := top_close hr
  refine .refusing hr' (f := .closedReader) ?_
  simp [Reader.refusal, hclosed]

variable (hP : Performs Stack.request P)

include hP

theorem request (h : Ready ds P s) {b : Buffer} (hb : b.Whole) : Ready ds P (s.request b).state := by
  obtain ⟨r, hr⟩ := h.top? hne
  cases h with
  | refusing hr' hf =>
    rw [request_refusal hr' hf]
    exact .refusing hr' hf
  | @streaming D base cues hl hbase =>
    by_cases hz : b.size = 0
    · rw [request_empty hr hz]
      exact .streaming hl hbase
    · cases hw : b.writable with
      | false =>
        obtain ho | ⟨f, cues', ho, hnext⟩ := hP.frozen hbase hw
        · exact of_end hne hl hz ho
        · exact of_failure hne hl hz ho hnext
      | true =>
        have husable := hb.usable hw hz
        cases cues with
        | nil =>
          exact of_end hne hl hz (hP.done hbase husable).1
        | cons cue cues =>
          cases cue with
          | failure f =>
            obtain ⟨ho, hnext⟩ := hP.failure hbase husable
            exact of_failure hne hl hz ho hnext
          | piece p =>
            obtain ⟨k, hpos, hle, hroom, ho, hput, hnext⟩ := hP.piece hbase husable
            have hkept : b.Becomes (Stack.request base b).buffer := by
              rw [hput]
              exact .overwrite husable.writable (by rwa [List.length_take_of_le hle])
            obtain ⟨hfits, -, -, hstate⟩ | ⟨f, fs, -, htop, hv⟩ :=
              request_piece husable hpos (by rwa [Buffer.size, hkept.size]) ho
            · rw [hstate]
              refine .streaming (fun n hn => ?_) hnext
              have := hfits n hn
              simp only [List.length_append, List.length_take]
              omega
            · have hover := hv (D ++ .zeros k) none (by simp)
              exact htop.ready (hover.head?_states hne) hover.after_ne_streaming

theorem play (h : Ready ds P s) {ms : List Move} (hms : ∀ b, .plain (.readInto (some b)) ∈ ms → b.Whole)
    {turns : List (Turn (Stack σ × Option Buffer) Value)} {t : Stack σ} (hp : Stack.play move s ms = some (turns, t)) :
    Ready ds P t := by
  induction ms generalizing s turns with
  | nil =>
    cases hp
    exact h
  | cons m ms ih =>
    obtain ⟨turn, rest, hturn, hrest, rfl⟩ := play_cons.1 hp
    refine ih ?_ (fun b hb => hms b (List.mem_cons_of_mem _ hb)) hrest
    by_cases hm : m = .plain .close
    · subst hm
      cases hturn
      exact h.close hne
    · exact @move_keeps σ _ (fun u _ => Ready ds P u) Buffer.Whole Buffer.Whole.reused
        (fun hu _ hb => hu.request hne hP hb) s [] h
        (fun hu => readInto_layered (layered_of_top? (hu.top? hne).choose_spec)) m hm
        (fun b hb => hms b (by simp [hb])) turn hturn

end Ready

theorem drainBy_refusing {s : Stack σ} {r : Reader} {f : Failure} (hr : s.top? = some r) (hf : r.refusal = some f)
    {w : Way} (hw : w.Fair) {budget : Nat} (hn : 0 < budget) : s.drainBy budget w = some ⟨.error f, s, []⟩ := by
  obtain ⟨budget, rfl⟩ : ∃ m, budget = m + 1 := ⟨budget - 1, by omega⟩
  have hrefuses : s.Refuses f := by
    rw [eq_of_top? hr]
    exact refuses_of_refusal hf s.below.layers s.origin
  cases w with
  | toEnd chunk => exact hrefuses.readToEnd chunk budget hw
  | all => exact hrefuses.readAll budget
  | repeated size => exact readUntilEmpty_of_request (request_refusal hr hf) size budget

section

variable {ds : List Demand} (hne : ds ≠ []) {D : Bytes} (hl : ∀ n, .limit n ∈ ds → D.length ≤ n) {base : Stack σ}
  {c : Bytes} {ending : Option Failure} (hd : Delivers Buffer.Usable request ending base c)

include hne hl hd

theorem gather_streaming {τ : Type} {step : τ → Turn τ (Option Bytes)} {view : τ → Stack σ} {ready : τ → Prop}
    {n : Nat} (hpos : 0 < n) (hstep : Polls step view (Buffer.zeroed n).Becomes ready) {t : τ} (ht : ready t)
    (hview : view t = demanding ds D base) {budget : Nat} (hn : c.length < budget) :
    ∃ turn states, (gather (fun t => some (step t)) never budget t {}).map (joined · view) = some turn ∧
      Verdict ds (D ++ c) ending (turn.outcome.map (D ++ ·)) states ∧
      turn.state.state? = some (.after turn.outcome) := by
  have husable : ∀ b, (Buffer.zeroed n).Becomes b → b.Usable := fun b hb => .of_zeroed hpos hb
  obtain ⟨turn, fs, base', hturn, htop, hv⟩ := gather_demanding hstep husable (hd.mono husable) ht hview
    (g := {}) (E := D) (List.append_nil D) hl hn
  have houtcome : (joined turn view).outcome.map (D ++ ·) = turn.outcome.map fun ps => D ++ ps.flatten := by
    simp only [joined]
    cases turn.outcome <;> rfl
  refine ⟨joined turn view, fs.map Reader.state, by rw [hturn]; rfl, by rwa [houtcome], ?_⟩
  have hhead := hv.head?_states hne
  rw [← houtcome, ReaderState.after_map] at hhead
  exact htop.state? hhead

theorem drainBy_streaming {w : Way} (hw : w.Fair) {budget : Nat} (hn : c.length < budget) :
    ∃ turn states, (demanding ds D base).drainBy budget w = some turn ∧
      Verdict ds (D ++ c) ending (turn.outcome.map (D ++ ·)) states ∧
      turn.state.state? = some (.after turn.outcome) := by
  have hreads : ∀ n, 0 < n → ∃ turn states, readUntilEmpty n budget (demanding ds D base) = some turn ∧
      Verdict ds (D ++ c) ending (turn.outcome.map (D ++ ·)) states ∧
      turn.state.state? = some (.after turn.outcome) :=
    fun n hpos => gather_streaming hne hl hd hpos (read_polls n) trivial rfl hn
  cases w with
  | toEnd chunk =>
    have hchunk : ¬ chunk ≤ 0 := Int.not_le.2 hw
    have hlayers : (demanding ds D base).layers ≠ [] := by
      simp [demanding, hne]
    simp only [drainBy, readToEnd, if_neg hchunk]
    exact gather_streaming hne hl hd (by omega) (drainStep_polls (.zeroed chunk.toNat)) ⟨hlayers, .refl _⟩ rfl hn
  | all => exact hreads allChunk (by decide)
  | repeated size => exact hreads size hw

end

theorem drainBy_mono {s : Stack σ} {v : Way} {n : Nat} {turn : Turn (Stack σ) Bytes}
    (h : s.drainBy n v = some turn) (k : Nat) : s.drainBy (n + k) v = some turn := by
  cases v with
  | toEnd chunk => exact readToEnd_mono h k
  | all | repeated =>
    obtain ⟨answer, ha, rfl⟩ := Option.map_eq_some_iff.1 h
    exact congrArg (Option.map _) (gather_mono ha k)

theorem runAs_drains {w : Workspace} {id : Nat} {l : Located} (hl : locate w.objects id = some l) {v : Way}
    {turn : Turn (Stack Endpoint) Bytes} (h : l.stack.drainBy (Workspace.budget l.stack) v = some turn) :
    ∃ turn least, (∀ budget, least < budget → l.stack.drainBy budget v = some turn) ∧
      (w.runAs id .bytes (Workspace.looped fun budget s => s.drainBy budget v)).step =
        ⟨turn.outcome.map .bytes, w.putBack l turn.state, turn.events.filterMap (Entry.ofEvent? l.source)⟩ := by
  refine ⟨turn, Workspace.budget l.stack, fun budget hb => ?_, ?_⟩
  · rw [← Nat.add_sub_of_le (Nat.le_of_lt hb)]
    exact drainBy_mono h _
  · have hlooped : Workspace.looped (fun budget s => s.drainBy budget v) l.stack = turn := by
      rw [Workspace.looped, h]
      rfl
    rw [Workspace.runAs_located hl, hlooped]

theorem use_drains {w : Workspace} {id below : Nat} {l : Located} {r : Reader} {v : Way} {a : Action}
    (hl : locate w.objects id = some l) (h : v.Taken a) :
    ∃ turn least, (∀ budget, least < budget → l.stack.drainBy budget v = some turn) ∧
      (w.use id (.reader r below) a).step =
        ⟨turn.outcome.map .bytes, w.putBack l turn.state, turn.events.filterMap (Entry.ofEvent? l.source)⟩ := by
  obtain ⟨turn, hall⟩ : ∃ turn, l.stack.drainBy (Workspace.budget l.stack) .all = some turn :=
    readUntilEmpty_finishes l.stack (by decide)
  cases h with
  | @toEnd chunk hmem =>
    obtain ⟨turn, hturn⟩ := readToEnd_finishes l.stack chunk
    simp only [Workspace.use, Workspace.drain_of_le w id hmem]
    exact runAs_drains (v := .toEnd chunk) hl hturn
  | readAll | read => exact runAs_drains hl hall
  | readNegative hn hi =>
    simp only [Workspace.use, Workspace.useReader, Workspace.readSome, Option.getD_some, hi, hn, Bool.not_true,
      Bool.false_eq_true, if_false, if_true]
    exact runAs_drains hl hall

theorem ways_agree {P : Stack σ → List Cue → Prop} (hP : Performs request P) {ds : List Demand} (hne : ds ≠ [])
    (hone : ∀ m n, .limit m ∈ ds → .limit n ∈ ds → m = n) {base : Stack σ} {cues : List Cue} (hbase : P base cues)
    {ms : List Move} (hms : ∀ b, .plain (.readInto (some b)) ∈ ms → b.Whole)
    {turns : List (Turn (Stack σ × Option Buffer) Value)} {t : Stack σ}
    (hplay : play move (guarded ds base) ms = some (turns, t)) :
    (∃ outcome state least, ∀ w budget, w.Fair → least < budget → ∃ turn, t.drainBy budget w = some turn ∧
        turn.outcome = outcome ∧ turn.state.state? = some state) ∧
      ∀ (w : Workspace) (id below : Nat) (l : Located) (r : Reader) (v : Way) (a : Action),
        locate w.objects id = some l → v.Taken a →
          ∃ turn least, (∀ budget, least < budget → l.stack.drainBy budget v = some turn) ∧
            (w.use id (.reader r below) a).step =
              ⟨turn.outcome.map .bytes, w.putBack l turn.state, turn.events.filterMap (Entry.ofEvent? l.source)⟩ := by
  refine ⟨?_, fun w id below l r v a hl ha => use_drains hl ha⟩
  · have hstart : Ready ds P (guarded ds base) := by
      rw [← demanding_nil]
      exact .streaming (fun _ _ => Nat.zero_le _) hbase
    cases hstart.play hne hP hms hplay with
    | @refusing _ r f hr hf =>
      exact ⟨.error f, r.state, 0, fun w budget hw hn => ⟨_, drainBy_refusing hr hf hw hn, rfl, state?_of_top? hr⟩⟩
    | @streaming D base' cues' hl hbase' =>
      have hd := hP.delivers hbase'
      obtain ⟨turn, states, -, hv, -⟩ := drainBy_streaming hne hl hd (w := .all) trivial (Nat.lt_succ_self _)
      refine ⟨turn.outcome, .after turn.outcome, (Cue.content cues').length, fun w budget hw hn => ?_⟩
      obtain ⟨turn', states', hturn', hv', hstate'⟩ := drainBy_streaming hne hl hd hw hn
      have hsame := map_append_inj (hv'.agree hone hv)
      exact ⟨turn', hturn', hsame, by rw [hstate', hsame]⟩

end

def faltering : Stack Script :=
  ⟨[.file {}], .direct
    { api := {}, items := [.data [1, 2, 3] none, .failure (.raised .runtime "busy"), .data [4, 5] none] }⟩

theorem ways_agree_faltering :
    ∃ turns t, play move (guarded [.digest [], .limit 4] faltering) [.plain (.read 2), .plain (.readToEnd 2 9)] =
        some (turns, t) ∧ t.state? = some .streaming ∧
      ∃ least, ∀ w budget, w.Fair → least < budget → ∃ turn, t.drainBy budget w = some turn ∧
        turn.outcome = .error (.sizeExceeded 4) ∧ turn.state.state? = some .failed := by
  have hdeals : Script.Deals (Origin.supplyDirect .unchecked) {} := Script.deals_direct (.inl rfl) .unchecked
  have hperforms := (hdeals.performs.retold (retells_direct .unchecked)).retold (retells_file .checked)
  have hbase : Script.Follows {} { api := {}, items := [.data [1, 2, 3] none, .failure (.raised .runtime "busy"),
      .data [4, 5] none] } [.piece [1, 2, 3], .failure (.raised .runtime "busy"), .piece [4, 5]] :=
    ⟨rfl, rfl, by simp⟩
  have heval : (play move (guarded [.digest [], .limit 4] faltering) [.plain (.read 2), .plain (.readToEnd 2 9)]).any
      (fun r => r.2.state? == some .streaming && (r.2.readToEnd 2 9).any fun turn =>
        turn.state.state? == some .failed && turn.outcome matches .error (.sizeExceeded 4)) = true := by
    decide +kernel
  cases hplay : play move (guarded [.digest [], .limit 4] faltering) [.plain (.read 2), .plain (.readToEnd 2 9)] with
  | none => simp [hplay] at heval
  | some r =>
    obtain ⟨turns, t⟩ := r
    simp only [hplay, Option.any_some, Bool.and_eq_true, beq_iff_eq] at heval
    obtain ⟨hstream, hdrained⟩ := heval
    obtain ⟨drained, hturn, hseen⟩ := (Option.any_eq_true _ _).1 hdrained
    have hone : ∀ m n, .limit m ∈ [Demand.digest [], .limit 4] → .limit n ∈ [Demand.digest [], .limit 4] → m = n := by
      intro m n hm hn
      simp only [List.mem_cons, Demand.limit.injEq, reduceCtorEq, List.not_mem_nil, or_false, false_or] at hm hn
      rw [hm, hn]
    obtain ⟨⟨outcome, state, least, hall⟩, -⟩ := ways_agree hperforms (by simp) hone
      ⟨_, _, ⟨_, _, hbase, rfl, rfl⟩, ⟨{}, rfl, rfl⟩, rfl⟩ (by simp) hplay
    -- One way of draining tells what all of them come to.
    obtain ⟨turn, hdrain, rfl, hstate⟩ := hall (.toEnd 2) (9 + (least + 1)) (by decide : (0 : Int) < 2) (by omega)
    obtain rfl : turn = drained := readToEnd_agree hdrain hturn
    rw [Bool.and_eq_true, beq_iff_eq] at hseen
    obtain ⟨hfailed, hexceeded⟩ := hseen
    have houtcome : turn.outcome = .error (.sizeExceeded 4) := by
      split at hexceeded
      · assumption
      · cases hexceeded
    rw [houtcome, ← hstate, hfailed] at hall
    exact ⟨turns, t, rfl, hstream, least, hall⟩

end Stack

end StreamGuard
