import StreamGuard.Proofs.Delivery
import StreamGuard.Proofs.Handout

/-!
Stacks of validating readers over a stream. Main statement: draining such a stack comes to the conjunction of what its
readers demand, and the states of the readers name the one that failed.
-/

namespace StreamGuard

inductive Demand
  | digest (expected : Bytes)
  | limit (max : Nat)

namespace Demand

def Met (c : Bytes) : Demand → Prop
  | digest e => Sha256.digest c = e
  | limit n => c.length ≤ n

def fresh : Demand → Reader
  | digest e => .digest e
  | limit n => .bound n

def hashed (e D : Bytes) : DigestCheck :=
  { expected := e, hashing := some (Sha256.Accumulator.empty.update D) }

def reader (D : Bytes) : Demand → Reader
  | digest e => { check := .digest (hashed e D) }
  | limit n => { check := .bound { limit := n, received := D.length } }

def fault (D : Bytes) (k : Nat) : Demand → Option Failure
  | digest e => if k = 0 ∧ Sha256.digest D ≠ e then some (.digestMismatch (Sha256.digest D) e) else none
  | limit n => if n < D.length + k then some (.sizeExceeded n) else none

def passed (k : Nat) : ReaderState :=
  if k = 0 then .succeeded else .streaming

variable {d : Demand} {D : Bytes} {k : Nat} {b : Buffer}

theorem reader_nil (d : Demand) : d.reader [] = d.fresh := by
  cases d <;> rfl

theorem hashing_hashed (e D : Bytes) : (hashed e D).hashing = some (Sha256.Accumulator.empty.update D) := rfl

theorem refusal_reader (d : Demand) (D : Bytes) : (d.reader D).refusal = none := by
  cases d <;> rfl

theorem states_after (ds : List Demand) (D : Bytes) (f : Failure) :
    (ds.map fun d => (d.reader D).after f).map Reader.state =
      List.replicate ds.length (if f.endsStream then .failed else .streaming) := by
  have hstate : ∀ d : Demand, ((d.reader D).after f).state = if f.endsStream then .failed else .streaming := by
    intro d
    have hstream : (d.reader D).state = .streaming := (Reader.refusal_eq_none_iff.1 (d.refusal_reader D)).2
    cases hf : f.endsStream <;> simp [Reader.after, hf, Reader.fail, hstream]
  simp only [List.map_map, Function.comp_def, hstate, List.map_const']

theorem endsStream_fault {f : Failure} (h : d.fault D k = some f) : f.endsStream = true := by
  cases d with
  | digest e =>
    simp only [fault] at h
    split at h <;> cases h
    rfl
  | limit n =>
    simp only [fault] at h
    split at h <;> cases h
    rfl

theorem rule_pass (h : d.fault D k = none) (hk : k ≤ b.size) :
    ((d.reader D).check.rule k b).outcome = .ok k ∧ ((d.reader D).check.rule k b).buffer = b ∧
      ((d.reader D).check.rule k b).state = passed k ∧
      (k ≠ 0 → (d.reader D).settle ((d.reader D).check.rule k b) = d.reader (D ++ b.bytes.take k)) := by
  have hlen : (b.bytes.take k).length = k := by
    simp only [Buffer.size] at hk
    simp only [List.length_take]
    omega
  cases d with
  | digest e =>
    by_cases hz : k = 0
    · subst hz
      have he : Sha256.digest D = e := by simpa [fault] using h
      simp only [reader, Check.rule]
      rw [Int.natCast_zero, DigestCheck.rule_match (hashing_hashed e D) he]
      simp [passed]
    · have hcount : (k : Int) ≠ 0 := by omega
      simp only [reader, Check.rule]
      rw [DigestCheck.rule_piece (hashing_hashed e D) hcount]
      simp [passed, hz, Reader.settle, hashed, Sha256.Accumulator.update_append]
  | limit n =>
    have hn : D.length + k ≤ n := by simpa [fault] using h
    by_cases hz : k = 0
    · subst hz
      simp only [reader, Check.rule]
      rw [Int.natCast_zero, BoundCheck.rule_end (by simpa using hn)]
      simp [passed]
    · have hcount : (k : Int) ≠ 0 := by omega
      simp only [reader, Check.rule]
      rw [BoundCheck.rule_piece (by simp only; omega) hcount]
      simp [passed, hz, Reader.settle, hlen]

theorem rule_fault {f : Failure} (h : d.fault D k = some f)
    (hw : (∀ n, d = .limit n → D.length + k ≤ n) ∨ b.writable = true) (hk : k ≤ b.size) :
    ((d.reader D).check.rule k b).outcome = .error f ∧ ((d.reader D).check.rule k b).state = .failed := by
  cases d with
  | digest e =>
    simp only [fault] at h
    split at h
    · rename_i hne
      cases h
      obtain ⟨rfl, hne⟩ := hne
      simp only [reader, Check.rule]
      rw [Int.natCast_zero, DigestCheck.rule_mismatch (hashing_hashed e D) hne]
      exact ⟨rfl, rfl⟩
    · cases h
  | limit n =>
    simp only [fault] at h
    split at h
    · rename_i hlt
      cases h
      have hwritable : b.writable = true := hw.resolve_left fun hl => Nat.not_le_of_lt hlt (hl n rfl)
      obtain ⟨b', hclear⟩ : ∃ b', b.clear k = .ok b' :=
        ⟨_, Buffer.clear_eq_ok.2 ⟨hwritable, Int.natCast_nonneg k, by exact_mod_cast hk, rfl⟩⟩
      simp only [reader, Check.rule]
      rw [BoundCheck.rule_over (by simp only; omega) hclear]
      exact ⟨rfl, rfl⟩
    · cases h

theorem faultless_iff {ds : List Demand} (hpos : 0 < k) :
    (∀ d ∈ ds, d.fault D k = none) ↔ ∀ n, .limit n ∈ ds → D.length + k ≤ n := by
  constructor
  · intro h n hn
    simpa [fault] using h _ hn
  · intro h d hd
    cases d with
    | digest e => simp [fault, Nat.ne_of_gt hpos]
    | limit n => simpa [fault] using h n hd

end Demand

namespace Stack

variable {σ : Type}

def demanding (ds : List Demand) (D : Bytes) (base : Stack σ) : Stack σ :=
  ⟨ds.map (fun d => .reader (d.reader D)) ++ base.layers, base.origin⟩

def guarded (ds : List Demand) (base : Stack σ) : Stack σ :=
  ⟨ds.map (fun d => .reader d.fresh) ++ base.layers, base.origin⟩

def Topped (s : Stack σ) (fs : List Reader) (base : Stack σ) : Prop :=
  s = ⟨fs.map .reader ++ base.layers, base.origin⟩

theorem demanding_nil (ds : List Demand) (base : Stack σ) : demanding ds [] base = guarded ds base := by
  simp only [demanding, Demand.reader_nil, guarded]

theorem Topped.demanding {s base : Stack σ} {ds : List Demand} {D : Bytes}
    (h : s.Topped (ds.map (Demand.reader D)) base) : s = demanding ds D base := by
  rw [h, Stack.demanding, List.map_map]
  rfl

variable [ByteSource σ]

section

variable {ds : List Demand} {D : Bytes} {base : Stack σ} {b : Buffer}

theorem request_demanding_cons (d : Demand) (hb : b.size ≠ 0) :
    request (demanding (d :: ds) D base) b = (d.reader D).atop (request (demanding ds D base) b) :=
  serve_open (d.refusal_reader D) hb .checked _ _

theorem request_pass (hb : b.size ≠ 0) {k : Nat} (hk : k ≤ (base.request b).buffer.size)
    (ho : (base.request b).outcome = .ok k) (hp : ∀ d ∈ ds, d.fault D k = none) :
    ((demanding ds D base).request b).outcome = .ok k ∧
      ((demanding ds D base).request b).buffer = (base.request b).buffer ∧
      ∃ fs, Topped ((demanding ds D base).request b).state fs (base.request b).state ∧
        fs.map Reader.state = List.replicate ds.length (Demand.passed k) ∧
        (k ≠ 0 → fs = ds.map (Demand.reader (D ++ (base.request b).buffer.bytes.take k))) := by
  induction ds with
  | nil => exact ⟨ho, rfl, [], rfl, rfl, fun _ => rfl⟩
  | cons d ds ih =>
    obtain ⟨hok, hbuf, fs, htop, hstates, hnext⟩ := ih fun e he => hp e (List.mem_cons_of_mem _ he)
    obtain ⟨hrule, hrbuf, hrstate, hrnext⟩ := Demand.rule_pass (hp d List.mem_cons_self) hk
    rw [request_demanding_cons d hb, Reader.atop_ok hok, hbuf]
    refine ⟨hrule, hrbuf, (d.reader D).settle ((d.reader D).check.rule k (base.request b).buffer) :: fs,
      ?_, ?_, fun hz => ?_⟩
    · rw [htop]
      rfl
    · rw [List.map_cons, hstates]
      simp only [Reader.settle, hrstate, List.length_cons, List.replicate_succ]
    · rw [List.map_cons, hrnext hz, hnext hz]

theorem request_fault (hb : b.size ≠ 0) {k : Nat}
    (hw : (∀ n, .limit n ∈ ds → D.length + k ≤ n) ∨ b.writable = true) (hk : k ≤ (base.request b).buffer.size)
    (ho : (base.request b).outcome = .ok k) (hf : ∃ d ∈ ds, d.fault D k ≠ none) :
    ∃ outer d inner f fs, ds = outer ++ d :: inner ∧ d.fault D k = some f ∧
      (∀ e ∈ inner, e.fault D k = none) ∧ ((demanding ds D base).request b).outcome = .error f ∧
      Topped ((demanding ds D base).request b).state fs (base.request b).state ∧
      fs.map Reader.state =
        List.replicate (outer.length + 1) .failed ++ List.replicate inner.length (Demand.passed k) := by
  induction ds with
  | nil => simp at hf
  | cons d ds ih =>
    rw [request_demanding_cons d hb]
    -- The innermost reader at fault speaks first, and those around it only pass its failure on.
    by_cases hin : ∃ e ∈ ds, e.fault D k ≠ none
    · obtain ⟨outer, e, inner, f, fs, rfl, he, hinner, hout, htop, hstates⟩ :=
        ih (hw.imp_left fun hl n hn => hl n (List.mem_cons_of_mem _ hn)) hin
      refine ⟨d :: outer, e, inner, f, (d.reader D).fail :: fs, rfl, he, hinner, ?_, ?_, ?_⟩
      · rw [Reader.atop_error hout]
      · rw [Reader.atop_error hout, Reader.after_of_endsStream (Demand.endsStream_fault he), htop]
        rfl
      · simp [hstates, Reader.fail, List.replicate_succ]
    · have hpass : ∀ e ∈ ds, e.fault D k = none := fun e he =>
        Decidable.byContradiction fun hne => hin ⟨e, he, hne⟩
      obtain ⟨hok, hbuf, fs, htop, hstates, -⟩ := request_pass hb hk ho hpass
      obtain ⟨f, hd⟩ : ∃ f, d.fault D k = some f := by
        obtain ⟨e, he, hne⟩ := hf
        rcases List.mem_cons.1 he with rfl | he
        · exact Option.ne_none_iff_exists'.1 hne
        · exact absurd (hpass e he) hne
      have hclears : (∀ n, d = .limit n → D.length + k ≤ n) ∨ (base.request b).buffer.writable = true := by
        rw [(request_turns base b).writable]
        exact hw.imp_left fun hl n he => hl n (by simp [he])
      obtain ⟨hrule, hrstate⟩ := Demand.rule_fault hd hclears hk
      rw [Reader.atop_ok hok, hbuf]
      refine ⟨[], d, ds, f, (d.reader D).settle ((d.reader D).check.rule k (base.request b).buffer) :: fs,
        rfl, hd, hpass, hrule, ?_, ?_⟩
      · rw [htop]
        rfl
      · rw [List.map_cons, hstates]
        simp [Reader.settle, hrstate]

theorem request_failure (hb : b.size ≠ 0) {f : Failure} (ho : (base.request b).outcome = .error f) :
    ((demanding ds D base).request b).outcome = .error f ∧
      Topped ((demanding ds D base).request b).state (ds.map fun d => (d.reader D).after f)
        (base.request b).state := by
  induction ds with
  | nil => exact ⟨ho, rfl⟩
  | cons d ds ih =>
    obtain ⟨hout, htop⟩ := ih
    rw [request_demanding_cons d hb, Reader.atop_error hout]
    refine ⟨rfl, ?_⟩
    rw [htop]
    rfl

end

/-- What draining readers for `ds` over a stream of `c` comes to, and the states of the readers after it. -/
inductive Verdict (ds : List Demand) (c : Bytes) (ending : Option Failure) :
    Except Failure Bytes → List ReaderState → Prop
  | exceeded {outer inner : List Demand} {n : Nat} (hd : ds = outer ++ .limit n :: inner) (hn : n < c.length) :
      Verdict ds c ending (.error (.sizeExceeded n))
        (List.replicate (outer.length + 1) .failed ++ List.replicate inner.length .streaming)
  | broken {f : Failure} (hl : ∀ n, .limit n ∈ ds → c.length ≤ n) (hf : ending = some f) :
      Verdict ds c ending (.error f) (List.replicate ds.length (if f.endsStream then .failed else .streaming))
  | mismatched {outer inner : List Demand} {e : Bytes} (hl : ∀ n, .limit n ∈ ds → c.length ≤ n)
      (hf : ending = none) (hd : ds = outer ++ .digest e :: inner) (he : Sha256.digest c ≠ e)
      (hi : ∀ e, .digest e ∈ inner → Sha256.digest c = e) :
      Verdict ds c ending (.error (.digestMismatch (Sha256.digest c) e))
        (List.replicate (outer.length + 1) .failed ++ List.replicate inner.length .succeeded)
  | passed (hf : ending = none) (hm : ∀ d ∈ ds, d.Met c) :
      Verdict ds c ending (.ok c) (List.replicate ds.length .succeeded)

theorem drainStep_layered {s : Stack σ} (hs : s.layers ≠ []) (b : Buffer) :
    drainStep (s, b) =
      ⟨(s.request b).outcome.map fun count =>
          if count = 0 then none else some ((s.request b).buffer.bytes.upTo count),
        ((s.request b).state, (s.request b).buffer), (s.request b).events⟩ := by
  simp only [drainStep, readInto_layered hs]
  cases (s.request b).outcome <;> rfl

section

variable {ds : List Demand} {D : Bytes} {base : Stack σ} {b : Buffer}

theorem request_last (hb : b.size ≠ 0) {ending : Option Failure}
    (ho : (base.request b).outcome = ending.elim (.ok 0) .error) (hl : ∀ n, .limit n ∈ ds → D.length ≤ n) :
    ∃ fs, Topped ((demanding ds D base).request b).state fs (base.request b).state ∧
      ((((demanding ds D base).request b).outcome = .ok 0 ∧ Verdict ds D ending (.ok D) (fs.map Reader.state)) ∨
        ∃ f, ((demanding ds D base).request b).outcome = .error f ∧
          Verdict ds D ending (.error f) (fs.map Reader.state)) := by
  cases ending with
  | some f =>
    obtain ⟨hout, htop⟩ : ((demanding ds D base).request b).outcome = .error f ∧ _ := request_failure hb ho
    refine ⟨_, htop, .inr ⟨f, hout, ?_⟩⟩
    rw [Demand.states_after]
    exact .broken hl rfl
  | none =>
    by_cases hf : ∃ d ∈ ds, d.fault D 0 ≠ none
    · obtain ⟨outer, d, inner, f, fs, rfl, hd, hinner, hout, htop, hstates⟩ :=
        request_fault hb (.inl hl) (Nat.zero_le _) ho hf
      refine ⟨fs, htop, .inr ⟨f, hout, ?_⟩⟩
      rw [hstates]
      cases d with
      | digest e =>
        simp only [Demand.fault, true_and] at hd
        split at hd
        · rename_i hne
          cases hd
          refine .mismatched hl rfl rfl hne fun e he => ?_
          simpa [Demand.fault] using hinner _ he
        · cases hd
      | limit n =>
        have := hl n (by simp)
        simp only [Demand.fault] at hd
        split at hd
        · omega
        · cases hd
    · have hpass : ∀ d ∈ ds, d.fault D 0 = none := fun d hd =>
        Decidable.byContradiction fun hne => hf ⟨d, hd, hne⟩
      obtain ⟨hout, -, fs, htop, hstates, -⟩ := request_pass hb (Nat.zero_le _) ho hpass
      refine ⟨fs, htop, .inl ⟨hout, ?_⟩⟩
      rw [hstates]
      refine .passed rfl fun d hd => ?_
      cases d with
      | digest e => simpa [Demand.fault, Demand.Met] using hpass _ hd
      | limit n => exact hl n hd

theorem request_piece (hb : b.Usable) {k : Nat} (hpos : 0 < k) (hk : k ≤ (base.request b).buffer.size)
    (ho : (base.request b).outcome = .ok k) :
    ((∀ n, .limit n ∈ ds → D.length + k ≤ n) ∧ ((demanding ds D base).request b).outcome = .ok k ∧
        ((demanding ds D base).request b).buffer = (base.request b).buffer ∧
        ((demanding ds D base).request b).state =
          demanding ds (D ++ (base.request b).buffer.bytes.take k) (base.request b).state) ∨
      ∃ f fs, ((demanding ds D base).request b).outcome = .error f ∧
        Topped ((demanding ds D base).request b).state fs (base.request b).state ∧
        ∀ c ending, D.length + k ≤ c.length → Verdict ds c ending (.error f) (fs.map Reader.state) := by
  by_cases hf : ∃ d ∈ ds, d.fault D k ≠ none
  · obtain ⟨outer, d, inner, f, fs, rfl, hd, -, hout, htop, hstates⟩ :=
      request_fault hb.size (.inr hb.writable) hk ho hf
    refine .inr ⟨f, fs, hout, htop, fun c ending hc => ?_⟩
    rw [hstates]
    cases d with
    | digest e =>
      simp only [Demand.fault, Nat.ne_of_gt hpos, false_and, if_false] at hd
      cases hd
    | limit n =>
      simp only [Demand.fault] at hd
      split at hd
      · cases hd
        simp only [Demand.passed, Nat.ne_of_gt hpos, if_false]
        exact .exceeded rfl (by omega)
      · cases hd
  · have hpass : ∀ d ∈ ds, d.fault D k = none := fun d hd =>
      Decidable.byContradiction fun hne => hf ⟨d, hd, hne⟩
    obtain ⟨hout, hbuf, fs, htop, -, hfs⟩ := request_pass hb.size hk ho hpass
    rw [hfs (Nat.ne_of_gt hpos)] at htop
    exact .inl ⟨(Demand.faultless_iff hpos).1 hpass, hout, hbuf, htop.demanding⟩

end

structure Polled {τ : Type} (view : τ → Stack σ) (ready : τ → Prop) (s : Stack σ) (b : Buffer)
    (turn : Turn τ (Option Bytes)) : Prop where
  state : view turn.state = (s.request b).state
  failed : ∀ f, (s.request b).outcome = .error f → turn.outcome = .error f
  done : (s.request b).outcome = .ok 0 → turn.outcome = .ok none
  piece : ∀ k : Nat, 0 < k → k ≤ b.size → b.Becomes (s.request b).buffer → (s.request b).outcome = .ok k →
    turn.outcome = .ok (some ((s.request b).buffer.bytes.take k))
  ready : b.Becomes (s.request b).buffer → ready turn.state

def Polls {τ : Type} (step : τ → Turn τ (Option Bytes)) (view : τ → Stack σ) (fits : Buffer → Prop)
    (ready : τ → Prop) : Prop :=
  ∀ t, ready t → ∃ b, fits b ∧ Polled view ready (view t) b (step t)

theorem drainStep_polls (b₀ : Buffer) :
    Polls (drainStep (σ := σ)) Prod.fst b₀.Becomes fun t => t.1.layers ≠ [] ∧ b₀.Becomes t.2 := by
  rintro ⟨s, b⟩ ⟨hs, hb⟩
  refine ⟨b, hb, ?_⟩
  rw [drainStep_layered hs]
  refine ⟨rfl, fun f hf => by simp [hf, Except.map], fun ho => by simp [ho, Except.map], fun k hpos _ _ hk => ?_,
    fun hkept => ⟨request_layered hs b, hb.trans hkept⟩⟩
  simp [hk, Nat.ne_of_gt hpos, Except.map]

theorem gather_demanding {τ : Type} {step : τ → Turn τ (Option Bytes)} {view : τ → Stack σ} {fits : Buffer → Prop}
    {ready : τ → Prop} (hstep : Polls step view fits ready) (hfits : ∀ b, fits b → b.Usable) {ds : List Demand}
    {base : Stack σ} {c : Bytes} {ending : Option Failure} (h : Delivers fits request ending base c) {t : τ}
    (ht : ready t) {D : Bytes} (hview : view t = demanding ds D base) {g : Gathered} {E : Bytes}
    (hg : E ++ g.pieces.reverse.flatten = D) (hl : ∀ n, .limit n ∈ ds → D.length ≤ n) {budget : Nat}
    (hn : c.length < budget) :
    ∃ turn fs base', gather (fun t => some (step t)) never budget t g = some turn ∧
      (view turn.state).Topped fs base' ∧
      Verdict ds (D ++ c) ending (turn.outcome.map fun ps => E ++ ps.flatten) (fs.map Reader.state) := by
  -- Along the deliveries: what the readers have passed on, `D`, is what came before the loop and what it has collected.
  induction h generalizing t D g budget with
  | @done base h =>
    obtain ⟨budget, rfl⟩ : ∃ m, budget = m + 1 := ⟨budget - 1, by omega⟩
    obtain ⟨b, hb, hpoll⟩ := hstep t ht
    rw [hview] at hpoll
    obtain ⟨fs, htop, ⟨hout, hv⟩ | ⟨f, hout, hv⟩⟩ := request_last (hfits b hb).size (h b hb) hl
    · refine ⟨_, fs, (base.request b).state, gather_done rfl rfl (hpoll.done hout) budget, ?_, ?_⟩
      · rwa [hpoll.state]
      · simpa [Except.map, hg] using hv
    · refine ⟨_, fs, (base.request b).state, gather_failed rfl rfl (hpoll.failed f hout) budget, ?_, ?_⟩
      · rwa [hpoll.state]
      · simpa [Except.map] using hv
  | @more base c k h hpos hroom hleft hput next ih =>
    obtain ⟨budget, rfl⟩ : ∃ m, budget = m + 1 := ⟨budget - 1, by omega⟩
    obtain ⟨b, hb, hpoll⟩ := hstep t ht
    rw [hview] at hpoll
    have hk := hpos b hb
    have hkc := hleft b hb
    have hlen : (c.take (k b)).length = k b := by
      simp only [List.length_take]
      omega
    have hkept : b.Becomes (base.request b).buffer := by
      rw [hput b hb]
      exact .overwrite (hfits b hb).writable (by rw [hlen]; exact hroom b hb)
    obtain ⟨hfits', hout, hbuf, hnext⟩ | ⟨f, fs, hout, htop, hv⟩ :=
      request_piece (hfits b hb) hk (by rw [Buffer.size, hkept.size]; exact hroom b hb) (h b hb)
    · have hfront : (base.request b).buffer.bytes.take (k b) = c.take (k b) := by
        have htake := Bytes.take_overwrite b.bytes (c.take (k b))
        rw [hlen] at htake
        rw [hput b hb]
        exact htake
      have hpiece := hpoll.piece (k b) hk (hroom b hb) (by rwa [hbuf]) hout
      rw [hbuf, hfront] at hpiece
      rw [gather_piece rfl rfl hpiece budget]
      have hroomy : ∀ n, .limit n ∈ ds → (D ++ c.take (k b)).length ≤ n := by
        intro n hn
        have := hfits' n hn
        simp only [List.length_append, hlen]
        omega
      have hbudget : (c.drop (k b)).length < budget := by
        simp only [List.length_drop]
        omega
      have hnextview : view (step t).state = demanding ds (D ++ c.take (k b)) (base.request b).state := by
        rw [hpoll.state, hnext, hfront]
      have hrest := ih b hb (hpoll.ready (by rwa [hbuf])) hnextview (g := g.add (c.take (k b)) (step t).events)
        (by simp [Gathered.add, ← hg]) hroomy hbudget
      rwa [List.append_assoc, List.take_append_drop] at hrest
    · refine ⟨_, fs, (base.request b).state, gather_failed rfl rfl (hpoll.failed f hout) budget, ?_, hv _ ending ?_⟩
      · rwa [hpoll.state]
      · simp only [List.length_append]
        omega

theorem drain_demanding {ds : List Demand} (hne : ds ≠ []) {size : Nat} (hsize : 0 < size) {base : Stack σ}
    {c : Bytes} {ending : Option Failure} (h : Delivers (Buffer.zeroed size).Becomes request ending base c)
    (D : Bytes) {b : Buffer} (hb : (Buffer.zeroed size).Becomes b) (g : Gathered)
    (hg : g.pieces.reverse.flatten = D) (hl : ∀ n, .limit n ∈ ds → D.length ≤ n) (budget : Nat)
    (hn : c.length < budget) :
    ∃ turn fs base', gather (fun t => some (drainStep t)) never budget (demanding ds D base, b) g = some turn ∧
      turn.state.1.Topped fs base' ∧
      Verdict ds (D ++ c) ending (turn.outcome.map List.flatten) (fs.map Reader.state) := by
  have hlayers : (demanding ds D base).layers ≠ [] := by
    simp [demanding, hne]
  exact gather_demanding (drainStep_polls (Buffer.zeroed size)) (fun b hb => .of_zeroed hsize hb) h ⟨hlayers, hb⟩ rfl
    (g := g) (E := []) hg hl hn

theorem readToEnd_demanding {ds : List Demand} (hne : ds ≠ []) {base : Stack σ} {c : Bytes}
    {ending : Option Failure} {chunk : Int} (hc : 0 < chunk)
    (h : Delivers (Buffer.zeroed chunk.toNat).Becomes request ending base c) {budget : Nat}
    (hn : c.length < budget) :
    ∃ turn fs base', readToEnd chunk budget (guarded ds base) = some turn ∧ turn.state.Topped fs base' ∧
      Verdict ds c ending turn.outcome (fs.map Reader.state) := by
  have hsize : 0 < chunk.toNat := by omega
  have hempty : ({} : Gathered).pieces.reverse.flatten = [] := rfl
  obtain ⟨turn, fs, base', hturn, htop, hv⟩ := drain_demanding hne hsize h [] (.refl _) {} hempty
    (fun _ _ => Nat.zero_le _) _ hn
  rw [demanding_nil] at hturn
  refine ⟨joined turn Prod.fst, fs, base', ?_, htop, hv⟩
  rw [readToEnd, if_neg (Int.not_le.2 hc), hturn]
  rfl

theorem conjunction_of_demands {ds : List Demand} (hne : ds ≠ []) {base : Stack σ} {c : Bytes} {chunk : Int}
    (hc : 0 < chunk) (h : Delivers (Buffer.zeroed chunk.toNat).Becomes request none base c) {budget : Nat}
    (hn : c.length < budget) :
    ∃ turn fs base', readToEnd chunk budget (guarded ds base) = some turn ∧ turn.state.Topped fs base' ∧
      (turn.outcome = .ok c ↔ ∀ d ∈ ds, d.Met c) ∧
      ((∃ n, .limit n ∈ ds ∧ n < c.length) → ∃ outer n inner, ds = outer ++ .limit n :: inner ∧ n < c.length ∧
        turn.outcome = .error (.sizeExceeded n) ∧ fs.map Reader.state =
          List.replicate (outer.length + 1) .failed ++ List.replicate inner.length .streaming) ∧
      ((∀ n, .limit n ∈ ds → c.length ≤ n) → (∃ e, .digest e ∈ ds ∧ Sha256.digest c ≠ e) →
        ∃ outer e inner, ds = outer ++ .digest e :: inner ∧ Sha256.digest c ≠ e ∧
          (∀ e, .digest e ∈ inner → Sha256.digest c = e) ∧
          turn.outcome = .error (.digestMismatch (Sha256.digest c) e) ∧ fs.map Reader.state =
            List.replicate (outer.length + 1) .failed ++ List.replicate inner.length .succeeded) ∧
      ((∀ d ∈ ds, d.Met c) → fs.map Reader.state = List.replicate ds.length .succeeded) := by
  obtain ⟨turn, fs, base', hturn, htop, hv⟩ := readToEnd_demanding hne hc h hn
  refine ⟨turn, fs, base', hturn, htop, ?_⟩
  generalize turn.outcome = outcome at hv ⊢
  generalize fs.map Reader.state = states at hv ⊢
  cases hv with
  | @exceeded outer inner n hd hn =>
    have hunmet : ¬ ∀ d ∈ ds, d.Met c := fun hm => Nat.not_le_of_lt hn (hm (.limit n) (by simp [hd]))
    refine ⟨iff_of_false (by simp) hunmet, fun _ => ⟨outer, n, inner, hd, hn, rfl, rfl⟩, fun hl _ => ?_,
      fun hm => absurd hm hunmet⟩
    exact absurd (hl n (by simp [hd])) (Nat.not_le_of_lt hn)
  | broken _ hf => cases hf
  | @mismatched outer inner e hl _ hd he hi =>
    have hunmet : ¬ ∀ d ∈ ds, d.Met c := fun hm => he (hm (.digest e) (by simp [hd]))
    refine ⟨iff_of_false (by simp) hunmet, ?_, fun _ _ => ⟨outer, e, inner, hd, he, hi, rfl, rfl⟩,
      fun hm => absurd hm hunmet⟩
    rintro ⟨n, hn, hlt⟩
    exact absurd (hl n hn) (Nat.not_le_of_lt hlt)
  | passed _ hm =>
    refine ⟨⟨fun _ => hm, fun _ => rfl⟩, ?_, ?_, fun _ => rfl⟩
    · rintro ⟨n, hn, hlt⟩
      exact absurd (hm _ hn) (Nat.not_le_of_lt hlt)
    · rintro - ⟨e, he, hne⟩
      exact absurd (hm _ he) hne

theorem conjunction_of_demands_mixed :
    ∃ turn fs base', readToEnd 2 4 (guarded [.limit 9, .digest [], .limit 3, .digest (Sha256.digest [1, 2, 3])]
        ⟨[], .direct (Memory.ofBytes [1, 2, 3] 0)⟩) = some turn ∧ turn.state.Topped fs base' ∧
      turn.outcome = .error (.digestMismatch (Sha256.digest [1, 2, 3]) []) ∧
      fs.map Reader.state = [.failed, .failed, .succeeded, .succeeded] := by
  have hm : Delivers Buffer.Usable request none ⟨[], .direct (Memory.ofBytes [1, 2, 3] 0)⟩ [1, 2, 3] :=
    delivers_direct (Memory.delivers .checked (m := .ofBytes [1, 2, 3] 0) rfl)
  have hd := hm.mono fun b (hb : (Buffer.zeroed 2).Becomes b) => .of_zeroed (by decide) hb
  have hne : Sha256.digest [1, 2, 3] ≠ [] := by decide +kernel
  obtain ⟨turn, fs, base', ht, htop, -, -, hmismatch, -⟩ := @conjunction_of_demands _ _
    [.limit 9, .digest [], .limit 3, .digest (Sha256.digest [1, 2, 3])] (by simp) _ _ 2 (by decide) hd 4
    (by decide)
  obtain ⟨outer, e, inner, hds, he, -, hout, hstates⟩ := hmismatch (by simp) ⟨[], by simp, hne⟩
  refine ⟨turn, fs, base', ht, htop, ?_⟩
  rw [hout, hstates]
  rcases outer with _ | ⟨d₁, _ | ⟨d₂, _ | ⟨d₃, _ | ⟨d₄, outer⟩⟩⟩⟩
  · cases hds
  · cases hds
    exact ⟨rfl, rfl⟩
  · cases hds
  · cases hds
    exact absurd rfl he
  · simp at hds

end Stack

end StreamGuard
