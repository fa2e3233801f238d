import StreamGuard.Proofs.PassThrough

namespace StreamGuard

namespace Bytes

def lines : Bytes → List Bytes
  | [] => []
  | x :: xs =>
    if x = Stack.newline then [x] :: lines xs
    else
      match lines xs with
      | [] => [[x]]
      | line :: rest => (x :: line) :: rest

def EndsLine (c : Bytes) : Prop := c = [] ∨ c.getLast? = some Stack.newline

theorem flatten_lines (c : Bytes) : (lines c).flatten = c := by
  induction c with
  | nil => rfl
  | cons x xs ih =>
    unfold lines
    split
    · simp [ih]
    · split
      · rename_i hnil
        rw [hnil] at ih
        simp [← ih]
      · rename_i hcons
        rw [hcons] at ih
        simp [← ih]

theorem lines_of_not_mem {c : Bytes} (h : Stack.newline ∉ c) (hc : c ≠ []) : lines c = [c] := by
  induction c with
  | nil => exact absurd rfl hc
  | cons x xs ih =>
    obtain ⟨hx, hxs⟩ := not_or.1 (mt List.mem_cons.2 h)
    rw [lines, if_neg (Ne.symm hx)]
    cases xs with
    | nil => rfl
    | cons y ys => rw [ih hxs (by simp)]

theorem lines_append {p : Bytes} (h : Stack.newline ∉ p) (c : Bytes) :
    lines (p ++ Stack.newline :: c) = (p ++ [Stack.newline]) :: lines c := by
  induction p with
  | nil => simp [lines]
  | cons x xs ih =>
    obtain ⟨hx, hxs⟩ := not_or.1 (mt List.mem_cons.2 h)
    rw [List.cons_append, lines, if_neg (Ne.symm hx), ih hxs]
    rfl

theorem endsLine_append (p c : Bytes) : EndsLine (p ++ Stack.newline :: c) ↔ EndsLine c := by
  cases c with
  | nil => simp [EndsLine]
  | cons x xs => simp [EndsLine, List.getLast?_append, List.getLast?_cons_cons]

theorem not_endsLine {c : Bytes} (h : Stack.newline ∉ c) (hc : c ≠ []) : ¬ EndsLine c := by
  rintro (hnil | hlast)
  · exact hc hnil
  · exact h (List.mem_of_getLast? hlast)

theorem mem_lines {c : Bytes} (hc : EndsLine c) :
    ∀ line ∈ lines c, ∃ p, Stack.newline ∉ p ∧ line = p ++ [Stack.newline] := by
  induction hn : c.length using Nat.strongRecOn generalizing c with
  | ind n ih =>
    by_cases hmem : Stack.newline ∈ c
    · obtain ⟨p, rest, rfl, hp⟩ := List.eq_append_cons_of_mem hmem
      rw [lines_append hp, List.forall_mem_cons]
      refine ⟨⟨p, hp, rfl⟩, ih rest.length ?_ ((endsLine_append p rest).1 hc) rfl⟩
      simp only [List.length_append, List.length_cons] at hn
      omega
    · by_cases hnil : c = []
      · simp [hnil, lines]
      · exact absurd hc (not_endsLine hmem hnil)

end Bytes

theorem Demand.faultless_of_met {d : Demand} {D c : Bytes} (h : d.Met (D ++ c)) {k : Nat} (hk : k ≤ c.length)
    (hend : k = 0 → c = []) : d.fault D k = none := by
  cases d with
  | digest e =>
    by_cases hz : k = 0
    · have hdigest : Sha256.digest (D ++ c) = e := h
      simp only [hend hz, List.append_nil] at hdigest
      simp [fault, hz, hdigest]
    · simp [fault, hz]
  | limit n =>
    have hlen : (D ++ c).length ≤ n := h
    simp only [List.length_append] at hlen
    have hfits : D.length + k ≤ n := by omega
    simp [fault, Nat.not_lt.2 hfits]

namespace Stack

variable {σ : Type}

def Done (s : Stack σ) : Prop :=
  ∃ r, s.top? = some r ∧ r.state = .succeeded ∧ r.closed = false

theorem Done.state? {s : Stack σ} (h : s.Done) : s.state? = some .succeeded := by
  obtain ⟨r, hr, hstate, -⟩ := h
  rw [state?_of_top? hr, hstate]

variable [ByteSource σ]

theorem Done.request {s : Stack σ} (h : s.Done) (b : Buffer) :
    s.request b = ⟨.error (.streamEnded .succeeded), b, s, []⟩ := by
  obtain ⟨r, hr, hstate, hclosed⟩ := h
  apply request_refusal hr
  simp [Reader.refusal, hstate, hclosed]

variable {ds : List Demand} {D c : Bytes} {base : Stack σ}

theorem read_end (hne : ds ≠ []) (hd : Delivers Buffer.Usable request none base []) (hm : ∀ d ∈ ds, d.Met D) :
    ((demanding ds D base).read 1).outcome = .ok [] ∧ ((demanding ds D base).read 1).state.Done := by
  have hb : (Buffer.zeroed 1).Usable := .of_zeroed (by decide) (.refl _)
  have ho : (base.request (.zeroed 1)).outcome = .ok ((0 : Nat) : Int) := by
    cases hd with
    | done h => exact h _ hb
    | more k h hpos hroom hleft =>
      have := hpos _ hb
      have := hleft _ hb
      simp only [List.length_nil] at this
      omega
  have hp : ∀ d ∈ ds, d.fault D 0 = none := fun d hd =>
    Demand.faultless_of_met (c := []) (by simpa using hm d hd) (Nat.le_refl 0) fun _ => rfl
  obtain ⟨hout, -, fs, htop, hstates, -⟩ := request_pass hb.size (Nat.zero_le _) ho hp
  rw [read_of_count hout (Nat.zero_le _), read_state]
  obtain ⟨r, hr, hstate⟩ := htop.succeeded hne hstates
  obtain ⟨d, ds, rfl⟩ := List.exists_cons_of_ne_nil hne
  obtain ⟨r', hr', hclosed, -⟩ := top_request (s := demanding (d :: ds) D base) (r := d.reader D) rfl (.zeroed 1)
  rw [hr] at hr'
  cases hr'
  refine ⟨rfl, r, hr, hstate, ?_⟩
  rw [hclosed]
  cases d <;> rfl

theorem read_byte {x : UInt8} (hd : Delivers Buffer.Usable request none base (x :: c))
    (hm : ∀ d ∈ ds, d.Met (D ++ x :: c)) :
    ∃ base', ((demanding ds D base).read 1).outcome = .ok [x] ∧
      ((demanding ds D base).read 1).state = demanding ds (D ++ [x]) base' ∧
      Delivers Buffer.Usable request none base' c := by
  have hb : (Buffer.zeroed 1).Usable := .of_zeroed (by decide) (.refl _)
  cases hd with
  | more k h hpos hroom _ hput next =>
    have hone : k (.zeroed 1) = 1 := by
      have := hpos _ hb
      have := hroom _ hb
      rw [Buffer.size_zeroed] at this
      omega
    have ho := h _ hb
    have hnext := next _ hb
    have hfront : (base.request (.zeroed 1)).buffer.bytes.take 1 = [x] := by
      rw [hput _ hb, hone]
      exact Bytes.take_overwrite_take _ (by simp)
    rw [hone] at ho hnext
    have hp : ∀ d ∈ ds, d.fault D 1 = none := fun d hd => Demand.faultless_of_met (hm d hd) (by simp) (by simp)
    have hroom : 1 ≤ (base.request (.zeroed 1)).buffer.size := by
      have hlen := congrArg List.length hfront
      simp only [List.length_take, List.length_cons, List.length_nil] at hlen
      simp only [Buffer.size]
      omega
    obtain ⟨hout, hbuf, fs, htop, -, hfs⟩ := request_pass hb.size hroom ho hp
    rw [hfs (by decide), hfront] at htop
    refine ⟨(base.request (.zeroed 1)).state, ?_, ?_, hnext⟩
    · rw [read_of_count hout (by rwa [hbuf]), hbuf, hfront]
    · rw [read_state, htop.demanding]

inductive Lined (ds : List Demand) (D c : Bytes) : Bytes → Stack σ → Prop
  | line {p c' : Bytes} {base : Stack σ} (hc : c = p ++ newline :: c') (hp : newline ∉ p)
      (hd : Delivers Buffer.Usable request none base c') :
      Lined ds D c (p ++ [newline]) (demanding ds (D ++ (p ++ [newline])) base)
  | last {s : Stack σ} (hc : newline ∉ c) (hs : s.Done) : Lined ds D c c s

theorem Lined.cons {x : UInt8} (hx : x ≠ newline) {line : Bytes} {s : Stack σ} (h : Lined ds (D ++ [x]) c line s) :
    Lined ds D (x :: c) (x :: line) s := by
  cases h with
  | @line p c' base hc hp hd =>
    have hp' : newline ∉ x :: p := fun hmem => (List.mem_cons.1 hmem).elim (fun he => hx he.symm) hp
    have hline : Lined ds D (x :: c) (x :: p ++ [newline]) (demanding ds (D ++ (x :: p ++ [newline])) base) :=
      .line (by rw [hc]; rfl) hp' hd
    rw [List.append_assoc]
    exact hline
  | last hc hs => exact .last (fun hmem => (List.mem_cons.1 hmem).elim (fun he => hx he.symm) hc) hs

theorem lineComplete_byte (total : Nat) (x : UInt8) : lineComplete (-1) total [x] = (x == newline) := by
  simp [lineComplete]

theorem gather_line (hne : ds ≠ []) (hd : Delivers Buffer.Usable request none base c) (hm : ∀ d ∈ ds, d.Met (D ++ c))
    {g : Gathered} (hg : lineComplete (-1) g.total g.last = false) {budget : Nat} (hn : c.length < budget) :
    ∃ turn ps, gather (fun t => some (untilEmpty (t.read 1))) (lineComplete (-1)) budget (demanding ds D base) g =
        some turn ∧
      turn.outcome = .ok (g.pieces.reverse ++ ps) ∧ Lined ds D c ps.flatten turn.state := by
  induction c generalizing D base g budget with
  | nil =>
    obtain ⟨budget, rfl⟩ : ∃ m, budget = m + 1 := ⟨budget - 1, by omega⟩
    obtain ⟨hout, hdone⟩ := read_end hne hd (by simpa using hm)
    have hstep : (untilEmpty ((demanding ds D base).read 1)).outcome = .ok none := by
      simp [untilEmpty, hout, Except.map]
    exact ⟨_, [], gather_done rfl hg hstep budget, by simp, .last (by simp) hdone⟩
  | cons x xs ih =>
    obtain ⟨budget, rfl⟩ : ∃ m, budget = m + 1 := ⟨budget - 1, by omega⟩
    obtain ⟨base', hout, hstate, hnext⟩ := read_byte hd hm
    have hstep : (untilEmpty ((demanding ds D base).read 1)).outcome = .ok (some [x]) := by
      simp [untilEmpty, hout, Except.map]
    have hafter : (untilEmpty ((demanding ds D base).read 1)).state = demanding ds (D ++ [x]) base' := hstate
    rw [gather_piece rfl hg hstep, hafter]
    generalize hes : (untilEmpty ((demanding ds D base).read 1)).events = es
    have hlast : lineComplete (-1) (g.add [x] es).total (g.add [x] es).last = (x == newline) := lineComplete_byte _ x
    have hm' : ∀ d ∈ ds, d.Met (D ++ [x] ++ xs) := by simpa using hm
    rw [List.length_cons] at hn
    by_cases hx : x = newline
    · subst hx
      obtain ⟨budget, rfl⟩ : ∃ m, budget = m + 1 := ⟨budget - 1, by omega⟩
      rw [beq_self_eq_true] at hlast
      refine ⟨_, [[newline]], by rw [gather, if_pos hlast], by simp [Gathered.add], ?_⟩
      exact .line (p := []) rfl (by simp) hnext
    · rw [beq_eq_false_iff_ne.2 hx] at hlast
      have hbudget : xs.length < budget := by omega
      obtain ⟨turn, ps, hturn, hps, hline⟩ := ih hnext hm' hlast hbudget
      exact ⟨turn, [x] :: ps, hturn, by simpa [Gathered.add] using hps, hline.cons hx⟩

theorem readLine_lined (hne : ds ≠ []) (hd : Delivers Buffer.Usable request none base c)
    (hm : ∀ d ∈ ds, d.Met (D ++ c)) {budget : Nat} (hn : c.length < budget) :
    ∃ turn line, readLine (-1) budget (demanding ds D base) = some turn ∧ turn.outcome = .ok line ∧
      Lined ds D c line turn.state := by
  obtain ⟨turn, ps, hturn, hps, hline⟩ := gather_line hne hd hm (g := {}) rfl hn
  refine ⟨joined turn id, ps.flatten, ?_, ?_, hline⟩
  · rw [readLine, hturn]
    rfl
  · simp [joined, hps, Except.map]

def lineStep (budget : Nat) (s : Stack σ) : Option (Turn (Stack σ) (Option Bytes)) :=
  (readLine (-1) budget s).map untilEmpty

def linesRead (hint : Int) (budget : Nat) (s : Stack σ) : List Bytes :=
  if s.closed then []
  else kept (lineStep budget) (fun total _ => 0 < hint && hint < total) budget s {}

theorem gather_lines (hne : ds ≠ []) {enough : Nat → Bytes → Bool} (he : ∀ total last, enough total last = false)
    {limit : Nat} (hd : Delivers Buffer.Usable request none base c) (hm : ∀ d ∈ ds, d.Met (D ++ c))
    (hlimit : c.length < limit) (g : Gathered) {budget : Nat} (hn : c.length < budget) :
    ∃ turn, gather (lineStep limit) enough budget (demanding ds D base) g = some turn ∧
      turn.state.state? = some .succeeded ∧
      (Bytes.EndsLine c → turn.outcome = .ok (g.pieces.reverse ++ Bytes.lines c)) ∧
      (¬ Bytes.EndsLine c → turn.outcome = .error (.streamEnded .succeeded)) ∧
      kept (lineStep limit) enough budget (demanding ds D base) g = g.pieces.reverse ++ Bytes.lines c := by
  -- On the budget: each line that has its newline leaves readers that still stream.
  induction budget generalizing D c base g with
  | zero => omega
  | succ budget ih =>
    obtain ⟨⟨_, s, es⟩, line, hread, rfl, hline⟩ := readLine_lined hne hd hm hlimit
    have hstep : lineStep limit (demanding ds D base) =
        some ⟨.ok (if line.isEmpty then none else some line), s, es⟩ := by
      rw [lineStep, hread]
      rfl
    cases hline with
    | @line p c' base' hc hp hd' =>
      subst hc
      have hsome : (p ++ [newline]).isEmpty = false := by simp
      rw [hsome] at hstep
      have hm' : ∀ d ∈ ds, d.Met (D ++ (p ++ [newline]) ++ c') := by simpa using hm
      have hlen : (p ++ newline :: c').length = p.length + c'.length + 1 := by
        simp only [List.length_append, List.length_cons]
        omega
      obtain ⟨turn, hturn, hstate, hclosed, hopen, hkept⟩ :=
        ih hd' hm' (by omega) (g.add (p ++ [newline]) es) (by omega)
      rw [gather_piece hstep (he _ _) rfl, kept_piece hstep (he _ _) rfl, Bytes.endsLine_append, Bytes.lines_append hp]
      have hpieces : ∀ ls : List Bytes, (g.add (p ++ [newline]) es).pieces.reverse ++ ls =
          g.pieces.reverse ++ (p ++ [newline]) :: ls := by
        simp [Gathered.add]
      rw [hpieces] at hclosed hkept
      exact ⟨turn, hturn, hstate, hclosed, hopen, hkept⟩
    | last hc hdone =>
      by_cases hnil : c = []
      · subst hnil
        rw [gather_done hstep (he _ _) rfl, kept_halts hstep (he _ _) (by simp)]
        refine ⟨_, rfl, hdone.state?, fun _ => ?_, fun h => absurd (.inl rfl) h, ?_⟩
        · simp [Bytes.lines]
        · simp [Bytes.lines]
      · -- The last line lacks its newline, so the loop asks once more, and is refused.
        have hpos := List.length_pos_iff.2 hnil
        obtain ⟨budget, rfl⟩ : ∃ m, budget = m + 1 := ⟨budget - 1, by omega⟩
        obtain ⟨limit, rfl⟩ : ∃ m, limit = m + 1 := ⟨limit - 1, by omega⟩
        have hsome : c.isEmpty = false := by simpa using hnil
        rw [hsome] at hstep
        have hrefused : lineStep (limit + 1) s = some ⟨.error (.streamEnded .succeeded), s, []⟩ := by
          rw [lineStep, readLine_fails_of_request hdone.request (by decide)]
          rfl
        have hopen := Bytes.not_endsLine hc hnil
        rw [gather_piece hstep (he _ _) rfl, gather_failed hrefused (he _ _) rfl, kept_piece hstep (he _ _) rfl,
          kept_halts hrefused (he _ _) (by simp), Bytes.lines_of_not_mem hc hnil]
        exact ⟨_, rfl, hdone.state?, fun h => absurd h hopen, fun _ => rfl, by simp [Gathered.add]⟩

theorem readLines_guarded (hne : ds ≠ []) (hd : Delivers Buffer.Usable request none base c) (hm : ∀ d ∈ ds, d.Met c)
    {hint : Int} (hh : hint ≤ 0) {budget : Nat} (hn : c.length < budget) :
    ∃ turn, readLines hint budget (guarded ds base) = some turn ∧ turn.state.state? = some .succeeded ∧
      (Bytes.EndsLine c → turn.outcome = .ok (Bytes.lines c)) ∧
      (¬ Bytes.EndsLine c → turn.outcome = .error (.streamEnded .succeeded)) ∧
      linesRead hint budget (guarded ds base) = Bytes.lines c := by
  have henough : ∀ (total : Nat) (_ : Bytes), (0 < hint && hint < (total : Int)) = false := by
    intro total _
    simp only [Bool.and_eq_false_iff, decide_eq_false_iff_not]
    omega
  have hopen : (guarded ds base).closed = false := by
    obtain ⟨d, ds, rfl⟩ := List.exists_cons_of_ne_nil hne
    cases d <;> rfl
  obtain ⟨turn, hturn, hrest⟩ := gather_lines hne henough hd (D := []) hm hn {} hn
  rw [demanding_nil] at hturn hrest
  refine ⟨turn, ?_, ?_⟩
  · simp only [readLines, hopen]
    exact hturn
  · simp only [linesRead, hopen]
    exact hrest

end Stack

theorem Delivers.length_le_weight {s : Stack Endpoint} {c : Bytes} {ending : Option Failure}
    (h : Delivers Buffer.Usable Stack.request ending s c) : c.length ≤ s.origin.weight := by
  have hb : (Buffer.zeroed 1).Usable := .of_zeroed (by decide) (.refl _)
  induction h with
  | done => exact Nat.zero_le _
  | more k h hpos hroom _ _ _ ih =>
    -- Byte by byte: each request lowers the weight.
    have hsome := hpos _ hb
    have hroom := hroom _ hb
    have hlower := Stack.weight_serve (h _ hb) (by omega) hb.size
    have hrest := ih _ hb
    rw [Buffer.size_zeroed] at hroom
    simp only [List.length_drop] at hrest
    simp only [Stack.request] at hrest
    omega

theorem ok_iff_of_cases {α : Type} {P : Prop} {outcome : Except Failure α} {v : α} {f : Failure}
    (h : P → outcome = .ok v) (hnot : ¬ P → outcome = .error f) : outcome = .ok v ↔ P := by
  refine ⟨fun ho => Classical.byContradiction fun hp => ?_, h⟩
  rw [hnot hp] at ho
  cases ho

namespace Workspace

theorem useReader_lines {w : Workspace} {id : Nat} {l : Located} (hl : locate w.objects id = some l) {ds : List Demand}
    (hne : ds ≠ []) {base : Stack Endpoint} (hstack : l.stack = Stack.guarded ds base) {c : Bytes}
    (hd : Delivers Buffer.Usable Stack.request none base c) (hm : ∀ d ∈ ds, d.Met c) (r : Reader) {a : Action}
    (ha : a = .iterate ∨ a = .readLines none) :
    (Bytes.EndsLine c → (w.useReader id r a).step.outcome = .ok (.lines (Bytes.lines c))) ∧
      (¬ Bytes.EndsLine c → (w.useReader id r a).step.outcome = .error (.streamEnded .succeeded)) := by
  have hbudget : c.length < budget l.stack := by
    have hweight : base.origin.weight = l.stack.origin.weight := by
      rw [hstack]
      rfl
    have hle := hd.length_le_weight
    rw [Stack.budget_eq]
    omega
  obtain ⟨turn, hturn, -, hclosed, hopen, -⟩ :=
    Stack.readLines_guarded hne hd hm (by decide : (-1 : Int) ≤ 0) hbudget
  have huse : (w.useReader id r a).step.outcome = turn.outcome.map .lines := by
    have hloop : looped (Stack.readLines (-1)) l.stack = turn := by
      rw [← hstack] at hturn
      rw [looped, hturn]
      rfl
    have hrun : (w.runAs id Value.lines (looped (Stack.readLines (-1)))).step.outcome = turn.outcome.map .lines := by
      rw [runAs_located hl, hloop]
    rcases ha with rfl | rfl <;> exact hrun
  rw [huse]
  exact ⟨fun h => by rw [hclosed h]; rfl, fun h => by rw [hopen h]; rfl⟩

end Workspace

namespace Stack

theorem line_iteration :
    (∀ {σ : Type} [ByteSource σ] {ds : List Demand} {base : Stack σ} {c : Bytes} {hint : Int} {budget : Nat},
      ds ≠ [] → Delivers Buffer.Usable request none base c → (∀ d ∈ ds, d.Met c) → hint ≤ 0 → c.length < budget →
        ∃ turn, readLines hint budget (guarded ds base) = some turn ∧ turn.state.state? = some .succeeded ∧
          (turn.outcome = .ok (Bytes.lines c) ↔ Bytes.EndsLine c) ∧
          (¬ Bytes.EndsLine c → ∃ f, turn.outcome = .error f ∧ f.kind = .readerClosed) ∧
          linesRead hint budget (guarded ds base) = Bytes.lines c) ∧
    (∀ c : Bytes, (Bytes.lines c).flatten = c ∧
      (Bytes.EndsLine c → ∀ line ∈ Bytes.lines c, ∃ p, newline ∉ p ∧ line = p ++ [newline])) ∧
    ∀ {w : Workspace} {target : Target} {c : Bytes} {size : Int} {value : DigestValue},
      w.Offers Buffer.Usable target c none → c.length ≤ size → value.toBytes = .ok (Sha256.digest c) →
        ∃ id, (w.fetchDigest target (.number size) value).outcome = .ok id ∧
          ∀ (r : Reader) (a : Action), a = .iterate ∨ a = .readLines none →
            let step := ((w.fetchDigest target (.number size) value).workspace.useReader id r a).step
            (step.outcome = .ok (.lines (Bytes.lines c)) ↔ Bytes.EndsLine c) ∧
              (¬ Bytes.EndsLine c → ∃ f, step.outcome = .error f ∧ f.kind = .readerClosed) := by
  refine ⟨?_, fun c => ⟨Bytes.flatten_lines c, Bytes.mem_lines⟩, ?_⟩
  · intro σ _ ds base c hint budget hne hd hm hh hn
    obtain ⟨turn, hturn, hstate, hclosed, hopen, hkept⟩ := readLines_guarded hne hd hm hh hn
    exact ⟨turn, hturn, hstate, ok_iff_of_cases hclosed hopen, fun h => ⟨_, hopen h, rfl⟩, hkept⟩
  · intro w target c size value hoffers hsize hvalue
    have hpos : 0 ≤ size := by omega
    obtain ⟨id, l, base, hid, hl, hstack, hd⟩ :=
      Workspace.fetchDigest_of_opens (hoffers.opens fun _ hb => hb) hpos hvalue
    have hm : ∀ d ∈ [Demand.digest (Sha256.digest c), .limit size.toNat], d.Met c := by
      have hlen : c.length ≤ size.toNat := by omega
      simp only [List.forall_mem_cons]
      exact ⟨rfl, hlen, by simp⟩
    refine ⟨id, hid, fun r a ha => ?_⟩
    obtain ⟨hclosed, hopen⟩ := Workspace.useReader_lines hl (by simp) hstack hd hm r ha
    exact ⟨ok_iff_of_cases hclosed hopen, fun h => ⟨_, hopen h, rfl⟩⟩

def unended : Script :=
  { api := {}, items := [.data [97, 10, 98] none, .data [99] none] }

theorem line_iteration_unended :
    (∃ turn, readLines 0 5 (guarded [.limit 4] ⟨[.file {}], .direct unended⟩) = some turn ∧
      turn.state.state? = some .succeeded ∧ (∃ f, turn.outcome = .error f ∧ f.kind = .readerClosed) ∧
      linesRead 0 5 (guarded [.limit 4] ⟨[.file {}], .direct unended⟩) = [[97, 10], [98, 99]]) ∧
    ∃ id, (Workspace.fetchDigest { objects := [.script "s" unended] } (.object 0) (.number 4)
        (.bytes (Sha256.digest [97, 10, 98, 99]))).outcome = .ok id ∧
      ∀ r : Reader, ∃ f, ((Workspace.fetchDigest { objects := [.script "s" unended] } (.object 0) (.number 4)
        (.bytes (Sha256.digest [97, 10, 98, 99]))).workspace.useReader id r .iterate).step.outcome = .error f ∧
        f.kind = .readerClosed := by
  obtain ⟨hstream, -, hfetch⟩ := line_iteration
  have hplays : Script.Plays none unended.items [97, 10, 98, 99] :=
    .data (p := [97, 10, 98]) (by simp) (.data (p := [99]) (by simp) (.nil rfl))
  have hopen : ¬ Bytes.EndsLine [97, 10, 98, 99] := by
    simp [Bytes.EndsLine, newline]
  constructor
  · have hscript : Delivers Buffer.Usable (Origin.supplyDirect .unchecked) none unended [97, 10, 98, 99] :=
      hplays.delivers (Script.answers_readInto rfl .unchecked) rfl rfl
    have hbase := delivers_file (a := {}) rfl (delivers_direct hscript) .checked
    have hm : ∀ d ∈ [Demand.limit 4], d.Met [97, 10, 98, 99] := by
      simp [Demand.Met]
    obtain ⟨turn, hturn, hstate, -, hrefused, hlines⟩ :=
      hstream (by simp) hbase hm (Int.le_refl 0) (by decide : [97, 10, 98, 99].length < 5)
    exact ⟨turn, hturn, hstate, hrefused hopen, hlines⟩
  · have hoffers : Workspace.Offers { objects := [.script "s" unended] } Buffer.Usable (.object 0) [97, 10, 98, 99]
        none := Workspace.offers_script rfl rfl hplays
    obtain ⟨id, hid, huse⟩ := @hfetch _ (.object 0) _ 4 (.bytes (Sha256.digest [97, 10, 98, 99])) hoffers
      (by decide) rfl
    exact ⟨id, hid, fun r => (huse r .iterate (.inl rfl)).2 hopen⟩

end Stack

end StreamGuard
