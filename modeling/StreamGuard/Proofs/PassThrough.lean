import StreamGuard.Proofs.Fetch
import StreamGuard.Proofs.Lifecycle

namespace StreamGuard

namespace Move

def Fits : Move → Prop
  | .plain (.readInto (some b)) => b.size = 0 ∨ b.Usable
  | .plain .close => False
  | _ => True

/-- The move asked for a byte at least, and this value of it says that there is none left. -/
def Exhausted : Move → Value → Prop
  | .plain (.readInto (some b)), v => b.size ≠ 0 ∧ v = .count 0
  | .plain (.read n), v => n ≠ 0 ∧ v = .bytes []
  | .plain (.readAll _), _ => True
  | .plain (.readToEnd ..), _ => True
  | .readLine limit _, v => limit ≠ 0 ∧ v = .bytes []
  | .next _, v => v = .none
  | .readLines hint _, v => hint ≤ 0 ∨ v = .lines []
  | _, _ => False

end Move

theorem Bytes.take_overwrite_take (bs : Bytes) {front : Bytes} {n : Nat} (h : n ≤ front.length) :
    (bs.overwrite (front.take n)).take n = front.take n := by
  have htake := take_overwrite bs (front.take n)
  rwa [List.length_take_of_le h] at htake

theorem exists_of_isOk {α : Type} {x : Except Failure α} (h : x.isOk = true) : ∃ a, x = .ok a := by
  cases x with
  | error f => cases h
  | ok a => exact ⟨a, rfl⟩

def Value.content : Value → Bytes
  | bytes bs => bs
  | lines ls => ls.flatten
  | _ => []

namespace Stack

variable {σ : Type}

def returned (turn : Turn (Stack σ × Option Buffer) Value) : Bytes :=
  match turn.outcome, turn.state.2 with
  | .ok (.count k), some b => b.bytes.upTo k
  | .ok v, _ => v.content
  | .error _, _ => []

theorem returned_bare {α : Type} {shown : α → Value} {turn : Turn (Stack σ) α} {a : α} (h : turn.outcome = .ok a) :
    returned (bare shown turn) = (shown a).content := by
  simp only [returned, bare, h, Except.map]

theorem untilEmpty_piece {turn : Turn (Stack σ) Bytes} {p : Bytes}
    (h : (untilEmpty turn).outcome = .ok (some p)) : turn.outcome = .ok p := by
  obtain ⟨bs, hbs, hpiece⟩ := map_eq_ok_iff.1 h
  split at hpiece
  · cases hpiece
  · cases hpiece
    exact hbs

theorem untilEmpty_end {turn : Turn (Stack σ) Bytes} (h : (untilEmpty turn).outcome = .ok none) :
    turn.outcome = .ok [] := by
  obtain ⟨bs, hbs, hpiece⟩ := map_eq_ok_iff.1 h
  split at hpiece
  · rename_i hempty
    rwa [List.isEmpty_iff.1 hempty] at hbs
  · cases hpiece

theorem Topped.succeeded {s base : Stack σ} {fs : List Reader} (htop : Topped s fs base) {ds : List Demand}
    (hne : ds ≠ []) (hs : fs.map Reader.state = List.replicate ds.length .succeeded) :
    ∃ r, s.top? = some r ∧ r.state = .succeeded := by
  cases ds with
  | nil => exact absurd rfl hne
  | cons d ds =>
    cases fs with
    | nil => cases hs
    | cons r fs => exact ⟨r, by rw [htop]; rfl, (List.cons.inj hs).1⟩

variable [ByteSource σ] {ds : List Demand} {c D : Bytes} {s : Stack σ}

inductive PassedOn (ds : List Demand) (c : Bytes) : Bytes → Stack σ → Prop
  | streaming {D c' : Bytes} {base : Stack σ} (hc : c = D ++ c')
      (h : Delivers Buffer.Usable request none base c') (hl : ∀ n, .limit n ∈ ds → D.length ≤ n) :
      PassedOn ds c D (demanding ds D base)
  | ended {fs : List Reader} {base s : Stack σ} (htop : Topped s fs base)
      (hs : fs.map Reader.state = List.replicate ds.length .succeeded) : PassedOn ds c c s

def Spent (ds : List Demand) (c : Bytes) (s : Stack σ) (D : Bytes) : Prop :=
  PassedOn ds c D s ∧ D = c ∧ s.state? = some .succeeded

theorem PassedOn.isPrefix (h : PassedOn ds c D s) : D <+: c := by
  cases h with
  | streaming hc => exact ⟨_, hc.symm⟩
  | ended => exact List.prefix_refl c

theorem Spent.of_ended {fs : List Reader} {base : Stack σ} (hne : ds ≠ []) (htop : Topped s fs base)
    (hs : fs.map Reader.state = List.replicate ds.length .succeeded) : Spent ds c s c := by
  obtain ⟨r, hr, hdone⟩ := htop.succeeded hne hs
  exact ⟨.ended htop hs, rfl, by rw [state?_of_top? hr, hdone]⟩

theorem PassedOn.top? (hne : ds ≠ []) (h : PassedOn ds c D s) :
    ∃ r, s.top? = some r ∧ (r.refusal = none → ∃ c' base, s = demanding ds D base ∧ c = D ++ c' ∧
      Delivers Buffer.Usable request none base c' ∧ ∀ n, .limit n ∈ ds → D.length ≤ n) := by
  cases h with
  | @streaming _ c' base hc h hl =>
    cases ds with
    | nil => exact absurd rfl hne
    | cons d ds => exact ⟨d.reader D, rfl, fun _ => ⟨c', base, rfl, hc, h, hl⟩⟩
  | ended htop hs =>
    obtain ⟨r, hr, hdone⟩ := htop.succeeded hne hs
    refine ⟨r, hr, fun hf => ?_⟩
    have hstream := (Reader.refusal_eq_none_iff.1 hf).2
    rw [hdone] at hstream
    cases hstream

section

variable {c' : Bytes} {base : Stack σ} {b : Buffer} {k : Int} (hb : b.Usable)
  (ho : ((demanding ds D base).request b).outcome = .ok k)

include hb ho

theorem request_passed_end (hne : ds ≠ []) (hl : ∀ n, .limit n ∈ ds → D.length ≤ n)
    (hdone : (base.request b).outcome = (none : Option Failure).elim (.ok 0) .error) :
    k = 0 ∧ Spent ds D ((demanding ds D base).request b).state D := by
  obtain ⟨fs, htop, ⟨hout, hv⟩ | ⟨f, hout, -⟩⟩ := request_last hb.size hdone hl
  · rw [hout] at ho
    cases ho
    generalize hs : fs.map Reader.state = states at hv
    cases hv with
    | passed => exact ⟨rfl, .of_ended hne htop hs⟩
  · rw [hout] at ho
    cases ho

theorem request_passed_piece {n : Nat} (hpos : 0 < n) (hroom : n ≤ b.size) (hleft : n ≤ c'.length)
    (hcount : (base.request b).outcome = .ok n)
    (hput : (base.request b).buffer = { b with bytes := b.bytes.overwrite (c'.take n) })
    (next : Delivers Buffer.Usable request none (base.request b).state (c'.drop n)) :
    k = n ∧ b.Becomes ((demanding ds D base).request b).buffer ∧
      PassedOn ds (D ++ c') (D ++ ((demanding ds D base).request b).buffer.bytes.take n)
        ((demanding ds D base).request b).state := by
  have hfront : (base.request b).buffer.bytes.take n = c'.take n := by
    rw [hput]
    exact Bytes.take_overwrite_take b.bytes hleft
  have hkept : b.Becomes (base.request b).buffer := by
    rw [hput]
    exact .overwrite hb.writable (by rwa [List.length_take_of_le hleft])
  have hheld : n ≤ (base.request b).buffer.size := by rwa [Buffer.size, hkept.size]
  obtain ⟨hfits, hout, hbuf, hstate⟩ | ⟨f, -, hout, -⟩ := request_piece hb hpos hheld hcount
  · rw [hout] at ho
    cases ho
    rw [hbuf, hstate, hfront]
    refine ⟨rfl, hkept, .streaming (by rw [List.append_assoc, List.take_append_drop]) next fun m hm => ?_⟩
    rw [List.length_append, List.length_take_of_le hleft]
    exact hfits m hm
  · rw [hout] at ho
    cases ho

end

section

variable (hne : ds ≠ []) (h : PassedOn ds c D s)

include hne h

theorem request_passed {b : Buffer} (hb : b.size = 0 ∨ b.Usable) {k : Int} (ho : (s.request b).outcome = .ok k) :
    0 ≤ k ∧ k ≤ (s.request b).buffer.size ∧ (k ≠ 0 → b.Becomes (s.request b).buffer) ∧
      PassedOn ds c (D ++ (s.request b).buffer.bytes.upTo k) (s.request b).state ∧
      (k = 0 → b.size ≠ 0 → Spent ds c (s.request b).state D) := by
  obtain ⟨r, hr, hopen⟩ := h.top? hne
  have hrefusal : r.refusal = none := by
    cases hf : r.refusal with
    | none => rfl
    | some f =>
      rw [request_refusal hr hf] at ho
      cases ho
  obtain ⟨c', base, rfl, rfl, hd, hl⟩ := hopen hrefusal
  rcases hb with hb | hb
  · rw [request_empty hr hb, hrefusal] at ho ⊢
    cases ho
    exact ⟨Int.le_refl 0, by omega, fun _ => .refl b, by simpa using h, fun _ hz => absurd hb hz⟩
  · cases hd with
    | done hdone =>
      obtain ⟨rfl, hspent⟩ := request_passed_end hb ho hne hl (hdone b hb)
      rw [List.append_nil, Bytes.upTo_zero, List.append_nil]
      exact ⟨Int.le_refl 0, by omega, fun hz => absurd rfl hz, hspent.1, fun _ _ => hspent⟩
    | more n hcount hpos hroom hleft hput next =>
      obtain ⟨rfl, hkept, hpassed⟩ := request_passed_piece hb ho (hpos b hb) (hroom b hb) (hleft b hb) (hcount b hb)
        (hput b hb) (next b hb)
      have hsome := hpos b hb
      rw [Bytes.upTo_natCast]
      refine ⟨by omega, ?_, fun _ => hkept, hpassed, fun hz => by omega⟩
      rw [Buffer.size, hkept.size]
      exact_mod_cast hroom b hb

theorem read_passed {n : Nat} {bs : Bytes} (ho : (s.read n).outcome = .ok bs) :
    PassedOn ds c (D ++ bs) (s.read n).state ∧ (bs = [] → n ≠ 0 → Spent ds c (s.read n).state (D ++ bs)) := by
  have hb : (Buffer.zeroed n).size = 0 ∨ (Buffer.zeroed n).Usable := by
    by_cases hn : n = 0
    · exact .inl (by simp [hn])
    · exact .inr (.of_zeroed (by omega) (.refl _))
  rw [read_state]
  cases hk : (s.request (.zeroed n)).outcome with
  | error f =>
    simp only [read, hk] at ho
    cases ho
  | ok k =>
    obtain ⟨h0, hle, -, hpassed, hspent⟩ := request_passed hne h hb hk
    obtain ⟨m, rfl⟩ := Int.eq_ofNat_of_zero_le h0
    have hm : m ≤ (s.request (.zeroed n)).buffer.size := by exact_mod_cast hle
    rw [Bytes.upTo_natCast] at hpassed
    have hbs : bs = (s.request (.zeroed n)).buffer.bytes.take m := by
      rw [read_of_count hk hm] at ho
      cases ho
      rfl
    rw [← hbs] at hpassed
    refine ⟨hpassed, fun hnil hn => ?_⟩
    have hzero : m = 0 := by
      have hlen := congrArg List.length (hbs.symm.trans hnil)
      simp only [List.length_take, List.length_nil] at hlen
      simp only [Buffer.size] at hm
      omega
    rw [hnil, List.append_nil]
    exact hspent (by simp [hzero]) (by simpa using hn)

theorem gatherReads_passed {n : Nat} (hn : n ≠ 0) {enough : Nat → Bytes → Bool} {budget : Nat}
    {answer : Turn (Stack σ) (List Bytes)} {ps : List Bytes}
    (ha : gather (fun t => some (untilEmpty (t.read n))) enough budget s {} = some answer)
    (ho : answer.outcome = .ok ps) :
    Spent ds c answer.state (D ++ ps.flatten) ∨
      PassedOn ds c (D ++ ps.flatten) answer.state ∧ enough ps.flatten.length (ps.reverse.headD []) = true := by
  refine gather_collects ha ho (fun u D => PassedOn ds c D u) (Spent ds c) h ?_ ?_
  · rintro u D turn p hu hs hp
    cases hs
    exact (read_passed hne hu (untilEmpty_piece hp)).1
  · rintro u D turn hu hs hd
    cases hs
    have hspent := (read_passed hne hu (untilEmpty_end hd)).2 rfl hn
    rwa [List.append_nil] at hspent

theorem readLine_passed {limit : Int} {budget : Nat} {turn : Turn (Stack σ) Bytes} {bs : Bytes}
    (ht : s.readLine limit budget = some turn) (ho : turn.outcome = .ok bs) :
    PassedOn ds c (D ++ bs) turn.state ∧ (bs = [] → limit ≠ 0 → Spent ds c turn.state (D ++ bs)) := by
  obtain ⟨answer, ha, rfl⟩ := Option.map_eq_some_iff.1 ht
  obtain ⟨ps, hps, rfl⟩ := map_eq_ok_iff.1 ho
  rcases gatherReads_passed hne h (by decide) ha hps with hspent | ⟨hpassed, henough⟩
  · exact ⟨hspent.1, fun _ _ => hspent⟩
  · refine ⟨hpassed, fun hnil hlimit => ?_⟩
    -- With nothing collected a line is complete only if nothing was asked for.
    have hlast : ps.reverse.headD [] = [] := by
      cases hrev : ps.reverse with
      | nil => rfl
      | cons p rest => exact List.flatten_eq_nil_iff.1 hnil p (by rw [← List.mem_reverse, hrev]; simp)
    simp only [hnil, hlast, lineComplete, List.length_nil] at henough
    simp at henough
    omega

theorem readLines_passed {hint : Int} {budget : Nat} {turn : Turn (Stack σ) (List Bytes)} {ls : List Bytes}
    (ht : s.readLines hint budget = some turn) (ho : turn.outcome = .ok ls) :
    PassedOn ds c (D ++ ls.flatten) turn.state ∧
      (hint ≤ 0 ∨ ls = [] → Spent ds c turn.state (D ++ ls.flatten)) := by
  unfold readLines at ht
  split at ht
  · cases ht
    cases ho
  · have hloop := gather_collects ht ho (fun u D => PassedOn ds c D u) (Spent ds c) h
      (fun {u D turn p} hu hs hp => by
        obtain ⟨line, hline, rfl⟩ := Option.map_eq_some_iff.1 hs
        exact (readLine_passed hne hu hline (untilEmpty_piece hp)).1)
      (fun {u D turn} hu hs hd => by
        obtain ⟨line, hline, rfl⟩ := Option.map_eq_some_iff.1 hs
        have hspent := (readLine_passed hne hu hline (untilEmpty_end hd)).2 rfl (by decide)
        rwa [List.append_nil] at hspent)
    rcases hloop with hspent | ⟨hpassed, henough⟩
    · exact ⟨hspent.1, fun _ => hspent⟩
    · refine ⟨hpassed, fun hdone => ?_⟩
      simp only [Bool.and_eq_true, decide_eq_true_eq] at henough
      rcases hdone with hhint | rfl
      · omega
      · simp at henough
        omega

theorem readAll_passed {budget : Nat} {turn : Turn (Stack σ) Bytes} {bs : Bytes}
    (ht : s.readAll budget = some turn) (ho : turn.outcome = .ok bs) : Spent ds c turn.state (D ++ bs) := by
  obtain ⟨answer, ha, rfl⟩ := Option.map_eq_some_iff.1 ht
  obtain ⟨ps, hps, rfl⟩ := map_eq_ok_iff.1 ho
  rcases gatherReads_passed hne h (by decide) ha hps with hspent | ⟨-, henough⟩
  · exact hspent
  · cases henough

theorem readToEnd_passed {chunk : Int} {budget : Nat} {turn : Turn (Stack σ) Bytes} {bs : Bytes}
    (ht : s.readToEnd chunk budget = some turn) (ho : turn.outcome = .ok bs) : Spent ds c turn.state (D ++ bs) := by
  unfold readToEnd at ht
  split at ht
  · cases ht
    cases ho
  · obtain ⟨answer, ha, rfl⟩ := Option.map_eq_some_iff.1 ht
    obtain ⟨ps, hps, rfl⟩ := map_eq_ok_iff.1 ho
    have husable : (Buffer.zeroed chunk.toNat).Usable := .of_zeroed (by omega) (.refl _)
    have hstep : ∀ {u : Stack σ × Buffer} {D : Bytes}, PassedOn ds c D u.1 → drainStep u =
        ⟨(u.1.request u.2).outcome.map fun count =>
            if count = 0 then none else some ((u.1.request u.2).buffer.bytes.upTo count),
          ((u.1.request u.2).state, (u.1.request u.2).buffer), (u.1.request u.2).events⟩ := by
      intro u D hu
      obtain ⟨r, hr, -⟩ := hu.top? hne
      exact drainStep_layered (layered_of_top? hr) u.2
    have hloop := gather_collects ha hps (fun u D => PassedOn ds c D u.1 ∧ u.2.Usable) (fun u => Spent ds c u.1)
      ⟨h, husable⟩
      (fun {u D turn p} hu hs hp => by
        obtain ⟨hu, hb⟩ := hu
        rw [hstep hu] at hs
        cases hs
        obtain ⟨k, hk, hpiece⟩ := map_eq_ok_iff.1 hp
        split at hpiece
        · cases hpiece
        · rename_i hz
          cases hpiece
          obtain ⟨-, -, hkept, hpassed, -⟩ := request_passed hne hu (.inr hb) hk
          exact ⟨hpassed, hb.becomes (hkept hz)⟩)
      (fun {u D turn} hu hs hd => by
        obtain ⟨hu, hb⟩ := hu
        rw [hstep hu] at hs
        cases hs
        obtain ⟨k, hk, hpiece⟩ := map_eq_ok_iff.1 hd
        split at hpiece
        · rename_i hzero
          exact (request_passed hne hu (.inr hb) hk).2.2.2.2 hzero hb.size
        · cases hpiece)
    rcases hloop with hspent | ⟨-, henough⟩
    · exact hspent
    · cases henough

theorem move_passed {m : Move} (hm : m.Fits) {turn : Turn (Stack σ × Option Buffer) Value} {v : Value}
    (ht : s.move m = some turn) (hv : turn.outcome = .ok v) :
    PassedOn ds c (D ++ returned turn) turn.state.1 ∧
      (m.Exhausted v → Spent ds c turn.state.1 (D ++ returned turn)) := by
  cases m with
  | plain op =>
    cases op with
    | readInto b =>
      cases b with
      | none =>
        cases ht
        cases hv
      | some b =>
        obtain ⟨r, hr, -⟩ := h.top? hne
        cases ht
        obtain ⟨_, hcount, rfl⟩ := map_eq_ok_iff.1 hv
        simp only [returned, readInto_layered (layered_of_top? hr)] at hcount ⊢
        obtain ⟨k, hk, rfl⟩ := map_eq_ok_iff.1 hcount
        obtain ⟨-, -, -, hpassed, hspent⟩ := request_passed hne h hm hk
        simp only [hk, Except.map, Value.ofCount]
        refine ⟨hpassed, fun hnone => ?_⟩
        obtain ⟨hb, hzero⟩ := hnone
        cases hzero
        simpa using hspent rfl hb
    | read n =>
      cases ht
      obtain ⟨bs, hbs, rfl⟩ := map_eq_ok_iff.1 hv
      obtain ⟨hpassed, hspent⟩ := read_passed hne h hbs
      rw [returned_bare hbs]
      refine ⟨hpassed, fun hnone => ?_⟩
      obtain ⟨hn, hnil⟩ := hnone
      cases hnil
      exact hspent rfl hn
    | readAll budget =>
      obtain ⟨all, hall, rfl⟩ := Option.map_eq_some_iff.1 ht
      obtain ⟨bs, hbs, rfl⟩ := map_eq_ok_iff.1 hv
      have hspent := readAll_passed hne h hall hbs
      rw [returned_bare hbs]
      exact ⟨hspent.1, fun _ => hspent⟩
    | readToEnd chunk budget =>
      obtain ⟨all, hall, rfl⟩ := Option.map_eq_some_iff.1 ht
      obtain ⟨bs, hbs, rfl⟩ := map_eq_ok_iff.1 hv
      have hspent := readToEnd_passed hne h hall hbs
      rw [returned_bare hbs]
      exact ⟨hspent.1, fun _ => hspent⟩
    | close => exact hm.elim
  | readLine limit budget =>
    obtain ⟨line, hline, rfl⟩ := Option.map_eq_some_iff.1 ht
    obtain ⟨bs, hbs, rfl⟩ := map_eq_ok_iff.1 hv
    obtain ⟨hpassed, hspent⟩ := readLine_passed hne h hline hbs
    rw [returned_bare hbs]
    refine ⟨hpassed, fun hnone => ?_⟩
    obtain ⟨hlimit, hnil⟩ := hnone
    cases hnil
    exact hspent rfl hlimit
  | next budget =>
    obtain ⟨line, hline, rfl⟩ := Option.map_eq_some_iff.1 ht
    obtain ⟨bs, hbs, rfl⟩ := map_eq_ok_iff.1 hv
    obtain ⟨hpassed, hspent⟩ := readLine_passed hne h hline hbs
    rw [returned_bare hbs]
    by_cases hnil : bs = []
    · subst hnil
      exact ⟨hpassed, fun _ => hspent rfl (by decide)⟩
    · have hfull : bs.isEmpty = false := by simpa using hnil
      simp only [hfull]
      exact ⟨hpassed, fun hnone => by cases hnone⟩
  | readLines hint budget =>
    obtain ⟨lines, hlines, rfl⟩ := Option.map_eq_some_iff.1 ht
    obtain ⟨ls, hls, rfl⟩ := map_eq_ok_iff.1 hv
    obtain ⟨hpassed, hspent⟩ := readLines_passed hne h hlines hls
    rw [returned_bare hls]
    refine ⟨hpassed, fun hnone => hspent ?_⟩
    rcases hnone with hhint | hnil
    · exact .inl hhint
    · cases hnil
      exact .inr rfl

end

theorem state?_ended (hne : ds ≠ []) (h : PassedOn ds c D s) (hs : s.state? = some .succeeded) {es : List Event}
    {t : Stack σ} (ht : Reaches s es t) : t.state? = some .succeeded := by
  obtain ⟨r, hr, -⟩ := h.top? hne
  have hdone := state_of_state? hr hs
  obtain ⟨r', hr', hstate, -⟩ := top_reached hr ht
  rw [state?_of_top? hr', hstate (by simp [hdone]), hdone]

theorem play_passed (hne : ds ≠ []) (h : PassedOn ds c D s) {ms : List Move} (hfits : ∀ m ∈ ms, m.Fits)
    {turns : List (Turn (Stack σ × Option Buffer) Value)} {t : Stack σ} (hp : play move s ms = some (turns, t))
    (hok : ∀ turn ∈ turns, ∃ v, turn.outcome = .ok v) :
    PassedOn ds c (D ++ turns.flatMap returned) t ∧
      ((∃ x ∈ ms.zip turns, ∃ v, x.2.outcome = .ok v ∧ x.1.Exhausted v) →
        Spent ds c t (D ++ turns.flatMap returned)) := by
  induction ms generalizing D s turns with
  | nil =>
    cases hp
    exact ⟨by simpa using h, by simp⟩
  | cons m ms ih =>
    obtain ⟨turn, rest, hturn, hrest, rfl⟩ := play_cons.1 hp
    obtain ⟨hm, hms⟩ := List.forall_mem_cons.1 hfits
    obtain ⟨⟨v, hv⟩, hoks⟩ := List.forall_mem_cons.1 hok
    obtain ⟨hnext, hspent⟩ := move_passed hne h hm hturn hv
    obtain ⟨hfinal, hlater⟩ := ih hnext hms hrest hoks
    rw [List.flatMap_cons, ← List.append_assoc]
    refine ⟨hfinal, fun hsome => ?_⟩
    rw [List.zip_cons_cons] at hsome
    obtain ⟨x, hx, v', hv', hexhausted⟩ := hsome
    rcases List.mem_cons.1 hx with rfl | hx
    · obtain ⟨-, hall, hstate⟩ := hspent (by rw [hv] at hv'; cases hv'; exact hexhausted)
      obtain ⟨r, hr, -⟩ := hnext.top? hne
      -- All of the stream has been returned, so what is returned later is nothing.
      have hprefix := hfinal.isPrefix
      rw [hall] at hprefix hfinal ⊢
      have hlen := hprefix.length_le
      rw [List.length_append] at hlen
      have hnone : rest.flatMap returned = [] := List.eq_nil_of_length_eq_zero (by omega)
      refine ⟨hfinal, by rw [hnone, List.append_nil], ?_⟩
      exact state?_ended hne hnext hstate (play_reaches (layered_of_top? hr) hrest)
    · exact hlater ⟨x, hx, v', hv', hexhausted⟩

theorem pass_through :
    (∀ {ds : List Demand} {base : Stack σ} {c : Bytes}, ds ≠ [] → Delivers Buffer.Usable request none base c →
      ∀ {ms turns t}, (∀ m ∈ ms, m.Fits) → play move (guarded ds base) ms = some (turns, t) →
        (∀ turn ∈ turns, ∃ v, turn.outcome = .ok v) →
          turns.flatMap returned <+: c ∧ PassedOn ds c (turns.flatMap returned) t ∧
            ((∃ x ∈ ms.zip turns, ∃ v, x.2.outcome = .ok v ∧ x.1.Exhausted v) →
              turns.flatMap returned = c ∧ t.state? = some .succeeded)) ∧
    ∀ {w : Workspace} {target : Target} {c : Bytes} {size : Int} {value : DigestValue} {expected : Bytes},
      w.Offers Buffer.Usable target c none → 0 ≤ size → value.toBytes = .ok expected →
        ∃ id l base, (w.fetchDigest target (.number size) value).outcome = .ok id ∧
          locate (w.fetchDigest target (.number size) value).workspace.objects id = some l ∧
          l.stack = guarded [.digest expected, .limit size.toNat] base ∧
          Delivers Buffer.Usable request none base c := by
  constructor
  · intro ds base c hne hd ms turns t hfits hp hok
    have hstart : PassedOn ds c [] (guarded ds base) := by
      rw [← demanding_nil]
      exact .streaming rfl hd fun _ _ => Nat.zero_le _
    obtain ⟨hpassed, hspent⟩ := play_passed hne hstart hfits hp hok
    rw [List.nil_append] at hpassed hspent
    exact ⟨hpassed.isPrefix, hpassed, fun hsome => (hspent hsome).2⟩
  · intro w target c size value expected hoffers hsize hvalue
    exact Workspace.fetchDigest_of_opens (hoffers.opens fun _ hb => hb) hsize hvalue

def pieces : Script :=
  { api := {}, items := [.data [1, 10, 2] none, .data [3, 4] none] }

def mixed : List Move :=
  [.next 9, .plain (.readInto (some (.zeroed 2))), .plain (.readToEnd 4 9)]

theorem pass_through_mixed :
    (∃ turns t, play move (guarded [.limit 5] ⟨[.file {}], .direct pieces⟩) mixed = some (turns, t) ∧
      turns.flatMap returned = [1, 10, 2, 3, 4] ∧ t.state? = some .succeeded) ∧
    ∃ id l base, (Workspace.fetchDigest { objects := [.script "s" pieces] } (.object 0) (.number 5)
        (.bytes [7])).outcome = .ok id ∧
      locate (Workspace.fetchDigest { objects := [.script "s" pieces] } (.object 0) (.number 5)
        (.bytes [7])).workspace.objects id = some l ∧ l.stack = guarded [.digest [7], .limit 5] base := by
  obtain ⟨hthrough, hfetch⟩ := @pass_through Script _
  have hplays : Script.Plays none pieces.items [1, 10, 2, 3, 4] :=
    .data (p := [1, 10, 2]) (by simp) (.data (p := [3, 4]) (by simp) (.nil rfl))
  constructor
  · have hscript : Delivers Buffer.Usable (Origin.supplyDirect .unchecked) none pieces [1, 10, 2, 3, 4] :=
      hplays.delivers (Script.answers_readInto rfl .unchecked) rfl rfl
    have hfits : ∀ m ∈ mixed, m.Fits := by
      simp [mixed, Move.Fits, Buffer.Usable.of_zeroed (n := 2) (by decide) (.refl _)]
    have heval : (play move (guarded [.limit 5] ⟨[.file {}], .direct pieces⟩) mixed).any (fun r =>
        r.1.length == 3 && r.1.all fun turn => turn.outcome.isOk) = true := by
      decide +kernel
    have hbase := delivers_file (a := {}) rfl (delivers_direct hscript) .checked
    cases hplay : play move (guarded [.limit 5] ⟨[.file {}], .direct pieces⟩) mixed with
    | none => simp [hplay] at heval
    | some r =>
      obtain ⟨turns, t⟩ := r
      simp only [hplay, Option.any_some, Bool.and_eq_true, beq_iff_eq] at heval
      obtain ⟨hlength, hoks⟩ := heval
      have hok : ∀ turn ∈ turns, ∃ v, turn.outcome = .ok v := fun turn hturn =>
        exists_of_isOk (List.all_eq_true.1 hoks turn hturn)
      obtain ⟨-, -, hall⟩ := hthrough (by simp) hbase hfits hplay hok
      rcases turns with _ | ⟨x, _ | ⟨y, _ | ⟨z, rest⟩⟩⟩
      · cases hlength
      · cases hlength
      · cases hlength
      · obtain ⟨v, hv⟩ := hok z (by simp)
        exact ⟨_, t, rfl, hall ⟨(.plain (.readToEnd 4 9), z), by simp [mixed], v, hv, trivial⟩⟩
  · have hoffers : Workspace.Offers { objects := [.script "s" pieces] } Buffer.Usable (.object 0) [1, 10, 2, 3, 4]
        none := Workspace.offers_script rfl rfl hplays
    obtain ⟨id, l, base, hid, hl, hstack, -⟩ := @hfetch _ (.object 0) _ 5 (.bytes [7]) [7] hoffers (by decide) rfl
    exact ⟨id, l, base, hid, hl, hstack⟩

end Stack

end StreamGuard
