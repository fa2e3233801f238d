import StreamGuard.Proofs.Fetch
import StreamGuard.Proofs.WrapOrder

namespace StreamGuard

/-- The source keeps to `I`, and then gives no more than it is asked for. -/
structure ByteSource.Modest {σ : Type} [ByteSource σ] (I : σ → Prop) : Prop extends Tells I Buffer.Holds where
  read_le : ∀ {s n bs}, I s → (ByteSource.read s n).outcome = .ok (.bytes bs) → bs.length ≤ n

structure Gauged (σ : Type) where
  source : σ
  given : Nat := 0

namespace Gauged

def counted : Except Failure (Option Int) → Nat
  | .ok (some count) => count.toNat
  | _ => 0

def measured : Except Failure Chunk → Nat
  | .ok (.bytes bs) => bs.length
  | _ => 0

variable {σ : Type} [ByteSource σ]

instance : ByteSource (Gauged σ) where
  api g := ByteSource.api g.source
  readInto g b :=
    let filled := ByteSource.readInto g.source b
    ⟨filled.outcome, filled.buffer, filled.source, g.given + counted filled.outcome⟩
  read g n :=
    let reply := ByteSource.read g.source n
    ⟨reply.outcome, reply.source, g.given + measured reply.outcome⟩
  close g :=
    let reply := ByteSource.close g.source
    ⟨reply.outcome, reply.source, g.given⟩
  noBuffer g := ByteSource.noBuffer g.source
  readInto_turns g b := ByteSource.readInto_turns g.source b

instance [KeepsLength σ] : KeepsLength (Gauged σ) where
  readInto_size g b := KeepsLength.readInto_size g.source b

theorem tells {I : σ → Prop} {P : Buffer → Int → Prop} (h : ByteSource.Tells I P) :
    ByteSource.Tells (fun g : Gauged σ => I g.source) P where
  counted hs ho := h.counted hs ho
  readInto b hs := h.readInto b hs
  read n hs := h.read n hs

end Gauged

structure Fill.Drawn {τ : Type} (fill : Fill τ Int) (b : Buffer) (before after : Nat) : Prop where
  room : after ≤ before + b.size
  counted : ∀ k, fill.outcome = .ok k → (after : Int) ≤ before + k
  calls : (Event.calls fill.events).length ≤ 1

theorem Fill.Drawn.idle {τ : Type} {fill : Fill τ Int} (ho : ∀ k, fill.outcome = .ok k → 0 ≤ k)
    (he : fill.events = []) (b : Buffer) (n : Nat) : fill.Drawn b n n where
  room := Nat.le_add_right n _
  counted k hk := by
    have := ho k hk
    omega
  calls := by simp [he]

namespace Origin

variable {σ : Type} [ByteSource σ] {I : σ → Prop} (hI : ByteSource.Modest I)

def given (o : Origin (Gauged σ)) : Nat := o.source.given

include hI

theorem copy_drawn {g : Gauged σ} (hg : I g.source) (intake : Intake) (b : Buffer) :
    (copy intake g b).state.given ≤ g.given + b.size ∧
      (∀ n, (copy intake g b).outcome = .ok n → (copy intake g b).state.given = g.given + n) ∧
      Event.calls (copy intake g b).events = [.read b.items] := by
  simp only [copy, ByteSource.read]
  cases hread : (ByteSource.read g.source b.items).outcome with
  | error f => simp [Gauged.measured, Event.calls, Event.call?]
  | ok chunk =>
    refine ⟨?_, fun n hn => ?_, by simp [Event.calls, Event.call?]⟩
    · cases chunk with
      | bytes bs =>
        have hle := hI.read_le hg hread
        have := b.items_le_size
        simp only [Gauged.measured]
        omega
      | text | nothing => simp [Gauged.measured]
    · obtain ⟨front, rfl, rfl, -, -⟩ := Buffer.receive_ok hn
      rfl

theorem supply_drawn [KeepsLength σ] {o : Origin (Gauged σ)} (ho : I o.source.source) (intake : Intake) (b : Buffer) :
    (o.supply intake b).Drawn b o.given (o.supply intake b).state.given := by
  cases o with
  | direct g =>
    change I g.source at ho
    obtain ⟨hroom, hcounted, hcalls⟩ := copy_drawn hI ho intake b
    simp only [supply, supplyDirect, given, source]
    by_cases hinto : (ByteSource.api g).readInto = true
    · simp only [if_pos hinto, ByteSource.readInto]
      rcases hread : (ByteSource.readInto g.source b).outcome with f | _ | count
      · exact ⟨by simp [Gauged.counted], by simp [countOf], by simp [Event.calls, Event.call?]⟩
      · exact ⟨by simp [Gauged.counted], by simp [countOf], by simp [Event.calls, Event.call?]⟩
      · obtain ⟨hpos, hle⟩ := hI.counted ho hread
        have := (ByteSource.readInto g.source b).buffer.room_le_size
        rw [KeepsLength.readInto_size] at this
        refine ⟨?_, fun k hk => ?_, by simp [Event.calls, Event.call?]⟩
        · simp only [Gauged.counted]
          omega
        · cases hk
          simp only [Gauged.counted]
          omega
    · by_cases hread : (ByteSource.api g).read = true
      · simp only [if_neg hinto, if_pos hread]
        refine ⟨hroom, fun k hk => ?_, by simp [hcalls]⟩
        obtain ⟨n, hn, rfl⟩ := map_eq_ok_iff.1 hk
        exact Int.le_of_eq (by simp [hcounted n hn])
      · simp only [if_neg hinto, if_neg hread]
        exact .idle (by simp) rfl b _
  | remote r g =>
    change I g.source at ho
    obtain ⟨hroom, hcounted, hcalls⟩ := copy_drawn hI ho .unchecked b
    simp only [supply, supplyRemote, given, source]
    by_cases hatt : r.attached = true
    · simp only [if_pos hatt]
      cases hcopy : (copy .unchecked g b).outcome with
      | error f => exact ⟨hroom, by simp, by simp [hcalls]⟩
      | ok n =>
        refine ⟨hroom, fun k hk => ?_, by simp [hcalls]⟩
        cases hk
        exact Int.le_of_eq (by simp [hcounted n hcopy])
    · simp only [if_neg hatt]
      exact .idle (by simp) rfl b _

end Origin

namespace Stack

variable {σ : Type} [ByteSource σ] [KeepsLength σ] {I : σ → Prop} (hI : ByteSource.Modest I)

def given (s : Stack (Gauged σ)) : Nat := s.origin.given

include hI

theorem serve_drawn {o : Origin (Gauged σ)} (ho : I o.source.source) (intake : Intake) (layers : List Layer)
    (b : Buffer) : (serve intake layers o b).Drawn b o.given (serve intake layers o b).state.given := by
  induction layers generalizing intake with
  | nil =>
    obtain ⟨hroom, hcounted, hcalls⟩ := Origin.supply_drawn hI ho intake b
    exact ⟨hroom, hcounted, hcalls⟩
  | cons l below ih =>
    cases l with
    | reader r =>
      have hserved := served intake r below o b
      generalize serve intake (.reader r :: below) o b = fill at hserved ⊢
      obtain ⟨hroom, hcounted, hcalls⟩ := ih .checked
      cases hserved with
      | refused => exact .idle (by simp) rfl b _
      | empty => exact .idle (by simp) rfl b _
      | failed => exact ⟨hroom, by simp, hcalls⟩
      | @ruled count _ _ _ ho hrule =>
        refine ⟨hroom, fun k hk => ?_, ?_⟩
        · subst hrule
          obtain ⟨rfl, -⟩ := Check.rule_ok hk
          exact hcounted _ ho
        · rwa [← hrule, Event.calls_append, r.check.calls_rule, List.append_nil]
    | file a =>
      simp only [serve]
      split
      · obtain ⟨hroom, hcounted, hcalls⟩ := ih .unchecked
        exact ⟨hroom, hcounted, hcalls⟩
      · exact .idle (by simp) rfl b _

omit hI [KeepsLength σ] in
theorem drainStep_demanding {ds : List Demand} (hne : ds ≠ []) {D : Bytes} (hl : ∀ n, .limit n ∈ ds → D.length ≤ n)
    {base : Stack σ} {b : Buffer} (hb : b.Usable)
    (hholds : ∀ count, (base.request b).outcome = .ok count → (base.request b).buffer.Holds count) :
    (∀ p, (drainStep (demanding ds D base, b)).outcome ≠ .ok (some p)) ∨
      ∃ p : Bytes, 0 < p.length ∧ (∀ n, .limit n ∈ ds → (D ++ p).length ≤ n) ∧
        ((demanding ds D base).request b).outcome = .ok p.length ∧
        ((demanding ds D base).request b).state = demanding ds (D ++ p) (base.request b).state ∧
        ((demanding ds D base).request b).buffer = (base.request b).buffer ∧
        (drainStep (demanding ds D base, b)).outcome = .ok (some p) := by
  have hlayers : (demanding ds D base).layers ≠ [] := by
    simp [demanding, hne]
  rw [drainStep_layered hlayers]
  cases ho : (base.request b).outcome with
  | error f =>
    have hout : ((demanding ds D base).request b).outcome = .error f := (request_failure hb.size ho).1
    exact .inl (by simp [hout, Except.map])
  | ok count =>
    obtain ⟨hpos, hroom⟩ := hholds count ho
    obtain ⟨k, rfl⟩ := Int.eq_ofNat_of_zero_le hpos
    have hk : k ≤ (base.request b).buffer.size := by
      have := (base.request b).buffer.room_le_size
      omega
    by_cases hz : k = 0
    · subst hz
      have hlast : (base.request b).outcome = (none : Option Failure).elim (.ok 0) .error := ho
      obtain ⟨fs, -, ⟨hout, -⟩ | ⟨f, hout, -⟩⟩ := request_last hb.size hlast hl
      · exact .inl (by simp [hout, Except.map])
      · exact .inl (by simp [hout, Except.map])
    · obtain ⟨hfits, hout, hbuf, hstate⟩ | ⟨f, fs, hout, -⟩ := request_piece hb (Nat.pos_of_ne_zero hz) hk ho
      · have hlen : ((base.request b).buffer.bytes.take k).length = k := by
          simp only [Buffer.size] at hk
          simp only [List.length_take]
          omega
        refine .inr ⟨(base.request b).buffer.bytes.take k, by omega, fun n hn => ?_, ?_, hstate, hbuf, ?_⟩
        · have := hfits n hn
          simp only [List.length_append, hlen]
          omega
        · rw [hout, hlen]
        · simp [hout, hbuf, Except.map, hz]
      · exact .inl (by simp [hout, Except.map])

theorem request_drawn {s : Stack (Gauged σ)} (hs : I s.origin.source.source) (b : Buffer) :
    (s.request b).Drawn b s.given (s.request b).state.given :=
  serve_drawn hI hs .checked s.layers b

theorem drain_drawn {ds : List Demand} {limit : Nat} (hlimit : .limit limit ∈ ds) {size : Nat} (hsize : 0 < size)
    {D : Bytes} (hl : ∀ n, .limit n ∈ ds → D.length ≤ n) {base : Stack (Gauged σ)}
    (hbase : I base.origin.source.source) {b : Buffer} (hb : (Buffer.zeroed size).Becomes b) (g : Gathered)
    {budget : Nat} (hn : limit < D.length + budget) :
    ∃ turn, gather (fun t => some (drainStep t)) never budget (demanding ds D base, b) g = some turn ∧
      turn.state.1.given + D.length ≤ base.given + limit + size ∧
      (Event.calls turn.events).length + D.length ≤ (Event.calls g.allEvents).length + limit + 1 := by
  have hne : ds ≠ [] := List.ne_nil_of_mem hlimit
  -- On the budget: every step but the last adds to `D`, which stays within the limit.
  induction budget generalizing D base b g with
  | zero =>
    have := hl limit hlimit
    omega
  | succ budget ih =>
    have hlayers : (demanding ds D base).layers ≠ [] := by
      simp [demanding, hne]
    have hstep := drainStep_layered hlayers b
    obtain ⟨hroom, hcounted, hcalls⟩ := request_drawn hI (s := demanding ds D base) hbase b
    have hserved : (∀ count, (base.request b).outcome = .ok count → (base.request b).buffer.Holds count) ∧
        I (base.request b).state.origin.source.source :=
      serve_tells (Gauged.tells hI.toTells) Buffer.holds_of_le_room hbase b
    have hgiven : (demanding ds D base).given = base.given := rfl
    have hD := hl limit hlimit
    have hbsize : b.size = size := by
      rw [Buffer.size, hb.size]
      exact Buffer.size_zeroed size
    obtain hstop | ⟨p, hp, hfits, hcount, hstate, hbuf, hpiece⟩ :=
      drainStep_demanding hne hl (.of_zeroed hsize hb) hserved.1
    · have hgather : ∃ outcome, gather (fun t => some (drainStep t)) never (budget + 1) (demanding ds D base, b) g =
          some ⟨outcome, (drainStep (demanding ds D base, b)).state,
            g.allEvents ++ (drainStep (demanding ds D base, b)).events⟩ :=
        gather_halts rfl rfl hstop budget
      rw [hstep] at hgather
      obtain ⟨outcome, hgather⟩ := hgather
      refine ⟨_, hgather, ?_, ?_⟩
      · simp only
        omega
      · simp only [Event.calls_append, List.length_append]
        omega
    · have hcounted := hcounted _ hcount
      rw [gather_piece rfl rfl hpiece, hstep]
      rw [hstate] at hcounted ⊢
      rw [hbuf]
      have hnext : (demanding ds (D ++ p) (base.request b).state).given = (base.request b).state.given := rfl
      obtain ⟨turn, hgather, hdrawn, hall⟩ := ih hfits hserved.2 (hb.trans (request_becomes base b))
        (g.add p ((demanding ds D base).request b).events) (by simp only [List.length_append]; omega)
      simp only [List.length_append] at hdrawn hall
      simp only [Gathered.allEvents_add, Event.calls_append, List.length_append] at hall
      refine ⟨turn, hgather, ?_, ?_⟩
      · omega
      · omega

theorem readToEnd_drawn {ds : List Demand} {limit : Nat} (hlimit : .limit limit ∈ ds) {base : Stack (Gauged σ)}
    (hbase : I base.origin.source.source) {chunk : Int} (hc : 0 < chunk) {budget : Nat} (hn : limit < budget) :
    ∃ turn, readToEnd chunk budget (guarded ds base) = some turn ∧
      turn.state.given ≤ base.given + limit + chunk.toNat ∧ (Event.calls turn.events).length ≤ limit + 1 := by
  have hsize : 0 < chunk.toNat := by omega
  have hstart : ∀ n, .limit n ∈ ds → ([] : Bytes).length ≤ n := fun n _ => Nat.zero_le n
  have hbudget : limit < ([] : Bytes).length + budget := by
    simpa using hn
  obtain ⟨answer, ha, hgiven, hcalls⟩ := drain_drawn hI hlimit hsize hstart hbase (.refl _) {} hbudget
  rw [demanding_nil] at ha
  refine ⟨joined answer Prod.fst, ?_, hgiven, ?_⟩
  · rw [readToEnd, if_neg (Int.not_le.2 hc), ha]
    rfl
  · simpa [joined, Gathered.allEvents] using hcalls

end Stack

namespace Origin

variable {σ : Type}

def ungauged : Origin (Gauged σ) → Origin σ
  | direct g => direct g.source
  | remote r g => remote r g.source

variable [ByteSource σ] (intake : Intake) (b : Buffer)

theorem copy_ungauged (g : Gauged σ) :
    copy intake g.source b =
      ⟨(copy intake g b).outcome, (copy intake g b).buffer, (copy intake g b).state.source,
        (copy intake g b).events⟩ := by
  simp only [copy, ByteSource.read]
  cases (ByteSource.read g.source b.items).outcome <;> rfl

theorem supply_ungauged (o : Origin (Gauged σ)) :
    o.ungauged.supply intake b =
      ⟨(o.supply intake b).outcome, (o.supply intake b).buffer, (o.supply intake b).state.ungauged,
        (o.supply intake b).events⟩ := by
  cases o with
  | direct g =>
    simp only [ungauged, supply, supplyDirect, copy_ungauged, ByteSource.api, ByteSource.readInto]
    repeat' split
    all_goals rfl
  | remote r g =>
    simp only [ungauged, supply, supplyRemote, copy_ungauged]
    repeat' split
    all_goals rfl

end Origin

namespace Stack

variable {σ : Type}

def ungauged (s : Stack (Gauged σ)) : Stack σ :=
  ⟨s.layers, s.origin.ungauged⟩

def gauged (s : Stack σ) : Stack (Gauged σ) :=
  ⟨s.layers, match s.origin with
    | .direct source => .direct { source }
    | .remote r body => .remote r { source := body }⟩

theorem ungauged_gauged (s : Stack σ) : s.gauged.ungauged = s := by
  obtain ⟨layers, source | ⟨r, body⟩⟩ := s <;> rfl

theorem given_gauged (s : Stack σ) : s.gauged.given = 0 := by
  obtain ⟨layers, source | ⟨r, body⟩⟩ := s <;> rfl

variable [ByteSource σ]

theorem serve_ungauged (intake : Intake) (layers : List Layer) (o : Origin (Gauged σ)) (b : Buffer) :
    serve intake layers o.ungauged b =
      ⟨(serve intake layers o b).outcome, (serve intake layers o b).buffer, (serve intake layers o b).state.ungauged,
        (serve intake layers o b).events⟩ := by
  induction layers generalizing intake with
  | nil =>
    simp only [serve, Origin.supply_ungauged]
    rfl
  | cons l below ih =>
    cases l with
    | reader r =>
      simp only [serve, Reader.atop, ih]
      repeat' split
      all_goals rfl
    | file a =>
      simp only [serve, FileAdapter.atop, ih]
      split <;> rfl

theorem readInto_ungauged (s : Stack (Gauged σ)) (b : Buffer) :
    Fill.Like (fun x y => x.ungauged = y) (s.readInto b) (s.ungauged.readInto b) := by
  have hserve : ∀ layers o, Fill.Like (fun x y => x.ungauged = y)
      (⟨(serve .checked layers o b).outcome.map some, (serve .checked layers o b).buffer,
        (serve .checked layers o b).state, (serve .checked layers o b).events⟩ : Fill (Stack (Gauged σ)) (Option Int))
      ⟨(serve .checked layers o.ungauged b).outcome.map some, (serve .checked layers o.ungauged b).buffer,
        (serve .checked layers o.ungauged b).state, (serve .checked layers o.ungauged b).events⟩ := by
    intro layers o
    rw [serve_ungauged]
    exact ⟨rfl, rfl, rfl, rfl⟩
  obtain ⟨_ | ⟨l, below⟩, o⟩ := s
  · cases o with
    | direct g =>
      simp only [readInto, ungauged, Origin.ungauged, ByteSource.api, ByteSource.readInto]
      split <;> exact ⟨rfl, rfl, rfl, rfl⟩
    | remote r g => exact hserve [] (.remote r g)
  · exact hserve (l :: below) o

theorem readToEnd_ungauged (s : Stack (Gauged σ)) (chunk : Int) (budget : Nat) :
    Option.Rel (Turn.Like fun x y => x.ungauged = y) (s.readToEnd chunk budget)
      (s.ungauged.readToEnd chunk budget) := by
  have hstep : ∀ {u : Stack (Gauged σ)} {v : Stack σ}, u.ungauged = v → ∀ b, b.writable = true →
      Fill.Like (fun x y => x.ungauged = y) (u.readInto b) (v.readInto b) := by
    rintro u _ rfl b -
    exact readInto_ungauged u b
  exact readToEnd_like hstep rfl chunk budget

theorem bounded_drain_stops [KeepsLength σ] {I : σ → Prop} (hI : ByteSource.Modest I) {ds : List Demand} {limit : Nat}
    (hlimit : .limit limit ∈ ds) {base : Stack σ} (hbase : I base.origin.source) {chunk : Int} (hc : 0 < chunk) :
    (∃ turn measured, (∀ budget, limit < budget → readToEnd chunk budget (guarded ds base) = some turn ∧
          readToEnd chunk budget (guarded ds base).gauged = some measured) ∧
        Turn.Like (fun x y => x.ungauged = y) measured turn ∧ (Event.calls turn.events).length ≤ limit + 1 ∧
        (measured.state.given : Int) ≤ limit + chunk) ∧
      ∀ (w : Workspace) (t : Target) (source : Nat) (l : Located) (size : Int) (value : DigestValue) (expected : Bytes),
        (w.openTarget t).outcome = .ok source → locate (w.openTarget t).workspace.objects source = some l →
        0 ≤ size → value.toBytes = .ok expected →
        ∃ id l', (w.fetchDigest t (.number size) value).outcome = .ok id ∧
          locate (w.fetchDigest t (.number size) value).workspace.objects id = some l' ∧
          l'.stack = guarded [.digest expected, .limit size.toNat] l.stack := by
  refine ⟨?_, fun w t source l size value expected ho hl hs hv => Workspace.fetchDigest_of_opened ho hl hs hv⟩
  have hsource : I base.gauged.origin.source.source := by
    obtain ⟨layers, source | ⟨r, body⟩⟩ := base <;> exact hbase
  obtain ⟨measured, hmeasured, hgiven, hcalls⟩ := readToEnd_drawn hI hlimit hsource hc (Nat.lt_succ_self limit)
  have hrel := readToEnd_ungauged (guarded ds base.gauged) chunk (limit + 1)
  have hsame : (guarded ds base.gauged).ungauged = guarded ds base := ungauged_gauged (guarded ds base)
  rw [hmeasured, hsame] at hrel
  generalize hx : readToEnd chunk (limit + 1) (guarded ds base) = x at hrel
  obtain ⟨hlike⟩ := hrel
  rename_i turn
  refine ⟨turn, measured, fun budget hn => ?_, hlike, ?_, ?_⟩
  · obtain ⟨k, rfl⟩ : ∃ k, budget = limit + 1 + k := Nat.exists_eq_add_of_le hn
    exact ⟨readToEnd_mono hx k, readToEnd_mono hmeasured k⟩
  · rwa [← hlike.calls]
  · rw [given_gauged] at hgiven
    omega

end Stack

structure Fountain where
  byte : UInt8

namespace Fountain

def fill (s : Fountain) (b : Buffer) : Filled Fountain :=
  match b.put (.replicate b.size s.byte) with
  | .ok b' => ⟨.ok (some b.size), b', s⟩
  | .error f => ⟨.error f, b, s⟩

theorem fill_becomes (s : Fountain) (b : Buffer) : b.Becomes (s.fill b).buffer := by
  unfold fill
  split
  · exact Buffer.put_becomes ‹_›
  · exact .refl b

instance : ByteSource Fountain where
  api _ := {}
  readInto := fill
  read s n := ⟨.ok (.bytes (.replicate n s.byte)), s⟩
  close s := ⟨.ok (), s⟩
  noBuffer _ := .noBuffer
  readInto_turns s b := (s.fill_becomes b).toTurns

instance : KeepsLength Fountain where
  readInto_size s b := (s.fill_becomes b).size

theorem modest : ByteSource.Modest fun _ : Fountain => True where
  counted {s b count} _ h := by
    change (s.fill b).outcome = .ok (some count) at h
    unfold fill at h
    split at h
    · rename_i hput
      obtain ⟨hw, -, -⟩ := Buffer.put_eq_ok.1 hput
      cases h
      have hroom : (s.fill b).buffer.room = b.size := by
        rw [(s.fill_becomes b).room, Buffer.room, if_pos hw]
      exact Buffer.holds_of_le_room _ b.size (Nat.le_of_eq hroom.symm)
    · cases h
  readInto _ _ := trivial
  read _ _ := trivial
  read_le {s n bs} _ h := by
    cases h
    simp

end Fountain

namespace Stack

theorem bounded_drain_stops_fountain :
    let base : Stack Fountain := ⟨[.file {}], .direct ⟨7⟩⟩
    (readToEnd 4 10 (guarded [.digest [], .limit 9] base)).map (fun turn => (turn.outcome.toOption, turn.events)) =
        some (none, [.call (.readInto 4), .call (.readInto 4), .call (.readInto 4), .log (.sizeExceeded 9 12)]) ∧
      ∃ (turn : Turn (Stack Fountain) Bytes) (measured : Turn (Stack (Gauged Fountain)) Bytes),
        readToEnd 4 10 (guarded [.digest [], .limit 9] base) = some turn ∧
        Turn.Like (fun x y => x.ungauged = y) measured turn ∧ (Event.calls turn.events).length ≤ 10 ∧
        measured.state.given ≤ 13 := by
  intro base
  have hlimit : Demand.limit 9 ∈ [Demand.digest [], .limit 9] := by simp
  have hbase : (fun _ : Fountain => True) base.origin.source := trivial
  obtain ⟨⟨turn, measured, hfinish, hlike, hcalls, hgiven⟩, -⟩ :=
    bounded_drain_stops Fountain.modest hlimit hbase (by decide : (0 : Int) < 4)
  exact ⟨by decide +kernel, turn, measured, (hfinish 10 (by decide)).1, hlike, hcalls, by omega⟩

end Stack

end StreamGuard
