import StreamGuard.Proofs.Honesty
import StreamGuard.Proofs.Likeness
import StreamGuard.Proofs.Refusal
import StreamGuard.Proofs.Verdict
import StreamGuard.Sources.Script

namespace StreamGuard

inductive Wrapping
  | direct
  | file
  | remote
  deriving DecidableEq

inductive Breach
  | nothing
  | overlong (bs : Bytes)

namespace Wrapping

def intake : Wrapping → Intake
  | direct => .checked
  | _ => .unchecked

variable {σ : Type} [ByteSource σ]

def fills (s : σ) : Wrapping → Bool
  | remote => false
  | _ => (ByteSource.api s).readInto

def reads (s : σ) : Wrapping → Bool
  | remote => true
  | _ => !(ByteSource.api s).readInto && (ByteSource.api s).read

theorem fills_of_reads {s : σ} {w : Wrapping} (h : w.reads s = true) : w.fills s = false := by
  cases w <;> simp_all [reads, fills]

end Wrapping

namespace Breach

def failure (w : Wrapping) (filling : Bool) (asked : Nat) : Breach → Failure
  | nothing => if filling then w.intake.noData else .noLength
  | overlong bs =>
    match w.intake with
    | .checked => .overlong bs.length asked
    | .unchecked => .sliceMismatch

def Noticed (w : Wrapping) (filling : Bool) : Breach → Prop
  | nothing => filling = true
  | overlong _ => w = .direct

variable {w : Wrapping} {filling : Bool} {breach : Breach}

theorem isIo_failure (asked : Nat) : (breach.failure w filling asked).isIo = true ↔ breach.Noticed w filling := by
  cases breach with
  | nothing => cases filling <;> cases w <;> simp [Noticed, failure] <;> rfl
  | overlong bs => cases w <;> simp [Noticed, failure] <;> rfl

theorem endsStream_failure (asked : Nat) :
    (breach.failure w filling asked).endsStream = (breach.failure w filling asked).isIo := by
  cases breach with
  | nothing => cases filling <;> cases w <;> rfl
  | overlong bs => cases w <;> rfl

end Breach

namespace Origin

variable {σ : Type} [ByteSource σ] {s : σ} {b : Buffer}

theorem copy_nothing (h : (ByteSource.read s b.items).outcome = .ok .nothing) (intake : Intake) :
    (copy intake s b).outcome = .error .noLength := by
  simp [copy, h, Buffer.receive]

theorem copy_overlong (hw : b.writable = true) (hi : b.items = b.size) {bs : Bytes}
    (h : (ByteSource.read s b.items).outcome = .ok (.bytes bs)) (hl : b.items < bs.length) (w : Wrapping) :
    (copy w.intake s b).outcome = .error ((Breach.overlong bs).failure w false b.items) := by
  have hput : b.put bs = .error .sliceMismatch := by
    simp [Buffer.put, hw, Nat.not_le.2 (hi ▸ hl)]
  cases w <;> simp [copy, h, Buffer.receive, Wrapping.intake, Breach.failure, hl, hput]

theorem supplyDirect_reading (hr : (!(ByteSource.api s).readInto && (ByteSource.api s).read) = true)
    (intake : Intake) : (supplyDirect intake s b).outcome = (copy intake s b).outcome.map Int.ofNat := by
  simp only [Bool.and_eq_true, Bool.not_eq_true'] at hr
  rw [supplyDirect_of_read hr.1 hr.2]
  rfl

end Origin

namespace Stack

variable {σ : Type}

inductive Wraps : Wrapping → Stack σ → σ → Prop
  | direct (s : σ) : Wraps .direct ⟨[], .direct s⟩ s
  | file {a : FileAdapter} (ha : a.attached = true) (s : σ) : Wraps .file ⟨[.file a], .direct s⟩ s
  | remote {r : Remote} (hr : r.attached = true) (s : σ) : Wraps .remote ⟨[], .remote r s⟩ s

def states (s : Stack σ) : List ReaderState :=
  s.layers.filterMap fun
    | .reader r => some r.state
    | .file _ => none

theorem Wraps.states {w : Wrapping} {base : Stack σ} {s : σ} (h : Wraps w base s) : base.states = [] := by
  cases h <;> rfl

theorem Topped.states {s base : Stack σ} {fs : List Reader} (h : s.Topped fs base) :
    s.states = fs.map Reader.state ++ base.states := by
  rw [h]
  simp only [Stack.states, List.filterMap_append, List.filterMap_map]
  change List.filterMap (some ∘ Reader.state) fs ++ _ = _
  rw [List.filterMap_eq_map]

variable [ByteSource σ]

inductive Breaks (w : Wrapping) (s : σ) (b : Buffer) : Breach → Prop
  | unfilled (hf : w.fills s = true) (h : (ByteSource.readInto s b).outcome = .ok none) : Breaks w s b .nothing
  | unread (hr : w.reads s = true) (h : (ByteSource.read s b.items).outcome = .ok .nothing) : Breaks w s b .nothing
  | overlong {bs : Bytes} (hr : w.reads s = true) (h : (ByteSource.read s b.items).outcome = .ok (.bytes bs))
      (hl : b.items < bs.length) : Breaks w s b (.overlong bs)

inductive Supplies : Stack σ → List Buffer → Nat → Stack σ → Prop
  | nil (base : Stack σ) : Supplies base [] 0 base
  | cons {base base' : Stack σ} {b : Buffer} {bs : List Buffer} {k n : Nat} (hpos : 0 < k) (hk : k ≤ b.size)
      (hheld : k ≤ (base.request b).buffer.size) (ho : (base.request b).outcome = .ok k)
      (h : Supplies (base.request b).state bs n base') :
      Supplies base (b :: bs) (k + n) base'

structure EndsStream (fill : Fill (Stack σ) (Option Int)) : Prop where
  io : ∃ f, fill.outcome = .error f ∧ f.isIo = true
  failed : ∀ state ∈ fill.state.states, state = .failed
  refuses : Refuses fill.state (.streamEnded .failed)

section

variable {w : Wrapping} {base base' : Stack σ} {s : σ} {b : Buffer}

theorem Wraps.request (h : Wraps w base s) (b : Buffer) : ∃ s', Wraps w (base.request b).state s' := by
  cases h with
  | direct => exact ⟨_, .direct _⟩
  | @file a ha =>
    simp only [Stack.request, serve, ha, if_true, FileAdapter.atop]
    split
    · exact ⟨_, .file ha _⟩
    · exact ⟨_, .file rfl _⟩
  | @remote r hr =>
    simp only [Stack.request, serve, Origin.supply, Origin.supplyRemote, hr, if_true]
    split
    · exact ⟨_, .remote hr _⟩
    · exact ⟨_, .remote rfl _⟩

theorem Wraps.supplied {bs : List Buffer} {n : Nat} (hs : Supplies base bs n base') (h : Wraps w base s) :
    ∃ s', Wraps w base' s' := by
  induction hs generalizing s with
  | nil => exact ⟨s, h⟩
  | @cons base base' b bs k n _ _ _ _ _ ih =>
    obtain ⟨s', h'⟩ := h.request b
    exact ih h'

theorem Wraps.request_filled (h : Wraps w base s) (hf : w.fills s = true)
    (hn : (ByteSource.readInto s b).outcome = .ok none) :
    (base.request b).outcome = .error w.intake.noData := by
  cases h with
  | direct =>
    have hapi : (ByteSource.api s).readInto = true := hf
    simp [Stack.request, serve, Origin.supply, Origin.supplyDirect, hapi, hn, Origin.countOf, Wrapping.intake]
  | file ha =>
    have hapi : (ByteSource.api s).readInto = true := hf
    simp [Stack.request, serve, ha, FileAdapter.atop, Origin.supply, Origin.supplyDirect, hapi, hn, Origin.countOf,
      Wrapping.intake]
  | remote => cases hf

theorem Wraps.request_copied (h : Wraps w base s) (hr : w.reads s = true) {f : Failure}
    (hc : (Origin.copy w.intake s b).outcome = .error f) (hf : f.ofBody = f) :
    (base.request b).outcome = .error f := by
  cases h with
  | direct =>
    simp only [Wrapping.intake] at hc
    simp [Stack.request, serve, Origin.supply, Origin.supplyDirect_reading hr, hc, Except.map]
  | file ha =>
    simp only [Wrapping.intake] at hc
    simp [Stack.request, serve, ha, FileAdapter.atop, Origin.supply, Origin.supplyDirect_reading hr, hc, Except.map]
  | remote ha =>
    simp only [Wrapping.intake] at hc
    simp [Stack.request, serve, Origin.supply, Origin.supplyRemote, ha, hc, hf]

theorem Wraps.request_breach {breach : Breach} (h : Wraps w base s) (hw : b.writable = true) (hi : b.itemSize = 1)
    (hb : Breaks w s b breach) :
    (base.request b).outcome = .error (breach.failure w (w.fills s) b.size) := by
  have hitems : b.items = b.size := by
    simp [Buffer.items, Buffer.size, hi]
  cases hb with
  | unfilled hf hn =>
    rw [h.request_filled hf hn, hf]
    rfl
  | unread hr hn =>
    rw [h.request_copied hr (Origin.copy_nothing hn w.intake) rfl, Wrapping.fills_of_reads hr]
    rfl
  | overlong hr hn hl =>
    have hcopy := Origin.copy_overlong hw hitems hn hl w
    rw [h.request_copied hr hcopy (by cases w <;> rfl), hitems, Wrapping.fills_of_reads hr]

end

section

variable {base base' : Stack σ} {ds : List Demand} {D : Bytes} {b : Buffer}

theorem after_supplied {bs : List Buffer} {n : Nat} (h : Supplies base bs n base')
    (hl : ∀ m, .limit m ∈ ds → D.length + n ≤ m) : ∃ E, (demanding ds D base).after bs = demanding ds E base' := by
  -- No reader ends on a piece within the limits, so each has passed on all of it and streams.
  induction h generalizing D with
  | nil => exact ⟨D, rfl⟩
  | @cons base base' b bs k n hpos hk hheld ho _ ih =>
    have hb : b.size ≠ 0 := by omega
    have hpass : ∀ d ∈ ds, d.fault D k = none := by
      apply (Demand.faultless_iff hpos).2
      intro m hm
      have := hl m hm
      omega
    obtain ⟨-, -, fs, htop, -, hfs⟩ := request_pass hb hheld ho hpass
    obtain rfl := hfs (Nat.ne_of_gt hpos)
    have hlen : ((base.request b).buffer.bytes.take k).length = k := by
      simp only [Buffer.size] at hheld
      simp only [List.length_take]
      omega
    change ∃ E, ((demanding ds D base).request b).state.after bs = demanding ds E base'
    rw [htop.demanding]
    apply ih
    intro m hm
    have := hl m hm
    simp only [List.length_append, hlen]
    omega

theorem request_ended (d : Demand) (hb : b.size ≠ 0) {f : Failure} (ho : (base.request b).outcome = .error f)
    (hf : f.endsStream = true) :
    Refuses ((demanding (d :: ds) D base).request b).state (.streamEnded .failed) := by
  have hout : ((demanding ds D base).request b).outcome = .error f := (request_failure hb ho).1
  rw [request_demanding_cons d hb, Reader.atop_error hout, Reader.after_of_endsStream hf]
  apply refuses_of_refusal
  cases d <;> rfl

end

theorem breach_ends_stream_iff {w : Wrapping} {base base' : Stack σ} {s : σ} (hbase : Wraps w base s)
    {bs : List Buffer} {n : Nat} (hs : Supplies base bs n base') {ds : List Demand} (hds : ds ≠ [])
    (hl : ∀ m, .limit m ∈ ds → n ≤ m) :
    ∃ s', Wraps w base' s' ∧ ∀ b breach, b.writable = true → b.itemSize = 1 → b.size ≠ 0 → Breaks w s' b breach →
      (((guarded ds base).after bs).readInto b).outcome = .error (breach.failure w (w.fills s') b.size) ∧
        (EndsStream (((guarded ds base).after bs).readInto b) ↔ breach.Noticed w (w.fills s')) ∧
        (¬ breach.Noticed w (w.fills s') →
          (((guarded ds base).after bs).readInto b).state.states = List.replicate ds.length .streaming) := by
  obtain ⟨s', hbase'⟩ := hbase.supplied hs
  obtain ⟨E, hafter⟩ : ∃ E, (demanding ds [] base).after bs = demanding ds E base' :=
    after_supplied hs fun m hm => by simpa using hl m hm
  rw [demanding_nil] at hafter
  refine ⟨s', hbase', ?_⟩
  intro b breach hw hi hb hbreaks
  have ho := hbase'.request_breach hw hi hbreaks
  obtain ⟨hout, htop⟩ : ((demanding ds E base').request b).outcome = _ ∧ _ := request_failure hb ho
  obtain ⟨s'', hbase''⟩ := hbase'.request b
  have hall := htop.states
  rw [Demand.states_after, hbase''.states, List.append_nil, Breach.endsStream_failure] at hall
  have hlayers : (demanding ds E base').layers ≠ [] := by
    simp [demanding, hds]
  rw [hafter, readInto_layered hlayers]
  have houtcome : ((demanding ds E base').request b).outcome.map some =
      .error (breach.failure w (w.fills s') b.size) := by
    rw [hout]
    rfl
  refine ⟨houtcome, ?_, ?_⟩
  · constructor
    · intro hends
      obtain ⟨f, hf, hio⟩ := hends.io
      obtain rfl : _ = f := Except.error.inj (houtcome.symm.trans hf)
      exact (Breach.isIo_failure b.size).1 hio
    · intro hnoticed
      have hio := (Breach.isIo_failure b.size).2 hnoticed
      constructor
      · exact ⟨_, houtcome, hio⟩
      · intro state hstate
        simp only [hall, hio, if_true] at hstate
        exact List.eq_of_mem_replicate hstate
      · obtain ⟨d, ds, rfl⟩ := List.exists_cons_of_ne_nil hds
        apply request_ended d hb ho
        rw [Breach.endsStream_failure, hio]
  · intro hnot
    have hio : (breach.failure w (w.fills s') b.size).isIo = false := by
      rw [← Bool.not_eq_true, Breach.isIo_failure]
      exact hnot
    simpa [hio] using hall

def effusive : Script :=
  { api := { readInto := false }, items := [.data [7] none, .raw [1, 2, 3], .data [4] none] }

theorem breach_ends_stream_iff_effusive :
    EndsStream (((guarded [.digest [], .limit 9] ⟨[], .direct effusive⟩).after [.zeroed 2]).readInto (.zeroed 2)) ∧
      ¬ EndsStream (((guarded [.digest [], .limit 9] ⟨[.file {}], .direct effusive⟩).after [.zeroed 2]).readInto
        (.zeroed 2)) := by
  have hds : [Demand.digest [], .limit 9] ≠ [] := by simp
  have hl : ∀ m, .limit m ∈ [Demand.digest [], .limit 9] → 1 + 0 ≤ m := by simp
  constructor
  · have hs : Supplies (⟨[], .direct effusive⟩ : Stack Script) [.zeroed 2] (1 + 0) _ :=
      .cons (by decide) (by decide) (by decide) rfl (.nil _)
    obtain ⟨s', hw, hends⟩ := breach_ends_stream_iff (.direct effusive) hs hds hl
    cases hw
    exact (hends (.zeroed 2) (.overlong [1, 2, 3]) rfl rfl (by decide) (.overlong rfl rfl (by decide))).2.1.2 rfl
  · have hs : Supplies (⟨[.file {}], .direct effusive⟩ : Stack Script) [.zeroed 2] (1 + 0) _ :=
      .cons (by decide) (by decide) (by decide) rfl (.nil _)
    obtain ⟨s', hw, hends⟩ := breach_ends_stream_iff (.file rfl effusive) hs hds hl
    cases hw
    intro hnot
    cases (hends (.zeroed 2) (.overlong [1, 2, 3]) rfl rfl (by decide) (.overlong rfl rfl (by decide))).2.1.1 hnot

theorem breach_read_past :
    ((⟨[.file {}], .direct effusive⟩ : Stack Script).request (.zeroed 2)).state =
        ⟨[.file { bytesRead := 1 }], .direct { effusive with items := [.raw [1, 2, 3], .data [4] none] }⟩ ∧
      Breaks .file { effusive with items := [.raw [1, 2, 3], .data [4] none] } (.zeroed 2)
        (.overlong [1, 2, 3]) ∧
      (((guarded [.limit 9] ⟨[.file {}], .direct effusive⟩).after [.zeroed 2]).readInto (.zeroed 2)).outcome =
        .error .sliceMismatch ∧
      Failure.sliceMismatch.isIo = false ∧
      ((guarded [.limit 9] ⟨[.file {}], .direct effusive⟩).after [.zeroed 2, .zeroed 2]).states = [.streaming] ∧
      (((guarded [.limit 9] ⟨[.file {}], .direct effusive⟩).after [.zeroed 2, .zeroed 2]).readInto
          (.zeroed 2)).outcome = .ok (some 1) ∧
      (((guarded [.limit 9] ⟨[.file {}], .direct effusive⟩).after [.zeroed 2, .zeroed 2]).readInto
          (.zeroed 2)).buffer.bytes = [4, 0] :=
  ⟨rfl, .overlong rfl rfl (by decide), rfl, rfl, rfl, rfl, rfl⟩

end Stack

end StreamGuard
