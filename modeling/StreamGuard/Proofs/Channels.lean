import StreamGuard.Proofs.Chronicle

namespace StreamGuard

namespace Event

def records (es : List Event) : List LogRecord :=
  es.filterMap Event.log?

@[simp] theorem records_nil : records [] = [] := rfl

@[simp] theorem records_log (r : LogRecord) (es : List Event) : records (.log r :: es) = r :: records es := rfl

@[simp] theorem records_finalized (es : List Event) : records (.finalized :: es) = records es := rfl

@[simp] theorem records_append (es fs : List Event) : records (es ++ fs) = records es ++ records fs :=
  List.filterMap_append

end Event

namespace Check

def channel : Check → String
  | digest _ => "safestream.io.digest"
  | bound _ => "safestream.io.limit"

theorem channel_abandon (c : Check) : c.abandon.channel = c.channel := by
  cases c <;> rfl

theorem channel_rule (c : Check) (count : Int) (b : Buffer) :
    (c.rule count b).check.channel = c.channel ∧
      ∀ rec ∈ Event.records (c.rule count b).events, rec.channel = c.channel := by
  cases c with
  | digest d =>
    simp only [rule, DigestCheck.rule]
    repeat' split
    all_goals simp [channel, LogRecord.channel]
  | bound c =>
    simp only [rule, BoundCheck.rule]
    repeat' split
    all_goals simp [channel, LogRecord.channel]

end Check

theorem Reader.channel_after (r : Reader) (f : Failure) : (r.after f).check.channel = r.check.channel := by
  unfold after
  split
  · exact r.check.channel_abandon
  · rfl

def Layer.channel? : Layer → Option String
  | reader r => some r.check.channel
  | file _ => none

namespace Origin

variable {σ : Type} [ByteSource σ]

theorem records_copy (intake : Intake) (s : σ) (b : Buffer) : Event.records (copy intake s b).events = [] := by
  simp only [copy]
  split <;> rfl

theorem records_supply (intake : Intake) (o : Origin σ) (b : Buffer) :
    Event.records (o.supply intake b).events = [] := by
  cases o with
  | direct s =>
    simp only [supply, supplyDirect]
    repeat' split
    · rfl
    · exact records_copy intake s b
    · rfl
  | remote r s =>
    simp only [supply, supplyRemote]
    repeat' split
    · exact records_copy .unchecked s b
    · exact records_copy .unchecked s b
    · rfl

theorem records_close (o : Origin σ) : Event.records o.close.events = [] := by
  cases o <;>
    simp only [close] <;>
    repeat' split
  all_goals rfl

end Origin

namespace Stack

variable {σ : Type}

def channels (s : Stack σ) : List String :=
  s.layers.filterMap Layer.channel?

structure OnChannels (s : Stack σ) (es : List Event) (t : Stack σ) : Prop where
  channels : t.channels = s.channels
  records : ∀ rec ∈ Event.records es, rec.channel ∈ s.channels

namespace OnChannels

variable {s t : Stack σ} {es : List Event}

theorem idle (s : Stack σ) : OnChannels s [] s :=
  ⟨rfl, by simp⟩

theorem mem_push (s : Stack σ) (x : Layer) {c : String} (h : c ∈ s.channels) : c ∈ (s.push x).channels := by
  unfold Stack.channels push
  rw [List.filterMap_cons]
  split
  · exact h
  · exact List.mem_cons_of_mem _ h

theorem push (h : OnChannels s es t) {x y : Layer} (hxy : y.channel? = x.channel?) :
    OnChannels (s.push x) es (t.push y) where
  channels := by
    have hchannels := h.channels
    unfold Stack.channels at hchannels ⊢
    simp only [Stack.push, List.filterMap_cons, hxy, hchannels]
  records rec hrec := mem_push s x (h.records rec hrec)

theorem append (h : OnChannels s es t) {fs : List Event}
    (hfs : ∀ rec ∈ Event.records fs, rec.channel ∈ s.channels) : OnChannels s (es ++ fs) t where
  channels := h.channels
  records rec hrec := by
    rw [Event.records_append] at hrec
    exact (List.mem_append.1 hrec).elim (h.records rec) (hfs rec)

end OnChannels

variable [ByteSource σ]

theorem serve_onChannels (intake : Intake) (layers : List Layer) (o : Origin σ) (b : Buffer) :
    OnChannels ⟨layers, o⟩ (serve intake layers o b).events (serve intake layers o b).state := by
  induction layers generalizing intake with
  | nil =>
    refine ⟨rfl, ?_⟩
    simp only [serve, o.records_supply intake b]
    simp
  | cons l below ih =>
    cases l with
    | reader r =>
      have hserved := served intake r below o b
      generalize serve intake (.reader r :: below) o b = x at hserved ⊢
      cases hserved with
      | refused | empty => exact .idle _
      | @failed f => exact (ih .checked).push (x := .reader r) (congrArg some (r.channel_after f))
      | @ruled count ruling _ _ _ hrule =>
        subst hrule
        obtain ⟨hcheck, hrecords⟩ := r.check.channel_rule count (request ⟨below, o⟩ b).buffer
        have hpush := (ih .checked).push (x := .reader r)
          (y := .reader (r.settle (r.check.rule count (request ⟨below, o⟩ b).buffer))) (congrArg some hcheck)
        refine hpush.append ?_
        intro rec hrec
        rw [hrecords rec hrec]
        exact List.mem_cons_self
    | file a =>
      simp only [serve]
      split
      · exact (ih .unchecked).push (x := .file a) rfl
      · exact .idle _

theorem close_onChannels (s : Stack σ) : OnChannels s s.close.events s.close.state := by
  obtain ⟨layers, o⟩ := s
  simp only [close]
  induction layers with
  | nil =>
    refine ⟨rfl, ?_⟩
    simp only [closeLayers, o.records_close]
    simp
  | cons l below ih =>
    cases l with
    | reader r =>
      simp only [closeLayers]
      split
      · exact .idle _
      · exact ih.push (x := .reader r) rfl
    | file a =>
      simp only [closeLayers]
      split
      · split
        · exact ih.push (x := .file a) rfl
        · exact ih.push (x := .file a) rfl
      · exact ⟨rfl, by simp⟩

section

variable {s : Stack σ} {r : Reader} (hr : s.top? = some r)

include hr

theorem touch_channels (a : Touch) :
    ∃ es r', (s.touch a).events = es ++ (s.touch a).own ∧ OnChannels s.below es (s.touch a).stack.below ∧
      (s.touch a).stack.top? = some r' ∧ r'.check.channel = r.check.channel ∧
      ∀ rec ∈ Event.records (s.touch a).own, rec.channel = r.check.channel := by
  have htouch := touched hr a
  generalize s.touch a = x at htouch ⊢
  cases htouch with
  | refused | empty | shut => exact ⟨[], r, rfl, .idle _, hr, rfl, by simp⟩
  | @failed b f =>
    refine ⟨_, _, (List.append_nil _).symm, ?_, rfl, r.channel_after f, by simp⟩
    exact serve_onChannels .checked s.below.layers s.below.origin b
  | @ruled b count ruling _ _ _ hrule =>
    subst hrule
    obtain ⟨hcheck, hrecords⟩ := r.check.channel_rule count (s.below.request b).buffer
    refine ⟨_, _, rfl, ?_, rfl, hcheck, hrecords⟩
    exact serve_onChannels .checked s.below.layers s.below.origin b
  | closing => exact ⟨_, _, (List.append_nil _).symm, s.below.close_onChannels, rfl, rfl, by simp⟩

theorem records_on_channel (hc : r.check.channel ∉ s.below.channels) (as : List Touch) :
    ∃ r', (s.chronicle as).stack.top? = some r' ∧ r'.check.channel = r.check.channel ∧
      (s.chronicle as).stack.below.channels = s.below.channels ∧
      (Event.records (s.chronicle as).events).filter (fun rec => rec.channel = r.check.channel) =
        Event.records (s.chronicle as).own := by
  induction as using List.reverseRecOn with
  | nil => exact ⟨r, hr, rfl, rfl, rfl⟩
  | append_singleton as a ih =>
    obtain ⟨p, hp, hchannel, hbelow, hrecords⟩ := ih
    obtain ⟨es, q, hevents, hes, hq, hchannel', hown⟩ := touch_channels hp a
    rw [hchannel] at hchannel' hown
    rw [chronicle_concat]
    refine ⟨q, hq, hchannel', hes.channels.trans hbelow, ?_⟩
    have hnone : (Event.records es).filter (fun rec => rec.channel = r.check.channel) = [] := by
      rw [List.filter_eq_nil_iff]
      intro rec hrec
      have hmem := hes.records rec hrec
      rw [hbelow] at hmem
      simp only [decide_eq_true_eq]
      exact fun h => hc (h ▸ hmem)
    have hall : (Event.records ((s.chronicle as).stack.touch a).own).filter
        (fun rec => rec.channel = r.check.channel) = Event.records ((s.chronicle as).stack.touch a).own := by
      rw [List.filter_eq_self]
      intro rec hrec
      simp only [decide_eq_true_eq]
      exact hown rec hrec
    simp only [Chronicle.touch, Event.records_append, hevents, List.filter_append, hrecords, hnone, hall,
      List.nil_append]

end

end Stack

end StreamGuard
