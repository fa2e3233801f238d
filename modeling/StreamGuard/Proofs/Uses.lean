import StreamGuard.Action
import StreamGuard.Proofs.Closing
import StreamGuard.Proofs.Standing

namespace StreamGuard

namespace Endpoint

theorem readInto_unclosed (e : Endpoint) (b : Buffer) :
    (ByteSource.readInto e b).source.mold = e.mold ∧ (ByteSource.readInto e b).source.closings = e.closings := by
  cases e with
  | script s =>
    simp only [ByteSource.readInto, ofFilled, mold, closings, Script.readInto]
    split <;> simp
  | memory m =>
    simp only [ByteSource.readInto, ofFilled, mold, closings, Memory.readInto]
    split
    · simp
    · split <;> simp

theorem read_unclosed (e : Endpoint) (n : Nat) :
    (ByteSource.read e n).source.mold = e.mold ∧ (ByteSource.read e n).source.closings = e.closings := by
  cases e with
  | script s =>
    simp only [ByteSource.read, ofReply, mold, closings, Script.read]
    split <;> simp
  | memory m =>
    simp [ByteSource.read, ofReply, mold, closings, Memory.read]

theorem close_mold (e : Endpoint) : (ByteSource.close e).source.mold = e.mold := by
  cases e <;> rfl

end Endpoint

namespace Origin

variable {σ : Type} [ByteSource σ]

theorem close_not_mem_copy (intake : Intake) (s : σ) (b : Buffer) : Event.call .close ∉ (copy intake s b).events := by
  simp only [copy]
  split <;> simp

theorem supply_unclosed (intake : Intake) (o : Origin Endpoint) (b : Buffer) :
    (o.supply intake b).state.molds = o.molds ∧ (o.supply intake b).state.closings = o.closings ∧
      Event.call .close ∉ (o.supply intake b).events := by
  cases o with
  | direct e =>
    obtain ⟨hmold, hclosings⟩ := e.readInto_unclosed b
    obtain ⟨hmold', hclosings'⟩ := e.read_unclosed b.items
    simp only [supply, supplyDirect, molds, closings]
    split
    · simp [hmold, hclosings]
    · split
      · simp [copy_source, hmold', hclosings', close_not_mem_copy]
      · simp
  | remote r e =>
    obtain ⟨hmold, hclosings⟩ := e.read_unclosed b.items
    simp only [supply, supplyRemote, molds, closings]
    split
    · split <;> simp [copy_source, hmold, hclosings, close_not_mem_copy]
    · simp

theorem close_molds (o : Origin Endpoint) : o.close.state.molds = o.molds := by
  cases o with
  | direct e =>
    simp only [close]
    split <;> simp [molds, e.close_mold]
  | remote r e =>
    simp only [close]
    split
    · split <;> simp [molds, e.close_mold]
    · rfl

end Origin

namespace Stack

section

variable {σ : Type} [ByteSource σ]

inductive Asks (s : Stack σ) : List Event → Stack σ → Prop
  | refl : Asks s [] s
  | request {t : Stack σ} {es : List Event} (h : Asks s es t) (b : Buffer) :
      Asks s (es ++ (t.request b).events) (t.request b).state

theorem Asks.reaches {s t : Stack σ} {es : List Event} (h : Asks s es t) : Reaches s es t := by
  induction h with
  | refl => exact .refl
  | request _ b ih => exact ih.request b

def Closes (s : Stack σ) (es : List Event) (t : Stack σ) : Prop :=
  es = s.close.events ∧ t = s.close.state

theorem Closes.reaches {s t : Stack σ} {es : List Event} (h : Closes s es t) : Reaches s es t := by
  obtain ⟨rfl, rfl⟩ := h
  exact Reaches.refl.close

end

structure Unclosed (s : Stack Endpoint) (es : List Event) (t : Stack Endpoint) : Prop where
  molds : t.molds = s.molds
  closings : t.closings = s.closings
  events : Event.call .close ∉ es

namespace Unclosed

variable {s t u : Stack Endpoint} {es fs : List Event}

theorem refl (s : Stack Endpoint) : Unclosed s [] s := ⟨rfl, rfl, by simp⟩

theorem trans (h : Unclosed s es t) (k : Unclosed t fs u) : Unclosed s (es ++ fs) u where
  molds := k.molds.trans h.molds
  closings := k.closings.trans h.closings
  events := by
    rw [List.mem_append, not_or]
    exact ⟨h.events, k.events⟩

theorem push (h : Unclosed s es t) {x y : Layer} (hm : y.mold = x.mold) (hc : y.closings = x.closings) :
    Unclosed (s.push x) es (t.push y) where
  molds := by rw [molds_push, molds_push, hm, h.molds]
  closings := by rw [closings_push, closings_push, hc, h.closings]
  events := h.events

end Unclosed

theorem serve_unclosed (intake : Intake) (layers : List Layer) (o : Origin Endpoint) (b : Buffer) :
    Unclosed ⟨layers, o⟩ (serve intake layers o b).events (serve intake layers o b).state := by
  induction layers generalizing intake with
  | nil =>
    obtain ⟨hmolds, hclosings, hevents⟩ := o.supply_unclosed intake b
    exact ⟨hmolds, hclosings, hevents⟩
  | cons x below ih =>
    cases x with
    | reader r =>
      have hserved := served intake r below o b
      generalize serve intake (.reader r :: below) o b = x at hserved ⊢
      cases hserved with
      | refused => exact .refl _
      | empty => exact .refl _
      | @failed f => exact (ih .checked).push rfl (by simp only [Layer.closings, r.closed_after])
      | @ruled count ruling _ _ _ hrule =>
        have hpush : Unclosed ⟨.reader r :: below, o⟩ _ _ := (ih .checked).push (y := .reader (r.settle ruling)) rfl rfl
        refine ⟨hpush.molds, hpush.closings, ?_⟩
        rw [List.mem_append, not_or, ← hrule]
        exact ⟨hpush.events, r.check.close_not_mem_rule _ _⟩
    | file a =>
      simp only [serve]
      split
      · refine (ih .unchecked).push (x := .file a) ?_ ?_
        · split <;> rfl
        · split <;> rfl
      · exact .refl _

theorem request_unclosed (s : Stack Endpoint) (b : Buffer) : Unclosed s (s.request b).events (s.request b).state :=
  serve_unclosed .checked s.layers s.origin b

theorem Asks.unclosed {s t : Stack Endpoint} {es : List Event} (h : Asks s es t) : Unclosed s es t := by
  induction h with
  | refl => exact .refl s
  | request _ b ih => exact ih.trans (request_unclosed _ b)

theorem close_molds (s : Stack Endpoint) : s.close.state.molds = s.molds := by
  obtain ⟨layers, o⟩ := s
  simp only [close]
  induction layers with
  | nil => exact o.close_molds
  | cons x below ih =>
    cases x with
    | reader r =>
      simp only [closeLayers]
      split
      · rfl
      · exact congrArg (Mold.reader :: ·) ih
    | file a =>
      simp only [closeLayers]
      split
      · split <;> exact congrArg (Mold.file a.owned :: ·) ih
      · rfl

theorem readInto_molds (s : Stack Endpoint) (b : Buffer) : (s.readInto b).state.molds = s.molds := by
  unfold readInto
  split
  · rename_i e _ _
    split
    · simp [molds, Origin.molds, e.readInto_unclosed b, *]
    · rfl
  · exact (request_unclosed s b).molds

def Covered (s : Stack Endpoint) : Prop := ∀ e, s ≠ ⟨[], .direct e⟩

theorem Covered.of_molds {s t : Stack Endpoint} (h : s.Covered) (hm : t.molds = s.molds) : t.Covered := by
  rintro e rfl
  obtain ⟨e', rfl, -⟩ := eq_of_molds_direct hm.symm
  exact h e' rfl

theorem Covered.wrapped {s : Stack Endpoint} (h : s.Covered) : s.Wrapped := by
  intro b
  obtain ⟨_ | ⟨x, below⟩, e | ⟨r, e⟩⟩ := s
  · exact absurd rfl (h e)
  · rfl
  · rfl
  · rfl

end Stack

namespace Action

def closes : Action → Bool
  | close | exit => true
  | _ => false

end Action

namespace Workspace

open Stack

inductive Through (w : Workspace) (id : Nat) (P : Stack Endpoint → List Event → Stack Endpoint → Prop) :
    Workspace → List Entry → Prop
  | absent (h : locate w.objects id = none) : Through w id P w []
  | present {l : Located} {es : List Event} {t : Stack Endpoint} (h : Standing w.objects id l) (hp : P l.stack es t) :
      Through w id P { w with objects := l.store t w.objects } (es.filterMap (Entry.ofEvent? l.source))

section

variable {w : Workspace} {id : Nat} {P : Stack Endpoint → List Event → Stack Endpoint → Prop}

theorem Through.idle (hP : ∀ s, P s [] s) : Through w id P w [] := by
  cases hl : locate w.objects id with
  | none => exact .absent hl
  | some l =>
    have h := Standing.of_locate hl
    have hp := Through.present h (hP l.stack)
    rwa [h.store_self] at hp

theorem Through.stems {w' : Workspace} {entries : List Entry} (h : Through w id P w' entries) :
    w'.objects.map Object.stem = w.objects.map Object.stem := by
  cases h with
  | absent => rfl
  | present => exact Located.stems_store ..

theorem run_through {α : Type} {f : Stack Endpoint → Turn (Stack Endpoint) α}
    (hf : ∀ l, Standing w.objects id l → P l.stack (f l.stack).events (f l.stack).state) :
    Through w id P (w.run id f).workspace (w.run id f).entries := by
  unfold run
  cases hl : locate w.objects id with
  | none => exact .absent hl
  | some l =>
    have h := Standing.of_locate hl
    simp only [putBack_eq]
    exact .present h (hf l h)

theorem close_through (w : Workspace) (id : Nat) :
    Through w id Closes (w.close id).workspace (w.close id).entries :=
  run_through fun _ _ => ⟨rfl, rfl⟩

theorem runAs_through {α : Type} {shown : α → Value} {f : Stack Endpoint → Turn (Stack Endpoint) α}
    (hf : ∀ l, Standing w.objects id l → P l.stack (f l.stack).events (f l.stack).state) :
    Through w id P (w.runAs id shown f).step.workspace (w.runAs id shown f).step.entries :=
  run_through hf

theorem runFill_through {α : Type} {shown : α → Value} {f : Stack Endpoint → Fill (Stack Endpoint) α}
    (hf : ∀ l, Standing w.objects id l → P l.stack (f l.stack).events (f l.stack).state) :
    Through w id P (w.runFill id shown f).step.workspace (w.runFill id shown f).step.entries := by
  unfold runFill
  cases hl : locate w.objects id with
  | none => exact .absent hl
  | some l =>
    have h := Standing.of_locate hl
    simp only [putBack_eq]
    exact .present h (hf l h)

theorem looped_asks {α : Type} {f : Nat → Stack Endpoint → Option (Turn (Stack Endpoint) α)} {s : Stack Endpoint}
    (hf : ∀ {turn}, f (budget s) s = some turn → Asks s ([] ++ turn.events) turn.state) :
    Asks s (looped f s).events (looped f s).state := by
  unfold looped
  cases h : f (budget s) s with
  | none => exact .refl
  | some turn => exact hf h

theorem runLoop_asks {α : Type} {f : Nat → Stack Endpoint → Option (Turn (Stack Endpoint) α)} {shown : α → Value}
    (hf : ∀ l, Standing w.objects id l → ∀ {turn}, f (budget l.stack) l.stack = some turn →
      Asks l.stack ([] ++ turn.events) turn.state) :
    Through w id Asks (w.runAs id shown (looped f)).step.workspace (w.runAs id shown (looped f)).step.entries :=
  runAs_through fun l hl => looped_asks (hf l hl)

theorem readAll_asks {shown : Bytes → Value} :
    Through w id Asks (w.runAs id shown (looped readAll)).step.workspace
      (w.runAs id shown (looped readAll)).step.entries := by
  apply runLoop_asks
  intro l _ turn h
  obtain ⟨answer, ha, rfl⟩ := Option.map_eq_some_iff.1 h
  exact gatherReads_keeps (I := fun t es => Asks l.stack es t) (fun _ => trivial) (fun ht b _ => ht.request b) .refl ha

theorem readLine_asks {limit : Int} {shown : Bytes → Value} :
    Through w id Asks (w.runAs id shown (looped (Stack.readLine limit))).step.workspace
      (w.runAs id shown (looped (Stack.readLine limit))).step.entries := by
  apply runLoop_asks
  intro l _ turn h
  exact readLine_keeps (I := fun t es => Asks l.stack es t) (fun _ => trivial) (fun ht b _ => ht.request b) .refl h

theorem readLines_asks {hint : Int} {shown : List Bytes → Value} :
    Through w id Asks (w.runAs id shown (looped (Stack.readLines hint))).step.workspace
      (w.runAs id shown (looped (Stack.readLines hint))).step.entries := by
  apply runLoop_asks
  intro l _ turn h
  exact readLines_keeps (I := fun t es => Asks l.stack es t) (fun _ => trivial) (fun ht b _ => ht.request b) .refl h

theorem idle_asks : Through w id Asks w [] := .idle fun _ => .refl

theorem readSome_asks (n : Int) :
    Through w id Asks (w.readSome id n).step.workspace (w.readSome id n).step.entries := by
  unfold readSome
  split
  · exact idle_asks
  · split
    · exact readAll_asks
    · split
      · exact idle_asks
      · apply runAs_through
        intro l _
        rw [read_state, read_events]
        exact Asks.refl.request (.zeroed n.toNat)

theorem useReader_asks (r : Reader) {a : Action} (ha : a.closes = false) :
    Through w id Asks (w.useReader id r a).step.workspace (w.useReader id r a).step.entries := by
  cases a with
  | read n => exact readSome_asks _
  | readAll => exact readAll_asks
  | readLine n =>
    simp only [useReader]
    split
    · exact readLine_asks
    · exact idle_asks
  | readLines n =>
    simp only [useReader]
    split
    · exact readLines_asks
    · exact idle_asks
  | iterate => exact readLines_asks
  | next => exact readLine_asks
  | enter | isTerminal | flush =>
    simp only [useReader]
    split <;> exact idle_asks
  | readable | writable | seekable | tell | fileNumber => exact idle_asks
  | readInto | requestInto | readToEnd | isByteSource => exact idle_asks
  | close | exit => cases ha

theorem useAdapter_asks {a : Action} (ha : a.closes = false) :
    Through w id Asks (w.useAdapter id a).step.workspace (w.useAdapter id a).step.entries := by
  cases a with
  | exit => cases ha
  | _ => exact idle_asks

end

section

variable {w : Workspace} {id : Nat} {o : Object} (ho : w.objects[id]? = some o) (hn : o.endpoint? = none)

include ho hn

theorem covered_of_standing {l : Located} (h : Standing w.objects id l) : l.stack.Covered := by
  cases h with
  | source ho' he =>
    rw [ho] at ho'
    cases ho'
    rw [hn] at he
    cases he
  | remote =>
    intro e h
    cases h
  | layer =>
    intro e h
    cases h

theorem drain_asks (chunk : Int) :
    Through w id Asks (w.drain id chunk).step.workspace (w.drain id chunk).step.entries := by
  unfold drain
  split
  · exact idle_asks
  · split
    · exact idle_asks
    · apply runLoop_asks
      intro l hl turn h
      have hcovered := covered_of_standing ho hn hl
      exact readToEnd_keeps (I := fun t es => Asks l.stack es t) (fun _ => trivial) (fun ht b _ => ht.request b) .refl
        (fun ht => (hcovered.of_molds ht.unclosed.molds).wrapped) h

theorem use_asks {a : Action} (ha : a.closes = false) :
    Through w id Asks (w.use id o a).step.workspace (w.use id o a).step.entries := by
  cases a with
  | readInto b =>
    cases b with
    | none => exact run_through fun _ _ => .refl
    | some b =>
      apply runFill_through
      intro l hl
      rw [(covered_of_standing ho hn hl).wrapped b]
      exact Asks.refl.request b
  | requestInto b =>
    cases b with
    | none => exact run_through fun _ _ => .refl
    | some b => exact runFill_through fun _ _ => Asks.refl.request b
  | readToEnd chunk => exact drain_asks ho hn chunk
  | isByteSource => exact idle_asks
  | close | exit => cases ha
  | _ =>
    cases o with
    | reader r below => exact useReader_asks r ha
    | localSource | remoteSource => exact useAdapter_asks ha
    | script | memory | file | body => cases hn

end

theorem use_closes {w : Workspace} {id : Nat} {o : Object} (hn : o.endpoint? = none) {a : Action}
    (ha : a.closes = true) :
    Through w id Closes (w.use id o a).step.workspace (w.use id o a).step.entries := by
  have hclose : ∀ shown : Unit → Value, Through w id Closes (w.runAs id shown Stack.close).step.workspace
      (w.runAs id shown Stack.close).step.entries := fun _ => runAs_through fun _ _ => ⟨rfl, rfl⟩
  cases a with
  | close | exit =>
    cases o with
    | reader | localSource | remoteSource => exact hclose _
    | script | memory | file | body => cases hn
  | _ => cases ha

def Remolded (s : Stack Endpoint) (_ : List Event) (t : Stack Endpoint) : Prop :=
  t.molds = s.molds

theorem idle_remolded {w : Workspace} {id : Nat} : Through w id Remolded w [] := .idle fun _ => rfl

theorem Through.mono {w w' : Workspace} {id : Nat} {entries : List Entry}
    {P Q : Stack Endpoint → List Event → Stack Endpoint → Prop} (h : Through w id P w' entries)
    (hpq : ∀ l es t, Standing w.objects id l → P l.stack es t → Q l.stack es t) : Through w id Q w' entries := by
  cases h with
  | absent hl => exact .absent hl
  | present hl hp => exact .present hl (hpq _ _ _ hl hp)

section

variable {w : Workspace} {id : Nat} {o : Object} {e : Endpoint} (ho : w.objects[id]? = some o)
  (he : o.endpoint? = some e)

include ho he

theorem source_remolded (e' : Endpoint) (hm : e'.mold = e.mold) (es : List Event) :
    Through w id Remolded { w with objects := w.objects.modify id (·.setEndpoint e') }
      (es.filterMap (Entry.ofEvent? id)) := by
  have hp : Remolded ⟨[], .direct e⟩ es ⟨[], .direct e'⟩ := by simp [Remolded, molds, Origin.molds, hm]
  exact .present (.source ho he) hp

theorem useMemory_remolded {m : Memory} (hm : e = .memory m) (a : Action) :
    Through w id Remolded (w.useMemory id m a).step.workspace (w.useMemory id m a).step.entries := by
  subst hm
  have hreply : ∀ {α : Type} (shown : α → Value) (r : Reply Memory α),
      Through w id Remolded (w.replyMemory id shown r).step.workspace (w.replyMemory id shown r).step.entries :=
    fun _ r => source_remolded ho he (.memory r.source) rfl []
  cases a with
  | read | readLine | readLines =>
    simp only [useMemory]
    split
    · exact hreply _ _
    · exact idle_remolded
  | iterate | next | exit => exact hreply _ _
  | readable | writable | seekable | enter | isTerminal | flush | tell =>
    simp only [useMemory]
    split <;> exact idle_remolded
  | _ => exact idle_remolded

theorem useScript_remolded {s : Script} (hs : e = .script s) (a : Action) :
    Through w id Remolded (w.useScript id s a).step.workspace (w.useScript id s a).step.entries := by
  subst hs
  cases a with
  | read n =>
    simp only [useScript]
    split
    · exact idle_remolded
    · split
      · exact idle_remolded
      · rename_i n
        have hmold : (Endpoint.script (s.readSigned n).source).mold = (Endpoint.script s).mold := by
          simp only [Endpoint.mold, Script.readSigned, Script.read]
          repeat' split
          all_goals rfl
        exact source_remolded ho he _ hmold [.call (.read n)]
  | _ => exact idle_remolded

end

theorem drain_remolded (w : Workspace) (id : Nat) (chunk : Int) :
    Through w id Remolded (w.drain id chunk).step.workspace (w.drain id chunk).step.entries := by
  unfold drain
  split
  · exact idle_remolded
  · split
    · exact idle_remolded
    · apply runAs_through
      intro l _
      unfold looped
      cases h : Stack.readToEnd chunk (budget l.stack) l.stack with
      | none => rfl
      | some turn =>
        unfold Stack.readToEnd at h
        split at h
        · cases h
          rfl
        · obtain ⟨answer, ha, rfl⟩ := Option.map_eq_some_iff.1 h
          refine gather_keeps ha (fun t _ => t.1.molds = l.stack.molds) ?_ rfl
          rintro ⟨t, b⟩ es turn ht hs
          cases hs
          exact (readInto_molds t b).trans ht

theorem use_remolded {w : Workspace} {id : Nat} {o : Object} (ho : w.objects[id]? = some o) (a : Action) :
    Through w id Remolded (w.use id o a).step.workspace (w.use id o a).step.entries := by
  cases he : o.endpoint? with
  | none =>
    cases ha : a.closes with
    | false => exact (use_asks ho he ha).mono fun _ _ _ _ h => h.unclosed.molds
    | true => exact (use_closes he ha).mono fun l _ _ _ h => by rw [h.2]; exact l.stack.close_molds
  | some e =>
    cases a with
    | readInto b =>
      cases b with
      | none => exact run_through fun _ _ => rfl
      | some b => exact runFill_through fun l _ => readInto_molds l.stack b
    | requestInto b =>
      cases b with
      | none => exact run_through fun _ _ => rfl
      | some b => exact runFill_through fun l _ => (request_unclosed l.stack b).molds
    | readToEnd chunk => exact drain_remolded w id chunk
    | close =>
      simp only [use]
      split
      · exact runAs_through fun l _ => l.stack.close_molds
      · exact idle_remolded
    | isByteSource => exact idle_remolded
    | _ =>
      cases o with
      | memory m | file m =>
        cases he
        exact useMemory_remolded ho rfl rfl _
      | script _ s | body _ s =>
        cases he
        exact useScript_remolded ho rfl rfl _
      | reader | localSource | remoteSource => cases he

def useAt (w : Workspace) (id : Nat) (a : Action) : Answer :=
  match w.objects[id]? with
  | none => w.refuse .dangling
  | some o => w.use id o a

def course {α : Type} (act : Workspace → α → Answer) (w : Workspace) : List α → List Entry × Workspace
  | [] => ([], w)
  | a :: as =>
    let answer := act w a
    let later := course act answer.step.workspace as
    (answer.step.entries ++ later.1, later.2)

section

variable {α : Type} {act : Workspace → α → Answer}

theorem course_append (w : Workspace) (as bs : List α) :
    course act w (as ++ bs) =
      ((course act w as).1 ++ (course act (course act w as).2 bs).1, (course act (course act w as).2 bs).2) := by
  induction as generalizing w with
  | nil => rfl
  | cons a as ih => simp only [List.cons_append, course, ih, List.append_assoc]

end

end Workspace

end StreamGuard
