import StreamGuard.Endpoint
import StreamGuard.Proofs.Request

namespace StreamGuard

structure Buffer.Usable (b : Buffer) : Prop where
  writable : b.writable = true
  items : b.items ≠ 0

/-- From `t` on, requests by `ask` on buffers that fit deliver the bytes `c`: each some of those that are left, never
none and never more than there is room for. With none left, a request is answered with zero, or fails with the
`ending`. -/
inductive Delivers {τ : Type} (fits : Buffer → Prop) (ask : τ → Buffer → Fill τ Int) (ending : Option Failure) :
    τ → Bytes → Prop
  | done {t : τ} (h : ∀ b, fits b → (ask t b).outcome = ending.elim (.ok 0) .error) : Delivers fits ask ending t []
  | more {t : τ} {c : Bytes} (k : Buffer → Nat) (h : ∀ b, fits b → (ask t b).outcome = .ok (k b))
      (hpos : ∀ b, fits b → 0 < k b) (hroom : ∀ b, fits b → k b ≤ b.size) (hleft : ∀ b, fits b → k b ≤ c.length)
      (hput : ∀ b, fits b → (ask t b).buffer = { b with bytes := b.bytes.overwrite (c.take (k b)) })
      (next : ∀ b, fits b → Delivers fits ask ending (ask t b).state (c.drop (k b))) :
      Delivers fits ask ending t c

namespace Buffer.Usable

variable {b b' : Buffer}

theorem size (h : b.Usable) : b.size ≠ 0 := by
  have := b.items_le_size
  have := h.items
  omega

theorem becomes (h : b.Usable) (hb : b.Becomes b') : b'.Usable :=
  ⟨by rw [hb.writable, h.writable], by rw [hb.items]; exact h.items⟩

theorem of_zeroed {n : Nat} (hn : 0 < n) (hb : (Buffer.zeroed n).Becomes b) : b.Usable := by
  have hz : (Buffer.zeroed n).Usable := ⟨rfl, by rw [items_zeroed]; omega⟩
  exact hz.becomes hb

end Buffer.Usable

def Retells {τ τ' : Type} (g : Failure → Failure) (R : τ → τ' → Prop) (ask : τ → Buffer → Fill τ Int)
    (ask' : τ' → Buffer → Fill τ' Int) : Prop :=
  ∀ t t' b, R t t' → (ask' t' b).outcome = (ask t b).outcome.mapError g ∧ (ask' t' b).buffer = (ask t b).buffer ∧
    R (ask t b).state (ask' t' b).state

@[simp] theorem mapError_id {α : Type} (x : Except Failure α) : x.mapError id = x := by
  cases x <;> rfl

namespace Delivers

variable {τ τ' : Type} {fits : Buffer → Prop} {ask : τ → Buffer → Fill τ Int} {ask' : τ' → Buffer → Fill τ' Int}
  {ending : Option Failure} {t : τ} {t' : τ'} {c : Bytes}

theorem mono {fits' : Buffer → Prop} (h : Delivers fits ask ending t c) (hf : ∀ b, fits' b → fits b) :
    Delivers fits' ask ending t c := by
  induction h with
  | done h => exact .done fun b hb => h b (hf b hb)
  | more k h hpos hroom hleft hput _ ih =>
    exact .more k (fun b hb => h b (hf b hb)) (fun b hb => hpos b (hf b hb)) (fun b hb => hroom b (hf b hb))
      (fun b hb => hleft b (hf b hb)) (fun b hb => hput b (hf b hb)) fun b hb => ih b (hf b hb)

theorem transfer (h : Delivers fits ask ending t c) (g : Failure → Failure) (R : τ → τ' → Prop)
    (hR : ∀ t t' b, R t t' → fits b → (ask' t' b).outcome = (ask t b).outcome.mapError g ∧
      (ask' t' b).buffer = (ask t b).buffer ∧ R (ask t b).state (ask' t' b).state)
    (hr : R t t') : Delivers fits ask' (ending.map g) t' c := by
  induction h generalizing t' with
  | done h =>
    apply Delivers.done
    intro b hb
    rw [(hR _ _ b hr hb).1, h b hb]
    cases ending <;> rfl
  | more k h hpos hroom hleft hput next ih =>
    refine .more k (fun b hb => ?_) hpos hroom hleft (fun b hb => ?_) fun b hb => ?_
    · rw [(hR _ _ b hr hb).1, h b hb]
      rfl
    · rw [(hR _ _ b hr hb).2.1, hput b hb]
    · exact ih b hb (hR _ _ b hr hb).2.2

theorem agree (h : Delivers fits ask ending t c) (R : τ → τ' → Prop)
    (hR : ∀ t t' b, R t t' → fits b → (ask' t' b).outcome = (ask t b).outcome ∧
      (ask' t' b).buffer = (ask t b).buffer ∧ R (ask t b).state (ask' t' b).state)
    (hr : R t t') : Delivers fits ask' ending t' c := by
  have ht : Delivers fits ask' (ending.map id) t' c := by
    apply h.transfer id R ?_ hr
    intro t t' b hr hb
    obtain ⟨hout, hrest⟩ := hR t t' b hr hb
    exact ⟨by rw [hout, mapError_id], hrest⟩
  rwa [Option.map_id] at ht

end Delivers

namespace Origin

variable {σ : Type} [ByteSource σ]

def supplyRead (intake : Intake) (s : σ) (b : Buffer) : Fill σ Int :=
  let fill := copy intake s b
  ⟨fill.outcome.map Int.ofNat, fill.buffer, fill.state, fill.events⟩

theorem supplyDirect_of_read {s : σ} (hinto : (ByteSource.api s).readInto = false)
    (hread : (ByteSource.api s).read = true) (intake : Intake) (b : Buffer) :
    supplyDirect intake s b = supplyRead intake s b := by
  simp [supplyDirect, hinto, hread, supplyRead]

end Origin

namespace Stack

variable {σ : Type} [ByteSource σ] {fits : Buffer → Prop} {ending : Option Failure} {c : Bytes}

def asked (intake : Intake) (s : Stack σ) (b : Buffer) : Fill (Stack σ) Int :=
  serve intake s.layers s.origin b

theorem retells_direct (intake : Intake) :
    Retells id (fun (s : σ) t => t = ⟨[], .direct s⟩) (Origin.supplyDirect intake) (asked intake) := by
  rintro s _ b rfl
  exact ⟨(mapError_id _).symm, rfl, rfl⟩

theorem retells_remote (intake : Intake) :
    Retells Failure.ofBody (fun (s : σ) t => ∃ r : Remote, r.attached = true ∧ t = ⟨[], .remote r s⟩)
      (Origin.supplyRead .unchecked) (asked intake) := by
  rintro s _ b ⟨r, hr, rfl⟩
  simp only [asked, serve, Origin.supply, Origin.supplyRemote, Origin.supplyRead]
  rw [if_pos hr]
  cases (Origin.copy .unchecked s b).outcome with
  | error f => exact ⟨rfl, rfl, r, hr, rfl⟩
  | ok n => exact ⟨rfl, rfl, { r with bytesRead := r.bytesRead + n }, hr, rfl⟩

theorem retells_file (intake : Intake) :
    Retells id (fun (s t : Stack σ) => ∃ a : FileAdapter, a.attached = true ∧ t = s.push (.file a))
      (asked .unchecked) (asked intake) := by
  rintro s _ b ⟨a, ha, rfl⟩
  simp only [asked, push, serve, FileAdapter.atop, mapError_id]
  rw [if_pos ha]
  cases ho : (serve .unchecked s.layers s.origin b).outcome with
  | error f => exact ⟨rfl, rfl, a, ha, rfl⟩
  | ok count => exact ⟨rfl, rfl, { a with bytesRead := a.bytesRead + count }, ha, rfl⟩

theorem delivers_direct {intake : Intake} {s : σ} (h : Delivers fits (Origin.supplyDirect intake) ending s c) :
    Delivers fits (asked intake) ending ⟨[], .direct s⟩ c := by
  simpa using h.transfer id _ (fun s t b hr _ => retells_direct intake s t b hr) rfl

theorem delivers_remote {r : Remote} (hr : r.attached = true) {s : σ}
    (h : Delivers fits (Origin.supplyRead .unchecked) ending s c) (intake : Intake) :
    Delivers fits (asked intake) (ending.map Failure.ofBody) ⟨[], .remote r s⟩ c :=
  h.transfer Failure.ofBody _ (fun s t b hr _ => retells_remote intake s t b hr) ⟨r, hr, rfl⟩

theorem delivers_file {a : FileAdapter} (ha : a.attached = true) {s : Stack σ}
    (h : Delivers fits (asked .unchecked) ending s c) (intake : Intake) :
    Delivers fits (asked intake) ending (s.push (.file a)) c := by
  simpa using h.transfer id _ (fun s t b hr _ => retells_file intake s t b hr) ⟨a, ha, rfl⟩

end Stack

namespace Memory

section

variable {m : Memory} (hm : m.closed = false) {b : Buffer} (hb : b.Usable)

include hm hb

theorem readInto_of_end (hr : m.rest = []) : (m.readInto b).outcome = m.ending.elim (.ok (some 0)) .error := by
  have hsize := hb.size
  simp only [readInto, answer, hb.writable, hm, hr]
  cases m.ending <;> simp [hsize]

theorem readInto_of_rest (hr : m.rest ≠ []) : m.readInto b =
    ⟨.ok (some (m.rest.take b.size).length), { b with bytes := b.bytes.overwrite (m.rest.take b.size) },
      m.advance b.size⟩ := by
  have hempty : m.rest.isEmpty = false := by simpa using hr
  simp [readInto, answer, hb.writable, hm, hempty]

end

theorem delivers (intake : Intake) {m : Memory} (hm : m.closed = false) :
    Delivers Buffer.Usable (Origin.supplyDirect intake) m.ending m m.rest := by
  induction hn : m.rest.length using Nat.strongRecOn generalizing m with
  | ind n ih =>
    by_cases hr : m.rest = []
    · rw [hr]
      apply Delivers.done
      intro b hb
      simp only [Origin.supplyDirect, ByteSource.api, if_true, ByteSource.readInto, readInto_of_end hm hb hr]
      cases m.ending <;> rfl
    · have hlen : 0 < m.rest.length := List.length_pos_iff.2 hr
      have hask : ∀ b : Buffer, b.Usable → Origin.supplyDirect intake m b =
          ⟨.ok (m.rest.take b.size).length, { b with bytes := b.bytes.overwrite (m.rest.take b.size) },
            m.advance b.size, [.call (.readInto b.size)]⟩ := by
        intro b hb
        simp [Origin.supplyDirect, ByteSource.api, ByteSource.readInto, readInto_of_rest hm hb hr, Origin.countOf]
      refine .more (fun b => min b.size m.rest.length) ?_ ?_ ?_ ?_ ?_ ?_
      · intro b hb
        simp [hask b hb]
      · intro b hb
        have := hb.size
        omega
      · intro b _
        omega
      · intro b _
        omega
      · intro b hb
        rw [hask b hb, List.take_eq_take_min]
      · intro b hb
        have hb' := hb.size
        have hdrop : m.rest.drop (min b.size m.rest.length) = (m.advance b.size).rest := by
          simp only [advance]
          by_cases hle : b.size ≤ m.rest.length
          · rw [Nat.min_eq_left hle]
          · rw [Nat.min_eq_right (by omega), List.drop_length, List.drop_eq_nil_of_le (by omega)]
        rw [hdrop, hask b hb]
        have hless : (m.advance b.size).rest.length < n := by
          simp only [advance, List.length_drop]
          omega
        exact @ih _ hless (m.advance b.size) hm rfl

end Memory

namespace Script

inductive Plays (ending : Option Failure) : List Item → Bytes → Prop
  | nil (h : ending = none) : Plays ending [] []
  | failure {f : Failure} {items : List Item} (h : ending = some f) : Plays ending (.failure f :: items) []
  | data {p : Bytes} {items : List Item} {c : Bytes} (hp : p ≠ []) (h : Plays ending items c) :
      Plays ending (.data p none :: items) (p ++ c)

structure Answers (ask : Script → Buffer → Fill Script Int) (room : Buffer → Nat) (api : Api) : Prop where
  room_pos : ∀ b, b.Usable → 0 < room b
  room_le : ∀ b, b.Usable → room b ≤ b.size
  nil : ∀ s b, s.api = api → s.items = [] → b.Usable → (ask s b).outcome = .ok 0
  failure : ∀ s b f items, s.api = api → s.items = .failure f :: items → b.Usable → (ask s b).outcome = .error f
  data : ∀ s b p items, s.api = api → s.items = .data p none :: items → b.Usable →
    (ask s b).outcome = .ok (p.take (room b)).length ∧
      (ask s b).buffer = { b with bytes := b.bytes.overwrite (p.take (room b)) } ∧
      (ask s b).state = { s with items := rest p (room b) items }

theorem answers_readInto {api : Api} (h : api.readInto = true) (intake : Intake) :
    Answers (Origin.supplyDirect intake) Buffer.size api where
  room_pos b hb := Nat.pos_of_ne_zero hb.size
  room_le _ _ := Nat.le_refl _
  nil s b ha hi hb := by
    simp [Origin.supplyDirect, ByteSource.api, ha, h, ByteSource.readInto, readInto, hi, fill, Buffer.put,
      hb.writable, Origin.countOf]
  failure s b f items ha hi hb := by
    simp [Origin.supplyDirect, ByteSource.api, ha, h, ByteSource.readInto, readInto, hi, Origin.countOf]
  data s b p items ha hi hb := by
    have hput : b.put (p.take b.size) = .ok { b with bytes := b.bytes.overwrite (p.take b.size) } :=
      Buffer.put_eq_ok.2 ⟨hb.writable, by simp only [List.length_take]; omega, rfl⟩
    simp [Origin.supplyDirect, ByteSource.api, ha, h, ByteSource.readInto, readInto, hi, fill, hput, Origin.countOf]

theorem answers_read (intake : Intake) (api : Api) : Answers (Origin.supplyRead intake) Buffer.items api where
  room_pos b hb := Nat.pos_of_ne_zero hb.items
  room_le b _ := b.items_le_size
  nil s b ha hi hb := by
    simp [Origin.supplyRead, Origin.copy, ByteSource.read, read, hi, Buffer.receive, Buffer.put, hb.writable,
      Except.map]
  failure s b f items ha hi hb := by
    simp [Origin.supplyRead, Origin.copy, ByteSource.read, read, hi, Except.map]
  data s b p items ha hi hb := by
    have hput : b.put (p.take b.items) = .ok { b with bytes := b.bytes.overwrite (p.take b.items) } := by
      have := b.items_le_size
      exact Buffer.put_eq_ok.2 ⟨hb.writable, by simp only [List.length_take]; omega, rfl⟩
    have hasked : ¬ (intake = .checked ∧ b.items < (p.take b.items).length) := by
      simp only [List.length_take]
      omega
    simp only [Origin.supplyRead, Origin.copy, ByteSource.read, read, hi, Buffer.receive, if_neg hasked, hput]
    exact ⟨rfl, trivial, trivial⟩

theorem answers_direct {api : Api} (h : api.readInto = true ∨ api.read = true) (intake : Intake) :
    ∃ room, Answers (Origin.supplyDirect intake) room api := by
  by_cases hinto : api.readInto = true
  · exact ⟨_, answers_readInto hinto intake⟩
  · have hread : api.read = true := h.resolve_left hinto
    have heq : ∀ s : Script, s.api = api → Origin.supplyDirect intake s = Origin.supplyRead intake s := by
      intro s hs
      funext b
      subst hs
      exact Origin.supplyDirect_of_read (by simpa [ByteSource.api] using hinto) hread intake b
    have hans := answers_read intake api
    exact ⟨_, { hans with
      nil := fun s b hs => heq s hs ▸ hans.nil s b hs
      failure := fun s b f items hs => heq s hs ▸ hans.failure s b f items hs
      data := fun s b p items hs => heq s hs ▸ hans.data s b p items hs }⟩

section

variable {ask : Script → Buffer → Fill Script Int} {room : Buffer → Nat} {api : Api} {ending : Option Failure}
  {items : List Item} {c : Bytes} (ha : Answers ask room api)

include ha

theorem delivers_data (hnext : ∀ s : Script, s.api = api → s.items = items → Delivers Buffer.Usable ask ending s c)
    {s : Script} {p : Bytes} (hp : p ≠ []) (hs : s.api = api) (hi : s.items = .data p none :: items) :
    Delivers Buffer.Usable ask ending s (p ++ c) := by
  -- By the length of the piece: a request with less room leaves the rest of it as the first item.
  induction hn : p.length using Nat.strongRecOn generalizing s p with
  | ind n ih =>
    have hlen : 0 < p.length := List.length_pos_iff.2 hp
    have hdata := fun b hb => ha.data s b p items hs hi hb
    refine .more (fun b => min (room b) p.length) ?_ ?_ ?_ ?_ ?_ ?_
    · intro b hb
      rw [(hdata b hb).1, List.length_take]
    · intro b hb
      have := ha.room_pos b hb
      omega
    · intro b hb
      have := ha.room_le b hb
      omega
    · intro b _
      simp only [List.length_append]
      omega
    · intro b hb
      rw [(hdata b hb).2.1, List.take_append_of_le_length (by omega), ← List.take_eq_take_min]
    · intro b hb
      rw [(hdata b hb).2.2]
      by_cases hle : p.length ≤ room b
      · rw [Nat.min_eq_right hle, rest_of_length_le items hle, List.drop_left]
        exact hnext _ hs rfl
      · have hpos := ha.room_pos b hb
        rw [Nat.min_eq_left (by omega), rest_of_lt items (by omega), List.drop_append_of_le_length (by omega)]
        refine ih (p.drop (room b)).length ?_ ?_ hs rfl rfl
        · simp only [List.length_drop]
          omega
        · intro he
          have := congrArg List.length he
          simp only [List.length_drop, List.length_nil] at this
          omega

theorem Plays.delivers (h : Plays ending items c) {s : Script} (hs : s.api = api) (hi : s.items = items) :
    Delivers Buffer.Usable ask ending s c := by
  induction h generalizing s with
  | nil he =>
    subst he
    exact .done fun b hb => ha.nil s b hs hi hb
  | failure he =>
    subst he
    exact .done fun b hb => ha.failure s b _ _ hs hi hb
  | data hp _ ih => exact delivers_data ha (fun _ hs hi => ih hs hi) hp hs hi

end

end Script

namespace Endpoint

structure Mirrors {σ : Type} [ByteSource σ] (make : σ → Endpoint) : Prop where
  api : ∀ s, ByteSource.api (make s) = ByteSource.api s
  readInto : ∀ s b, ByteSource.readInto (make s) b = ofFilled make (ByteSource.readInto s b)
  read : ∀ s n, ByteSource.read (make s) n = ofReply make (ByteSource.read s n)

theorem mirrors_script : Mirrors script :=
  ⟨fun _ => rfl, fun _ _ => rfl, fun _ _ => rfl⟩

theorem mirrors_memory : Mirrors memory :=
  ⟨fun _ => rfl, fun _ _ => rfl, fun _ _ => rfl⟩

namespace Mirrors

variable {σ : Type} [ByteSource σ] {make : σ → Endpoint} (hm : Mirrors make) {fits : Buffer → Prop}
  {ending : Option Failure} {s : σ} {c : Bytes}

include hm

theorem copy (intake : Intake) (s : σ) (b : Buffer) :
    (Origin.copy intake (make s) b).outcome = (Origin.copy intake s b).outcome ∧
      (Origin.copy intake (make s) b).buffer = (Origin.copy intake s b).buffer ∧
      (Origin.copy intake (make s) b).state = make (Origin.copy intake s b).state := by
  simp only [Origin.copy, hm.read, ofReply]
  cases (ByteSource.read s b.items).outcome <;> exact ⟨rfl, rfl, rfl⟩

theorem delivers_read {intake : Intake} (h : Delivers fits (Origin.supplyRead intake) ending s c) :
    Delivers fits (Origin.supplyRead intake) ending (make s) c := by
  apply h.agree (fun s e => e = make s) ?_ rfl
  rintro s _ b rfl -
  obtain ⟨hout, hbuf, hstate⟩ := hm.copy intake s b
  simp only [Origin.supplyRead, hout]
  exact ⟨trivial, hbuf, hstate⟩

theorem delivers_direct {intake : Intake} (h : Delivers fits (Origin.supplyDirect intake) ending s c) :
    Delivers fits (Origin.supplyDirect intake) ending (make s) c := by
  apply h.agree (fun s e => e = make s) ?_ rfl
  rintro s _ b rfl -
  simp only [Origin.supplyDirect, hm.api, hm.readInto, ofFilled]
  by_cases hinto : (ByteSource.api s).readInto = true
  · simp [hinto]
  · by_cases hread : (ByteSource.api s).read = true
    · obtain ⟨hout, hbuf, hstate⟩ := hm.copy intake s b
      simp [hinto, hread, hout, hbuf, hstate]
    · simp [hinto, hread]

end Mirrors

end Endpoint

end StreamGuard
