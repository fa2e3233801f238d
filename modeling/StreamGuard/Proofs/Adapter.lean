import Mathlib
import StreamGuard.Proofs.Delivery
import StreamGuard.Proofs.Refusal

namespace StreamGuard

namespace Failure

def told : Failure → Failure
  | bodyFailed reason => raised .io (message (bodyFailed reason))
  | f => f

def retold (f : Failure) : Failure :=
  if f.kind.isRequest || f.kind.isTransport then .raised .io ("Reading response body failed: " ++ f.message) else f

theorem told_shown (f : Failure) : f.told.kind = f.kind ∧ f.told.message = f.message := by
  cases f <;> exact ⟨rfl, rfl⟩

theorem endsStream_told (f : Failure) : f.told.endsStream = f.endsStream := by
  simp only [endsStream, f.told_shown.1]

theorem told_ofBody (f : Failure) : f.ofBody.told = f.retold.told := by
  unfold ofBody retold
  split <;> rfl

end Failure

structure Fill.Alike {τ τ' α : Type} (view : Failure → Failure) (R : τ → τ' → Prop) (x : Fill τ α)
    (y : Fill τ' α) : Prop where
  outcome : x.outcome.mapError view = y.outcome.mapError view
  buffer : x.buffer = y.buffer
  state : R x.state y.state

theorem mapError_eq_iff {α : Type} {view : Failure → Failure} {x y : Except Failure α} :
    x.mapError view = y.mapError view ↔
      (∃ a, x = .ok a ∧ y = .ok a) ∨ ∃ f g, x = .error f ∧ y = .error g ∧ view f = view g := by
  cases x <;> cases y <;> simp [Except.mapError, eq_comm]

theorem Reader.after_eq {f g : Failure} (h : f.endsStream = g.endsStream) (r : Reader) : r.after f = r.after g := by
  simp only [after, h]

namespace Stack

section

variable {σ σ' : Type}

def topped (rs : List Reader) (base : Stack σ) : Stack σ :=
  ⟨rs.map .reader ++ base.layers, base.origin⟩

def Crowned (n : Nat) (R : Stack σ → Stack σ' → Prop) (s : Stack σ) (t : Stack σ') : Prop :=
  ∃ rs x y, rs.length = n ∧ s = topped rs x ∧ t = topped rs y ∧ R x y

variable [ByteSource σ] [ByteSource σ']

def fills (s : Stack σ) : List Buffer → List (Fill (Stack σ) (Option Int))
  | [] => []
  | b :: bs => s.readInto b :: fills (s.readInto b).state bs

variable {view : Failure → Failure} {fits : Buffer → Prop} {R : Stack σ → Stack σ' → Prop} {x : Stack σ} {y : Stack σ'}
  (hview : ∀ f g, view f = view g → f.endsStream = g.endsStream)
  (hR : ∀ {x y} b, fits b → R x y → Fill.Alike view R (x.request b) (y.request b))

include hview hR

theorem request_topped (h : R x y) (rs : List Reader) {b : Buffer} (hb : fits b) :
    Fill.Alike view (Crowned rs.length R) ((topped rs x).request b) ((topped rs y).request b) := by
  induction rs with
  | nil =>
    obtain ⟨hout, hbuf, hstate⟩ := hR b hb h
    exact ⟨hout, hbuf, [], _, _, rfl, rfl, rfl, hstate⟩
  | cons r rs ih =>
    have hcons : ∀ {τ : Type} (base : Stack τ), topped (r :: rs) base = (topped rs base).push (.reader r) :=
      fun _ => rfl
    cases hr : r.refusal with
    | some f =>
      simp only [hcons, push, request_refused hr]
      exact ⟨rfl, rfl, r :: rs, x, y, rfl, rfl, rfl, h⟩
    | none =>
      by_cases hz : b.size = 0
      · simp only [hcons, push, request, serve_empty hr hz]
        exact ⟨rfl, rfl, r :: rs, x, y, rfl, rfl, rfl, h⟩
      · obtain ⟨hout, hbuf, rs', x', y', hlen, hx, hy, h'⟩ := ih
        rw [hcons, hcons, request_push hr hz, request_push hr hz]
        rcases mapError_eq_iff.1 hout with ⟨k, hxo, hyo⟩ | ⟨f, g, hxo, hyo, hfg⟩
        · rw [Reader.atop_ok hxo, Reader.atop_ok hyo, hbuf, hx, hy]
          exact ⟨rfl, rfl, _ :: rs', x', y', by simp [hlen], rfl, rfl, h'⟩
        · rw [Reader.atop_error hxo, Reader.atop_error hyo, hx, hy, Reader.after_eq (hview f g hfg)]
          exact ⟨congrArg Except.error hfg, hbuf, r.after g :: rs', x', y', by simp [hlen], rfl, rfl, h'⟩

theorem fills_topped {rs : List Reader} (hrs : rs ≠ []) (h : R x y) {bs : List Buffer} (hbs : ∀ b ∈ bs, fits b) :
    List.Forall₂ (Fill.Alike view (Crowned rs.length R)) (fills (topped rs x) bs) (fills (topped rs y) bs) := by
  induction bs generalizing rs x y with
  | nil => exact .nil
  | cons b bs ih =>
    obtain ⟨hb, hbs⟩ := List.forall_mem_cons.1 hbs
    obtain ⟨hout, hbuf, hstate⟩ := request_topped hview hR h rs hb
    have hread : ∀ {τ : Type} [ByteSource τ] (base : Stack τ), (topped rs base).readInto b = _ :=
      fun base => readInto_layered (s := topped rs base) (by simp [topped, hrs]) b
    simp only [fills, hread]
    constructor
    · refine ⟨?_, hbuf, hstate⟩
      rcases mapError_eq_iff.1 hout with ⟨k, hxo, hyo⟩ | ⟨f, g, hxo, hyo, hfg⟩
      · simp only [hxo, hyo]
      · simp only [hxo, hyo]
        exact congrArg Except.error hfg
    · obtain ⟨rs', x', y', hlen, hx, hy, h'⟩ := hstate
      rw [hx, hy, ← hlen]
      apply ih _ h' hbs
      rw [← List.length_pos_iff, hlen]
      exact List.length_pos_iff.2 hrs

end

end Stack

namespace Script

def Item.Plain : Item → Prop
  | .data _ count => count = none
  | .failure _ => True
  | _ => False

def Item.size : Item → Nat
  | .data bytes _ => bytes.length
  | _ => 0

def Item.retold : Item → Item
  | .failure f => .failure f.retold
  | item => item

def Plain (s : Script) : Prop := ∀ item ∈ s.items, item.Plain

def held (s : Script) : Nat := (s.items.map Item.size).sum

def retold (s : Script) : Script :=
  { s with api := { readInto := false }, items := s.items.map Item.retold }

def deal (s : Script) (n : Nat) : Except Failure Bytes × Script :=
  match s.items with
  | .data bytes _ :: items => (.ok (bytes.take n), { s with items := rest bytes n items })
  | .failure f :: items => (.error f, { s with items })
  | _ => (.ok [], s)

def answered (b : Buffer) (given : Except Failure Bytes × Script) (events : List Event) : Fill Script Int :=
  match given.1 with
  | .ok front => ⟨.ok front.length, { b with bytes := b.bytes.overwrite front }, given.2, events⟩
  | .error f => ⟨.error f, b, given.2, events⟩

def sizeOf : Except Failure Bytes → Nat
  | .ok front => front.length
  | .error _ => 0

variable {s : Script} {b : Buffer}

theorem plain_rest {bytes : Bytes} {items : List Item} (h : ∀ item ∈ items, item.Plain) (n : Nat) :
    ∀ item ∈ rest bytes n items, item.Plain := by
  unfold rest
  split
  · exact h
  · simpa [Item.Plain] using h

theorem size_rest (bytes : Bytes) (items : List Item) (n : Nat) :
    (bytes.take n).length + ((rest bytes n items).map Item.size).sum = bytes.length + (items.map Item.size).sum := by
  by_cases hn : bytes.length ≤ n
  · rw [rest_of_length_le items hn, List.take_of_length_le hn]
  · rw [rest_of_lt items (by omega)]
    simp only [List.map_cons, List.sum_cons, Item.size, List.length_take, List.length_drop]
    omega

theorem plain_deal (hs : s.Plain) (n : Nat) : (s.deal n).2.Plain := by
  have htail : ∀ {item items}, s.items = item :: items → ∀ i ∈ items, i.Plain :=
    fun hi i h => hs i (hi ▸ List.mem_cons_of_mem _ h)
  unfold deal
  split
  · rename_i hi
    exact plain_rest (htail hi) n
  · rename_i hi
    exact htail hi
  · exact hs

theorem Plain.retold (hs : s.Plain) : s.retold.Plain := by
  intro item hitem
  obtain ⟨item', hitem', rfl⟩ := List.mem_map.1 hitem
  have hplain := hs item' hitem'
  cases item' with
  | failure f => trivial
  | data | raw | text | nothing => exact hplain

theorem held_deal (s : Script) (n : Nat) : sizeOf (s.deal n).1 + (s.deal n).2.held = s.held := by
  unfold deal held
  split
  · rename_i bytes count items hi
    rw [hi]
    exact size_rest bytes items n
  · rename_i f items hi
    simp [hi, sizeOf, Item.size]
  · simp [sizeOf]

theorem deal_retold (s : Script) (n : Nat) :
    s.retold.deal n = ((s.deal n).1.mapError Failure.retold, (s.deal n).2.retold) := by
  unfold deal retold
  cases hi : s.items with
  | nil => simp [Except.mapError, hi]
  | cons item items =>
    cases item with
    | data bytes count =>
      simp only [List.map_cons, Item.retold, Except.mapError]
      by_cases hn : bytes.length ≤ n
      · simp only [rest_of_length_le _ hn]
      · simp only [rest_of_lt _ (Nat.not_le.1 hn), List.map_cons, Item.retold]
    | failure f => rfl
    | raw | text | nothing => simp [Item.retold, Except.mapError, hi]

theorem length_deal_le {n : Nat} {front : Bytes} (h : (s.deal n).1 = .ok front) : front.length ≤ n := by
  unfold deal at h
  split at h <;> cases h
  · simp only [List.length_take]
    omega
  · exact Nat.zero_le n

theorem readInto_plain (hs : s.Plain) (hb : b.writable = true) :
    s.readInto b =
      ⟨(answered b (s.deal b.size) []).outcome.map some, (answered b (s.deal b.size) []).buffer,
        (s.deal b.size).2⟩ := by
  have hput : ∀ front : Bytes, front.length ≤ b.size → b.put front = .ok { b with bytes := b.bytes.overwrite front } :=
    fun front h => Buffer.put_eq_ok.2 ⟨hb, h, rfl⟩
  unfold readInto deal
  cases hi : s.items with
  | nil => simp [fill, hput [] (Nat.zero_le _), answered, Except.map]
  | cons item items =>
    have hitem : item.Plain := hs item (by simp [hi])
    cases item with
    | data bytes count =>
      have hcount : count = none := hitem
      have hfit : (bytes.take b.size).length ≤ b.size := by
        simp only [List.length_take]
        omega
      simp only [fill, hput _ hfit, hcount, Option.getD_none, answered, Except.map]
    | failure f => rfl
    | raw | text | nothing => exact absurd hitem id

theorem read_plain (hs : s.Plain) (n : Nat) : s.read n = ⟨(s.deal n).1.map .bytes, (s.deal n).2⟩ := by
  unfold read deal
  cases hi : s.items with
  | nil => rfl
  | cons item items =>
    have hitem : item.Plain := hs item (by simp [hi])
    cases item with
    | data | failure => rfl
    | raw | text | nothing => exact absurd hitem id

theorem supplyRead_plain (hs : s.Plain) (hb : b.writable = true) (intake : Intake) :
    Origin.supplyRead intake s b = answered b (s.deal b.items) [.call (.read b.items)] := by
  simp only [Origin.supplyRead, Origin.copy, ByteSource.read, read_plain hs, answered]
  cases hd : (s.deal b.items).1 with
  | error f => rfl
  | ok front =>
    have hfit := length_deal_le hd
    have hput : b.put front = .ok { b with bytes := b.bytes.overwrite front } :=
      Buffer.put_eq_ok.2 ⟨hb, Nat.le_trans hfit b.items_le_size, rfl⟩
    have hasked : ¬ (intake = .checked ∧ b.items < front.length) := by omega
    simp only [Except.map, Buffer.receive, if_neg hasked, hput]
    rfl

theorem supplyDirect_into_plain (hs : s.Plain) (hb : b.writable = true) (hinto : s.api.readInto = true)
    (intake : Intake) :
    Origin.supplyDirect intake s b = answered b (s.deal b.size) [.call (.readInto b.size)] := by
  simp only [Origin.supplyDirect, ByteSource.api, hinto, if_true, ByteSource.readInto, readInto_plain hs hb]
  cases hd : (s.deal b.size).1 <;> simp only [answered, hd] <;> rfl

theorem supplyDirect_plain (hs : s.Plain) (hb : b.writable = true) :
    ∃ given es, given.2.Plain ∧ sizeOf given.1 + given.2.held = s.held ∧
      ∀ intake, Origin.supplyDirect intake s b = answered b given es := by
  by_cases hinto : s.api.readInto = true
  · exact ⟨s.deal b.size, [.call (.readInto b.size)], plain_deal hs b.size, held_deal s b.size,
      supplyDirect_into_plain hs hb hinto⟩
  · by_cases hread : s.api.read = true
    · refine ⟨s.deal b.items, [.call (.read b.items)], plain_deal hs b.items, held_deal s b.items, fun intake => ?_⟩
      rw [Origin.supplyDirect_of_read (by simpa [ByteSource.api] using hinto) hread]
      exact supplyRead_plain hs hb intake
    · refine ⟨(.error (.noMethod .source "read"), s), [], hs, by simp [sizeOf], fun intake => ?_⟩
      simp [Origin.supplyDirect, ByteSource.api, hinto, hread, answered]

end Script

namespace Stack

def Filed (total : Int) (x y : Stack Script) : Prop :=
  ∃ s a, s.Plain ∧ x = ⟨[], .direct s⟩ ∧ y = ⟨[.file a], .direct s⟩ ∧ a.attached = true ∧ a.bytesRead + s.held = total

def Received (total : Int) (x y : Stack Script) : Prop :=
  ∃ s r, s.Plain ∧ x = ⟨[], .direct s.retold⟩ ∧ y = ⟨[], .remote r s⟩ ∧ r.attached = true ∧ r.bytesRead + s.held = total

variable {total : Int} {x y : Stack Script} {b : Buffer}

theorem Filed.request (h : Filed total x y) (hb : b.writable = true) :
    Fill.Alike id (Filed total) (x.request b) (y.request b) := by
  obtain ⟨s, a, hs, rfl, rfl, ha, htotal⟩ := h
  obtain ⟨given, es, hplain, hheld, hsupply⟩ := Script.supplyDirect_plain hs hb
  have hserve : request ⟨[.file a], .direct s⟩ b = a.atop (serve .unchecked [] (.direct s) b) := if_pos ha
  rw [hserve]
  simp only [Stack.request, serve, FileAdapter.atop, Origin.supply, hsupply]
  obtain ⟨f | front, s'⟩ := given
  · refine ⟨rfl, rfl, s', a, hplain, rfl, rfl, ha, ?_⟩
    simp only [Script.sizeOf] at hheld
    omega
  · refine ⟨rfl, rfl, s', { a with bytesRead := a.bytesRead + front.length }, hplain, rfl, rfl, ha, ?_⟩
    simp only [Script.sizeOf] at hheld ⊢
    omega

theorem supplyRemote_attached {r : Remote} (hr : r.attached = true) (s : Script) (b : Buffer) :
    Origin.supplyRemote r s b =
      let fill := Origin.supplyRead .unchecked s b
      ⟨fill.outcome.mapError Failure.ofBody, fill.buffer,
        (match fill.outcome with
          | .error _ => r
          | .ok n => { r with bytesRead := r.bytesRead + n }, fill.state), fill.events⟩ := by
  simp only [Origin.supplyRemote, hr, if_true, Origin.supplyRead]
  cases (Origin.copy .unchecked s b).outcome <;> rfl

theorem Received.request (h : Received total x y) (hb : b.writable = true) :
    Fill.Alike Failure.told (Received total) (x.request b) (y.request b) := by
  obtain ⟨s, r, hs, rfl, rfl, hr, htotal⟩ := h
  have hheld := Script.held_deal s b.items
  have hplain := Script.plain_deal hs b.items
  have hdirect := Origin.supplyDirect_of_read (s := s.retold) rfl rfl .checked b
  simp only [Stack.request, serve, Origin.supply, hdirect, supplyRemote_attached hr, Script.supplyRead_plain hs hb,
    Script.supplyRead_plain hs.retold hb, Script.deal_retold]
  generalize s.deal b.items = given at hheld hplain ⊢
  obtain ⟨f | front, s'⟩ := given
  · refine ⟨congrArg Except.error f.told_ofBody.symm, rfl, s', r, hplain, rfl, rfl, hr, ?_⟩
    simp only [Script.sizeOf] at hheld
    omega
  · refine ⟨rfl, rfl, s', { r with bytesRead := r.bytesRead + front.length }, hplain, rfl, rfl, hr, ?_⟩
    simp only [Script.sizeOf] at hheld ⊢
    omega

theorem adapters_transparent {rs : List Reader} (hrs : rs ≠ []) {s : Script} (hs : s.Plain) {bs : List Buffer}
    (hbs : ∀ b ∈ bs, b.writable = true) :
    (∀ a : FileAdapter, a.attached = true →
      List.Forall₂ (Fill.Alike id (Crowned rs.length (Filed (a.bytesRead + s.held))))
        (fills (topped rs ⟨[], .direct s⟩) bs) (fills (topped rs ⟨[.file a], .direct s⟩) bs)) ∧
    (∀ r : Remote, r.attached = true →
      List.Forall₂ (Fill.Alike Failure.told (Crowned rs.length (Received (r.bytesRead + s.held))))
        (fills (topped rs ⟨[], .direct s.retold⟩) bs) (fills (topped rs ⟨[], .remote r s⟩) bs)) ∧
    ∀ f : Failure, f.told.kind = f.kind ∧ f.told.message = f.message := by
  refine ⟨?_, ?_, Failure.told_shown⟩
  · intro a ha
    apply fills_topped _ (fun b hb h => Filed.request h hb) hrs _ hbs
    · exact fun f g h => congrArg Failure.endsStream h
    · exact ⟨s, a, hs, rfl, rfl, ha, rfl⟩
  · intro r hr
    apply fills_topped _ (fun b hb h => Received.request h hb) hrs _ hbs
    · intro f g h
      rw [← f.endsStream_told, h, g.endsStream_told]
    · exact ⟨s, r, hs, rfl, rfl, hr, rfl⟩

def curtailed : Script :=
  { api := {}, items := [.data [1, 2, 3] none, .failure (.raised .transportProtocol "cut")] }

theorem adapters_transparent_curtailed :
    let rs := [Reader.digest [], .bound 9]
    let bs := [Buffer.zeroed 2, .zeroed 2, .zeroed 2]
    let remote := fills (topped rs ⟨[], .remote { url := "http://h/f" } curtailed⟩) bs
    List.Forall₂ (Fill.Alike id (Crowned 2 (Filed 3))) (fills (topped rs ⟨[], .direct curtailed⟩) bs)
        (fills (topped rs ⟨[.file {}], .direct curtailed⟩) bs) ∧
      List.Forall₂ (Fill.Alike Failure.told (Crowned 2 (Received 3)))
        (fills (topped rs ⟨[], .direct curtailed.retold⟩) bs) remote ∧
      remote.map Fill.outcome = [.ok (some 2), .ok (some 1), .error (.bodyFailed "cut")] := by
  intro rs bs remote
  have hplain : curtailed.Plain := by
    simp [Script.Plain, curtailed, Script.Item.Plain]
  have hwritable : ∀ b ∈ bs, b.writable = true := by decide
  have hrs : rs ≠ [] := by simp [rs]
  obtain ⟨hfile, hremote, -⟩ := adapters_transparent hrs hplain hwritable
  exact ⟨hfile {} rfl, hremote { url := "http://h/f" } rfl, rfl⟩

end Stack

end StreamGuard
