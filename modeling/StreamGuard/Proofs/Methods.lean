import StreamGuard.Proofs.Adapter
import StreamGuard.Proofs.Honesty

namespace StreamGuard

structure Buffer.Flat (b : Buffer) : Prop where
  writable : b.writable = true
  itemSize : b.itemSize = 1

theorem Buffer.Flat.items_eq {b : Buffer} (h : b.Flat) : b.items = b.size := by
  rw [items, h.itemSize, Nat.div_one, size]

namespace Script

def offering (s : Script) (readInto read : Bool) : Script :=
  { s with api := { s.api with readInto, read } }

variable {s : Script} {b : Buffer} {into reads : Bool}

theorem Plain.offering (hs : s.Plain) (into reads : Bool) : (s.offering into reads).Plain := hs

theorem deal_offering (s : Script) (into reads : Bool) (n : Nat) :
    (s.offering into reads).deal n = ((s.deal n).1, (s.deal n).2.offering into reads) := by
  simp only [deal, offering]
  split <;> rfl

theorem supply_offering (hs : s.Plain) (hb : b.Flat) (h : into = true ∨ reads = true) (intake : Intake) :
    ∃ es, Origin.supplyDirect intake (s.offering into reads) b =
      answered b ((s.deal b.size).1, (s.deal b.size).2.offering into reads) es := by
  have hplain := hs.offering into reads
  rw [← deal_offering]
  cases hinto : into with
  | true =>
    subst hinto
    exact ⟨_, supplyDirect_into_plain hplain hb.writable rfl intake⟩
  | false =>
    subst hinto
    have hreads : reads = true := by simpa using h
    rw [Origin.supplyDirect_of_read rfl hreads, supplyRead_plain hplain hb.writable, hb.items_eq]
    exact ⟨_, rfl⟩

theorem answered_honest {given : Except Failure Bytes × Script}
    (h : ∀ front, given.1 = .ok front → front.length ≤ b.size) (es : List Event) : (answered b given es).Honest b := by
  obtain ⟨f | front, s'⟩ := given
  · rintro count ⟨⟩
  · rintro count ⟨⟩
    exact ⟨front, rfl, h front rfl, rfl⟩

end Script

namespace Stack

def Played (into reads into' reads' : Bool) (x y : Stack Script) : Prop :=
  ∃ s : Script, s.Plain ∧ x = ⟨[], .direct (s.offering into reads)⟩ ∧ y = ⟨[], .direct (s.offering into' reads')⟩

variable {into reads into' reads' : Bool} {x y : Stack Script} {b : Buffer}

theorem Played.request (h : into = true ∨ reads = true) (h' : into' = true ∨ reads' = true)
    (hxy : Played into reads into' reads' x y) (hb : b.Flat) :
    Fill.Alike id (Played into reads into' reads') (x.request b) (y.request b) := by
  obtain ⟨s, hs, rfl, rfl⟩ := hxy
  obtain ⟨es, hx⟩ := Script.supply_offering hs hb h .checked
  obtain ⟨es', hy⟩ := Script.supply_offering hs hb h' .checked
  have hplain := Script.plain_deal hs b.size
  simp only [Stack.request, serve, Origin.supply, hx, hy]
  generalize s.deal b.size = given at hplain ⊢
  obtain ⟨f | front, s'⟩ := given
  · exact ⟨rfl, rfl, s', hplain, rfl, rfl⟩
  · exact ⟨rfl, rfl, s', hplain, rfl, rfl⟩

theorem request_offering_honest (h : into = true ∨ reads = true) {s : Script} (hs : s.Plain) (hb : b.Flat)
    (rs : List Reader) : ((topped rs ⟨[], .direct (s.offering into reads)⟩).request b).Honest b := by
  refine serve_honest_of_supply (fun intake => ?_) .checked
  obtain ⟨es, hsupply⟩ := Script.supply_offering hs hb h intake
  intro count ho
  change (Origin.supplyDirect intake (s.offering into reads) b).outcome = .ok count at ho
  change ∃ front : Bytes, _ ∧ _ ∧ (Origin.supplyDirect intake (s.offering into reads) b).buffer = _
  rw [hsupply] at ho ⊢
  refine Script.answered_honest ?_ es count ho
  exact fun front hfront => Script.length_deal_le hfront

def Untouched (b : Buffer) (fill : Fill (Stack Script) (Option Int)) : Prop :=
  ∀ k, fill.outcome = .ok (some k) → 0 ≤ k ∧ fill.buffer.bytes.drop k.toNat = b.bytes.drop k.toNat

theorem fills_untouched (h : into = true ∨ reads = true) {rs : List Reader} (hrs : rs ≠ []) {s : Script}
    (hs : s.Plain) {bs : List Buffer} (hbs : ∀ b ∈ bs, b.Flat) :
    List.Forall₂ Untouched bs (fills (topped rs ⟨[], .direct (s.offering into reads)⟩) bs) := by
  induction bs generalizing rs s with
  | nil => exact .nil
  | cons b bs ih =>
    obtain ⟨hb, hbs⟩ := List.forall_mem_cons.1 hbs
    have hhonest := request_offering_honest h hs hb rs
    have hread := readInto_layered (s := topped rs ⟨[], .direct (s.offering into reads)⟩) (by simp [topped, hrs]) b
    -- Told alike by itself, the stack is left with as many readers over what is left of the script.
    have hself : Fill.Alike id (Crowned rs.length (Played into reads into reads)) _ _ :=
      request_topped (fun f g hfg => congrArg Failure.endsStream hfg)
        (fun b hb hxy => Played.request h h hxy hb) ⟨s, hs, rfl, rfl⟩ rs hb
    obtain ⟨-, -, rs', x, y, hlen, hstate, -, s', hs', rfl, -⟩ := hself
    have hrs' : rs' ≠ [] := by
      rw [← List.length_pos_iff, hlen]
      exact List.length_pos_iff.2 hrs
    simp only [fills, hread]
    constructor
    · intro k hk
      obtain ⟨_, ho, he⟩ := map_eq_ok_iff.1 hk
      cases he
      obtain ⟨front, rfl, -, hbuf⟩ := hhonest k ho
      simp [hbuf]
    · rw [hstate]
      exact ih hrs' hs' hbs

theorem methods_interchangeable {rs : List Reader} (hrs : rs ≠ []) {s : Script} (hs : s.Plain) {bs : List Buffer}
    (hbs : ∀ b ∈ bs, b.Flat) (h : into = true ∨ reads = true) (h' : into' = true ∨ reads' = true) :
    List.Forall₂ (Fill.Alike id (Crowned rs.length (Played into reads into' reads')))
        (fills (topped rs ⟨[], .direct (s.offering into reads)⟩) bs)
        (fills (topped rs ⟨[], .direct (s.offering into' reads')⟩) bs) ∧
      List.Forall₂ Untouched bs (fills (topped rs ⟨[], .direct (s.offering into reads)⟩) bs) ∧
      ∀ b : Buffer, b.Flat → Fill.Alike id (Played into reads into' reads')
        (request ⟨[], .direct (s.offering into reads)⟩ b) (request ⟨[], .direct (s.offering into' reads')⟩ b) := by
  refine ⟨?_, fills_untouched h hrs hs hbs, fun b hb => ?_⟩
  · apply fills_topped (fun f g hfg => congrArg Failure.endsStream hfg)
      (fun b hb hxy => Played.request h h' hxy hb) hrs ⟨s, hs, rfl, rfl⟩ hbs
  · exact Played.request h h' ⟨s, hs, rfl, rfl⟩ hb

def halting : Script :=
  { api := {}, items := [.data [1, 2, 3] none, .failure (.raised .runtime "later"), .data [4, 5] none] }

theorem methods_interchangeable_halting :
    let rs := [Reader.digest [], .bound 3]
    let bs := [Buffer.zeroed 2, .zeroed 2, .zeroed 2, ⟨[7, 7, 7], 1, true⟩]
    let filled := fills (topped rs ⟨[], .direct (halting.offering true false)⟩) bs
    let copied := fills (topped rs ⟨[], .direct (halting.offering false true)⟩) bs
    List.Forall₂ (Fill.Alike id (Crowned 2 (Played true false false true))) filled copied ∧
      copied.map Fill.outcome =
        [.ok (some 2), .ok (some 1), .error (.raised .runtime "later"), .error (.sizeExceeded 3)] ∧
      copied.map (fun fill => fill.buffer.bytes) = [[1, 2], [3, 0], [0, 0], [0, 0, 7]] := by
  intro rs bs filled copied
  have hplain : halting.Plain := by
    simp [Script.Plain, halting, Script.Item.Plain]
  have hflat : ∀ b ∈ bs, b.Flat := by
    simp only [bs, List.forall_mem_cons]
    exact ⟨⟨rfl, rfl⟩, ⟨rfl, rfl⟩, ⟨rfl, rfl⟩, ⟨rfl, rfl⟩, by simp⟩
  have hrs : rs ≠ [] := by simp [rs]
  obtain ⟨halike, -, -⟩ := methods_interchangeable hrs hplain hflat (.inl rfl : true = true ∨ false = true)
    (.inr rfl : false = true ∨ true = true)
  exact ⟨halike, rfl, rfl⟩

end Stack

end StreamGuard
