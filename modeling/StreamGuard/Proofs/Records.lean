import StreamGuard.Proofs.Accumulator
import StreamGuard.Proofs.Channels
import StreamGuard.Proofs.Miscount

namespace StreamGuard

structure Finding where
  outcome : Except Failure Int
  state : ReaderState
  record : LogRecord

namespace Finding

structure Passes (finding : Finding) (message : String) : Prop where
  outcome : finding.outcome = .ok 0
  state : finding.state = .succeeded
  level : finding.record.level = .debug
  message : finding.record.message = message

structure Fails (finding : Finding) (failure : Failure) (message : String) (fields : List (String × LogField)) :
    Prop where
  outcome : finding.outcome = .error failure
  state : finding.state = .failed
  level : finding.record.level = .warning
  message : finding.record.message = message
  fields : finding.record.fields = fields

def ofDigest (expected D : Bytes) : Finding :=
  if Sha256.digest D = expected then ⟨.ok 0, .succeeded, .digestVerified .sha256 (Sha256.digest D)⟩
  else
    ⟨.error (.digestMismatch (Sha256.digest D) expected), .failed,
      .digestMismatch .sha256 (Sha256.digest D) expected⟩

def ofCount (limit : Nat) (total : Int) : Finding :=
  if total ≤ limit then ⟨.ok 0, .succeeded, .sizeWithin total limit⟩
  else ⟨.error (.sizeExceeded limit), .failed, .sizeExceeded limit total⟩

theorem ofDigest_passes {expected D : Bytes} (h : Sha256.digest D = expected) :
    (ofDigest expected D).Passes
      ("content digest verified (" ++ "sha256" ++ " " ++ Text.Hex.encode (Sha256.digest D) ++ ")") := by
  unfold ofDigest
  rw [if_pos h]
  exact ⟨rfl, rfl, rfl, rfl⟩

theorem ofDigest_fails {expected D : Bytes} (h : Sha256.digest D ≠ expected) :
    (ofDigest expected D).Fails (.digestMismatch (Sha256.digest D) expected) "content digest mismatch"
      [("algorithm", .text "sha256"), ("calculated", .text (Text.Hex.encode (Sha256.digest D))),
        ("expected", .text (Text.Hex.encode expected))] := by
  unfold ofDigest
  rw [if_neg h]
  exact ⟨rfl, rfl, rfl, rfl, rfl⟩

theorem ofCount_passes {limit : Nat} {total : Int} (h : total ≤ limit) :
    (ofCount limit total).Passes
      ("content within size limit (" ++ toString total ++ " of " ++ toString limit ++ " bytes)") := by
  unfold ofCount
  rw [if_pos h]
  exact ⟨rfl, rfl, rfl, rfl⟩

theorem ofCount_fails {limit : Nat} {total : Int} (h : limit < total) :
    (ofCount limit total).Fails (.sizeExceeded limit) "content exceeded maximum size"
      [("limit_bytes", .number limit), ("received_bytes", .number total)] := by
  unfold ofCount
  rw [if_neg (Int.not_le.2 h)]
  exact ⟨rfl, rfl, rfl, rfl, rfl⟩

end Finding

inductive BoundCheck.Rules (limit : Nat) (total : Int) (b : Buffer) : Int → Ruling → Prop
  | piece {count : Int} (hc : count ≠ 0) (hl : total + count ≤ limit) :
      Rules limit total b count ⟨.ok count, b, .bound ⟨limit, total + count⟩, .streaming, []⟩
  | within (hl : total ≤ limit) :
      Rules limit total b 0 ⟨.ok 0, b, .bound ⟨limit, total⟩, .succeeded, [.log (.sizeWithin total limit)]⟩
  | exceeded {count : Int} {b' : Buffer} (hl : limit < total + count) :
      Rules limit total b count ⟨.error (.sizeExceeded limit), b', .bound ⟨limit, total + count⟩, .failed,
        [.log (.sizeExceeded limit (total + count))]⟩

theorem BoundCheck.rules_of_check {c : Check} {limit : Nat} {total : Int} (hc : c = .bound ⟨limit, total⟩)
    (ht : total ≤ limit) {b : Buffer} {count : Int} (hholds : b.Holds count) {ruling : Ruling}
    (h : c.rule count b = ruling) : Rules limit total b count ruling := by
  subst hc h
  simp only [Check.rule]
  by_cases hl : total + count ≤ limit
  · by_cases hz : count = 0
    · subst hz
      rw [rule_end ht]
      exact .within ht
    · rw [rule_piece hl hz]
      exact .piece hz hl
  · have hover : limit < total + count := Int.not_le.1 hl
    have hz : count ≠ 0 := by omega
    obtain ⟨cleared, hclear⟩ := hholds.clear hz
    rw [rule_over hover hclear]
    exact .exceeded hover

namespace Stack

variable {σ : Type} [ByteSource σ]

/-- What a reader has logged in a state: one record if its check came to the finding, on the same request, and none if
its stream goes on or what lies below has failed. -/
inductive Logged (s : Stack σ) (as : List Touch) (finding : Finding) : ReaderState → List LogRecord → Prop
  | streaming : Logged s as finding .streaming []
  | broken {pre : List Touch} {b : Buffer} {f : Failure} (h : EndsAt s as pre b)
      (hbelow : ((s.chronicle pre).stack.below.request b).outcome = .error f)
      (hout : ((s.chronicle pre).stack.request b).outcome = .error f) : Logged s as finding .failed []
  | judged {pre : List Touch} {b : Buffer} {count : Int} (h : EndsAt s as pre b)
      (hbelow : ((s.chronicle pre).stack.below.request b).outcome = .ok count)
      (hout : ((s.chronicle pre).stack.request b).outcome = finding.outcome)
      (hlog : Event.records ((s.chronicle pre).stack.remarks b) = [finding.record]) :
      Logged s as finding finding.state [finding.record]

structure Reported (s : Stack σ) (as : List Touch) (channel : String) (finding : Finding) : Prop where
  logged : ∃ state, (s.chronicle as).stack.state? = some state ∧
    Logged s as finding state (Event.records (s.chronicle as).own)
  alone : channel ∉ s.below.channels →
    (Event.records (s.chronicle as).events).filter (fun rec => rec.channel = channel) =
      Event.records (s.chronicle as).own

section

variable {s : Stack σ} {r₀ r : Reader} {as : List Touch} {finding : Finding}

theorem logged_of_ruled (hr₀ : s.top? = some r₀) (hs : r₀.state = .streaming)
    (hr : (s.chronicle as).stack.top? = some r)
    (hruled : ∀ pre b p count, (s.chronicle pre).stack.top? = some p → p.refusal = none →
      ((s.chronicle pre).stack.below.request b).outcome = .ok count →
      let ruling := p.check.rule count ((s.chronicle pre).stack.below.request b).buffer
      ruling.state ≠ .streaming → r.check = ruling.check →
      (s.chronicle as).handed = (s.chronicle pre).handed ++ ruling.buffer.handed (ruling.outcome.map some) →
      ruling.outcome = finding.outcome ∧ ruling.state = finding.state ∧
        Event.records ruling.events = [finding.record]) :
    Logged s as finding r.state (Event.records (s.chronicle as).own) := by
  by_cases hstream : r.state = .streaming
  · rw [hstream, own_of_streaming hr₀ hr hstream]
    exact .streaming
  · obtain ⟨pre, b, hends⟩ := exists_endsAt hr₀ hs hr hstream
    obtain ⟨hown, hhanded, q, r', hq, hr', hcheck, hstate⟩ := hends.settled hr₀
    cases hr.symm.trans hr'
    obtain ⟨p, hp⟩ := exists_top hr₀ pre
    have hopen : p.state = .streaming := state_of_state? hp hends.streaming
    rw [chronicle_concat] at hq hhanded
    change ((s.chronicle pre).stack.touch (.request b)).stack.top? = some q at hq
    change _ = _ ++ ((s.chronicle pre).stack.touch (.request b)).handed at hhanded
    have hremarks : ((s.chronicle pre).stack.touch (.request b)).own = (s.chronicle pre).stack.remarks b := rfl
    have htouch := touched hp (.request b)
    rw [hown, ← hremarks]
    generalize (s.chronicle pre).stack.touch (.request b) = x at htouch hq hhanded hremarks ⊢
    cases htouch with
    | refused | empty =>
      cases hp.symm.trans hq
      exact absurd (hstate.trans hopen) hstream
    | @failed _ f hf _ ho hout =>
      cases hq
      have hfailed : r.state = .failed := by
        rw [hstate] at hstream ⊢
        unfold Reader.after at hstream ⊢
        split at hstream
        · rename_i hfatal
          rw [if_pos hfatal]
          rfl
        · exact absurd hopen hstream
      rw [hfailed]
      exact .broken hends ho hout
    | @ruled _ count ruling hf _ ho hrule hout =>
      cases hq
      subst hrule
      change r.state = (p.check.rule count ((s.chronicle pre).stack.below.request b).buffer).state at hstate
      rw [hstate] at hstream ⊢
      obtain ⟨houtcome, hended, hrecords⟩ := hruled pre b p count hp hf ho hstream hcheck hhanded
      rw [hended, hrecords]
      refine .judged hends ho (hout.trans houtcome) ?_
      rw [← hremarks, hrecords]

end

theorem chronicle_logged_digest (base : Stack σ) (expected : Bytes) (as : List Touch) {r : Reader}
    (hr : ((base.push (.reader (.digest expected))).chronicle as).stack.top? = some r) :
    Logged (base.push (.reader (.digest expected))) as
      (.ofDigest expected ((base.push (.reader (.digest expected))).chronicle as).handed) r.state
      (Event.records ((base.push (.reader (.digest expected))).chronicle as).own) := by
  apply logged_of_ruled (top?_push base _) rfl hr
  intro pre b p count hp hf _ ruling hended _ hhanded
  obtain ⟨q, hq, h⟩ := chronicle_hashing base expected pre
  cases hp.symm.trans hq
  have hrules := DigestCheck.rules_of_check (h.streaming (Reader.streaming_of_refusal hf)) (Eq.refl ruling)
  rw [hhanded]
  clear_value ruling
  cases hrules with
  | piece => exact absurd rfl hended
  | verified he | mismatched he =>
    simp [Buffer.handed, Except.map, Finding.ofDigest, he]

def Counting (s : Stack σ) (limit : Nat) (D : Bytes) : Prop :=
  ∃ r total, s.top? = some r ∧ r.check = .bound ⟨limit, total⟩ ∧ (r.closed = false → s.below.Tells Buffer.Holds) ∧
    (r.state ≠ .failed → total = D.length ∧ total ≤ limit)

variable {s : Stack σ} {limit : Nat} {D : Bytes}

omit [ByteSource σ] in
theorem received?_of_top? {r : Reader} {c : BoundCheck} (hr : s.top? = some r) (hc : r.check = .bound c) :
    s.received? = some c.received := by
  obtain ⟨check, state, closed⟩ := r
  subst hc
  rw [received?, layers_of_top? hr]

theorem touch_counting (h : Counting s limit D) (a : Touch) :
    Counting (s.touch a).stack limit (D ++ (s.touch a).handed) := by
  obtain ⟨r, total, hr, hcheck, hbelow, hcount⟩ := h
  have htouch := touched hr a
  generalize s.touch a = x at htouch ⊢
  cases htouch with
  | refused | empty | shut =>
    rw [List.append_nil]
    exact ⟨r, total, hr, hcheck, hbelow, hcount⟩
  | @failed b f hf =>
    rw [List.append_nil]
    have hopen : r.closed = false := (Reader.refusal_eq_none_iff.1 hf).1
    refine ⟨r.after f, total, rfl, Reader.bound_after hcheck f, fun _ => (hbelow hopen).step b, fun _ => ?_⟩
    apply hcount
    rw [Reader.streaming_of_refusal hf]
    decide
  | @ruled b count ruling hf _ ho hrule =>
    obtain ⟨hopen, hstream⟩ := Reader.refusal_eq_none_iff.1 hf
    obtain ⟨rfl, hl⟩ := hcount (by rw [hstream]; decide)
    have hholds := (hbelow hopen).request ho
    have hslice := hholds.length_upTo
    cases BoundCheck.rules_of_check hcheck hl hholds hrule with
    | piece _ hfits =>
      refine ⟨_, D.length + count, rfl, rfl, fun _ => (hbelow hopen).step b, fun _ => ⟨?_, hfits⟩⟩
      change (D.length : Int) + count = (D ++ (s.below.request b).buffer.bytes.upTo count).length
      rw [List.length_append]
      omega
    | within =>
      refine ⟨_, D.length, rfl, rfl, fun _ => (hbelow hopen).step b, fun _ => ⟨?_, hl⟩⟩
      simp [Except.map, Buffer.handed]
    | exceeded => exact ⟨_, D.length + count, rfl, rfl, fun _ => (hbelow hopen).step b, fun h => absurd rfl h⟩
  | closing =>
    rw [List.append_nil]
    refine ⟨_, total, rfl, hcheck, fun h => ?_, hcount⟩
    cases h

section

variable {base : Stack σ} (hbase : base.Tells Buffer.Holds) (limit : Nat) (as : List Touch)

include hbase

theorem chronicle_counting :
    Counting ((base.push (.reader (.bound limit))).chronicle as).stack limit
      ((base.push (.reader (.bound limit))).chronicle as).handed := by
  induction as using List.reverseRecOn with
  | nil => exact ⟨.bound limit, 0, rfl, rfl, fun _ => hbase, fun _ => ⟨rfl, Int.natCast_nonneg limit⟩⟩
  | append_singleton as a ih =>
    rw [chronicle_concat]
    exact touch_counting ih a

theorem chronicle_logged_bound {r : Reader} {total : Int}
    (hr : ((base.push (.reader (.bound limit))).chronicle as).stack.top? = some r)
    (hcheck : r.check = .bound ⟨limit, total⟩) :
    Logged (base.push (.reader (.bound limit))) as (.ofCount limit total) r.state
      (Event.records ((base.push (.reader (.bound limit))).chronicle as).own) := by
  apply logged_of_ruled (top?_push base _) rfl hr
  intro pre b p count hp hf ho ruling hended hsame _
  obtain ⟨q, total', hq, hcheck', hbelow, hcount⟩ := chronicle_counting hbase limit pre
  cases hp.symm.trans hq
  obtain ⟨hopen, hstream⟩ := Reader.refusal_eq_none_iff.1 hf
  obtain ⟨-, hl⟩ := hcount (by rw [hstream]; decide)
  have hrules := BoundCheck.rules_of_check hcheck' hl ((hbelow hopen).request ho) (Eq.refl ruling)
  rw [hcheck] at hsame
  clear_value ruling
  cases hrules with
  | piece => exact absurd rfl hended
  | within =>
    cases hsame
    simp [Finding.ofCount, hl]
  | exceeded hover =>
    cases hsame
    simp [Finding.ofCount, Int.not_le.2 hover]

end

theorem verdict_logged_once {base : Stack σ} (hbase : base.Tells Buffer.Holds) (expected : Bytes) (limit : Nat) :
    (∀ as, let s := base.push (.reader (.digest expected))
      let calculated := Sha256.digest (s.chronicle as).handed
      ∃ finding, Reported s as "safestream.io.digest" finding ∧
        (calculated = expected → finding.Passes
          ("content digest verified (" ++ "sha256" ++ " " ++ Text.Hex.encode calculated ++ ")")) ∧
        (calculated ≠ expected → finding.Fails (.digestMismatch calculated expected) "content digest mismatch"
          [("algorithm", .text "sha256"), ("calculated", .text (Text.Hex.encode calculated)),
            ("expected", .text (Text.Hex.encode expected))])) ∧
      (∀ as, let s := base.push (.reader (.bound limit))
        ∃ finding total, Reported s as "safestream.io.limit" finding ∧
          (s.chronicle as).stack.received? = some total ∧
          ((s.chronicle as).stack.state? = some .succeeded → total = (s.chronicle as).handed.length) ∧
          (total ≤ limit → finding.Passes
            ("content within size limit (" ++ toString total ++ " of " ++ toString limit ++ " bytes)")) ∧
          (limit < total → finding.Fails (.sizeExceeded limit) "content exceeded maximum size"
            [("limit_bytes", .number limit), ("received_bytes", .number total)])) ∧
      ∀ r ms turns t, play move (base.push (.reader r)) ms = some (turns, t) →
        Chronicled (base.push (.reader r)) (fun _ => True) (turns.flatMap Turn.events) t := by
  refine ⟨?_, ?_, ?_⟩
  · intro as s calculated
    obtain ⟨r, hr, -⟩ := chronicle_hashing base expected as
    refine ⟨.ofDigest expected (s.chronicle as).handed, ⟨?_, ?_⟩, Finding.ofDigest_passes, Finding.ofDigest_fails⟩
    · exact ⟨r.state, state?_of_top? hr, chronicle_logged_digest base expected as hr⟩
    · intro hc
      obtain ⟨-, -, -, -, hrecords⟩ := records_on_channel (top?_push base (.digest expected)) hc as
      exact hrecords
  · intro as s
    obtain ⟨r, total, hr, hcheck, -, hcount⟩ := chronicle_counting hbase limit as
    refine ⟨.ofCount limit total, total, ⟨?_, ?_⟩, received?_of_top? hr hcheck, ?_, Finding.ofCount_passes,
      Finding.ofCount_fails⟩
    · exact ⟨r.state, state?_of_top? hr, chronicle_logged_bound hbase limit as hr hcheck⟩
    · intro hc
      obtain ⟨-, -, -, -, hrecords⟩ := records_on_channel (top?_push base (.bound limit)) hc as
      exact hrecords
    · intro hdone
      refine (hcount ?_).1
      rw [state_of_state? hr hdone]
      decide
  · intro r ms turns t hp
    exact .of_reaches (play_reaches (by simp [push]) hp)

def insistent : List Touch :=
  [.request (.zeroed 8), .request (.zeroed 8), .request (.zeroed 8), .request (.zeroed 8), .request (.zeroed 8), .close,
    .request (.zeroed 8)]

theorem verdict_logged_once_hesitant :
    (∃ finding, Reported (hesitant.push (.reader (.digest []))) insistent "safestream.io.digest" finding ∧
        finding.Fails (.digestMismatch (Sha256.digest [1, 2, 3, 4, 5]) []) "content digest mismatch"
          [("algorithm", .text "sha256"), ("calculated", .text (Text.Hex.encode (Sha256.digest [1, 2, 3, 4, 5]))),
            ("expected", .text "")]) ∧
      Event.records ((hesitant.push (.reader (.digest []))).chronicle insistent).own =
        [.digestMismatch .sha256 (Sha256.digest [1, 2, 3, 4, 5]) []] ∧
      (∃ finding, Reported (hesitant.push (.reader (.bound 4))) insistent "safestream.io.limit" finding ∧
        finding.Fails (.sizeExceeded (4 : Nat)) "content exceeded maximum size"
          [("limit_bytes", .number (4 : Nat)), ("received_bytes", .number 5)]) ∧
      Event.records ((hesitant.push (.reader (.bound 4))).chronicle insistent).own = [.sizeExceeded 4 5] := by
  obtain ⟨hdigest, hbound, -⟩ := verdict_logged_once hesitant_tells [] 4
  refine ⟨?_, by decide +kernel, ?_, by decide +kernel⟩
  · obtain ⟨finding, hreported, -, hfails⟩ := hdigest insistent
    have hhanded : ((hesitant.push (.reader (.digest []))).chronicle insistent).handed = [1, 2, 3, 4, 5] := by
      decide +kernel
    rw [hhanded] at hfails
    exact ⟨finding, hreported, hfails (by decide +kernel)⟩
  · obtain ⟨finding, total, hreported, htotal, -, -, hfails⟩ := hbound insistent
    have hcount : ((hesitant.push (.reader (.bound 4))).chronicle insistent).stack.received? = some 5 := by
      decide +kernel
    cases htotal.symm.trans hcount
    exact ⟨finding, hreported, hfails (by decide)⟩

end Stack

end StreamGuard
