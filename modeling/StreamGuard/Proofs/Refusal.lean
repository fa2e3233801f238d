import StreamGuard.Proofs.Handout

namespace StreamGuard

theorem gather_error {τ : Type} {step : τ → Option (Turn τ (Option Bytes))} {enough : Nat → Bytes → Bool} {t : τ}
    {f : Failure} (hs : step t = some ⟨.error f, t, []⟩) (he : enough 0 [] = false) (budget : Nat) :
    gather step enough (budget + 1) t {} = some ⟨.error f, t, []⟩ :=
  gather_failed hs he rfl budget

namespace Stack

variable {σ : Type} [ByteSource σ]

/-- Reading by any method fails with `f`, or asks for nothing, and leaves the stack as it is. -/
structure Refuses (s : Stack σ) (f : Failure) : Prop where
  readInto : ∀ b, s.readInto b = ⟨.error f, b, s, []⟩
  noBuffer : s.noBuffer = f
  read : ∀ n, s.read n = ⟨.error f, s, []⟩
  readAll : ∀ budget, s.readAll (budget + 1) = some ⟨.error f, s, []⟩
  readToEnd : ∀ chunk budget, 0 < chunk → s.readToEnd chunk (budget + 1) = some ⟨.error f, s, []⟩
  readLine : ∀ limit budget turn, s.readLine limit budget = some turn → turn.state = s ∧ turn.events = []
  readLines : ∀ hint budget turn, s.readLines hint budget = some turn → turn.state = s ∧ turn.events = []

section

variable {s : Stack σ} {f : Failure} (hr : ∀ b, s.request b = ⟨.error f, b, s, []⟩)

include hr

theorem read_of_request (n : Nat) : s.read n = ⟨.error f, s, []⟩ := by
  simp [read, hr]

theorem untilEmpty_of_request (n : Nat) : untilEmpty (s.read n) = ⟨.error f, s, []⟩ := by
  simp [read_of_request hr, untilEmpty, Except.map]

theorem readUntilEmpty_of_request (n budget : Nat) :
    readUntilEmpty n (budget + 1) s = some ⟨.error f, s, []⟩ := by
  rw [readUntilEmpty, gather_error (f := f) (by rw [untilEmpty_of_request hr]) rfl]
  rfl

theorem readLine_of_request {limit : Int} {budget : Nat} {turn : Turn (Stack σ) Bytes}
    (h : s.readLine limit budget = some turn) : turn.state = s ∧ turn.events = [] := by
  obtain ⟨answer, ha, rfl⟩ := Option.map_eq_some_iff.1 h
  cases budget with
  | zero => simp [gather] at ha
  | succ budget =>
    by_cases he : lineComplete limit 0 [] = true
    · simp only [gather, Gathered.last, List.headD_nil, he, if_true, Option.some.injEq] at ha
      subst ha
      exact ⟨rfl, rfl⟩
    · rw [gather_error (f := f) (by rw [untilEmpty_of_request hr]) (by simpa using he)] at ha
      cases ha
      exact ⟨rfl, rfl⟩

theorem readLine_fails_of_request {limit : Int} (he : lineComplete limit 0 [] = false) (budget : Nat) :
    s.readLine limit (budget + 1) = some ⟨.error f, s, []⟩ := by
  rw [readLine, gather_error (f := f) (by rw [untilEmpty_of_request hr]) he]
  rfl

theorem readLines_of_request {hint : Int} {budget : Nat} {turn : Turn (Stack σ) (List Bytes)}
    (h : s.readLines hint budget = some turn) : turn.state = s ∧ turn.events = [] := by
  unfold readLines at h
  split at h
  · cases h
    exact ⟨rfl, rfl⟩
  · cases budget with
    | zero => simp [gather] at h
    | succ budget =>
      have henough : (fun total (_ : Bytes) => 0 < hint && hint < (total : Int)) 0 [] = false := by
        simp
        omega
      rw [gather_error (f := f) ?_ henough] at h
      · cases h
        exact ⟨rfl, rfl⟩
      · rw [readLine_fails_of_request hr (by decide)]
        rfl

end

theorem request_refused {r : Reader} {f : Failure} (h : r.refusal = some f) (below : List Layer)
    (o : Origin σ) (b : Buffer) :
    request ⟨.reader r :: below, o⟩ b = ⟨.error f, b, ⟨.reader r :: below, o⟩, []⟩ :=
  serve_refused h .checked below o b

theorem refuses_of_refusal {r : Reader} {f : Failure} (h : r.refusal = some f) (below : List Layer)
    (o : Origin σ) : Refuses ⟨.reader r :: below, o⟩ f where
  readInto b := by rw [readInto_cons, serve_refused h]; rfl
  noBuffer := by simp [noBuffer, bufferless, h]
  read := read_of_request (request_refused h below o)
  readAll := readUntilEmpty_of_request (request_refused h below o) allChunk
  readToEnd chunk budget hc := by
    rw [readToEnd, if_neg (Int.not_le.2 hc), gather_error (f := f) ?_ rfl]
    · rfl
    · simp [drainStep, readInto_cons, serve_refused h, Except.map]
  readLine _ _ _ := readLine_of_request (request_refused h below o)
  readLines _ _ _ := readLines_of_request (request_refused h below o)

end Stack

end StreamGuard
