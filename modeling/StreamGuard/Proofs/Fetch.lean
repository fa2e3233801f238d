import StreamGuard.Action
import StreamGuard.Proofs.Locate
import StreamGuard.Proofs.Termination
import StreamGuard.Proofs.Verdict

namespace StreamGuard

def verdict (c : Bytes) (ending : Option Failure) (limit : Nat) (expected : Bytes) : Except Failure Bytes :=
  if limit < c.length then .error (.sizeExceeded limit)
  else
    match ending with
    | some f => .error f
    | none =>
      if Sha256.digest c = expected then .ok c else .error (.digestMismatch (Sha256.digest c) expected)

namespace Stack

variable {σ : Type} [ByteSource σ]

theorem Verdict.outcome_eq {c e : Bytes} {n : Nat} {ending : Option Failure} {outcome : Except Failure Bytes}
    {states : List ReaderState} (h : Verdict [.digest e, .limit n] c ending outcome states) :
    outcome = verdict c ending n e := by
  have hwithin : (∀ m, .limit m ∈ [Demand.digest e, .limit n] → c.length ≤ m) → ¬ n < c.length :=
    fun hl => Nat.not_lt.2 (hl n (by simp))
  cases h with
  | @exceeded outer inner m hd hm =>
    have hmem : Demand.limit m ∈ [Demand.digest e, .limit n] := by
      rw [hd]
      simp
    have hmn : m = n := by simpa using hmem
    subst hmn
    simp only [verdict, if_pos hm]
  | broken hl hf =>
    simp only [verdict, if_neg (hwithin hl), hf]
  | @mismatched outer inner e' hl hf hd he _ =>
    have hmem : Demand.digest e' ∈ [Demand.digest e, .limit n] := by
      rw [hd]
      simp
    have hee : e' = e := by simpa using hmem
    subst hee
    simp only [verdict, if_neg (hwithin hl), hf, if_neg he]
  | passed hf hm =>
    have hn : c.length ≤ n := hm (.limit n) (by simp)
    have he : Sha256.digest c = e := hm (.digest e) (by simp)
    simp only [verdict, if_neg (Nat.not_lt.2 hn), hf, if_pos he]

end Stack

namespace Workspace

/-- The target can be opened, and then delivers the bytes `c` to requests on buffers that fit, and ends. -/
inductive Offers (w : Workspace) (fits : Buffer → Prop) : Target → Bytes → Option Failure → Prop
  | object {id : Nat} {l : Located} {c : Bytes} {ending : Option Failure} (hr : w.hasRead id = true)
      (hl : locate w.objects id = some l) (hd : Delivers fits (Stack.asked .unchecked) ending l.stack c) :
      Offers w fits (.object id) c ending
  | path {t : Target} {p : PathText} {c : Bytes} {ending : Option Failure} (hp : t.pathText? = some p)
      (ha : ∀ s, t = .text s → Path.isAddress s = false) (hc : w.contentAt p = .ok (c, ending)) :
      Offers w fits t c ending
  | address {url : String} {status : Int} {headers : List (String × String)} {items : List Script.Item}
      {c : Bytes} {ending : Option Failure} {length : Option Int} (ha : Path.isAddress url = true)
      (hw : w.web.answer url = .response status headers items) (hs : status < Web.errorStatus)
      (hl : Remote.announced headers = .ok length)
      (hd : Delivers fits (Origin.supplyRead .unchecked) ending (Web.body items) c) :
      Offers w fits (.text url) c (ending.map Failure.ofBody)

def Opens (s : Step Nat) (fits : Buffer → Prop) (c : Bytes) (ending : Option Failure) : Prop :=
  ∃ id l, s.outcome = .ok id ∧ locate s.workspace.objects id = some l ∧
    ∀ intake, Delivers fits (Stack.asked intake) ending l.stack c

variable {w : Workspace} {fits : Buffer → Prop} {t : Target} {c : Bytes} {ending : Option Failure}

theorem opens_object {id : Nat} {l : Located} (hr : w.hasRead id = true) (hl : locate w.objects id = some l)
    (hd : Delivers fits (Stack.asked .unchecked) ending l.stack c) :
    Opens (w.openTarget (.object id)) fits c ending := by
  simp only [openTarget, isFileLike, hr, if_true, openLocal]
  exact ⟨w.objects.length, _, rfl, locate_localSource hl {}, Stack.delivers_file rfl hd⟩

theorem openTarget_path {p : PathText} (hp : t.pathText? = some p)
    (ha : ∀ s, t = .text s → Path.isAddress s = false) : w.openTarget t = w.openPath p := by
  cases t with
  | object id => cases hp
  | text s =>
    cases hp
    simp [openTarget, isFileLike, printed, ha s rfl, openLocal]
  | path s =>
    cases hp
    simp [openTarget, isFileLike, printed, Path.isAddress_plain, openLocal]
  | bytes bs =>
    cases hp
    simp [openTarget, isFileLike, printed, Path.isAddress_quotedBytes, openLocal]

theorem openTarget_address {url : String} (ha : Path.isAddress url = true) :
    w.openTarget (.text url) = w.openRemote url (some Web.defaultTimeout) := by
  simp [openTarget, isFileLike, printed, ha]

theorem opens_path {p : PathText} (hc : w.contentAt p = .ok (c, ending)) :
    Opens (w.openPath p) Buffer.Usable c ending := by
  have hm : Delivers Buffer.Usable (Origin.supplyDirect .unchecked) ending (Endpoint.memory (.opened c ending)) c :=
    Endpoint.mirrors_memory.delivers_direct (Memory.delivers .unchecked (m := .opened c ending) rfl)
  have hfile : locate (w.objects ++ [.file (.opened c ending)]) w.objects.length =
      some (.ofSource w.objects.length (.memory (.opened c ending))) :=
    locate_endpoint List.getElem?_concat_length rfl
  simp only [openPath, hc]
  exact ⟨_, _, rfl, locate_localSource hfile { owned := true },
    Stack.delivers_file rfl (Stack.delivers_direct hm)⟩

theorem opens_address {url : String} {status : Int} {headers : List (String × String)} {items : List Script.Item}
    {length : Option Int} (ha : Path.isAddress url = true) (hw : w.web.answer url = .response status headers items)
    (hs : status < Web.errorStatus) (hl : Remote.announced headers = .ok length)
    (hd : Delivers fits (Origin.supplyRead .unchecked) ending (Web.body items) c) :
    Opens (w.openTarget (.text url)) fits c (ending.map Failure.ofBody) := by
  have hbody := Endpoint.mirrors_script.delivers_read hd
  have hget : (w.objects ++ [.body url (Web.body items)])[w.objects.length]? = some (.body url (Web.body items)) :=
    List.getElem?_concat_length
  rw [openTarget_address ha]
  simp only [openRemote, startSession, Step.andThen, note, add, hw, takeResponse, Int.not_le.2 hs, if_false, hl]
  exact ⟨_, _, rfl, locate_remoteSource { url, contentLength := length } hget,
    fun intake => Stack.delivers_remote rfl hbody intake⟩

theorem offers_script {id : Nat} {label : String} {s : Script} (h : w.objects[id]? = some (.script label s))
    (hr : s.api.read = true) (hp : Script.Plays ending s.items c) :
    w.Offers Buffer.Usable (.object id) c ending := by
  obtain ⟨room, hans⟩ := Script.answers_direct (.inr hr) .unchecked
  have hs : Delivers Buffer.Usable (Origin.supplyDirect .unchecked) ending (Endpoint.script s) c :=
    Endpoint.mirrors_script.delivers_direct (hp.delivers hans rfl rfl)
  refine .object ?_ (locate_endpoint h rfl) (Stack.delivers_direct hs)
  simp [hasRead, h, Object.hasRead, hr]

theorem offers_page {url : String} {status : Int} {headers : List (String × String)} {items : List Script.Item}
    {length : Option Int} (ha : Path.isAddress url = true) (hw : w.web.answer url = .response status headers items)
    (hs : status < Web.errorStatus) (hl : Remote.announced headers = .ok length)
    (hp : Script.Plays ending items c) :
    w.Offers Buffer.Usable (.text url) c (ending.map Failure.ofBody) :=
  .address ha hw hs hl (hp.delivers (Script.answers_read .unchecked _) rfl rfl)

theorem Offers.mono {fits' : Buffer → Prop} (h : w.Offers fits t c ending) (hf : ∀ b, fits' b → fits b) :
    w.Offers fits' t c ending := by
  cases h with
  | object hr hl hd => exact .object hr hl (hd.mono hf)
  | path hp ha hc => exact .path hp ha hc
  | address ha hw hs hl hd => exact .address ha hw hs hl (hd.mono hf)

theorem Offers.opens (h : w.Offers fits t c ending) (hf : ∀ b, fits b → b.Usable) :
    Opens (w.openTarget t) fits c ending := by
  cases h with
  | object hr hl hd => exact opens_object hr hl hd
  | path hp ha hc =>
    rw [openTarget_path hp ha]
    obtain ⟨id, l, hid, hl, hd⟩ := opens_path hc
    exact ⟨id, l, hid, hl, fun intake => (hd intake).mono hf⟩
  | address ha hw hs hl hd => exact opens_address ha hw hs hl hd

variable {size : Int} {value : DigestValue} {expected : Bytes}

theorem fetchDigest_of_opened {source : Nat} {l : Located} (ho : (w.openTarget t).outcome = .ok source)
    (hl : locate (w.openTarget t).workspace.objects source = some l) (hs : 0 ≤ size)
    (hv : value.toBytes = .ok expected) :
    ∃ id l', (w.fetchDigest t (.number size) value).outcome = .ok id ∧
      locate (w.fetchDigest t (.number size) value).workspace.objects id = some l' ∧
      l'.stack = .guarded [.digest expected, .limit size.toNat] l.stack := by
  have hlimit : limitOf (.number size) = .ok size.toNat := by
    simp only [limitOf, if_neg (Int.not_lt.2 hs)]
  have hbound := locate_reader hl (.bound size.toNat)
  have hdigest := locate_reader hbound (.digest expected)
  simp only [fetchDigest, fetchBound, Step.andThen, ho, addBound, hlimit, addDigest, hv, Except.map, addReader, add]
  exact ⟨_, _, rfl, hdigest, rfl⟩

theorem fetchDigest_of_opens (h : Opens (w.openTarget t) fits c ending) (hs : 0 ≤ size)
    (hv : value.toBytes = .ok expected) :
    ∃ id l base, (w.fetchDigest t (.number size) value).outcome = .ok id ∧
      locate (w.fetchDigest t (.number size) value).workspace.objects id = some l ∧
      l.stack = .guarded [.digest expected, .limit size.toNat] base ∧ Delivers fits Stack.request ending base c := by
  obtain ⟨source, l, hout, hl, hd⟩ := h
  obtain ⟨id, l', hid, hl', hstack⟩ := fetchDigest_of_opened hout hl hs hv
  exact ⟨id, l', l.stack, hid, hl', hstack, hd .checked⟩

theorem run_outcome {α : Type} {id : Nat} {l : Located} (h : locate w.objects id = some l)
    (f : Stack Endpoint → Turn (Stack Endpoint) α) : (w.run id f).outcome = (f l.stack).outcome := by
  simp only [run, h]

theorem fetch_verdict {chunk : Int} (hc : 0 < chunk) (h : w.Offers (Buffer.zeroed chunk.toNat).Becomes t c ending)
    (hs : 0 ≤ size) (hv : value.toBytes = .ok expected) :
    ∃ id, (w.fetchDigest t (.number size) value).outcome = .ok id ∧
      ((w.fetchDigest t (.number size) value).workspace.run id (looped (Stack.readToEnd chunk))).outcome =
        verdict c ending size.toNat expected ∧
      (chunk ≤ Buffer.memoryLimit →
        ((w.fetchDigest t (.number size) value).workspace.drain id chunk).step.outcome =
          (verdict c ending size.toNat expected).map Value.bytes) := by
  have hopens := h.opens fun b hb => .of_zeroed (by omega) hb
  obtain ⟨id, l, base, hid, hl, hstack, hd⟩ := fetchDigest_of_opens hopens hs hv
  have hne : [Demand.digest expected, .limit size.toNat] ≠ [] := by simp
  obtain ⟨turn, fs, base', hturn, -, hverdict⟩ := Stack.readToEnd_demanding hne hc hd (Nat.lt_succ_self _)
  have hrun : ((w.fetchDigest t (.number size) value).workspace.run id (looped (Stack.readToEnd chunk))).outcome =
      verdict c ending size.toNat expected := by
    rw [run_outcome hl, hstack, Stack.looped_readToEnd hturn, hverdict.outcome_eq]
  refine ⟨id, hid, hrun, fun hmem => ?_⟩
  rw [drain_of_le _ _ hmem, ← hrun]
  rfl

def broken : Workspace :=
  { web := ⟨[("http://h/f", .response 200 []
      [.data [104, 101] none, .data [108, 108, 111] none, .failure (.raised .transportProtocol "cut")])]⟩
    files := { files := [("f", [1, 2, 3])], failing := [("f", .raised .io "worn")] } }

theorem fetch_verdict_broken :
    (∃ id, (broken.fetchDigest (.text "http://h/f") (.number 4) (.bytes [])).outcome = .ok id ∧
      ((broken.fetchDigest (.text "http://h/f") (.number 4) (.bytes [])).workspace.drain id 2).step.outcome =
        .error (.sizeExceeded 4)) ∧
    (∃ id, (broken.fetchDigest (.text "http://h/f") (.number 5) (.bytes [])).outcome = .ok id ∧
      ((broken.fetchDigest (.text "http://h/f") (.number 5) (.bytes [])).workspace.drain id 2).step.outcome =
        .error (.bodyFailed "cut")) ∧
    ∃ id, (broken.fetchDigest (.path "./f") (.number 3) (.bytes [])).outcome = .ok id ∧
      ((broken.fetchDigest (.path "./f") (.number 3) (.bytes [])).workspace.drain id 2).step.outcome =
        .error (.raised .io "worn") := by
  have hplays : Script.Plays (some (.raised .transportProtocol "cut"))
      [.data [104, 101] none, .data [108, 108, 111] none, .failure (.raised .transportProtocol "cut")]
      [104, 101, 108, 108, 111] := by
    exact .data (p := [104, 101]) (by simp) (.data (p := [108, 108, 111]) (by simp) (.failure rfl))
  have hoffers : broken.Offers Buffer.Usable (.text "http://h/f") [104, 101, 108, 108, 111]
      (some (.bodyFailed "cut")) :=
    offers_page (by decide) rfl (by decide) rfl hplays
  have h := hoffers.mono fun b (hb : (Buffer.zeroed 2).Becomes b) => .of_zeroed (by decide) hb
  have hfile : broken.Offers Buffer.Usable (.path "./f") [1, 2, 3] (some (.raised .io "worn")) :=
    .path rfl (by simp) rfl
  refine ⟨?_, ?_, ?_⟩
  · obtain ⟨id, hid, -, hdrain⟩ := @fetch_verdict _ _ _ _ 4 (.bytes []) [] 2 (by decide) h (by decide) rfl
    exact ⟨id, hid, hdrain (by decide)⟩
  · obtain ⟨id, hid, -, hdrain⟩ := @fetch_verdict _ _ _ _ 5 (.bytes []) [] 2 (by decide) h (by decide) rfl
    exact ⟨id, hid, hdrain (by decide)⟩
  · have h := hfile.mono fun b (hb : (Buffer.zeroed 2).Becomes b) => .of_zeroed (by decide) hb
    obtain ⟨id, hid, -, hdrain⟩ := @fetch_verdict _ _ _ _ 3 (.bytes []) [] 2 (by decide) h (by decide) rfl
    exact ⟨id, hid, hdrain (by decide)⟩

end Workspace

end StreamGuard
