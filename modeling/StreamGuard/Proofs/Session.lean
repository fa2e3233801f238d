import Mathlib
import StreamGuard.Proofs.Network
import StreamGuard.Proofs.Refusal
import StreamGuard.Proofs.Visits

/-!
Whole runs, whatever the network answers each time. Main statement: the first visit makes the session and no other
does, each visit is a single GET, a response is read after its GET and until it is closed, it is closed at most once and
surely when its source is or its status says so, and a source that has been closed refuses to be read.
-/

namespace StreamGuard

theorem Conversation.not_attached {attached : Bool} {cs : List Call} (h : Conversation attached cs)
    (hc : .close ∈ cs) : attached = false := by
  have hcount := h.count_close
  cases attached with
  | false => rfl
  | true => exact absurd hc (List.count_eq_zero.1 hcount)

theorem Entry.close_mem_callsOn {i : Nat} {es : List Entry} (h : .call i .close ∈ es) : .close ∈ callsOn i es :=
  List.mem_filterMap.2 ⟨_, h, by simp [callOn?]⟩

namespace Stack

theorem request_detached {r : Remote} (hr : r.attached = false) (e : Endpoint) (b : Buffer) :
    request ⟨[], .remote r e⟩ b = ⟨.error .closedSource, b, ⟨[], .remote r e⟩, []⟩ := by
  simp [request, serve, Origin.supply, Origin.supplyRemote, hr]

theorem refuses_detached {r : Remote} (hr : r.attached = false) (e : Endpoint) :
    Refuses ⟨[], .remote r e⟩ .closedSource := by
  have hrequest := request_detached hr e
  have hread : ∀ b, readInto ⟨[], .remote r e⟩ b = ⟨.error .closedSource, b, ⟨[], .remote r e⟩, []⟩ := by
    intro b
    simp only [readInto]
    exact congrArg (fun fill => Fill.mk (fill.outcome.map some) fill.buffer fill.state fill.events) (hrequest b)
  refine ⟨hread, ?_, read_of_request hrequest, readUntilEmpty_of_request hrequest allChunk, fun chunk budget hc => ?_,
    fun _ _ _ => readLine_of_request hrequest, fun _ _ _ => readLines_of_request hrequest⟩
  · simp [noBuffer, bufferless, Origin.bufferless, hr]
  · rw [readToEnd, if_neg (Int.not_le.2 hc), gather_error (f := .closedSource) ?_ rfl]
    · rfl
    · simp [drainStep, hread, Except.map]

end Stack

namespace Action

def Reads : Action → Prop
  | readInto _ | requestInto _ => True
  | readToEnd chunk => 0 < chunk ∧ chunk ≤ Buffer.memoryLimit
  | _ => False

end Action

open Object (Stem)

inductive Over (stems : List Stem) (i : Nat) : Nat → Prop
  | source {id : Nat} (h : stems[id]? = some (Stem.remoteSource i)) : Over stems i id
  | reader {id below : Nat} (h : stems[id]? = some (Stem.reader below)) (hb : Over stems i below) : Over stems i id

namespace Over

variable {objects : List Object} {names : List (String × Nat)} {es : List Entry} {i id : Nat}

theorem exists_object (h : Over (objects.map Object.stem) i id) : ∃ o, objects[id]? = some o ∧ o.endpoint? = none := by
  cases h with
  | source h =>
    obtain ⟨r, hr⟩ := remoteSource_of_stem h
    exact ⟨_, hr, rfl⟩
  | reader h =>
    obtain ⟨r, hr⟩ := reader_of_stem h
    exact ⟨_, hr, rfl⟩

theorem isPublic (h : Over (objects.map Object.stem) i id) : Public (objects.map Object.stem) id := by
  cases h with
  | source h | reader h => exact ⟨_, h, rfl⟩

theorem standing (hl : Ledger objects names es) (h : Over (objects.map Object.stem) i id) :
    ∃ l, Standing objects id l := by
  induction h with
  | source h =>
    obtain ⟨url, hurl⟩ := hl.sound.response h
    obtain ⟨body, hbody⟩ := body_of_stem hurl
    obtain ⟨r, hr⟩ := remoteSource_of_stem h
    exact ⟨_, .remote hr hbody rfl⟩
  | reader h _ ih =>
    obtain ⟨l, hbelow⟩ := ih
    obtain ⟨r, hr⟩ := reader_of_stem h
    exact ⟨_, .layer hr rfl (hl.sound.layer h rfl).2 hbelow⟩

theorem detached (ho : Ordered objects) (h : Over (objects.map Object.stem) i id) (he : endedAt objects id = true) :
    ∃ (j : Nat) (r : Remote), objects[j]? = some (.remoteSource r i) ∧ r.attached = false := by
  induction h with
  | @source id h =>
    obtain ⟨r, hr⟩ := remoteSource_of_stem h
    exact ⟨id, r, hr, by simpa [endedAt, hr, Object.ended] using he⟩
  | reader h _ ih =>
    obtain ⟨r, hr⟩ := reader_of_stem h
    exact ih (ho hr (by simpa [endedAt, hr, Object.ended] using he))

end Over

namespace Workspace

def meet (w : Workspace) (c : Web × Command) : Answer :=
  { w with web := c.1 }.perform c.2

def history (files : FileTree) (cs : List (Web × Command)) : List Entry × Workspace :=
  course meet { files } cs

def goes : Workspace → List (Web × Command) → Bool
  | _, [] => false
  | w, c :: cs => (c.2.address? w).isSome || goes (w.meet c).step.workspace cs

section

variable {w : Workspace} {es : List Entry}

theorem meet_advanced (h : Ledger w.objects w.names es) {c : Web × Command} (hc : c.2.ByName) :
    Advanced w es (c.2.address? w) (w.meet c).step := by
  have hstep := perform_advanced (w := { w with web := c.1 }) h hc
  exact ⟨hstep.ledger, hstep.entries, hstep.session, hstep.stems⟩

theorem Advanced.count_newSession {α : Type} {address : Option (String × Option Int)} {s : Step α}
    (h : Advanced w es address s) : s.entries.count .newSession = (!w.session && address.isSome).toNat := by
  obtain ⟨later, hlater, hlocal⟩ := h.entries
  have hnone : later.count .newSession = 0 := by
    rw [List.count_eq_zero]
    intro hmem
    exact Bool.noConfusion (hlocal _ hmem)
  rw [hlater, List.count_append, hnone]
  cases address <;> cases w.session <;> rfl

structure Met (w : Workspace) (es : List Entry) (cs : List (Web × Command)) (later : List Entry × Workspace) :
    Prop where
  ledger : Ledger later.2.objects later.2.names (es ++ later.1)
  session : later.2.session = (w.session || goes w cs)
  sessions : later.1.count .newSession = (!w.session && goes w cs).toNat
  stems : w.objects.map Object.stem <+: later.2.objects.map Object.stem

theorem course_met (h : Ledger w.objects w.names es) {cs : List (Web × Command)} (hcs : ∀ c ∈ cs, c.2.ByName) :
    Met w es cs (course meet w cs) := by
  induction cs generalizing w es with
  | nil =>
    exact ⟨by rwa [course, List.append_nil], by simp [course, goes], by simp [course, goes], List.prefix_refl _⟩
  | cons c cs ih =>
    have hstep := meet_advanced h (hcs c List.mem_cons_self)
    obtain ⟨hledger, hsession, hsessions, hstems⟩ := ih hstep.ledger fun d hd => hcs d (List.mem_cons_of_mem c hd)
    refine ⟨?_, ?_, ?_, hstep.stems.trans hstems⟩
    · rwa [course, ← List.append_assoc]
    · rw [course, hsession, hstep.session, goes, Bool.or_assoc]
    · rw [course, List.count_append, hsessions, hstep.count_newSession, hstep.session, goes]
      cases w.session <;> cases (c.2.address? w).isSome <;> cases goes (w.meet c).step.workspace cs <;> rfl

end

section

variable {w : Workspace} {url : String} {timeout : Option Int}

theorem withTarget_visits {t : NamedTarget} {f : Target → Step Nat} (ha : t.address? w = some (url, timeout))
    (hf : ∀ t, w.placeOf t = .page url timeout → Visits w url (f t)) : Visits w url (w.withTarget t f) := by
  obtain ⟨target, hresolve, hplace⟩ := Option.bind_eq_some_iff.1 ha
  have hvisits := hf target (placeOf_eq_page hplace)
  cases t with
  | named name =>
    obtain ⟨id, hid, rfl⟩ := Option.map_eq_some_iff.1 hresolve
    simpa only [withTarget, withName, hid] using hvisits
  | plain t =>
    cases hresolve
    exact hvisits

theorem make_visits (name : String) {recipe : Recipe} (ha : recipe.address? w = some (url, timeout)) :
    Visits w url (w.make name recipe) := by
  cases recipe with
  | openTarget t => exact withTarget_visits ha fun _ ht => .target ht
  | openRemote =>
    cases ha
    exact .remote timeout
  | fetchDigest t limit expected => exact withTarget_visits ha fun _ ht => .fetch ht (.digest limit expected)
  | fetchBound t limit => exact withTarget_visits ha fun _ ht => .fetch ht (.bound limit)
  | memory | script | digest | bound | openLocal => cases ha

end

/-- The command closes the object `id`: it is told to, or gives it to a reader that cannot be built. -/
inductive Closing (w : Workspace) (id : Nat) : Command → Prop
  | use {name : String} {a : Action} (hn : w.find? name = some id) (ha : a.closes = true) : Closing w id (.use name a)
  | bound {name source : String} {limit : Scalar} {f : Failure} (hn : w.find? source = some id)
      (hl : limitOf limit = .error f) : Closing w id (.build name (.bound source limit))
  | digest {name source : String} {expected : DigestValue} {f : Failure} (hn : w.find? source = some id)
      (he : expected.toBytes = .error f) : Closing w id (.build name (.digest source expected))

section

variable {w : Workspace} {id : Nat}

theorem Closing.with_web {c : Command} (h : Closing w id c) (web : Web) : Closing { w with web } id c := by
  cases h with
  | use hn ha => exact .use hn ha
  | bound hn hl => exact .bound hn hl
  | digest hn he => exact .digest hn he

theorem close_of_unmade {name : String} {recipe : Recipe} {f : Failure}
    (hm : w.make name recipe = w.addReader (.error f) id) :
    w.Through id Stack.Closes (w.perform (.build name recipe)).step.workspace
      (w.perform (.build name recipe)).step.entries := by
  have hstep : (w.perform (.build name recipe)).step = ⟨.error f, (w.close id).workspace, (w.close id).entries⟩ := by
    simp [perform, hm, Workspace.addReader, Step.andThen, Step.before, fail]
  rw [hstep]
  exact w.close_through id

theorem Closing.through {c : Command} (h : Closing w id c) {o : Object} (ho : w.objects[id]? = some o)
    (hn : o.endpoint? = none) :
    w.Through id Stack.Closes (w.perform c).step.workspace (w.perform c).step.entries := by
  cases h with
  | use hname ha =>
    simp only [perform, hname, ho]
    exact use_closes hn ha
  | @bound _ _ _ f hname hl =>
    apply close_of_unmade (f := f)
    simp only [make, withName, hname, addBound, hl]
    rfl
  | @digest _ _ _ f hname he =>
    apply close_of_unmade (f := f)
    simp only [make, withName, hname, addDigest, he]
    rfl

theorem Through.detaches {es fs : List Entry} {i : Nat} {w' : Workspace} (ht : w.Through id Stack.Closes w' fs)
    (h : Ledger w.objects w.names es) (ho : Over (w.objects.map Object.stem) i id) :
    ∃ (j : Nat) (r : Remote), w'.objects[j]? = some (.remoteSource r i) ∧ r.attached = false := by
  obtain ⟨l, hl⟩ := ho.standing h
  cases ht with
  | absent hnone =>
    rw [hl.locate_eq] at hnone
    cases hnone
  | present hl hcloses =>
    obtain ⟨-, rfl⟩ := hcloses
    obtain ⟨hsettles, hhead⟩ := Stack.close_settles (h.polite hl ho.isPublic)
    have htop := hl.head?_ids
    rw [List.head?_eq_getElem?] at htop
    have hend := (hl.store (Stack.close_molds _)).getElem?_ends htop
    rw [← List.head?_eq_getElem?, hhead] at hend
    apply Over.detached (hl.ordered_store (Stack.close_molds _) hsettles h.ordered)
    · rwa [Located.stems_store]
    · exact (Option.some.inj hend).symm

end

section

variable {w : Workspace} {id : Nat} {l : Located} (hl : Standing w.objects id l) {e : Failure}

include hl

theorem run_refused {α : Type} {f : Stack Endpoint → Turn (Stack Endpoint) α}
    (hf : f l.stack = ⟨.error e, l.stack, []⟩) : w.run id f = ⟨.error e, w, []⟩ := by
  simp only [run, hl.locate_eq, hf, putBack_eq, hl.store_self, List.filterMap_nil]

theorem runFill_refused {α : Type} {shown : α → Value} {f : Stack Endpoint → Fill (Stack Endpoint) α} {b : Buffer}
    (hf : f l.stack = ⟨.error e, b, l.stack, []⟩) : (w.runFill id shown f).step = ⟨.error e, w, []⟩ := by
  simp only [runFill, hl.locate_eq, hf, putBack_eq, hl.store_self, List.filterMap_nil]
  rfl

end

theorem use_detached {w : Workspace} {id i : Nat} {r : Remote} {url : String} {body : Script}
    (ho : w.objects[id]? = some (.remoteSource r i)) (hb : w.objects[i]? = some (.body url body))
    (hr : r.attached = false) {a : Action} (ha : a.Reads) :
    (w.use id (.remoteSource r i) a).step = ⟨.error .closedSource, w, []⟩ := by
  have hl : Standing w.objects id (.ofRemote id i r (.script body)) := .remote ho hb rfl
  have hrefuses := Stack.refuses_detached hr (.script body)
  cases a with
  | readInto b =>
    cases b with
    | none =>
      simp only [use]
      apply run_refused hl
      simp only [Located.ofRemote, hrefuses.noBuffer]
    | some b => exact runFill_refused hl (hrefuses.readInto b)
  | requestInto b =>
    cases b with
    | none =>
      have hnone : Stack.bufferless [] (.remote r (Endpoint.script body)) = .closedSource := hrefuses.noBuffer
      simp only [use]
      apply run_refused hl
      simp only [Located.ofRemote, hnone]
    | some b => exact runFill_refused hl (Stack.request_detached hr _ b)
  | readToEnd chunk =>
    obtain ⟨hpos, hlimit⟩ := ha
    have hlooped : looped (Stack.readToEnd chunk) ⟨[], .remote r (.script body)⟩ =
        ⟨.error .closedSource, ⟨[], .remote r (.script body)⟩, []⟩ := by
      unfold looped
      exact congrArg (Option.getD · _) (hrefuses.readToEnd chunk (Endpoint.weight (.script body) + 1) hpos)
    have hrun : w.run id (looped (Stack.readToEnd chunk)) = ⟨.error .closedSource, w, []⟩ := run_refused hl hlooped
    simp only [use, drain_of_le w id hlimit, runAs, hrun]
    rfl
  | _ => cases ha

theorem perform_build (w : Workspace) (name : String) (recipe : Recipe) :
    (w.perform (.build name recipe)).step.entries = (w.make name recipe).entries ∧
      (w.perform (.build name recipe)).step.workspace.objects = (w.make name recipe).workspace.objects ∧
      ∀ f, (w.perform (.build name recipe)).step.outcome = .error f → (w.make name recipe).outcome = .error f := by
  simp only [perform, Step.andThen]
  cases (w.make name recipe).outcome <;> simp [bind]

theorem meet_answered {w : Workspace} {c : Web × Command} {url : String} {timeout : Option Int} {status : Int}
    {headers : List (String × String)} {items : List Script.Item} (ha : c.2.address? w = some (url, timeout))
    (hweb : c.1.answer url = .response status headers items) :
    ((w.meet c).step.workspace.objects.map Object.stem)[w.objects.length]? = some (.body url) ∧
      (Web.errorStatus ≤ status ∨ (∃ f, (w.meet c).step.outcome = .error f) ∧
        (∃ length, Remote.announced headers = .ok length) →
          .call w.objects.length .close ∈ (w.meet c).step.entries) := by
  obtain ⟨web, command⟩ := c
  cases command with
  | use => cases ha
  | build name recipe =>
    obtain ⟨hentries, hobjects, houtcome⟩ := perform_build { w with web } name recipe
    obtain ⟨hstem, hclose⟩ := (make_visits (w := { w with web }) name ha).answered hweb
    rw [meet, hentries, hobjects]
    refine ⟨hstem, fun hc => hclose (hc.imp_right ?_)⟩
    rintro ⟨⟨f, hf⟩, hlength⟩
    exact ⟨⟨f, houtcome f hf⟩, hlength⟩

/-- In a run that went on with `seen` after `past`, the response `i` has been read since then as long as its source was
attached, and closed when that ended. -/
structure Responded (past seen : List Entry) (run : List Entry × Workspace) (url : String) (i : Nat) (attached : Bool) :
    Prop where
  response : ∃ body, run.2.objects[i]? = some (.body url body)
  source : ∀ {j : Nat} {r : Remote}, run.2.objects[j]? = some (.remoteSource r i) → r.attached = attached
  before : Entry.callsOn i past = []
  after : ∃ later, run.1 = past ++ seen ++ later ∧ Conversation attached (Entry.callsOn i later)

theorem stem_of_grown {objects objects' : List Object} (hp : objects.map Object.stem <+: objects'.map Object.stem)
    {i : Nat} {s : Stem} (h : (objects.map Object.stem)[i]? = some s) : (objects'.map Object.stem)[i]? = some s := by
  obtain ⟨more, hmore⟩ := hp
  rw [← hmore]
  exact getElem?_append_of_some h more

section

variable {w : Workspace} {es : List Entry} (h : Ledger w.objects w.names es) {c : Web × Command} (hc : c.2.ByName)
  {post : List (Web × Command)} (hpost : ∀ d ∈ post, d.2.ByName)

include h hc hpost

theorem course_responded {url : String} {timeout : Option Int} {status : Int} {headers : List (String × String)}
    {items : List Script.Item} (ha : c.2.address? w = some (url, timeout))
    (hweb : c.1.answer url = .response status headers items) :
    ∃ attached, Responded es (visit w.session (c.2.address? w))
        (es ++ (course meet w (c :: post)).1, (course meet w (c :: post)).2) url w.objects.length attached ∧
      (Web.errorStatus ≤ status ∨ (∃ f, (w.meet c).step.outcome = .error f) ∧
        (∃ length, Remote.announced headers = .ok length) → attached = false) := by
  have hstep := meet_advanced h hc
  have hrest := course_met hstep.ledger hpost
  obtain ⟨hstem, hclose⟩ := meet_answered (w := w) ha hweb
  obtain ⟨body, hbody⟩ := body_of_stem (stem_of_grown hrest.stems hstem)
  obtain ⟨-, attached, hconv, hsource⟩ := hrest.ledger.response hbody
  obtain ⟨later, hentries, -⟩ := hstep.entries
  have hbefore := h.absent _ (Nat.le_refl w.objects.length)
  refine ⟨attached, ⟨⟨body, hbody⟩, hsource, hbefore, later ++ (course meet (w.meet c).step.workspace post).1, ?_, ?_⟩,
    fun hend => hconv.not_attached ?_⟩
  · simp only [course, hentries, List.append_assoc]
  · rw [hentries] at hconv
    simpa only [Entry.callsOn_append, hbefore, callsOn_visit, List.nil_append] using hconv
  · apply Entry.close_mem_callsOn
    exact List.mem_append_left _ (List.mem_append_right _ (hclose hend))

theorem course_closed {id i : Nat} (hclosing : Closing w id c.2) (ho : Over (w.objects.map Object.stem) i id) :
    (Entry.callsOn i (es ++ (course meet w (c :: post)).1)).count .close = 1 := by
  have hstep := meet_advanced h hc
  have hrest := course_met hstep.ledger hpost
  obtain ⟨o, hobj, hn⟩ := ho.exists_object
  have hthrough := (hclosing.with_web c.1).through hobj hn
  obtain ⟨j, r, hj, hr⟩ := hthrough.detaches h ho
  obtain ⟨url, hurl⟩ := hstep.ledger.sound.response (getElem?_stem hj)
  obtain ⟨body, hbody⟩ := body_of_stem hurl
  obtain ⟨-, attached, hconv, hsource⟩ := hstep.ledger.response hbody
  obtain rfl : attached = false := (hsource hj).symm.trans hr
  have hcount : _ = 1 := hconv.count_close
  -- The response has been closed by now, so that nothing is asked of it in the rest of the run.
  obtain ⟨body', hbody'⟩ := body_of_stem (stem_of_grown hrest.stems hurl)
  obtain ⟨-, attached', hconv', -⟩ := hrest.ledger.response hbody'
  rw [Entry.callsOn_append] at hconv'
  have hrest := hconv'.ended (List.count_pos_iff.1 (by omega))
  simp only [course]
  rw [← List.append_assoc, Entry.callsOn_append, hrest, List.append_nil, hcount]

end

theorem ledger_nil : Ledger [] [] [] :=
  ⟨⟨nofun, by simp, by simp, by simp⟩, fun hi => by simp at hi, fun _ _ => rfl, by simp⟩

theorem network_lifecycle (files : FileTree) (pre post : List (Web × Command)) (c : Web × Command)
    (hcs : ∀ d ∈ pre ++ c :: post, d.2.ByName) :
    let run := history files (pre ++ c :: post)
    let past := (history files pre).1
    let w := (history files pre).2
    let seen := visit (goes { files } pre) (c.2.address? w)
    run.1.count .newSession = (goes { files } (pre ++ c :: post)).toNat ∧
    (∃ later rest, (w.meet c).step.entries = seen ++ later ∧ (∀ e ∈ later, e.isNetwork = false) ∧
      run.1 = past ++ (w.meet c).step.entries ++ rest) ∧
    (∀ url timeout status headers items, c.2.address? w = some (url, timeout) →
      c.1.answer url = .response status headers items →
        ∃ attached, Responded past seen run url w.objects.length attached ∧
          (Web.errorStatus ≤ status ∨ (∃ f, (w.meet c).step.outcome = .error f) ∧
            (∃ length, Remote.announced headers = .ok length) → attached = false)) ∧
    (∀ id i, Closing w id c.2 → Over (w.objects.map Object.stem) i id →
      (Entry.callsOn i run.1).count .close = 1) ∧
    ∀ name a id r i, c.2 = .use name a → w.find? name = some id → w.objects[id]? = some (.remoteSource r i) →
      r.attached = false → a.Reads → ∃ f, (w.meet c).step = ⟨.error f, { w with web := c.1 }, []⟩ ∧ f.isIo = true := by
  intro run past w seen
  have hpre : ∀ d ∈ pre, d.2.ByName := fun d hd => hcs d (List.mem_append_left _ hd)
  have hc : c.2.ByName := hcs c (by simp)
  have hpost : ∀ d ∈ post, d.2.ByName := fun d hd => hcs d (by simp [hd])
  have hmet : Met { files } [] pre (past, w) := course_met ledger_nil hpre
  have h : Ledger w.objects w.names past := hmet.ledger
  have hsession : w.session = goes { files } pre := hmet.session
  have hrun : run = (past ++ (course meet w (c :: post)).1, (course meet w (c :: post)).2) := course_append ..
  have hseen : visit w.session (c.2.address? w) = seen := by rw [hsession]
  refine ⟨(course_met (w := { files }) ledger_nil hcs).sessions, ?_, ?_, ?_, ?_⟩
  · obtain ⟨later, hlater, hlocal⟩ := (meet_advanced h hc).entries
    rw [hseen] at hlater
    refine ⟨later, (course meet (w.meet c).step.workspace post).1, hlater, hlocal, ?_⟩
    rw [hrun, List.append_assoc]
    rfl
  · intro url timeout status headers items ha hweb
    rw [hrun, ← hseen]
    exact course_responded h hc hpost ha hweb
  · intro id i hclosing ho
    rw [hrun]
    exact course_closed h hc hpost hclosing ho
  · rintro name a id r i huse hname ho hr ha
    obtain ⟨url, hurl⟩ := h.sound.response (getElem?_stem ho)
    obtain ⟨body, hbody⟩ := body_of_stem hurl
    have hname' : { w with web := c.1 }.find? name = some id := hname
    have ho' : { w with web := c.1 }.objects[id]? = some (.remoteSource r i) := ho
    refine ⟨.closedSource, ?_, rfl⟩
    simp only [meet, huse, perform, hname', ho']
    exact use_detached ho' hbody hr ha

def errand : List (Web × Command) :=
  [(shelf.web, .build "n" (.openRemote "http://h/n" none)),
    (shelf.web, .build "s" (.openRemote "http://h/f" (some 5))),
    (shelf.web, .build "r" (.bound "s" (.number 2))),
    (shelf.web, .use "r" .close),
    (shelf.web, .use "s" (.readToEnd 4))]

theorem network_lifecycle_errand :
    (history {} errand).1.count .newSession = 1 ∧
      Responded [] [.newSession, .get "http://h/n" true none] (history {} errand) "http://h/n" 0 false ∧
      (Entry.callsOn 1 (history {} errand).1).count .close = 1 ∧
      ∃ f, ((history {} (errand.take 4)).2.meet (shelf.web, .use "s" (.readToEnd 4))).step.outcome = .error f ∧
        f.isIo = true := by
  have hnames : ∀ d ∈ errand, d.2.ByName := by simp [errand, Command.ByName, Recipe.target?]
  obtain ⟨hsessions, -, hresponded, -⟩ :=
    network_lifecycle {} [] (errand.drop 1) (shelf.web, .build "n" (.openRemote "http://h/n" none)) hnames
  obtain ⟨-, -, -, hclosed, -⟩ :=
    network_lifecycle {} (errand.take 3) (errand.drop 4) (shelf.web, .use "r" .close) hnames
  obtain ⟨-, -, -, -, hread⟩ := network_lifecycle {} (errand.take 4) [] (shelf.web, .use "s" (.readToEnd 4)) hnames
  refine ⟨hsessions, ?_, ?_, ?_⟩
  · obtain ⟨attached, hresponse, hend⟩ := hresponded "http://h/n" none 404 [] [] rfl rfl
    obtain rfl := hend (.inl (by decide))
    exact hresponse
  · have hfound : (history {} (errand.take 3)).2.find? "r" = some 3 := by cbv
    exact hclosed 3 1 (.use hfound rfl) (.reader (by cbv) (.source (by cbv)))
  · have hfound : (history {} (errand.take 4)).2.find? "s" = some 2 := by cbv
    have hsource : (history {} (errand.take 4)).2.objects[2]? =
        some (.remoteSource { url := "http://h/f", attached := false } 1) := by cbv
    obtain ⟨f, hf, hio⟩ := hread "s" (.readToEnd 4) 2 _ 1 rfl hfound hsource rfl ⟨by decide, by decide⟩
    exact ⟨f, by rw [hf], hio⟩

end Workspace

end StreamGuard
