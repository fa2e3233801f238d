import StreamGuard.DigestValue
import StreamGuard.Workspace

namespace StreamGuard

inductive Target
  | object (id : Nat)
  | text (s : String)
  | path (s : String)
  | bytes (bs : Bytes)
  deriving DecidableEq, Repr

namespace Target

def pathText? : Target → Option PathText
  | object _ => none
  | text s => some (.text s)
  | path s => some (.text (Path.plain s))
  | bytes bs => some (.bytes bs)

end Target

namespace PathText

def lookup? : PathText → Option String
  | text s => some s
  | bytes bs => String.fromUTF8? ⟨bs.toArray⟩

end PathText

namespace Workspace

def kindOf (w : Workspace) (id : Nat) : ObjectKind :=
  (w.objects[id]?.map Object.kind).getD .source

def hasRead (w : Workspace) (id : Nat) : Bool :=
  (w.objects[id]?.map Object.hasRead).getD false

def printed (w : Workspace) : Target → String
  | .object id => (w.objects[id]?.map Object.printed).getD ""
  | .text s => s
  | .path s => Path.plain s
  | .bytes bs => Text.Quoted.bytes bs

def isFileLike (w : Workspace) : Target → Bool
  | .object id => w.hasRead id
  | .text _ | .path _ | .bytes _ => false

def contentAt (w : Workspace) (p : PathText) : Except Failure (Bytes × Option Failure) :=
  match p.lookup? with
  | some s =>
    if s.toList.contains '\x00' then .error .nulInPath
    else (w.files.open? s).mapError fun e => .opening e p
  | none => .error (.opening .notFound p)

def openPath (w : Workspace) (p : PathText) : Step Nat :=
  match w.contentAt p with
  | .error f => w.fail f
  | .ok (content, ending) =>
    (w.add (.file (.opened content ending))).andThen fun file w =>
      (w.note [.log (.openedLocal p.plain)]).andThen fun _ w =>
        w.add (.localSource { owned := true } file)

def openLocal (w : Workspace) (t : Target) : Step Nat :=
  match t with
  | .object id =>
    if w.hasRead id then w.add (.localSource {} id) else w.fail (.notPath (w.kindOf id))
  | .text s => w.openPath (.text s)
  | .path s => w.openPath (.text (Path.plain s))
  | .bytes bs => w.openPath (.bytes bs)

def startSession (w : Workspace) : Step Unit :=
  ⟨.ok (), { w with session := true }, if w.session then [] else [.newSession]⟩

def takeResponse (w : Workspace) (url : String) (status : Int) (headers : List (String × String)) (body : Nat) :
    Step Nat :=
  if Web.errorStatus ≤ status then
    (w.close body).andThen fun _ w => w.fail (.badStatus status)
  else
    match Remote.announced headers with
    | .error f => w.fail f
    | .ok contentLength =>
      (w.note [.log (.openedRemote url contentLength)]).andThen fun _ w =>
        w.add (.remoteSource { url, contentLength } body)

def openRemote (w : Workspace) (url : String) (timeout : Option Int) : Step Nat :=
  w.startSession.andThen fun _ w =>
    (w.note [.get url true timeout]).andThen fun _ w =>
      match w.web.answer url with
      | .failure f => w.fail (Remote.ofRequest f)
      | .response status headers items =>
        (w.add (.body url (Web.body items))).andThen fun body w => w.takeResponse url status headers body

def openTarget (w : Workspace) (t : Target) : Step Nat :=
  if w.isFileLike t then w.openLocal t
  else if Path.isAddress (w.printed t) then w.openRemote (w.printed t) (some Web.defaultTimeout)
  else w.openLocal t

/-- A reader over the object `below`. If it could not be built, its source is closed at once, and a failure of
that close is not heard. -/
def addReader (w : Workspace) (made : Except Failure Reader) (below : Nat) : Step Nat :=
  match made with
  | .ok r => w.add (.reader r below)
  | .error f => (w.fail f : Step Nat).before (·.close below)

def limitOf : Scalar → Except Failure Nat
  | .number n => if n < 0 then .error .negativeLimit else .ok n.toNat
  | given => .error (.limitType given)

def addBound (w : Workspace) (limit : Scalar) (below : Nat) : Step Nat :=
  w.addReader ((limitOf limit).map Reader.bound) below

def addDigest (w : Workspace) (expected : DigestValue) (below : Nat) : Step Nat :=
  w.addReader (expected.toBytes.map Reader.digest) below

def fetchBound (w : Workspace) (t : Target) (limit : Scalar) : Step Nat :=
  (w.openTarget t).andThen fun source w => w.addBound limit source

def fetchDigest (w : Workspace) (t : Target) (limit : Scalar) (expected : DigestValue) : Step Nat :=
  (w.fetchBound t limit).andThen fun bounded w => w.addDigest expected bounded

end Workspace

end StreamGuard
