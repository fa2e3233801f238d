import StreamGuard.Failure
import StreamGuard.Path

/-!
The files that paths are opened in: a tree around the working directory, in which only what was put there is
found. Main statement: going down by a name and up again leads back.
-/

namespace StreamGuard

structure Spot where
  above : Nat := 0
  names : List (List Char) := []
  deriving DecidableEq, Repr

namespace Spot

def up (s : Spot) : Spot :=
  match s.names with
  | [] => { s with above := s.above + 1 }
  | _ => { s with names := s.names.dropLast }

def down (s : Spot) (name : List Char) : Spot :=
  { s with names := s.names ++ [name] }

def next (s : Spot) (part : List Char) : Spot :=
  if part = [] ∨ part = ['.'] then s
  else if part = ['.', '.'] then s.up
  else s.down part

def trail (path : String) : List Spot :=
  (Path.split path.toList).foldl (fun spots part => (spots.headD {}).next part :: spots) [{}]

def ofPath (path : String) : Spot :=
  (trail path).headD {}

theorem up_down (s : Spot) (name : List Char) : (s.down name).up = s := by
  unfold up down
  split
  · rename_i h
    simp at h
  · simp

end Spot

structure FileTree where
  files : List (String × Bytes) := []
  directories : List String := []
  /-- The files that fail at their end when they are read, and how. -/
  failing : List (String × Failure) := []

namespace FileTree

inductive Place
  | directory (s : Spot)
  | root
  | file (content : Bytes) (ending : Option Failure)
  deriving DecidableEq, Repr

def nameLimit : Nat := 255

def pathLimit : Nat := 4096

def byteLength (cs : List Char) : Nat :=
  (String.ofList cs).utf8ByteSize

def isDirectory (t : FileTree) (s : Spot) : Bool :=
  (t.directories.any fun d => (Spot.trail d).contains s) ||
    t.files.any fun f => (Spot.trail f.1).tail.contains s

def ending (t : FileTree) (s : Spot) : Option Failure :=
  (t.failing.find? fun f => Spot.ofPath f.1 == s).map Prod.snd

def find (t : FileTree) (s : Spot) : Except OpenError Place :=
  match t.files.reverse.find? fun f => Spot.ofPath f.1 == s with
  | some f => .ok (.file f.2 (t.ending s))
  | none => if t.isDirectory s then .ok (.directory s) else .error .notFound

def step (t : FileTree) (place : Place) (part : List Char) : Except OpenError Place :=
  match place with
  | .file .. => .error .notDirectory
  | .directory s =>
    if part = [] ∨ part = ['.'] then .ok place
    else if part = ['.', '.'] then .ok (.directory s.up)
    else if nameLimit < byteLength part then .error .nameTooLong
    else t.find (s.down part)
  | .root =>
    if part = [] ∨ part = ['.'] ∨ part = ['.', '.'] then .ok place
    else if nameLimit < byteLength part then .error .nameTooLong
    else .error .notFound

def open? (t : FileTree) (path : String) : Except OpenError (Bytes × Option Failure) :=
  let cs := path.toList
  if cs.isEmpty then .error .notFound
  else if pathLimit ≤ path.utf8ByteSize then .error .nameTooLong
  else
    let start := if cs.head? = some '/' then Place.root else .directory {}
    match (Path.split cs).foldlM t.step start with
    | .error e => .error e
    | .ok (.file content ending) => .ok (content, ending)
    | .ok _ => .error .isDirectory

theorem open?_empty (t : FileTree) : t.open? "" = .error .notFound := by
  simp [open?]

theorem step_file (t : FileTree) (content : Bytes) (ending : Option Failure) (name : List Char) :
    t.step (.file content ending) name = .error .notDirectory := by
  simp [step]

end FileTree

end StreamGuard
