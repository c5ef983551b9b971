import GettextTemplate.Files

/-!
A file system as a value: a tree of directories and regular files, and the place where relative
paths begin.
-/

namespace GettextTemplate

/-- A place in the tree, given by the names on the way to it, the innermost first. -/
abbrev Place := List String

inductive Item where
  | directory
  | file (content : Json.Bytes)
deriving DecidableEq

structure Disk where
  items : List (Place × Item) := []
  here : Place := []

namespace Disk

/-- What is at a place. The root is always a directory. -/
def item? (disk : Disk) (place : Place) : Option Item :=
  if place = [] then some .directory else disk.items.lookup place

def put (disk : Disk) (place : Place) (item : Item) : Disk :=
  { disk with items := (place, item) :: disk.items.filter fun entry => entry.1 ≠ place }

def remove (disk : Disk) (place : Place) : Disk :=
  { disk with items := disk.items.filter fun entry => entry.1 ≠ place }

def maxName : Nat := 255

/-- The least number of bytes that is too much for a path. -/
def maxPath : Nat := 4096

/-- Walks from a place. Each step is taken in a directory, and only the place after the last step
may be empty. -/
def walk (disk : Disk) (place : Place) : List Step → Except FileError Place
  | [] => .ok place
  | step :: rest =>
    match disk.item? place with
    | none => .error .notFound
    | some (.file _) => .error .notDirectory
    | some .directory =>
      match step with
      | .blank | .stay => disk.walk place rest
      | .up => disk.walk place.tail rest
      | .enter name =>
        if name.utf8ByteSize > maxName then .error .nameTooLong
        else disk.walk (name :: place) rest

def find (disk : Disk) (path : Path) : Except FileError Place :=
  if path.hasNull then .error .nullInName
  else if !path.fromRoot && path.steps.isEmpty then .error .notFound
  else if path.size ≥ maxPath then .error .nameTooLong
  else disk.walk (if path.fromRoot then [] else disk.here) path.steps

def isDirectory (disk : Disk) (path : Path) : Bool :=
  match disk.find path with
  | .ok place => disk.item? place = some .directory
  | .error _ => false

def read (disk : Disk) (path : Path) : Except FileError Json.Bytes := do
  match disk.item? (← disk.find path) with
  | none => .error .notFound
  | some .directory => .error .isDirectory
  | some (.file content) => .ok content

def makeDirectory (disk : Disk) (path : Path) : Except FileError Disk := do
  let place ← disk.find path
  match disk.item? place with
  | some _ => .error .exists
  | none => .ok (disk.put place .directory)

/-- The names that staged files may have, all of them different. -/
def stagedName (n : Nat) : String := String.ofList (".tmp".toList ++ List.replicate n '0')

/-- A name that is free in a directory. Of one name more than the disk has items, one is free. -/
def freshName (disk : Disk) (place : Place) : String :=
  stagedName (((List.range (disk.items.length + 1)).find? fun n =>
    (disk.item? (stagedName n :: place)).isNone).getD 0)

def stage (disk : Disk) (directory : Path) (content : Json.Bytes) :
    Except FileError (Place × Disk) := do
  let place ← disk.find directory
  match disk.item? place with
  | none => .error .notFound
  | some (.file _) => .error .notDirectory
  | some .directory =>
    let staged := disk.freshName place :: place
    .ok (staged, disk.put staged (.file content))

def target (disk : Disk) (path : Path) : Except FileError Place :=
  if path.hasNull then .error .invalidArgument else do
  let place ← disk.find path
  match disk.item? place with
  | some .directory => .error .isDirectory
  | _ => .ok place

/-- Moves a staged file to its target. The staged name is free afterwards in any case. -/
def commit (disk : Disk) (staged : Place) (path : Path) : Except FileError Unit × Disk :=
  match disk.target path, disk.item? staged with
  | .error e, _ => (.error e, disk.remove staged)
  | .ok _, none => (.error .notFound, disk.remove staged)
  | .ok place, some item => (.ok (), (disk.remove staged).put place item)

/-- The operations on a disk, at a fixed time. -/
def files (now : Int) : Files (StateM Disk) Place where
  read path := ExceptT.mk fun disk => (disk.read path, disk)
  isDirectory path := fun disk => (disk.isDirectory path, disk)
  makeDirectory path := ExceptT.mk fun disk =>
    match disk.makeDirectory path with
    | .ok next => (.ok (), next)
    | .error e => (.error e, disk)
  stage directory content := ExceptT.mk fun disk =>
    match disk.stage directory content with
    | .ok (staged, next) => (.ok staged, next)
    | .error e => (.error e, disk)
  commit staged path := ExceptT.mk fun disk => disk.commit staged path
  now := pure now

end Disk

end GettextTemplate
