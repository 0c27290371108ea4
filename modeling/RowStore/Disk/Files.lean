import RowStore.Disk.Path
import RowStore.Disk.Tree

namespace RowStore

structure Files where
  tree : Tree
  here : Location
  deriving BEq, Repr

namespace Files

def empty : Files := ⟨.empty, []⟩

def putAt (f : Files) (l : Location) (new : Tree) : Files := { f with tree := f.tree.putAt l new }

def eraseAt (f : Files) (l : Location) : Files := { f with tree := f.tree.eraseAt l }

def start (f : Files) (p : Path) : Location := if p.isAbsolute then [] else f.here

/-- No path of this many bytes or more leads anywhere. -/
def pathLimit : Nat := 4096

def follow (f : Files) (p : Path) (steps : List String) : Except Fault Location :=
  if '\x00' ∈ p.text.toList then .error .nulInName
  else if pathLimit ≤ p.text.utf8ByteSize then .error .nameTooLong
  else f.tree.walk (f.start p) steps

def locate (f : Files) (p : Path) : Except Fault Location := f.follow p p.steps

/-- Where a path lets a file be written. One that ends in a slash names no file, even if its last step
would be refused. -/
def fileLocation (f : Files) (p : Path) : Except Fault Location :=
  if p.namesDirectory then do
    let _ ← f.follow p (p.steps.dropLast ++ ["."])
    .error .isDirectory
  else f.locate p

def find (f : Files) (p : Path) : Except Fault Tree := do
  match f.tree.at? (← f.locate p) with
  | some (.directory es) => .ok (.directory es)
  | some (.file content) => if p.namesDirectory then .error .notDirectory else .ok (.file content)
  | none => .error .notFound

def isDirectory (f : Files) (p : Path) : Bool :=
  match f.find p with
  | .ok (.directory _) => true
  | _ => false

def isFile (f : Files) (p : Path) : Bool :=
  match f.find p with
  | .ok (.file _) => true
  | _ => false

def list (f : Files) (p : Path) : Except Fault (List (String × Tree)) := do
  match ← f.find p with
  | .directory es => .ok es
  | .file _ => .error .notDirectory

def read (f : Files) (p : Path) : Except Fault Content := do
  match ← f.find p with
  | .file content => .ok content
  | .directory _ => .error .isDirectory

def write (content : Content) (p : Path) (f : Files) : Except Fault Files := do
  let l ← f.fileLocation p
  match f.tree.at? l with
  | some (.directory _) => .error .isDirectory
  | _ => .ok (f.putAt l (.file content))

def writeNew (content : Content) (p : Path) (f : Files) : Except Fault Files := do
  let l ← f.fileLocation p
  match f.tree.at? l with
  | some _ => .error .alreadyExists
  | none => .ok (f.putAt l (.file content))

def makeDirectory (p : Path) (f : Files) : Except Fault Files := do
  let l ← f.locate p
  match f.tree.at? l with
  | some _ => .error .alreadyExists
  | none => .ok (f.putAt l .empty)

def deleteFile (p : Path) (f : Files) : Except Fault Files := do
  let l ← f.locate p
  match f.tree.at? l with
  | some (.file _) => if p.namesDirectory then .error .notDirectory else .ok (f.eraseAt l)
  | some (.directory _) => .error .isDirectory
  | none => .error .notFound

/-- Deletes an empty directory by a path to it. One that the path does not lead to any more is left
behind, without a fault, and so is one that is named by `.`, with a fault. -/
def deleteEmptied (p : Path) (l : Location) (f : Files) : Except Fault Unit × Files :=
  match f.locate p with
  | .error _ => (.ok (), f)
  | .ok _ =>
    if p.steps.getLast? = some "." then (.error .invalidArgument, f) else (.ok (), f.eraseAt l)

def deleteDirectory (p : Path) (f : Files) : Except Fault Unit × Files :=
  match f.locate p with
  | .error e => (.error e, f)
  | .ok l => match f.tree.at? l with
    | none => (.error .notFound, f)
    | some (.file _) => (.error .notDirectory, f)
    | some (.directory _) => (f.putAt l .empty).deleteEmptied p l

/-- Makes the directory to which steps lead, given in reverse, and those above it that are missing.
What was made before a fault stays. -/
def makeDirectoriesUp (lead : String) : List String → Files → Except Fault Unit × Files
  | [], f => (.ok (), f)
  | step :: above, f =>
    let p : Path := ⟨lead ++ "/".intercalate (step :: above).reverse⟩
    let make (f : Files) : Except Fault Unit × Files := match f.makeDirectory p with
      | .ok f' => (.ok (), f')
      | .error e => if f.isDirectory p then (.ok (), f) else (.error e, f)
    match make f with
    | (.error .notFound, _) => match makeDirectoriesUp lead above f with
      | (.ok (), f') => make f'
      | failed => failed
    | done => done

def makeDirectories (p : Path) (f : Files) : Except Fault Unit × Files :=
  match f.follow p [] with
  | .ok _ => makeDirectoriesUp p.lead p.steps.reverse f
  | .error e => (.error e, f)

end Files

end RowStore
