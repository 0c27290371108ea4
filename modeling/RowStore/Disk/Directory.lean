import RowStore.Disk.World

namespace RowStore

/-- Seven operations, each with any effect on the disk. -/
structure Directory (δ : Type) where
  listSubdirectories : Path → Disk δ → Except Fault (List String) × Disk δ
  listFiles : String → Path → Disk δ → Except Fault (List String) × Disk δ
  directoryExists : Path → Disk δ → Bool × Disk δ
  fileExists : Path → Disk δ → Bool × Disk δ
  createDirectory : Path → Disk δ → Except Fault Unit × Disk δ
  deleteDirectory : Path → Disk δ → Except Fault Unit × Disk δ
  deleteFile : Path → Disk δ → Except Fault Unit × Disk δ

namespace Directory

variable {δ : Type}

def asking {α : Type} (f : Files → α) (d : Disk δ) : α × Disk δ := (f d.files, d)

def changingPartly (f : Files → Except Fault Unit × Files) (d : Disk δ) :
    Except Fault Unit × Disk δ :=
  ((f d.files).1, { d with files := (f d.files).2 })

def changing (f : Files → Except Fault Files) (d : Disk δ) : Except Fault Unit × Disk δ :=
  match f d.files with
  | .ok files => (.ok (), { d with files := files })
  | .error e => (.error e, d)

def subdirectoryNames (entries : List (String × Tree)) : List String :=
  entries.filterMap fun e => match e.2 with
    | .directory _ => some e.1
    | .file _ => none

def fileStems (ext : String) (p : Path) (f : Files) : Except Fault (List String) :=
  (f.list p).map fun es =>
    (es.filter fun e => f.isFile (p.join e.1)).filterMap fun e => Path.stem? ext e.1

def onFiles : Directory δ where
  listSubdirectories p := asking fun f => (f.list p).map subdirectoryNames
  listFiles ext p := asking (fileStems ext p)
  directoryExists p := asking (·.isDirectory p)
  fileExists p := asking (·.isFile p)
  createDirectory p := changing (·.makeDirectory p)
  deleteDirectory p := changingPartly (·.deleteDirectory p)
  deleteFile p := changing (·.deleteFile p)

inductive Answer
  | names (ns : List String)
  | flag (b : Bool)
  | fault (e : Fault)
  deriving DecidableEq, Repr

def void : Directory δ where
  listSubdirectories _ d := (.ok [], d)
  listFiles _ _ d := (.ok [], d)
  directoryExists _ d := (false, d)
  fileExists _ d := (false, d)
  createDirectory _ d := (.ok (), d)
  deleteDirectory _ d := (.ok (), d)
  deleteFile _ d := (.ok (), d)

def scriptedNames (answer : Option Answer) (behind : Disk δ → Except Fault (List String) × Disk δ)
    (d : Disk δ) : Except Fault (List String) × Disk δ :=
  match answer with
  | some (.names ns) => (.ok ns, d)
  | some (.fault e) => (.error e, d)
  | _ => behind d

def scriptedFlag (answer : Option Answer) (behind : Disk δ → Bool × Disk δ) (d : Disk δ) :
    Bool × Disk δ :=
  match answer with
  | some (.flag b) => (b, d)
  | some (.fault _) => (false, d)
  | _ => behind d

def scriptedUnit (answer : Option Answer) (behind : Disk δ → Except Fault Unit × Disk δ)
    (d : Disk δ) : Except Fault Unit × Disk δ :=
  match answer with
  | some (.fault e) => (.error e, d)
  | some _ => (.ok (), d)
  | none => behind d

/-- The service that answers from a script, and asks `behind` where the script says nothing. -/
def scripted (script : Call → Option Answer) (behind : Directory δ) : Directory δ where
  listSubdirectories p := scriptedNames (script (.listSubdirectories p)) (behind.listSubdirectories p)
  listFiles ext p := scriptedNames (script (.listFiles ext p)) (behind.listFiles ext p)
  directoryExists p := scriptedFlag (script (.directoryExists p)) (behind.directoryExists p)
  fileExists p := scriptedFlag (script (.fileExists p)) (behind.fileExists p)
  createDirectory p := scriptedUnit (script (.createDirectory p)) (behind.createDirectory p)
  deleteDirectory p := scriptedUnit (script (.deleteDirectory p)) (behind.deleteDirectory p)
  deleteFile p := scriptedUnit (script (.deleteFile p)) (behind.deleteFile p)

def ask {ε α : Type} (c : Call) (f : Disk δ → Except ε α × Disk δ) : Action δ ε α := fun w =>
  let (answer, disk) := f w.disk
  (answer, { w with disk := disk, accesses := w.accesses ++ [.directory c] })

def askFlag {ε : Type} (c : Call) (f : Disk δ → Bool × Disk δ) : Action δ ε Bool :=
  ask c fun d => let (b, d') := f d; (.ok b, d')

end Directory

end RowStore
