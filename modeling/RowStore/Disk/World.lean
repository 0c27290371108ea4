import RowStore.Disk.Files

/-!
What a run of the program can see and change: the files, the state of the directory service,
and the records it leaves, every access to a file among them. An action either succeeds with a value or
fails with an error, and in both cases says what the world is afterwards.
-/

namespace RowStore

inductive Call
  | listSubdirectories (p : Path)
  | listFiles (ext : String) (p : Path)
  | directoryExists (p : Path)
  | fileExists (p : Path)
  | createDirectory (p : Path)
  | deleteDirectory (p : Path)
  | deleteFile (p : Path)
  deriving DecidableEq, Repr

inductive Access
  | directory (c : Call)
  | file (p : Path)
  deriving DecidableEq, Repr

inductive Level
  | debug
  | info
  | warn
  deriving DecidableEq, Repr

def Level.text : Level → String
  | .debug => "DEBUG"
  | .info => "INFO"
  | .warn => "WARN"

structure Notice where
  level : Level
  text : String
  deriving DecidableEq, Repr

structure Disk (δ : Type) where
  files : Files
  state : δ

structure World (δ : Type) where
  disk : Disk δ
  accesses : List Access
  notices : List Notice

namespace World

variable {δ : Type}

def files (w : World δ) : Files := w.disk.files

def tree (w : World δ) : Tree := w.files.tree

def ofFiles (f : Files) (state : δ) : World δ := ⟨⟨f, state⟩, [], []⟩

def withFiles (f : Files) (w : World δ) : World δ := { w with disk := { w.disk with files := f } }

end World

def Action (δ ε α : Type) : Type := World δ → Except ε α × World δ

namespace Action

variable {δ ε ε' α β : Type}

def succeed (a : α) : Action δ ε α := fun w => (.ok a, w)

def fail (e : ε) : Action δ ε α := fun w => (.error e, w)

def andThen (x : Action δ ε α) (f : α → Action δ ε β) : Action δ ε β := fun w =>
  match x w with
  | (.ok a, w') => f a w'
  | (.error e, w') => (.error e, w')

instance : Monad (Action δ ε) where
  pure := succeed
  bind := andThen

def mapError (f : ε → ε') (x : Action δ ε α) : Action δ ε' α := fun w =>
  match x w with
  | (.ok a, w') => (.ok a, w')
  | (.error e, w') => (.error (f e), w')

def attempt (x : Action δ ε α) : Action δ ε' (Except ε α) := fun w => ((.ok (x w).1), (x w).2)

def ofExcept : Except ε α → Action δ ε α
  | .ok a => succeed a
  | .error e => fail e

def notify (level : Level) (text : String) : Action δ ε Unit := fun w =>
  (.ok (), { w with notices := w.notices ++ [⟨level, text⟩] })

def record (a : Access) : Action δ ε Unit := fun w =>
  (.ok (), { w with accesses := w.accesses ++ [a] })

def inspect (f : Files → Except ε α) : Action δ ε α := fun w => (f w.files, w)

def change (f : Files → Except ε Files) : Action δ ε Unit := fun w =>
  match f w.files with
  | .ok files => (.ok (), w.withFiles files)
  | .error e => (.error e, w)

/-- A change of the files that may stop half way. -/
def changePartly (f : Files → Except ε Unit × Files) : Action δ ε Unit := fun w =>
  ((f w.files).1, w.withFiles (f w.files).2)

theorem bind_apply (x : Action δ ε α) (f : α → Action δ ε β) (w : World δ) :
    (x >>= f) w = match x w with
      | (.ok a, w') => f a w'
      | (.error e, w') => (.error e, w') := rfl

instance : LawfulMonad (Action δ ε) :=
  LawfulMonad.mk' _
    (fun x => by
      funext w
      show (match x w with | (.ok a, w') => (.ok (id a), w') | (.error e, w') => (.error e, w')) = x w
      cases h : x w with
      | mk r w' => cases r <;> rfl)
    (fun _ _ => rfl)
    (fun x f g => by
      funext w
      simp only [bind_apply]
      cases h : x w with
      | mk r w' => cases r <;> rfl)

end Action

namespace FileAccess

variable {δ : Type}

def read (p : Path) : Action δ Fault Content := do
  Action.record (.file p)
  Action.inspect (·.read p)

def write (p : Path) (content : Content) : Action δ Fault Unit := do
  Action.record (.file p)
  Action.change (·.write content p)

def writeNew (p : Path) (content : Content) : Action δ Fault Unit := do
  Action.record (.file p)
  Action.change (·.writeNew content p)

end FileAccess

end RowStore
