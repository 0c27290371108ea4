import RowStore.Disk.Content
import RowStore.Disk.Fault

namespace RowStore

inductive Tree
  | file (content : Content)
  | directory (entries : List (String × Tree))
  deriving BEq, Repr

namespace Entries

variable {α : Type}

def get? (name : String) : List (String × α) → Option α
  | [] => none
  | e :: es => if e.1 = name then some e.2 else get? name es

def put (name : String) (a : α) : List (String × α) → List (String × α)
  | [] => [(name, a)]
  | e :: es => if e.1 = name then (name, a) :: es else e :: put name a es

def erase (name : String) : List (String × α) → List (String × α)
  | [] => []
  | e :: es => if e.1 = name then erase name es else e :: erase name es

@[simp] theorem get?_put_self (name : String) (a : α) (es : List (String × α)) :
    get? name (put name a es) = some a := by
  induction es with
  | nil => simp [put, get?]
  | cons e es ih => by_cases h : e.1 = name <;> simp [put, get?, h, ih]

theorem get?_put_of_ne {name other : String} (h : other ≠ name) (a : α) (es : List (String × α)) :
    get? other (put name a es) = get? other es := by
  induction es with
  | nil => simp [put, get?, Ne.symm h]
  | cons e es ih =>
    by_cases he : e.1 = name
    · simp [put, get?, he, Ne.symm h]
    · simp [put, get?, he, ih]

@[simp] theorem get?_erase_self (name : String) (es : List (String × α)) :
    get? name (erase name es) = none := by
  induction es with
  | nil => rfl
  | cons e es ih => by_cases h : e.1 = name <;> simp [erase, get?, h, ih]

theorem get?_erase_of_ne {name other : String} (h : other ≠ name) (es : List (String × α)) :
    get? other (erase name es) = get? other es := by
  induction es with
  | nil => rfl
  | cons e es ih =>
    by_cases he : e.1 = name
    · simp [erase, get?, he, Ne.symm h, ih]
    · simp [erase, get?, he, ih]

end Entries

abbrev Location := List String

namespace Tree

def empty : Tree := .directory []

def at? : Tree → Location → Option Tree
  | t, [] => some t
  | .directory es, name :: rest => match Entries.get? name es with
    | some t => t.at? rest
    | none => none
  | .file _, _ :: _ => none

/-- The tree with `new` at a location. The directory for it has to exist, or nothing changes. -/
def putAt : Tree → Location → Tree → Tree
  | _, [], new => new
  | .directory es, [name], new => .directory (Entries.put name new es)
  | .directory es, name :: rest, new => match Entries.get? name es with
    | some t => .directory (Entries.put name (t.putAt rest new) es)
    | none => .directory es
  | .file content, _ :: _, _ => .file content

def eraseAt : Tree → Location → Tree
  | _, [] => .empty
  | .directory es, [name] => .directory (Entries.erase name es)
  | .directory es, name :: rest => match Entries.get? name es with
    | some t => .directory (Entries.put name (t.eraseAt rest) es)
    | none => .directory es
  | .file content, _ :: _ => .file content

/-- The longest name that a directory can hold, in bytes. -/
def nameLimit : Nat := 255

def walk (t : Tree) : Location → List String → Except Fault Location
  | here, [] => .ok here
  | here, step :: rest => match t.at? here with
    | none => .error .notFound
    | some (.file _) => .error .notDirectory
    | some (.directory _) =>
      if step = "." then walk t here rest
      else if step = ".." then walk t here.dropLast rest
      else if nameLimit < step.utf8ByteSize then .error .nameTooLong
      else walk t (here ++ [step]) rest

end Tree

end RowStore
