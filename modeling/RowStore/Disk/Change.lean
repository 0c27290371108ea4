import RowStore.Disk.Tree

namespace RowStore

inductive Change
  | delete (l : Location)
  | makeDirectory (l : Location)
  | write (l : Location) (content : Content)
  deriving DecidableEq, Repr

namespace Tree

def deletions (here : Location) (old new : List (String × Tree)) : List Change :=
  (old.filter fun e => (Entries.get? e.1 new).isNone).map fun e => .delete (here ++ [e.1])

mutual

/-- The changes that put a tree in the place of what is at `here`, if anything is. Each comes after
those it rests on, and what is the same is left alone. -/
def changes (here : Location) (old : Option Tree) : Tree → List Change
  | .file content => match old with
    | none => [.write here content]
    | some (.file former) => if former = content then [] else [.write here content]
    | some (.directory _) => [.delete here, .write here content]
  | .directory entries => match old with
    | none => .makeDirectory here :: changesBelow here [] entries
    | some (.file _) => .delete here :: .makeDirectory here :: changesBelow here [] entries
    | some (.directory former) => deletions here former entries ++ changesBelow here former entries

def changesBelow (here : Location) (old : List (String × Tree)) :
    List (String × Tree) → List Change
  | [] => []
  | (name, t) :: es =>
    t.changes (here ++ [name]) (Entries.get? name old) ++ changesBelow here old es

end

end Tree

end RowStore
