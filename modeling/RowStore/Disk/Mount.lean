import RowStore.Disk.Path
import RowStore.Disk.Tree

namespace RowStore

/-- The places that a path passes through, from where it starts, each with the path so far. -/
abbrev Spine := List (Location × Path)

namespace Spine

def advance (here : Location) (step : String) : Location :=
  if step = "." then here else if step = ".." then here.dropLast else here ++ [step]

def follow (here : Location) (sofar : Path) : List String → Spine
  | [] => [(here, sofar)]
  | step :: rest => (here, sofar) :: follow (advance here step) (sofar.join step) rest

def ofPath (here : Location) (p : Path) : Spine :=
  follow (if p.isAbsolute then [] else here) ⟨p.lead⟩ p.steps

def pathUp (s : Spine) : List String → Path
  | [] => (s.lookup []).getD ⟨"/"⟩
  | name :: above => match s.lookup (name :: above).reverse with
    | some p => p
    | none => (s.pathUp above).join name

def pathTo (s : Spine) (l : Location) : Path := s.pathUp l.reverse

def last (s : Spine) : Location := (s.getLast?.map Prod.fst).getD []

end Spine

end RowStore
