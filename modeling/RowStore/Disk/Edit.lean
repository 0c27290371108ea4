import RowStore.Disk.Tree

namespace RowStore.Tree

def putDirectories (t : Tree) : Location → Location → Tree
  | _, [] => t
  | above, name :: rest =>
    let here := above ++ [name]
    match t.at? here with
    | some (.file _) => t
    | some (.directory _) => t.putDirectories here rest
    | none => (t.putAt here .empty).putDirectories here rest

def putDirectory (t : Tree) (l : Location) : Tree := t.putDirectories [] l

def putFile (t : Tree) (l : Location) (content : Content) : Tree :=
  let t := t.putDirectory l.dropLast
  match t.at? l with
  | some (.directory _) => t
  | _ => t.putAt l (.file content)

def contentAt? (t : Tree) (l : Location) : Option Content :=
  match t.at? l with
  | some (.file content) => some content
  | _ => none

abbrev Found := Location × Option Content

def insertFound (name : String) (fs : List Found) :
    List (String × List Found) → List (String × List Found)
  | [] => [(name, fs)]
  | e :: es => if e.1 < name then e :: insertFound name fs es else (name, fs) :: e :: es

mutual

def outline : Tree → List Found
  | .file _ => []
  | .directory es => (outlineEntries es).flatMap Prod.snd

def outlineEntries : List (String × Tree) → List (String × List Found)
  | [] => []
  | (name, t) :: es =>
    let here : Found := match t with
      | .file content => ([name], some content)
      | .directory _ => ([name], none)
    let below := t.outline.map fun f => (name :: f.1, f.2)
    insertFound name (here :: below) (outlineEntries es)

end

end RowStore.Tree
