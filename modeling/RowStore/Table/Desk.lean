import RowStore.Disk.Edit
import RowStore.Disk.Files
import RowStore.Table.File
import RowStore.Table.Index

namespace RowStore

inductive Place
  | linked (l : Location)
  | removed (n : Nat)
  deriving DecidableEq, Repr

structure OpenTable where
  table : TableFile
  place : Place
  deriving DecidableEq, Repr

structure Desk where
  files : Files
  removed : List Content
  tables : List (String × OpenTable)

namespace Desk

def ofFiles (f : Files) : Desk := ⟨f, [], []⟩

def tree (d : Desk) : Tree := d.files.tree

def content (d : Desk) : Place → Content
  | .linked l => (d.tree.contentAt? l).getD []
  | .removed n => d.removed[n]?.getD []

def setContent (d : Desk) (content : Content) : Place → Desk
  | .linked l => { d with files := d.files.putAt l (.file content) }
  | .removed n => { d with removed := d.removed.set n content }

def table? (d : Desk) (handle : String) : Option OpenTable := Entries.get? handle d.tables

def hold (d : Desk) (handle : String) (o : OpenTable) : Desk :=
  { d with tables := Entries.put handle o d.tables }

def close (d : Desk) (handle : String) : Desk := { d with tables := Entries.erase handle d.tables }

def writeFile (d : Desk) (p : Path) (content : Content) : Except TableError Desk :=
  match d.files.write content p with
  | .ok f => .ok { d with files := f }
  | .error e => .error (.io p e)

def placeOf (d : Desk) (p : Path) : Except TableError Place :=
  match d.files.locate p with
  | .ok l => .ok (.linked l)
  | .error e => .error (.io p e)

def create (d : Desk) (handle : String) (p : Path) (s : TableSchema) :
    Except TableError (TableFile × Desk) := do
  let d ← d.writeFile p TableFile.emptyContent
  let t := TableFile.create p s
  return (t, d.hold handle ⟨t, ← d.placeOf p⟩)

def openTable (d : Desk) (handle : String) (p : Path) (s : TableSchema) :
    Except TableError (TableFile × Desk) := do
  let content ← (d.files.read p).mapError (TableError.io p)
  let t ← TableFile.ofContent p s content
  return (t, d.hold handle ⟨t, ← d.placeOf p⟩)

def append (d : Desk) (handle : String) (o : OpenTable) (values : List Value) :
    Except TableError (TableFile × Desk) :=
  match o.table.append values (d.content o.place) with
  | (.ok t, content) => .ok (t, (d.setContent content o.place).hold handle { o with table := t })
  | (.error e, _) => .error e

def insert (d : Desk) (handle : String) (o : OpenTable) (literals : List String) :
    Except TableError (TableFile × Desk) := do
  d.append handle o (← o.table.codec.parseRow literals)

def readRow (d : Desk) (o : OpenTable) (i : Nat) : Except TableError (List Value) :=
  o.table.readRow i (d.content o.place)

def readColumn (d : Desk) (o : OpenTable) (i column : Nat) : Except TableError Value :=
  o.table.readColumn i column (d.content o.place)

def rows (d : Desk) (o : OpenTable) : List (Except TableError (List Value)) :=
  o.table.rows (d.content o.place)

def createIndex (d : Desk) (p : Path) : Except TableError (IndexHeader × Desk) := do
  let d ← d.writeFile p (.ofBytes IndexHeader.initial.content)
  return (IndexHeader.initial, d)

def heldBelow (d : Desk) (l : Location) : List Location :=
  (d.tables.filterMap fun e => match e.2.place with
    | .linked l' => if l.isPrefixOf l' then some l' else none
    | .removed _ => none).eraseDups

/-- Takes away what is at a location; the files there that are held open move to the removed ones. -/
def remove (d : Desk) (l : Location) : Desk :=
  let held := d.heldBelow l
  let move (o : OpenTable) : OpenTable := match o.place with
    | .linked l' =>
      if l' ∈ held then { o with place := .removed (d.removed.length + held.idxOf l') } else o
    | .removed _ => o
  { files := d.files.eraseAt l
    removed := d.removed ++ held.map fun l' => d.content (.linked l')
    tables := d.tables.map fun e => (e.1, move e.2) }

end Desk

end RowStore
