import RowStore.Disk.Content
import RowStore.Row.Codec

/-!
Table files: the row count in four little-endian bytes, then the rows back to back. An open table knows
how many rows its file counted when it was opened and how many it has added since; the content of the
file is passed to each operation.
-/

namespace RowStore

structure TableFile where
  path : Path
  codec : RowCodec
  count : UInt32
  deriving DecidableEq, Repr

/-- Work on the content of an open file. What is written before a failure stays written. -/
abbrev OnContent (α : Type) : Type := ExceptT TableError (StateM Content) α

namespace TableFile

def rowCount (t : TableFile) : Nat := t.count.toNat

def headerSize : Nat := 4

def header (n : Nat) : Bytes := Bytes.ofNat headerSize n

def emptyContent : Content := .ofBytes (header 0)

def create (path : Path) (schema : TableSchema) : TableFile := ⟨path, .ofSchema schema, 0⟩

def ofContent (path : Path) (schema : TableSchema) (content : Content) :
    Except TableError TableFile :=
  match content.slice? 0 headerSize with
  | some h => .ok ⟨path, .ofSchema schema, Bytes.toUInt32 h⟩
  | none => .error (.io path .endOfFile)

def rowOffset (t : TableFile) (i : Nat) : Nat := headerSize + i * t.codec.width

def nextCount (t : TableFile) : Except TableError UInt32 :=
  if t.rowCount + 1 < UInt32.size then .ok (t.count + 1) else .error (.io t.path .countOverflow)

/-- Writes a row after the last counted one, then the new count. -/
def append (t : TableFile) (values : List Value) : OnContent TableFile := do
  let row ← t.codec.encode values
  let n ← t.nextCount
  modify (Content.overwrite (t.rowOffset t.rowCount) row)
  modify (Content.overwrite 0 (header n.toNat))
  return { t with count := n }

def fromRow (t : TableFile) (i : Nat) (content : Content) : Content :=
  content.behind (t.rowOffset i)

def readAt (t : TableFile) (offset len : Nat) (rest : Content) : Except TableError Bytes :=
  match rest.slice? offset len with
  | some bs => .ok bs
  | none => .error (.io t.path .endOfFile)

def firstRow (t : TableFile) (rest : Content) : Except TableError (List Value) := do
  t.codec.decode (← t.readAt 0 t.codec.width rest)

def firstColumn (t : TableFile) (column : Nat) (rest : Content) : Except TableError Value := do
  let offset ← t.codec.columnOffset column
  let type ← t.codec.column column
  t.codec.decodeColumn column (← t.readAt offset type.width rest)

def checkRow (t : TableFile) (i : Nat) : Except TableError Unit :=
  if i < t.rowCount then .ok () else .error (.rowOutOfRange i t.rowCount)

def readRow (t : TableFile) (i : Nat) (content : Content) : Except TableError (List Value) := do
  t.checkRow i
  t.firstRow (t.fromRow i content)

def readColumn (t : TableFile) (i column : Nat) (content : Content) : Except TableError Value := do
  t.checkRow i
  t.firstColumn column (t.fromRow i content)

def scan (t : TableFile) : List Nat := List.range t.rowCount

def nextRow (t : TableFile) (rest : Content) : Content := rest.behind t.codec.width

def firstRows (t : TableFile) : Nat → Content → List (Except TableError (List Value))
  | 0, _ => []
  | n + 1, rest => t.firstRow rest :: t.firstRows n (t.nextRow rest)

def rows (t : TableFile) (content : Content) : List (Except TableError (List Value)) :=
  t.firstRows t.rowCount (t.fromRow 0 content)

theorem firstRow_congr (t : TableFile) {c d : Content} (h : c.bytes = d.bytes) :
    t.firstRow c = t.firstRow d := by
  simp only [firstRow, readAt, Content.slice?_eq, h]

theorem bytes_nextRow_fromRow (t : TableFile) (i : Nat) (content : Content) :
    (t.nextRow (t.fromRow i content)).bytes = (t.fromRow (i + 1) content).bytes := by
  simp only [nextRow, fromRow, rowOffset, Content.bytes_behind, List.drop_drop]
  congr 1
  rw [Nat.succ_mul, Nat.add_assoc]

theorem firstRows_congr (t : TableFile) (n : Nat) {c d : Content} (h : c.bytes = d.bytes) :
    t.firstRows n c = t.firstRows n d := by
  induction n generalizing c d with
  | zero => rfl
  | succ n ih =>
    have behind : (t.nextRow c).bytes = (t.nextRow d).bytes := by
      simp only [nextRow, Content.bytes_behind, h]
    simp only [firstRows, t.firstRow_congr h, ih behind]

theorem firstRows_fromRow (t : TableFile) (n i : Nat) (content : Content) :
    t.firstRows n (t.fromRow i content)
      = (List.range' i n).map fun k => t.firstRow (t.fromRow k content) := by
  induction n generalizing i with
  | zero => rfl
  | succ n ih =>
    simp only [firstRows, List.range'_succ, List.map_cons]
    rw [t.firstRows_congr n (t.bytes_nextRow_fromRow i content), ih]

theorem rows_eq (t : TableFile) (content : Content) :
    t.rows content = t.scan.map fun i => t.readRow i content := by
  simp only [rows, firstRows_fromRow, scan, List.range_eq_range']
  apply List.map_congr_left
  intro i h
  have inside : i < t.rowCount := by simpa using (List.mem_range'_1.1 h).2
  simp only [readRow, checkRow, if_pos inside]
  rfl

end TableFile

end RowStore
