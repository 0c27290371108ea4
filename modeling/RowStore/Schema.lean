import RowStore.Text.Clip

namespace RowStore

inductive DataType
  | int
  | varchar
  | double
  /-- A raw integer without calendar rules. -/
  | date
  deriving DecidableEq, Repr

namespace DataType

/-- The bytes of a varchar slot: what `Text.clip` leaves and one closing NUL. -/
def varcharWidth : Nat := Text.clipLimit + 1

def width : DataType → Nat
  | .int => 4
  | .varchar => varcharWidth
  | .double => 8
  | .date => 4

def totalWidth : List DataType → Nat
  | [] => 0
  | t :: ts => t.width + totalWidth ts

def name : DataType → String
  | .int => "int"
  | .varchar => "varchar"
  | .double => "double"
  | .date => "date"

def all : List DataType := [.int, .varchar, .double, .date]

def ofName? (s : String) : Option DataType :=
  all.find? fun t => t.name.toList == s.toList.map Char.toLower

def unknownMessage (s : String) : String := "unknown data type `" ++ s ++ "`"

@[simp] theorem ofName?_name (t : DataType) : ofName? t.name = some t := by
  cases t <;> decide

theorem width_pos (t : DataType) : 0 < t.width := by cases t <;> decide

end DataType

structure Column where
  name : String
  type : DataType
  deriving DecidableEq, Repr

/-- Columns stand in the order of their slots in a row. -/
structure TableSchema where
  name : String
  columns : List Column
  deriving DecidableEq, Repr

namespace TableSchema

def types (s : TableSchema) : List DataType := s.columns.map Column.type

def rowWidth (s : TableSchema) : Nat := DataType.totalWidth s.types

def columnIndex? (s : TableSchema) (name : String) : Option Nat :=
  s.columns.findIdx? fun c => c.name == name

def columnNames (s : TableSchema) : List String := s.columns.map Column.name

end TableSchema

end RowStore
