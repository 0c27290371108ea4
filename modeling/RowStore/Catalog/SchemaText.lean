import RowStore.Schema
import RowStore.Text.Lines

namespace RowStore.SchemaText

def tableMark : List Char := "TABLE:".toList

def columnsMark : List Char := "COLUMNS:".toList

def columnLine (c : Column) : List Char := c.name.toList ++ ',' :: c.type.name.toList ++ ['\n']

def encodeChars (s : TableSchema) : List Char :=
  tableMark ++ s.name.toList ++ '\n' :: columnsMark ++ '\n' :: s.columns.flatMap columnLine

def encode (s : TableSchema) : String := String.ofList (encodeChars s)

def column? (line : List Char) : Option Column :=
  match line.dropWhile (· ≠ ',') with
  | [] => none
  | _ :: type =>
    let name := line.takeWhile (· ≠ ',')
    (DataType.ofName? (String.ofList type)).map fun t => ⟨String.ofList name, t⟩

/-- The columns of the lines from number `n` on. Empty lines count but say nothing. -/
def decodeColumns (n : Nat) : List (List Char) → Except Nat (List Column)
  | [] => .ok []
  | [] :: rest => decodeColumns (n + 1) rest
  | line :: rest => match column? line with
    | some c => (decodeColumns (n + 1) rest).map (c :: ·)
    | none => .error n

def decodeLines : List (List Char) → Except Nat TableSchema
  | [] => .error 1
  | first :: rest => match tableMark.isPrefixOf? first with
    | none => .error 1
    | some name => match rest with
      | [] => .error 2
      | second :: rest =>
        if second = columnsMark then
          (decodeColumns 3 rest).map fun columns => ⟨String.ofList name, columns⟩
        else .error 2

def decode (text : String) : Except Nat TableSchema := decodeLines (Text.textLines text.toList)

end RowStore.SchemaText
