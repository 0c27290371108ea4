import RowStore.Sql.Statement

namespace RowStore.Sql

inductive Expected
  | kind (k : Kind)
  | statement
  | databaseOrTable
  | databasesOrTables
  | dataType
  | comparison
  | literal
  deriving DecidableEq, Repr

def Expected.text : Expected → String
  | .kind k => k.text
  | .statement => "statement"
  | .databaseOrTable => "DATABASE or TABLE"
  | .databasesOrTables => "DATABASES or TABLES"
  | .dataType => "data type"
  | .comparison => "comparison operator"
  | .literal => "number or string"

inductive ParseError
  /-- What was expected, and the text found at a byte position; no text is the end of input. -/
  | unexpected (expected : Expected) (found : Option String) (position : Nat)
  | lexing (e : LexError)
  deriving DecidableEq, Repr

def ParseError.message : ParseError → String
  | .unexpected expected found position =>
    s!"syntax error at position {position}: expected {expected.text}, found " ++
      found.getD "end of input"
  | .lexing e => e.message

abbrev Parsed := Except ParseError Statement

end RowStore.Sql
