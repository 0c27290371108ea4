import RowStore.Catalog.Error
import RowStore.Sql.Parse
import RowStore.Table.Error
import RowStore.Value

namespace RowStore

/-- Rows in the order of the file, each with the chosen columns in the order of the schema. -/
structure ResultSet where
  columns : List String
  rows : List (List Value)
  deriving DecidableEq, Repr

inductive Outcome
  | databaseCreated (name : String)
  | tableCreated (name : String)
  | databaseChanged (name : String)
  | databaseDropped (name : String)
  | tableDropped (name : String)
  | listing (title : String) (names : List String)
  | inserted (table : String) (rows : Nat)
  | selected (result : ResultSet)
  deriving DecidableEq, Repr

def Outcome.rows : Outcome → Nat
  | .listing _ names => names.length
  | .inserted _ rows => rows
  | .selected result => result.rows.length
  | _ => 0

inductive EngineError
  | noDatabaseSelected
  | noSuchDatabase (name : String)
  | noSuchTable (name : String)
  | arityMismatch (table : String) (expected got : Nat)
  | noSuchColumn (column table : String)
  | parse (e : Sql.ParseError)
  | catalog (e : CatalogError)
  | storage (e : TableError)
  deriving DecidableEq, Repr

namespace EngineError

def message : EngineError → String
  | .noDatabaseSelected => "no database selected, run `USE <database>;` first"
  | .noSuchDatabase name => s!"database '{name}' does not exist"
  | .noSuchTable name => s!"table '{name}' does not exist"
  | .arityMismatch table expected got =>
    s!"table '{table}' has {expected} columns but {got} values were supplied"
  | .noSuchColumn column table => s!"column '{column}' does not exist in table '{table}'"
  | .parse e => e.message
  | .catalog e => e.message
  | .storage e => e.message

def ofCatalog : CatalogError → EngineError
  | .noSuchDatabase name => .noSuchDatabase name
  | .noSuchTable table => .noSuchTable table
  | e => .catalog e

end EngineError

end RowStore
