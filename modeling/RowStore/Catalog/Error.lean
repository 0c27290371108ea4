import RowStore.Disk.Fault
import RowStore.Disk.Path

namespace RowStore

inductive CatalogError
  | databaseExists (name : String)
  | noSuchDatabase (name : String)
  | tableExists (table : String)
  | noSuchTable (table : String)
  | corrupted (path : Path) (line : Nat)
  | io (path : Path) (fault : Fault)
  deriving DecidableEq, Repr

def CatalogError.message : CatalogError → String
  | .databaseExists name => s!"database '{name}' already exists"
  | .noSuchDatabase name => s!"database '{name}' does not exist"
  | .tableExists table => s!"table '{table}' already exists"
  | .noSuchTable table => s!"table '{table}' does not exist"
  | .corrupted path line => s!"schema file {path.text} is corrupted at line {line}"
  | .io path fault => s!"failed to access {path.text}: {fault.message}"

end RowStore
