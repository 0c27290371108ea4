import RowStore.Catalog.Error
import RowStore.Catalog.Names
import RowStore.Catalog.SchemaText
import RowStore.Disk.Directory
import RowStore.Text.Utf8

namespace RowStore

structure Catalog (δ : Type) where
  root : Path
  directory : Directory δ

namespace Catalog

variable {δ : Type}

def ofDataDirectory (data : Path) (d : Directory δ) : Catalog δ := ⟨data.join "databases", d⟩

def schemaExtension : String := "schema"

def tableExtension : String := "table"

def indexExtension : String := "idx"

def databasePath (c : Catalog δ) (database : String) : Path := c.root.join database

def filePath (c : Catalog δ) (database table ext : String) : Path :=
  (c.databasePath database).join (table ++ "." ++ ext)

def schemaPath (c : Catalog δ) (database table : String) : Path :=
  c.filePath database table schemaExtension

def tablePath (c : Catalog δ) (database table : String) : Path :=
  c.filePath database table tableExtension

def indexPath (c : Catalog δ) (database table : String) : Path :=
  c.filePath database table indexExtension

abbrev Act (δ α : Type) : Type := Action δ CatalogError α

def reaching {α : Type} (p : Path) (x : Action δ Fault α) : Act δ α := x.mapError (.io p)

def prepare (c : Catalog δ) : Act δ Unit := do
  Action.record (.file c.root)
  reaching c.root (Action.changePartly (·.makeDirectories c.root))

def databaseExists {ε : Type} (c : Catalog δ) (database : String) : Action δ ε Bool :=
  let p := c.databasePath database
  Directory.askFlag (.directoryExists p) (c.directory.directoryExists p)

def requireDatabase (c : Catalog δ) (database : String) : Act δ Unit := do
  if ← c.databaseExists database then return ()
  else Action.fail (.noSuchDatabase database)

def createDatabase (c : Catalog δ) (database : String) : Act δ Unit := do
  if ← c.databaseExists database then Action.fail (.databaseExists database)
  else
    let p := c.databasePath database
    reaching p (Directory.ask (.createDirectory p) (c.directory.createDirectory p))
    Action.notify .info s!"created database {database}"

def dropDatabase (c : Catalog δ) (database : String) : Act δ Unit := do
  c.requireDatabase database
  let p := c.databasePath database
  reaching p (Directory.ask (.deleteDirectory p) (c.directory.deleteDirectory p))
  Action.notify .info s!"dropped database {database}"

def databases (c : Catalog δ) : Act δ (List String) := do
  let ns ← reaching c.root
    (Directory.ask (.listSubdirectories c.root) (c.directory.listSubdirectories c.root))
  return Names.sort ns

def tables (c : Catalog δ) (database : String) : Act δ (List String) := do
  c.requireDatabase database
  let p := c.databasePath database
  let ns ← reaching p
    (Directory.ask (.listFiles schemaExtension p) (c.directory.listFiles schemaExtension p))
  return Names.sort ns

/-- A fault of a new schema file: one that is there already means that the table exists. -/
def createFault (p : Path) (table : String) (e : Fault) : CatalogError :=
  if e.faultClass = .alreadyExists then .tableExists table else .io p e

def createSchema (c : Catalog δ) (database : String) (s : TableSchema) : Act δ Unit := do
  c.requireDatabase database
  let p := c.schemaPath database s.name
  let text := SchemaText.encode s
  (FileAccess.writeNew p (.ofBytes (Text.encode text.toList))).mapError (createFault p s.name)

def missingFault (p : Path) (table : String) (e : Fault) : CatalogError :=
  if e.faultClass = .notFound then .noSuchTable table else .io p e

def schemaOfContent (p : Path) (content : Content) : Except CatalogError TableSchema :=
  match Text.decode? content.bytes with
  | none => .error (.io p .notText)
  | some text => match SchemaText.decode (String.ofList text) with
    | .ok s => .ok s
    | .error line => .error (.corrupted p line)

def readSchema (c : Catalog δ) (database table : String) : Act δ TableSchema := do
  c.requireDatabase database
  let p := c.schemaPath database table
  let content ← (FileAccess.read p).mapError (missingFault p table)
  Action.ofExcept (schemaOfContent p content)

def tableExists {ε : Type} (c : Catalog δ) (database table : String) : Action δ ε Bool :=
  let p := c.schemaPath database table
  Directory.askFlag (.fileExists p) (c.directory.fileExists p)

def deleteFile (c : Catalog δ) (p : Path) : Action δ Fault Unit :=
  Directory.ask (.deleteFile p) (c.directory.deleteFile p)

def dropSchema (c : Catalog δ) (database table : String) : Act δ Unit := do
  c.requireDatabase database
  let p := c.schemaPath database table
  (c.deleteFile p).mapError (missingFault p table)

def deleteLeftover (c : Catalog δ) (p : Path) : Act δ Unit := do
  match ← (c.deleteFile p).attempt with
  | .ok () => return ()
  | .error e => if e.faultClass = .notFound then return () else Action.fail (.io p e)

/-- Deletes the schema first, then the table file and the index file. -/
def dropTable (c : Catalog δ) (database table : String) : Act δ Unit := do
  c.dropSchema database table
  c.deleteLeftover (c.tablePath database table)
  c.deleteLeftover (c.indexPath database table)
  Action.notify .info s!"dropped table {database}.{table}"

end Catalog

end RowStore
