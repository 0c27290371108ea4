import RowStore.Catalog
import RowStore.Engine.Predicate
import RowStore.Engine.Session
import RowStore.Table.Index

/-!
Running statements against the databases of a catalog. All that lasts between statements is in the
files and in the session; a statement that fails leaves the session as it was.
-/

namespace RowStore.Engine

variable {δ : Type}

abbrev Act (δ α : Type) : Type := Action δ EngineError α

abbrev Result := Except EngineError Outcome

/-- A statement at work on the session and the world. What it has done to them before it fails stays. -/
def Turn (δ α : Type) : Type := Session → World δ → Except EngineError α × Session × World δ

namespace Turn

variable {α β : Type}

def succeed (a : α) : Turn δ α := fun s w => (.ok a, s, w)

def andThen (x : Turn δ α) (f : α → Turn δ β) : Turn δ β := fun s w =>
  match x s w with
  | (.ok a, s', w') => f a s' w'
  | (.error e, s', w') => (.error e, s', w')

instance : Monad (Turn δ) where
  pure := succeed
  bind := andThen

def onWorld (x : Act δ α) : Turn δ α := fun s w =>
  let (r, w') := x w
  (r, s, w')

def within (x : Session → Act δ α) : Turn δ α := fun s => onWorld (x s) s

def select (name : String) : Turn δ Unit := fun s w => (.ok (), s.select name, w)

def leave (name : String) : Turn δ Bool := fun s w =>
  (.ok (decide (s.database = some name)), s.leave name, w)

end Turn

def inCatalog {α : Type} (x : Catalog.Act δ α) : Act δ α := x.mapError EngineError.ofCatalog

def currentDatabase (s : Session) : Act δ String :=
  match s.database with
  | some name => Action.succeed name
  | none => Action.fail .noDatabaseSelected

def tableFault (p : Path) (e : Fault) : EngineError := .storage (.io p e)

def createDatabase (c : Catalog δ) (name : String) : Act δ Outcome := do
  inCatalog (c.createDatabase name)
  return .databaseCreated name

def createTableFiles (c : Catalog δ) (database table : String) : Act δ Unit := do
  let p := c.tablePath database table
  (FileAccess.write p TableFile.emptyContent).mapError (tableFault p)
  let q := c.indexPath database table
  (FileAccess.write q (.ofBytes IndexHeader.initial.content)).mapError (tableFault q)

def withdrawSchema (c : Catalog δ) (database table : String) : Act δ Unit := do
  match ← (c.dropSchema database table).attempt with
  | .ok () => return ()
  | .error e =>
    Action.notify .warn s!"failed to remove schema of {database}.{table}: {e.message}"

def createTable (c : Catalog δ) (s : Session) (schema : TableSchema) : Act δ Outcome := do
  let database ← currentDatabase s
  inCatalog (c.createSchema database schema)
  match ← (createTableFiles c database schema.name).attempt with
  | .ok () =>
    let n := schema.columns.length
    Action.notify .info s!"created table {database}.{schema.name} with {n} columns"
    return .tableCreated schema.name
  | .error e =>
    withdrawSchema c database schema.name
    Action.fail e

def dropDatabase (c : Catalog δ) (name : String) : Turn δ Outcome := do
  .onWorld (inCatalog (c.dropDatabase name))
  if ← Turn.leave name then
    .onWorld (Action.notify .info s!"dropped the current database {name}")
  return .databaseDropped name

def dropTable (c : Catalog δ) (s : Session) (name : String) : Act δ Outcome := do
  let database ← currentDatabase s
  inCatalog (c.dropTable database name)
  return .tableDropped name

def requireDatabase (c : Catalog δ) (name : String) : Act δ Unit := do
  if ← c.databaseExists name then return ()
  else Action.fail (.noSuchDatabase name)

def useDatabase (c : Catalog δ) (name : String) : Turn δ Outcome := do
  .onWorld (requireDatabase c name)
  Turn.select name
  .onWorld (Action.notify .info s!"switched to database {name}")
  return .databaseChanged name

def showNames (c : Catalog δ) (s : Session) : Sql.ShowTarget → Act δ Outcome
  | .databases => return .listing "Databases" (← inCatalog c.databases)
  | .tables => do
    let database ← currentDatabase s
    return .listing s!"Tables in {database}" (← inCatalog (c.tables database))

def openTable (c : Catalog δ) (database : String) (schema : TableSchema) :
    Act δ (TableFile × Content) := do
  let p := c.tablePath database schema.name
  let content ← (FileAccess.read p).mapError (tableFault p)
  match TableFile.ofContent p schema content with
  | .ok t => return (t, content)
  | .error e => Action.fail (.storage e)

def differs (schema : TableSchema) : Option Sql.Columns → Bool
  | some (.named names) => names.map Sql.Identifier.name != schema.columnNames
  | _ => false

def addRow (table : String) (values : List Sql.Literal) (t : TableFile) (content : Content) :
    Act δ Outcome := do
  let row ← Action.ofExcept ((t.codec.parseRow (values.map Sql.Literal.text)).mapError .storage)
  let (added, content) := t.append row content
  (FileAccess.write t.path content).mapError (tableFault t.path)
  match added with
  | .ok _ => return .inserted table 1
  | .error e => Action.fail (.storage e)

/-- Values are stored in the order of the schema, whatever columns the statement lists. -/
def insert (c : Catalog δ) (s : Session) (table : String) (columns : Option Sql.Columns)
    (values : List Sql.Literal) : Act δ Outcome := do
  let database ← currentDatabase s
  let schema ← inCatalog (c.readSchema database table)
  if values.length = schema.columns.length then
    if differs schema columns then
      Action.notify .warn (s!"column list of INSERT INTO {table} differs from the table, " ++
        "values are stored in table order")
    let (t, content) ← openTable c database schema
    addRow table values t content
  else Action.fail (.arityMismatch table schema.columns.length values.length)

def projection (schema : TableSchema) : Sql.Columns → List Bool
  | .all => schema.columns.map fun _ => true
  | .named names => schema.columnNames.map fun column => names.any fun x => x.name == column

def project {α : Type} (marks : List Bool) (as : List α) : List α :=
  ((as.zip marks).filter Prod.snd).map Prod.fst

def selects (p : Option Predicate) (t : TableFile) (rest : Content) : Except TableError Bool :=
  match p with
  | some p => p.evaluate t rest
  | none => .ok true

/-- The selected ones of the `n` rows at the start of `rest`. A row that cannot be read ends it. -/
def scanRows (p : Option Predicate) (marks : List Bool) (t : TableFile) :
    Nat → Content → Except TableError (List (List Value))
  | 0, _ => .ok []
  | n + 1, rest => do
    if ← selects p t rest then
      let values ← t.firstRow rest
      let others ← scanRows p marks t n (t.nextRow rest)
      return project marks values :: others
    else scanRows p marks t n (t.nextRow rest)

def select (c : Catalog δ) (s : Session) (columns : Sql.Columns) (table : String)
    (filter : Option Sql.Filter) : Act δ Outcome := do
  let database ← currentDatabase s
  let schema ← inCatalog (c.readSchema database table)
  let marks := projection schema columns
  let p ← Action.ofExcept (match filter with
    | some f => (Predicate.ofFilter schema f).map some
    | none => .ok none)
  let (t, content) ← openTable c database schema
  match scanRows p marks t t.rowCount (t.fromRow 0 content) with
  | .ok rows =>
    let matched := rows.length
    Action.notify .debug s!"scanned {t.rowCount} rows of {table}, {matched} matched"
    return .selected ⟨project marks schema.columnNames, rows⟩
  | .error e => Action.fail (.storage e)

def schemaOf (name : Sql.Identifier) (columns : List Sql.ColumnDefinition) : TableSchema :=
  ⟨name.name, columns.map fun c => ⟨c.name.name, c.type⟩⟩

def execute (c : Catalog δ) : Sql.Statement → Turn δ Outcome
  | .createDatabase name => .onWorld (createDatabase c name.name)
  | .createTable name columns => .within fun s => createTable c s (schemaOf name columns)
  | .dropDatabase name => dropDatabase c name.name
  | .dropTable name => .within fun s => dropTable c s name.name
  | .useDatabase name => useDatabase c name.name
  | .showNames target => .within fun s => showNames c s target
  | .insert table columns values => .within fun s => insert c s table.name columns values
  | .select columns table filter => .within fun s => select c s columns table.name filter

def runParsed (c : Catalog δ) (s : Session) (w : World δ) : Sql.Parsed → Result × Session × World δ
  | .error e => (.error (.parse e), s, w)
  | .ok stmt => execute c stmt s w

/-- Runs all in turn. One that fails does not keep the others from running. -/
def runAll (c : Catalog δ) (s : Session) (w : World δ) :
    List Sql.Parsed → List Result × Session × World δ
  | [] => ([], s, w)
  | p :: ps =>
    let (r, s', w') := runParsed c s w p
    let (rs, s'', w'') := runAll c s' w' ps
    (r :: rs, s'', w'')

def run (c : Catalog δ) (s : Session) (w : World δ) (sql : String) :
    List Result × Session × World δ :=
  runAll c s w (Sql.parse sql)

end RowStore.Engine
