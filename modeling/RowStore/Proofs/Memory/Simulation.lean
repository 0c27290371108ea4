import RowStore.Proofs.Engine.Insertion
import RowStore.Proofs.Memory.Image

/-!
Each statement does to the entries of the directory of databases what it does to the databases in
memory, and it gives the same answer, error or not.
-/

namespace RowStore.Engine

open Memory (Store Database Table Named)

variable {δ : Type} {v : NearVolume} {state : δ} {m : Store} {es fs : List (String × Tree)}

def storeAfter (m : Store) : Except EngineError (Outcome × Store × Option String) → Store
  | .ok (_, m', _) => m'
  | .error _ => m

def sessionAfter (s : Session) : Except EngineError (Outcome × Store × Option String) → Session
  | .ok (_, _, current) => ⟨current⟩
  | .error _ => s

/-- A statement answers the same, and leaves the session and entries for what is in memory
afterwards. -/
def Simulates (v : NearVolume) (state : δ) (m : Store) (es : List (String × Tree)) (s : Session)
    (x : Turn δ Outcome) (answer : Except EngineError (Outcome × Store × Option String)) : Prop :=
  ∃ es', x.Yields s (v.disk state es) (answer.map Prod.fst) (sessionAfter s answer)
    (v.disk state es') ∧ Store.Image (storeAfter m answer) es'

section Rules

variable {s : Session}

theorem Simulates.refused {x : Turn δ Outcome} {e : EngineError} (h : m.Image es)
    (hx : x.Yields s (v.disk state es) (.error e) s (v.disk state es)) :
    Simulates v state m es s x (.error e) :=
  ⟨es, hx, h⟩

theorem Simulates.done {x : Turn δ Outcome} {m' : Store} {es' : List (String × Tree)}
    {outcome : Outcome} {current : Option String} (h : m'.Image es')
    (hx : x.Yields s (v.disk state es) (.ok outcome) ⟨current⟩ (v.disk state es')) :
    Simulates v state m es s x (.ok (outcome, m', current)) :=
  ⟨es', hx, h⟩

theorem Simulates.error {x : Session → Act δ Outcome} {e : EngineError} (h : m.Image es)
    (hx : (x s).Yields (v.disk state es) (.error e) (v.disk state es)) :
    Simulates v state m es s (.within x) (.error e) :=
  .refused h (.within hx)

theorem Simulates.ok {x : Session → Act δ Outcome} {m' : Store} {es' : List (String × Tree)}
    {outcome : Outcome} (h : m'.Image es')
    (hx : (x s).Yields (v.disk state es) (.ok outcome) (v.disk state es')) :
    Simulates v state m es s (.within x) (.ok (outcome, m', s.database)) :=
  .done h (.within hx)

end Rules

section Databases

variable {name : Sql.Identifier} {s : Session}

theorem createDatabase_simulates (h : m.Image es) (named : Sql.IsName name.name) :
    Simulates v state m es s (execute (v.catalog δ) (.createDatabase name))
      (Memory.execute m s.database (.createDatabase name)) := by
  by_cases inside : name.name ∈ m
  · obtain ⟨tables, found⟩ := Finmap.mem_iff.1 inside
    obtain ⟨fs, entry, -⟩ := h.database _ _ found
    have refused := (v.createDatabase_yields_exists state (v.reaches named) entry).mapError
      EngineError.ofCatalog
    rw [Memory.execute, if_pos inside]
    exact .refused h (.onWorld (.bind_error refused))
  · have entry := h.missing (Finmap.lookup_eq_none.2 inside)
    have created := (v.createDatabase_yields state (v.reaches named) entry).mapError
      EngineError.ofCatalog
    rw [Memory.execute, if_neg inside]
    exact .done (h.insert named .empty) (.onWorld (.bind created (.pure _)))

theorem dropDatabase_simulates (h : m.Image es) (named : Sql.IsName name.name) :
    Simulates v state m es s (execute (v.catalog δ) (.dropDatabase name))
      (Memory.execute m s.database (.dropDatabase name)) := by
  by_cases inside : name.name ∈ m
  · obtain ⟨tables, found⟩ := Finmap.mem_iff.1 inside
    obtain ⟨fs, entry, -⟩ := h.database _ _ found
    have dropped := v.dropDatabase_yields state (v.reaches named) entry
    have left_ : s.leave name.name
        = ⟨if s.database = some name.name then none else s.database⟩ := by
      rw [Session.leave]
      split <;> rfl
    rw [Memory.execute, if_pos inside]
    refine .done (h.erase name.name) ?_
    rw [← left_]
    exact dropDatabase_yields dropped
  · have entry := h.missing (Finmap.lookup_eq_none.2 inside)
    rw [Memory.execute, if_neg inside]
    exact .refused h (dropDatabase_yields_error (v.dropDatabase_yields_missing state named entry))

theorem useDatabase_simulates (h : m.Image es) (named : Sql.IsName name.name) :
    Simulates v state m es s (execute (v.catalog δ) (.useDatabase name))
      (Memory.execute m s.database (.useDatabase name)) := by
  by_cases inside : name.name ∈ m
  · obtain ⟨tables, found⟩ := Finmap.mem_iff.1 inside
    obtain ⟨fs, entry, -⟩ := h.database _ _ found
    rw [Memory.execute, if_pos inside]
    exact .done h (useDatabase_yields (v.finds state (v.reaches named) entry))
  · have entry := h.missing (Finmap.lookup_eq_none.2 inside)
    rw [Memory.execute, if_neg inside]
    exact .refused h (useDatabase_yields_error (v.misses state named entry))

theorem showDatabases_simulates (h : m.Image es) :
    Simulates v state m es s (execute (v.catalog δ) (.showNames .databases))
      (Memory.execute m s.database (.showNames .databases)) := by
  have listed := (v.databases_yields state es).mapError EngineError.ofCatalog
  rw [h.sort_subdirectoryNames] at listed
  exact .ok h (.bind listed (.pure _))

end Databases

section Selections

inductive Selection (m : Store) (es : List (String × Tree)) :
    Option String → Except EngineError (String × Database) → Prop
  | none : Selection m es none (.error .noDatabaseSelected)
  | missing {name : String} : Sql.IsName name → Entries.get? name es = none →
      Selection m es (some name) (.error (.noSuchDatabase name))
  | found {name : String} {tables : Database} {fs : List (String × Tree)} : Sql.IsName name →
      m.lookup name = some tables → Entries.get? name es = some (.directory fs) →
      tables.Image fs → Selection m es (some name) (.ok (name, tables))

theorem selection {current : Option String} (h : m.Image es)
    (named : Named current) :
    Selection m es current (Memory.database m current) := by
  cases current with
  | none => exact .none
  | some name =>
    rw [Memory.database]
    cases found : m.lookup name with
    | none => exact .missing (named name rfl) (h.missing found)
    | some tables =>
      obtain ⟨fs, entry, image⟩ := h.database name tables found
      exact .found (named name rfl) found entry image

inductive TableSelection (m : Store) (es : List (String × Tree)) (name : String) :
    Option String → Except EngineError (String × Database × Table) → Prop
  | error {current : Option String} {e : EngineError} : Selection m es current (.error e) →
      TableSelection m es name current (.error e)
  | missing {database : String} {tables : Database} {fs : List (String × Tree)} :
      Sql.IsName database → Entries.get? database es = some (.directory fs) → tables.Image fs →
      name ∉ tables → TableSelection m es name (some database) (.error (.noSuchTable name))
  | found {database : String} {tables : Database} {fs : List (String × Tree)} {t : Table} :
      Sql.IsName database → m.lookup database = some tables →
      Entries.get? database es = some (.directory fs) → tables.Image fs →
      tables.lookup name = some t →
      TableSelection m es name (some database) (.ok (database, tables, t))

theorem tableSelection {current : Option String} (h : m.Image es)
    (named : Named current) (name : String) :
    TableSelection m es name current (Memory.table m current name) := by
  have outer := selection h named
  rw [Memory.table]
  generalize Memory.database m current = answer at outer ⊢
  cases outer with
  | none => exact .error .none
  | missing hd entry => exact .error (.missing hd entry)
  | @found database tables fs hd there entry image =>
    simp only [bind, Except.bind]
    cases found : tables.lookup name with
    | none => exact .missing hd entry image (Finmap.lookup_eq_none.1 found)
    | some t => exact .found hd there entry image found

variable {name : Sql.Identifier} {s : Session}

theorem showTables_simulates (h : m.Image es) (named : Named s.database) :
    Simulates v state m es s (execute (v.catalog δ) (.showNames .tables))
      (Memory.execute m s.database (.showNames .tables)) := by
  have selected := selection h named
  obtain ⟨current⟩ := s
  rw [Memory.execute]
  generalize Memory.database m current = answer at selected ⊢
  cases selected with
  | none => exact .error h (.bind_error (.fail _))
  | missing hd entry =>
    have refused := (v.misses state hd entry).tables.mapError EngineError.ofCatalog
    exact .error h (.bind (.succeed _) (.bind_error refused))
  | found hd _ entry image =>
    have listed := (v.tables_yields state (v.reaches hd) entry image.flat).mapError
      EngineError.ofCatalog
    rw [image.sort_stems v hd] at listed
    exact .ok h (.bind (.succeed _) (.bind listed (.pure _)))

theorem createTableFiles_yields {database table : String} (hd : Sql.IsName database)
    (ht : Sql.IsName table) (entry : Entries.get? database es = some (.directory fs))
    (data : Entries.get? (Catalog.fileName table Catalog.tableExtension) fs = none)
    (index : Entries.get? (Catalog.fileName table Catalog.indexExtension) fs = none) (state : δ) :
    (createTableFiles (v.catalog δ) database table).Yields (v.disk state es) (.ok ())
      (v.disk state (Entries.put database (.directory
        (Entries.put (Catalog.fileName table Catalog.indexExtension)
          (.file (.ofBytes IndexHeader.initial.content))
          (Entries.put (Catalog.fileName table Catalog.tableExtension)
            (.file TableFile.emptyContent) fs))) es)) := by
  have free : ∀ inner, Entries.get? (Catalog.fileName table Catalog.indexExtension)
      (Entries.put (Catalog.fileName table Catalog.tableExtension) (.file TableFile.emptyContent) fs)
        ≠ some (.directory inner) := by
    simp [Catalog.get?_put_fileName ht Catalog.index_ne_table, index]
  have first := v.write_file (δ := δ) (v.reachesFile hd ht Catalog.table_mem) entry (by simp [data])
    TableFile.emptyContent
  have second := v.write_file (δ := δ) (v.reachesFile hd ht Catalog.index_mem)
    (Entries.get?_put_self database _ es) free (.ofBytes IndexHeader.initial.content)
  rw [Entries.put_put] at second
  have written := (Action.Yields.write (d := v.disk state es) first).mapError
    (tableFault ((v.catalog δ).tablePath database table))
  have indexed := (Action.Yields.write (d := v.disk state _) second).mapError
    (tableFault ((v.catalog δ).indexPath database table))
  exact .bind written indexed

theorem createTable_simulates {columns : List Sql.ColumnDefinition} (h : m.Image es)
    (named : Named s.database) (proper : (Sql.Statement.createTable name columns).WellNamed) :
    Simulates v state m es s (execute (v.catalog δ) (.createTable name columns))
      (Memory.execute m s.database (.createTable name columns)) := by
  have table : Memory.Table.WellNamed name.name ⟨columns.map Memory.columnOf, []⟩ := .new proper
  have selected := selection h named
  obtain ⟨current⟩ := s
  rw [Memory.execute]
  generalize Memory.database m current = answer at selected ⊢
  cases selected with
  | none => exact .error h (.bind_error (.fail _))
  | missing hd entry =>
    have refused := ((v.misses state hd entry).createSchema (schemaOf name columns)).mapError
      EngineError.ofCatalog
    exact .error h (.bind (.succeed _) (.bind_error refused))
  | @found database tables fs hd _ entry image =>
    simp only [bind, Except.bind]
    have reached : v.ReachesFile database (schemaOf name columns).name Catalog.schemaExtension :=
      v.reachesFile hd table.table Catalog.schema_mem
    by_cases inside : name.name ∈ tables
    · obtain ⟨t, found⟩ := Finmap.mem_iff.1 inside
      obtain ⟨content, file, -⟩ := (image.table _ _ found).schema
      have refused := (v.createSchema_yields_exists state reached entry file).mapError
        EngineError.ofCatalog
      rw [if_pos inside]
      exact .error h (.bind (.succeed _) (.bind_error refused))
    · have missing := image.missing table.table inside
      have data := (Catalog.get?_put_fileName table.table Catalog.table_ne_schema
        (.file (SchemaText.content (schemaOf name columns))) fs).trans
          (missing Catalog.tableExtension)
      have index := (Catalog.get?_put_fileName table.table Catalog.index_ne_schema
        (.file (SchemaText.content (schemaOf name columns))) fs).trans
          (missing Catalog.indexExtension)
      have created := (v.createSchema_yields state reached entry
        (missing Catalog.schemaExtension)).mapError EngineError.ofCatalog
      have files := createTableFiles_yields (δ := δ) (v := v) hd table.table
        (Entries.get?_put_self database _ es) data index state
      rw [Entries.put_put] at files
      rw [if_neg inside]
      exact .ok (h.insert hd (image.create table)) (.bind (.succeed _)
        (.bind created (.bind files.attempt (.bind (.notify _ _) (.pure _)))))

theorem dropTable_simulates (h : m.Image es) (named : Named s.database)
    (proper : Sql.IsName name.name) :
    Simulates v state m es s (execute (v.catalog δ) (.dropTable name))
      (Memory.execute m s.database (.dropTable name)) := by
  have selected := tableSelection h named name.name
  obtain ⟨current⟩ := s
  rw [Memory.execute]
  generalize Memory.table m current name.name = answer at selected ⊢
  cases selected with
  | error outer =>
    cases outer with
    | none => exact .error h (.bind_error (.fail _))
    | missing hd entry =>
      have refused := ((v.misses state hd entry).dropTable name.name).mapError EngineError.ofCatalog
      exact .error h (.bind (.succeed _) (.bind_error refused))
  | missing hd entry image out =>
    have reached := v.reachesFile hd proper Catalog.schema_mem
    have refused := (v.dropTable_yields_missing state reached entry
      (image.missing proper out _)).mapError EngineError.ofCatalog
    exact .error h (.bind (.succeed _) (.bind_error refused))
  | found hd _ entry image inside =>
    have dropped := (v.dropTable_yields state (fun _ => v.reachesFile hd proper) entry
      (image.table _ _ inside).files).mapError EngineError.ofCatalog
    exact .ok (h.insert hd (image.erase proper))
      (.bind (.succeed _) (.bind dropped (.pure _)))

end Selections

section Rows

variable {c : Catalog δ} {d : Disk δ} {database table : String} {schema : TableSchema}
  {literals : List Sql.Literal} {f : TableFile} {content : Content} {s : Session}
  {name : Sql.Identifier}

theorem readSchema_refused {current : Option String} {e : EngineError}
    {k : String → TableSchema → Act δ Outcome} (h : TableSelection m es table current (.error e))
    (proper : Sql.IsName table) :
    (do
      let database ← currentDatabase ⟨current⟩
      let schema ← inCatalog ((v.catalog δ).readSchema database table)
      k database schema).Yields (v.disk state es) (.error e) (v.disk state es) := by
  cases h with
  | error outer =>
    cases outer with
    | none => exact .bind_error (.fail _)
    | missing hd entry =>
      have refused := ((v.misses state hd entry).readSchema table).mapError EngineError.ofCatalog
      exact .bind (.succeed _) (.bind_error refused)
  | missing hd entry image out =>
    have reached := v.reachesFile hd proper Catalog.schema_mem
    have refused := (v.readSchema_yields_missing state reached entry
      (image.missing proper out _)).mapError EngineError.ofCatalog
    exact .bind (.succeed _) (.bind_error refused)

theorem insert_simulates (h : m.Image es) (named : Named s.database)
    (proper : Sql.IsName name.name) (roomy : m.Roomy) (columns : Option Sql.Columns)
    (literals : List Sql.Literal) :
    Simulates v state m es s (execute (v.catalog δ) (.insert name columns literals))
      (Memory.execute m s.database (.insert name columns literals)) := by
  have selected := tableSelection h named name.name
  obtain ⟨current⟩ := s
  rw [Memory.execute]
  generalize Memory.table m current name.name = answer at selected ⊢
  cases answer with
  | error e => exact .error h (readSchema_refused selected proper)
  | ok answer =>
    cases selected with
    | @found database tables fs t hd there entry image inside =>
      have own := image.table _ _ inside
      obtain ⟨text, schema, chars⟩ := own.schema
      obtain ⟨content, data, written⟩ := own.data
      have read := (v.readSchema_yields state (v.reachesFile hd proper Catalog.schema_mem) entry
        schema (own.named.schemaOfContent _ chars)).mapError EngineError.ofCatalog
      simp only [bind, Except.bind]
      by_cases length : literals.length = t.columns.length
      · have opened := openTable_yields (d := v.disk state es) (c := v.catalog δ)
          (v.read_file (δ := δ) (v.reachesFile hd proper Catalog.table_mem) entry data)
          (written.ofContent name.name own.small _)
        -- In memory a row is read column by column, in the engine whole before it is encoded.
        have values := Memory.mapError_parseRow name.name length
        rw [if_pos length]
        cases parsed : (RowCodec.ofSchema ⟨name.name, t.columns⟩).parseRow
            (literals.map Sql.Literal.text) with
        | error e =>
          rw [← values, parsed]
          have answer := insert_yields columns rfl read length
            (.bind opened (addRow_yields_error parsed))
          exact .error h answer
        | ok row =>
          rw [parsed] at values
          have fewer := roomy _ _ there _ _ inside
          obtain ⟨g, longer, appended, image'⟩ := written.append name.name
            (Memory.map_type_rowOf length values.symm) (Nat.add_lt_of_lt_sub fewer)
            ((v.catalog δ).tablePath database name.name)
          have small : (t.rows ++ [row.map Value.kept]).length < 2 ^ 32 := by
            rw [List.length_append, List.length_singleton]
            omega
          have put := v.write_file (δ := δ) (v.reachesFile hd proper Catalog.table_mem) entry
            (by simp [data]) longer
          have answer := insert_yields columns rfl read length
            (.bind opened (addRow_yields parsed appended put))
          rw [← values]
          exact .ok (h.insert hd (image.rewrite inside image' small)) answer
      · rw [if_neg length]
        refine .error h (.bind (.succeed _) (.bind read ?_))
        rw [if_neg length]
        exact .fail _

theorem select_simulates (h : m.Image es) (named : Named s.database)
    (proper : Sql.IsName name.name) (columns : Sql.Columns) (filter : Option Sql.Filter) :
    Simulates v state m es s (execute (v.catalog δ) (.select columns name filter))
      (Memory.execute m s.database (.select columns name filter)) := by
  have selected := tableSelection h named name.name
  obtain ⟨current⟩ := s
  rw [Memory.execute]
  generalize Memory.table m current name.name = answer at selected ⊢
  cases answer with
  | error e => exact .error h (readSchema_refused selected proper)
  | ok answer =>
    cases selected with
    | @found database tables fs t hd there entry image inside =>
      have own := image.table _ _ inside
      obtain ⟨text, schema, chars⟩ := own.schema
      obtain ⟨content, data, written⟩ := own.data
      have found := v.finds state (v.reaches hd) entry
      have file := v.read_file (δ := δ) (v.reachesFile hd proper Catalog.schema_mem) entry schema
      have decoded := own.named.schemaOfContent ((v.catalog δ).schemaPath database name.name) chars
      simp only [bind, Except.bind]
      cases missing : Naive.missing? ⟨name.name, t.columns⟩ filter with
      | some column =>
        exact .error h (select_yields_missing columns rfl found file decoded missing)
      | none =>
        have answer := select_yields columns (s := ⟨some database⟩) rfl found file decoded missing
          (v.read_file (δ := δ) (v.reachesFile hd proper Catalog.table_mem) entry data)
          (written.whole name.name own.small)
        rw [written.counted own.small, TableSchema.types, written.rowsAt] at answer
        exact .ok h answer

end Rows

theorem execute_simulates {s : Session} (h : m.Image es) (named : Named s.database)
    (roomy : m.Roomy) {stmt : Sql.Statement} (proper : stmt.WellNamed) :
    Simulates v state m es s (execute (v.catalog δ) stmt) (Memory.execute m s.database stmt) := by
  cases stmt with
  | createDatabase name => exact createDatabase_simulates h (proper.names _ (.head _))
  | createTable name columns => exact createTable_simulates h named proper
  | dropDatabase name => exact dropDatabase_simulates h (proper.names _ (.head _))
  | dropTable name => exact dropTable_simulates h named (proper.names _ (.head _))
  | useDatabase name => exact useDatabase_simulates h (proper.names _ (.head _))
  | showNames target =>
    cases target with
    | databases => exact showDatabases_simulates h
    | tables => exact showTables_simulates h named
  | insert name columns literals =>
    exact insert_simulates h named (proper.names _ (.head _)) roomy columns literals
  | select columns name filter =>
    exact select_simulates h named (proper.names _ (.head _)) columns filter

end RowStore.Engine
