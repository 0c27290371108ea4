import RowStore.Catalog
import RowStore.Proofs.Catalog.SchemaText
import RowStore.Proofs.Disk.Yields

namespace RowStore.Catalog

variable {δ : Type} {c : Catalog δ} {d d' : Disk δ} {database table : String} {schema : TableSchema}

def Finds (c : Catalog δ) (d : Disk δ) (database : String) : Prop :=
  c.directory.directoryExists (c.databasePath database) d = (true, d)

def Misses (c : Catalog δ) (d : Disk δ) (database : String) : Prop :=
  c.directory.directoryExists (c.databasePath database) d = (false, d)

theorem finds_of_isDirectory (service : c.directory = .onFiles)
    (h : d.files.isDirectory (c.databasePath database) = true) : c.Finds d database := by
  rw [Finds, service]
  exact Prod.ext h rfl

theorem misses_of_isDirectory (service : c.directory = .onFiles)
    (h : d.files.isDirectory (c.databasePath database) = false) : c.Misses d database := by
  rw [Misses, service]
  exact Prod.ext h rfl

theorem Finds.requireDatabase (h : c.Finds d database) :
    (c.requireDatabase database).Yields d (.ok ()) d :=
  (Action.Yields.askFlag h).bind (.pure ())

theorem Misses.requireDatabase (h : c.Misses d database) :
    (c.requireDatabase database).Yields d (.error (.noSuchDatabase database)) d :=
  (Action.Yields.askFlag h).bind (.fail _)

theorem Finds.readSchema (h : c.Finds d database) {content : Content}
    {r : Except CatalogError TableSchema}
    (file : d.files.read (c.schemaPath database table) = .ok content)
    (schema : schemaOfContent (c.schemaPath database table) content = r) :
    (c.readSchema database table).Yields d r d := by
  have text : ((FileAccess.read (c.schemaPath database table)).mapError
      (missingFault (c.schemaPath database table) table)).Yields d (.ok content) d := by
    have read := (Action.Yields.read (d := d) (c.schemaPath database table)).mapError
      (missingFault (c.schemaPath database table) table)
    rw [file] at read
    exact read
  refine h.requireDatabase.bind (text.bind ?_)
  rw [← schema]
  exact .ofExcept _

theorem Finds.readSchema_error (h : c.Finds d database) {e : Fault}
    (file : d.files.read (c.schemaPath database table) = .error e) :
    (c.readSchema database table).Yields d
      (.error (missingFault (c.schemaPath database table) table e)) d := by
  have read := (Action.Yields.read (d := d) (c.schemaPath database table)).mapError
    (missingFault (c.schemaPath database table) table)
  rw [file] at read
  exact h.requireDatabase.bind (.bind_error read)

/-- The schema that a database's schema file writes. -/
structure Declares (c : Catalog δ) (f : Files) (database table : String) (schema : TableSchema) :
    Prop where
  directory : f.isDirectory (c.databasePath database) = true
  file : ∃ content, f.read (c.schemaPath database table) = .ok content ∧
    schemaOfContent (c.schemaPath database table) content = .ok schema

theorem Declares.unique {f : Files} {other : TableSchema} (h : c.Declares f database table schema)
    (h' : c.Declares f database table other) : schema = other := by
  obtain ⟨-, content, read, decoded⟩ := h
  obtain ⟨-, content', read', decoded'⟩ := h'
  rw [read] at read'
  cases read'
  rw [decoded] at decoded'
  exact Except.ok.inj decoded'

theorem exists_readSchema_yields (service : c.directory = .onFiles) (d : Disk δ)
    (database table : String) : ∃ r, (c.readSchema database table).Yields d r d ∧
      ∀ schema, r = .ok schema ↔ c.Declares d.files database table schema := by
  cases there : d.files.isDirectory (c.databasePath database) with
  | false =>
    have missed := misses_of_isDirectory service there
    refine ⟨_, missed.requireDatabase.bind_error, fun schema => ⟨nofun, fun h => ?_⟩⟩
    rw [h.directory] at there
    cases there
  | true =>
    have found := finds_of_isDirectory service there
    cases read : d.files.read (c.schemaPath database table) with
    | error e =>
      refine ⟨_, found.readSchema_error read, fun schema => ⟨nofun, fun h => ?_⟩⟩
      obtain ⟨content, file, -⟩ := h.file
      rw [read] at file
      cases file
    | ok content =>
      refine ⟨_, found.readSchema read rfl, fun schema => ⟨fun h => ⟨there, content, read, h⟩, ?_⟩⟩
      rintro ⟨-, other, file, decoded⟩
      rw [read] at file
      cases file
      exact decoded

theorem Finds.createSchema (h : c.Finds d database) {files : Files}
    (new : d.files.writeNew (SchemaText.content schema) (c.schemaPath database schema.name)
      = .ok files) :
    (c.createSchema database schema).Yields d (.ok ()) { d with files := files } :=
  h.requireDatabase.bind ((Action.Yields.writeNew new).mapError (createFault _ schema.name))

theorem Finds.createSchema_error (h : c.Finds d database) {e : Fault}
    (refused : d.files.writeNew (SchemaText.content schema) (c.schemaPath database schema.name)
      = .error e) :
    (c.createSchema database schema).Yields d
      (.error (createFault (c.schemaPath database schema.name) schema.name e)) d :=
  h.requireDatabase.bind
    ((Action.Yields.writeNew_error refused).mapError (createFault _ schema.name))

theorem Misses.readSchema (h : c.Misses d database) (table : String) :
    (c.readSchema database table).Yields d (.error (.noSuchDatabase database)) d :=
  h.requireDatabase.bind_error

theorem Misses.dropDatabase (h : c.Misses d database) :
    (c.dropDatabase database).Yields d (.error (.noSuchDatabase database)) d :=
  h.requireDatabase.bind_error

theorem Misses.createDatabase (h : c.Misses d database) (service : c.directory = .onFiles)
    {e : Fault} (refused : d.files.makeDirectory (c.databasePath database) = .error e) :
    (c.createDatabase database).Yields d (.error (.io (c.databasePath database) e)) d := by
  have answer : c.directory.createDirectory (c.databasePath database) d = (.error e, d) := by
    rw [service]
    exact Directory.changing_error refused
  exact .bind (.askFlag h) (.bind_error (.mapError _ (.ask answer)))

theorem Misses.tables (h : c.Misses d database) :
    (c.tables database).Yields d (.error (.noSuchDatabase database)) d :=
  h.requireDatabase.bind_error

theorem Misses.createSchema (h : c.Misses d database) (schema : TableSchema) :
    (c.createSchema database schema).Yields d (.error (.noSuchDatabase database)) d :=
  h.requireDatabase.bind_error

theorem Misses.dropTable (h : c.Misses d database) (table : String) :
    (c.dropTable database table).Yields d (.error (.noSuchDatabase database)) d :=
  .bind_error h.requireDatabase.bind_error

end RowStore.Catalog
