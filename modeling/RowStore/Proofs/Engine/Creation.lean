import RowStore.Proofs.Catalog.Reaching
import RowStore.Proofs.Engine.Insertion

namespace RowStore

variable {δ : Type}

namespace Engine

open Catalog

section Writes

variable {c : Catalog δ} {d : Disk δ} {database table ext : String} {l : Location}
  {es : List (String × Tree)} (reaches : c.Reaches d.files database table l es)
  (mem : ext ∈ extensions) (content : Content) (g : Fault → EngineError)

include reaches mem

theorem write_yields
    (flat : ∀ ds, Entries.get? (fileName table ext) es ≠ some (.directory ds)) :
    ((FileAccess.write (c.filePath database table ext) content).mapError g).Yields d (.ok ())
      (d.putEntries l (Entries.put (fileName table ext) (.file content) es)) :=
  (Action.Yields.write (reaches.write_name (plain_fileName reaches.named mem)
    (reaches.short_file mem) flat content)).mapError g

theorem write_yields_directory {ds : List (String × Tree)}
    (directory : Entries.get? (fileName table ext) es = some (.directory ds)) :
    ((FileAccess.write (c.filePath database table ext) content).mapError g).Yields d
      (.error (g .isDirectory)) d :=
  (Action.Yields.write_error (reaches.write_directory (plain_fileName reaches.named mem)
    (reaches.short_file mem) directory content)).mapError g

end Writes

def withSchema (schema : TableSchema) (es : List (String × Tree)) : List (String × Tree) :=
  Entries.put (fileName schema.name schemaExtension) (.file (SchemaText.content schema)) es

def withTable (table : String) (es : List (String × Tree)) : List (String × Tree) :=
  Entries.put (fileName table tableExtension) (.file TableFile.emptyContent) es

def withIndex (table : String) (es : List (String × Tree)) : List (String × Tree) :=
  Entries.put (fileName table indexExtension) (.file (.ofBytes IndexHeader.initial.content)) es

def withFiles (schema : TableSchema) (es : List (String × Tree)) : List (String × Tree) :=
  withIndex schema.name (withTable schema.name (withSchema schema es))

section Created

variable {schema : TableSchema} (es : List (String × Tree)) (named : Sql.IsName schema.name)

include named

theorem get?_withFiles_schema : Entries.get? (fileName schema.name schemaExtension)
    (withFiles schema es) = some (.file (SchemaText.content schema)) := by
  rw [withFiles, withIndex, get?_put_fileName named index_ne_schema.symm, withTable,
    get?_put_fileName named table_ne_schema.symm, withSchema, Entries.get?_put_self]

theorem get?_withFiles_table : Entries.get? (fileName schema.name tableExtension)
    (withFiles schema es) = some (.file TableFile.emptyContent) := by
  rw [withFiles, withIndex, get?_put_fileName named index_ne_table.symm, withTable,
    Entries.get?_put_self]

omit named in
theorem get?_withFiles_index : Entries.get? (fileName schema.name indexExtension)
    (withFiles schema es) = some (.file (.ofBytes IndexHeader.initial.content)) := by
  rw [withFiles, withIndex, Entries.get?_put_self]

omit named in
theorem get?_withFiles_of_not_mem {name : String}
    (other : name ∉ extensions.map (fileName schema.name)) :
    Entries.get? name (withFiles schema es) = Entries.get? name es := by
  have away {ext : String} (mem : ext ∈ extensions) : name ≠ fileName schema.name ext :=
    fun eq => other (eq ▸ List.mem_map_of_mem mem)
  rw [withFiles, withIndex, Entries.get?_put_of_ne (away index_mem), withTable,
    Entries.get?_put_of_ne (away table_mem), withSchema, Entries.get?_put_of_ne (away schema_mem)]

theorem get?_withFiles_ne_directory {ext : String} (mem : ext ∈ extensions)
    (ds : List (String × Tree)) :
    Entries.get? (fileName schema.name ext) (withFiles schema es) ≠ some (.directory ds) := by
  simp only [extensions, List.mem_cons, List.not_mem_nil, or_false] at mem
  rcases mem with rfl | rfl | rfl
  · rw [get?_withFiles_schema es named]
    rintro ⟨⟩
  · rw [get?_withFiles_table es named]
    rintro ⟨⟩
  · rw [get?_withFiles_index es]
    rintro ⟨⟩

end Created

section Steps

variable {c : Catalog δ} {d : Disk δ} {s : Session} {database table : String} {l : Location}
  {es : List (String × Tree)} (reaches : c.Reaches d.files database table l es)

include reaches

theorem createTableFiles_yields_made
    (flat : ∀ ext ∈ [tableExtension, indexExtension], ∀ ds,
      Entries.get? (fileName table ext) es ≠ some (.directory ds)) :
    (createTableFiles c database table).Yields d (.ok ())
      (d.putEntries l (withIndex table (withTable table es))) := by
  have flat_table := flat _ (.head _)
  have flat_index : ∀ ds, Entries.get? (fileName table indexExtension)
      (withTable table es) ≠ some (.directory ds) := by
    intro ds
    rw [withTable, get?_put_fileName reaches.named index_ne_table]
    exact flat _ (.tail _ (.head _)) ds
  have second := write_yields (d := d.putEntries l _) (reaches.put flat_table _) index_mem
    (.ofBytes IndexHeader.initial.content) (tableFault (c.indexPath database table)) flat_index
  rw [Disk.putEntries_putEntries reaches.toHolds] at second
  exact .bind (write_yields reaches table_mem _ _ flat_table) second

theorem createTableFiles_yields_table {ds : List (String × Tree)}
    (directory : Entries.get? (fileName table tableExtension) es = some (.directory ds)) :
    (createTableFiles c database table).Yields d
      (.error (tableFault (c.tablePath database table) .isDirectory)) d :=
  .bind_error (write_yields_directory reaches table_mem _ _ directory)

theorem createTableFiles_yields_index {ds : List (String × Tree)}
    (flat : ∀ ds, Entries.get? (fileName table tableExtension) es ≠ some (.directory ds))
    (directory : Entries.get? (fileName table indexExtension) es = some (.directory ds)) :
    (createTableFiles c database table).Yields d
      (.error (tableFault (c.indexPath database table) .isDirectory))
      (d.putEntries l (withTable table es)) := by
  have still : Entries.get? (fileName table indexExtension)
      (withTable table es) = some (.directory ds) := by
    rw [withTable, get?_put_fileName reaches.named index_ne_table, directory]
  have second := write_yields_directory (d := d.putEntries l _) (reaches.put flat _) index_mem
    (.ofBytes IndexHeader.initial.content) (tableFault (c.indexPath database table)) still
  exact .bind (write_yields reaches table_mem _ _ flat) second

theorem withdrawSchema_yields (service : c.directory = .onFiles) {content : Content}
    (file : Entries.get? (fileName table schemaExtension) es = some (.file content)) :
    (withdrawSchema c database table).Yields d (.ok ())
      (d.putEntries l (Entries.erase (fileName table schemaExtension) es)) := by
  have found := finds_of_isDirectory service reaches.isDirectory
  have gone := reaches.deleteFile_name (plain_fileName reaches.named schema_mem)
    (reaches.short_file schema_mem) file
  have answer : c.directory.deleteFile (c.schemaPath database table) d
      = (.ok (), d.putEntries l (Entries.erase (fileName table schemaExtension) es)) := by
    rw [service]
    exact Directory.changing_ok gone
  have dropped : (c.dropSchema database table).Yields d (.ok ())
      (d.putEntries l (Entries.erase (fileName table schemaExtension) es)) :=
    .bind found.requireDatabase (.mapError _ (.ask answer))
  exact .bind (.attempt dropped) (.pure ())

end Steps

section Create

variable {c : Catalog δ} {d d' : Disk δ} {s : Session} {database : String} {schema : TableSchema}
  {l : Location} {es : List (String × Tree)}

theorem createSchema_yields (reaches : c.Reaches d.files database schema.name l es)
    (service : c.directory = .onFiles)
    (fresh : Entries.get? (fileName schema.name schemaExtension) es = none) :
    (c.createSchema database schema).Yields d (.ok ())
      (d.putEntries l (withSchema schema es)) :=
  (finds_of_isDirectory service reaches.isDirectory).createSchema
    (reaches.writeNew_name (plain_fileName reaches.named schema_mem)
      (reaches.short_file schema_mem) fresh _)

theorem createTable_yields_refused (current : s.database = some database) {e : CatalogError}
    (refused : (c.createSchema database schema).Yields d (.error e) d) :
    (createTable c s schema).Yields d (.error (.ofCatalog e)) d :=
  .bind (currentDatabase_yields current) (.bind_error (refused.mapError EngineError.ofCatalog))

theorem createTable_yields_far (service : c.directory = .onFiles)
    (current : s.database = some database)
    (holds : d.files.Holds (c.databasePath database) l es) (named : Sql.IsName schema.name)
    (long : Files.pathLimit ≤ (c.schemaPath database schema.name).text.utf8ByteSize) :
    (createTable c s schema).Yields d
      (.error (.catalog (.io (c.schemaPath database schema.name) .nameTooLong))) d := by
  have plain := plain_fileName named schema_mem
  have far : d.files.locate (c.schemaPath database schema.name) = .error .nameTooLong :=
    Files.locate_long (Path.nul_not_mem_join plain (Files.follow_eq_ok.1 holds.located).1) long
  exact createTable_yields_refused current
    ((finds_of_isDirectory service holds.isDirectory).createSchema_error
      (Files.writeNew_refused far (Path.namesDirectory_join plain _) _))

theorem createTable_yields_done (current : s.database = some database)
    (declared : (c.createSchema database schema).Yields d (.ok ()) d')
    {d'' : Disk δ} (made : (createTableFiles c database schema.name).Yields d' (.ok ()) d'') :
    (createTable c s schema).Yields d (.ok (.tableCreated schema.name)) d'' :=
  .bind (currentDatabase_yields current) (.bind (declared.mapError EngineError.ofCatalog)
    (.bind made.attempt (.bind (.notify _ _) (.pure _))))

theorem createTable_yields_withdrawn (current : s.database = some database)
    (declared : (c.createSchema database schema).Yields d (.ok ()) d') {e : EngineError}
    {d'' left : Disk δ}
    (failed : (createTableFiles c database schema.name).Yields d' (.error e) d'')
    (withdrawn : (withdrawSchema c database schema.name).Yields d'' (.ok ()) left) :
    (createTable c s schema).Yields d (.error e) left :=
  .bind (currentDatabase_yields current) (.bind (declared.mapError EngineError.ofCatalog)
    (.bind failed.attempt (.bind withdrawn (.fail e))))

theorem flat_of_fresh {name : String} (fresh : Entries.get? name es = none)
    (ds : List (String × Tree)) : Entries.get? name es ≠ some (.directory ds) := by
  rw [fresh]
  nofun

variable (reaches : c.Reaches d.files database schema.name l es) (service : c.directory = .onFiles)
  (current : s.database = some database)
  (fresh : Entries.get? (fileName schema.name schemaExtension) es = none)

include reaches service current fresh

theorem createTable_yields
    (flat : ∀ ext ∈ [tableExtension, indexExtension], ∀ ds,
      Entries.get? (fileName schema.name ext) es ≠ some (.directory ds)) :
    (createTable c s schema).Yields d (.ok (.tableCreated schema.name))
      (d.putEntries l (withFiles schema es)) := by
  have flat' : ∀ ext ∈ [tableExtension, indexExtension], ∀ ds,
      Entries.get? (fileName schema.name ext) (withSchema schema es) ≠ some (.directory ds) := by
    intro ext mem ds
    have other : ext ≠ schemaExtension := by
      rcases List.mem_pair.1 mem with rfl | rfl
      · exact table_ne_schema
      · exact index_ne_schema
    rw [withSchema, get?_put_fileName reaches.named other]
    exact flat ext mem ds
  have made := createTableFiles_yields_made (d := d.putEntries l _)
    (reaches.put (flat_of_fresh fresh) (SchemaText.content schema)) flat'
  rw [Disk.putEntries_putEntries reaches.toHolds] at made
  exact createTable_yields_done current (createSchema_yields reaches service fresh) made

theorem createTable_yields_table {ds : List (String × Tree)}
    (directory : Entries.get? (fileName schema.name tableExtension) es = some (.directory ds)) :
    (createTable c s schema).Yields d
      (.error (tableFault (c.tablePath database schema.name) .isDirectory)) d := by
  have declared := createSchema_yields (d := d) reaches service fresh
  have reaches' : c.Reaches (d.putEntries l (withSchema schema es)).files database schema.name l
      (withSchema schema es) := reaches.put (flat_of_fresh fresh) _
  have directory' : Entries.get? (fileName schema.name tableExtension) (withSchema schema es)
      = some (.directory ds) := by
    rw [withSchema, get?_put_fileName reaches.named table_ne_schema, directory]
  have failed := createTableFiles_yields_table reaches' directory'
  have withdrawn := withdrawSchema_yields reaches' service (Entries.get?_put_self _ _ _)
  rw [Disk.putEntries_putEntries reaches.toHolds, withSchema, Entries.erase_put,
    Entries.erase_of_get? fresh, Disk.putEntries_self reaches.toHolds] at withdrawn
  exact createTable_yields_withdrawn current declared failed withdrawn

theorem createTable_yields_index {ds : List (String × Tree)}
    (flat : ∀ ds, Entries.get? (fileName schema.name tableExtension) es ≠ some (.directory ds))
    (directory : Entries.get? (fileName schema.name indexExtension) es = some (.directory ds)) :
    (createTable c s schema).Yields d
      (.error (tableFault (c.indexPath database schema.name) .isDirectory))
      (d.putEntries l (withTable schema.name es)) := by
  have declared := createSchema_yields (d := d) reaches service fresh
  have reaches' : c.Reaches (d.putEntries l (withSchema schema es)).files database schema.name l
      (withSchema schema es) := reaches.put (flat_of_fresh fresh) _
  have flat' : ∀ ds, Entries.get? (fileName schema.name tableExtension) (withSchema schema es)
      ≠ some (.directory ds) := by
    rw [withSchema, get?_put_fileName reaches.named table_ne_schema]
    exact flat
  have directory' : Entries.get? (fileName schema.name indexExtension) (withSchema schema es)
      = some (.directory ds) := by
    rw [withSchema, get?_put_fileName reaches.named index_ne_schema, directory]
  have failed := createTableFiles_yields_index reaches' flat' directory'
  have reaches'' := reaches'.put flat' TableFile.emptyContent
  have file : Entries.get? (fileName schema.name schemaExtension)
      (withTable schema.name (withSchema schema es)) = some (.file (SchemaText.content schema)) := by
    rw [withTable, get?_put_fileName reaches.named table_ne_schema.symm, withSchema,
      Entries.get?_put_self]
  have withdrawn := withdrawSchema_yields
    (d := (d.putEntries l _).putEntries l (withTable schema.name (withSchema schema es)))
    reaches'' service file
  have other : fileName schema.name schemaExtension ≠ fileName schema.name tableExtension :=
    fun eq => table_ne_schema ((fileName_inj reaches.named reaches.named).1 eq).2.symm
  rw [withTable, Entries.erase_put_of_ne other, withSchema, Entries.erase_put,
    Entries.erase_of_get? fresh] at withdrawn
  simp only [Disk.putEntries_putEntries reaches.toHolds] at failed withdrawn
  exact createTable_yields_withdrawn current declared failed withdrawn

end Create

end Engine

end RowStore
