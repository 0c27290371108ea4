import RowStore.Engine
import RowStore.Proofs.Catalog.FileNames
import RowStore.Proofs.Catalog.Lookup
import RowStore.Proofs.Disk.Writing

namespace RowStore

namespace Catalog

variable {δ : Type} {c : Catalog δ} {database : String} {schema : TableSchema} {w : World δ}

theorem exists_writeNew_of_createSchema (service : c.directory = .onFiles)
    (created : (c.createSchema database schema w).1 = .ok ()) :
    w.files.isDirectory (c.databasePath database) = true ∧
      ∃ files, w.files.writeNew (SchemaText.content schema) (c.schemaPath database schema.name)
          = .ok files ∧
        (c.createSchema database schema w).2.disk = { w.disk with files := files } := by
  cases there : w.files.isDirectory (c.databasePath database) with
  | false =>
    have missed := (misses_of_isDirectory (d := w.disk) service there).createSchema schema
    rw [(missed w rfl).1] at created
    cases created
  | true =>
    have found := finds_of_isDirectory (d := w.disk) service there
    cases new : w.files.writeNew (SchemaText.content schema) (c.schemaPath database schema.name) with
    | error e =>
      rw [(found.createSchema_error new w rfl).1] at created
      cases created
    | ok files => exact ⟨rfl, files, rfl, (found.createSchema new w rfl).2⟩

theorem readSchema_of_createSchema (service : c.directory = .onFiles)
    (named : Sql.IsName schema.name) (columns : ∀ column ∈ schema.columns, Sql.IsName column.name)
    (created : (c.createSchema database schema w).1 = .ok ()) :
    (c.readSchema database schema.name (c.createSchema database schema w).2).1 = .ok schema := by
  obtain ⟨there, files, new, disk⟩ := exists_writeNew_of_createSchema service created
  obtain ⟨still, read⟩ := Files.read_of_writeNew (plain_fileName named schema_mem) there new
  have found := finds_of_isDirectory (d := { w.disk with files := files }) service still
  have decoded : schemaOfContent (c.schemaPath database schema.name) (SchemaText.content schema)
      = .ok schema :=
    SchemaText.schemaOfContent_encode _ (.of_isName named)
      (fun column mem => .of_isName (columns column mem)) (Content.bytes_ofBytes _)
  exact (found.readSchema read decoded _ disk).1

end Catalog

/-- A schema is read back from its text exactly when no name breaks its line. A table that a text
declares is one of those: once it is created, its schema is read as it was declared. -/
theorem decode_encode_iff_and_readSchema :
    (∀ s : TableSchema, SchemaText.decode (SchemaText.encode s) = .ok s ↔
      ('\n' ∉ s.name.toList ∧ s.name.toList.getLast? ≠ some '\r') ∧
        ∀ c ∈ s.columns, ',' ∉ c.name.toList ∧ '\n' ∉ c.name.toList) ∧
    ∀ {δ : Type} (root : Path) (database text : String) (name : Sql.Identifier)
      (columns : List Sql.ColumnDefinition) (w : World δ),
      .ok (.createTable name columns) ∈ Sql.parse text →
      let c : Catalog δ := ⟨root, .onFiles⟩
      let schema := Engine.schemaOf name columns
      (c.createSchema database schema w).1 = .ok () →
      (c.readSchema database name.name (c.createSchema database schema w).2).1 = .ok schema := by
  refine ⟨fun s => SchemaText.decode_encode_iff, ?_⟩
  intro δ root database text name columns w parsed c schema created
  have names := (Sql.wellNamed_of_mem_parse parsed).names
  have named : ∀ column ∈ schema.columns, Sql.IsName column.name := by
    intro column mem
    obtain ⟨d, there, rfl⟩ := List.mem_map.1 mem
    exact names _ (.tail _ (List.mem_map.2 ⟨d, there, rfl⟩))
  have table : Sql.IsName schema.name := names _ (.head _)
  have back := Catalog.readSchema_of_createSchema rfl table named created
  exact back

def emptyDatabase : World Unit :=
  World.ofFiles ⟨.directory [("r", .directory [("d", .directory [])])], []⟩ ()

def rootCatalog : Catalog Unit := ⟨⟨"/r"⟩, .onFiles⟩

def twinSchema : TableSchema := ⟨"t", [⟨"a", .int⟩, ⟨"a", .varchar⟩]⟩

theorem decode_encode_iff_and_readSchema_twins :
    SchemaText.decode (SchemaText.encode twinSchema) = .ok twinSchema ∧
      (rootCatalog.readSchema "d" "t" (rootCatalog.createSchema "d" twinSchema emptyDatabase).2).1
        = .ok twinSchema := by
  have parsed : Except.ok (Sql.Statement.createTable ⟨"t", ⟨13, 13⟩⟩
      [⟨⟨"a", ⟨16, 16⟩⟩, .int⟩, ⟨⟨"a", ⟨23, 23⟩⟩, .varchar⟩])
      ∈ Sql.parse "CREATE TABLE t (a int, a varchar);" := by decide +kernel
  have created : (rootCatalog.createSchema "d" twinSchema emptyDatabase).1 = .ok () := rfl
  have names : ∀ column ∈ twinSchema.columns,
      ',' ∉ column.name.toList ∧ '\n' ∉ column.name.toList := by decide
  have back := decode_encode_iff_and_readSchema.2 ⟨"/r"⟩ "d" _ _ _ emptyDatabase parsed created
  exact ⟨(decode_encode_iff_and_readSchema.1 twinSchema).2 ⟨by decide, names⟩, back⟩

end RowStore
