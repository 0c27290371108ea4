import RowStore.Disk.Edit
import RowStore.Proofs.Catalog.Declaring
import RowStore.Proofs.Engine.Creation

namespace RowStore

variable {δ : Type}

namespace Engine

open Catalog

/-- A new table in a database: its files, and a query that finds no row. -/
structure Created (c : Catalog δ) (s : Session) (database : String) (schema : TableSchema)
    (l : Location) (f : Files) (w' : World δ) : Prop where
  declared : (c.readSchema database schema.name w').1 = .ok schema
  table : (w'.tree.contentAt? (l ++ [fileName schema.name tableExtension])).map Content.bytes
    = some [0, 0, 0, 0]
  index : (w'.tree.contentAt? (l ++ [fileName schema.name indexExtension])).map Content.bytes
    = some [3, 0, 0, 0, 0, 0, 0, 0]
  rows : ∀ x : Sql.Identifier, x.name = schema.name →
    (runParsed c s w' (.ok (.select .all x none))).1 = .ok (.selected ⟨schema.columnNames, []⟩)
  others : f.Same w'.files (extensions.map fun ext => l ++ [fileName schema.name ext])

/-- No table: nothing is left of its schema, and only its table file may be another. -/
structure Withdrawn (c : Catalog δ) (database table : String) (l : Location) (f : Files)
    (w' : World δ) : Prop where
  undeclared : w'.tree.at? (l ++ [fileName table schemaExtension]) = none
  unlisted : ∃ names, (c.tables database w').1 = .ok names ∧ table ∉ names
  others : f.Same w'.files [l ++ [fileName table tableExtension]]

theorem contentAt?_of_at? {t : Tree} {l : Location} {content : Content}
    (file : t.at? l = some (.file content)) : t.contentAt? l = some content := by
  rw [Tree.contentAt?, file]

theorem bytes_emptyContent : TableFile.emptyContent.bytes = [0, 0, 0, 0] := by decide

theorem counted_emptyContent : TableFile.counted TableFile.emptyContent = 0 := by decide

theorem whole_emptyContent (schema : TableSchema) :
    TableFile.Whole schema TableFile.emptyContent := by
  rw [TableFile.Whole, counted_emptyContent, bytes_emptyContent, Nat.zero_mul]
  decide

theorem select_empty_yields {c : Catalog δ} {d : Disk δ} {s : Session} {database table : String}
    {schema : TableSchema} {text : Content} (current : s.database = some database)
    (found : c.Finds d database) (file : d.files.read (c.schemaPath database table) = .ok text)
    (decoded : schemaOfContent (c.schemaPath database table) text = .ok schema)
    (data : d.files.read (c.tablePath database schema.name) = .ok TableFile.emptyContent) :
    (select c s .all table none).Yields d (.ok (.selected ⟨schema.columnNames, []⟩)) d := by
  have known : Naive.missing? schema none = none := rfl
  have answer := select_yields .all current found file decoded known data
    (whole_emptyContent schema)
  have all : schema.columns.filter (Naive.requested .all) = schema.columns :=
    List.filter_eq_self.2 fun _ _ => rfl
  rw [counted_emptyContent, TableFile.rowsAt, Naive.select, all] at answer
  exact answer

section Created

variable {c : Catalog δ} {s : Session} {w w' : World δ} {database : String} {schema : TableSchema}
  {l : Location} {es : List (String × Tree)}
  (reaches : c.Reaches w.files database schema.name l es) (service : c.directory = .onFiles)
  (current : s.database = some database)
  (flat : ∀ ext ∈ extensions, ∀ ds,
    Entries.get? (fileName schema.name ext) es ≠ some (.directory ds))

include reaches flat

theorem reaches_withFiles : c.Reaches (w.disk.putEntries l (withFiles schema es)).files database
    schema.name l (withFiles schema es) := by
  refine reaches.replaced fun name ds entry => ?_
  have other : name ∉ extensions.map (fileName schema.name) := by
    intro mem
    obtain ⟨ext, known, rfl⟩ := List.mem_map.1 mem
    exact flat ext known ds entry
  rw [get?_withFiles_of_not_mem es other, entry]

theorem same_withFiles : w.files.Same (w.disk.putEntries l (withFiles schema es)).files
    (extensions.map fun ext => l ++ [fileName schema.name ext]) := by
  have same := reaches.toHolds.same (extensions.map (fileName schema.name))
    (fun name => get?_withFiles_of_not_mem es) fun name mem ds => by
      obtain ⟨ext, known, rfl⟩ := List.mem_map.1 mem
      exact ⟨flat ext known ds, get?_withFiles_ne_directory es reaches.named known ds⟩
  rw [List.map_map] at same
  exact same

include service current

theorem created_of_disk (columns : ∀ column ∈ schema.columns, Sql.IsName column.name)
    (disk : w'.disk = w.disk.putEntries l (withFiles schema es)) :
    Created c s database schema l w.files w' := by
  have after := reaches_withFiles reaches flat
  have found := finds_of_isDirectory (d := w.disk.putEntries l (withFiles schema es)) service
    after.isDirectory
  have read := after.read_name (plain_fileName after.named schema_mem)
    (after.short_file schema_mem) (get?_withFiles_schema es after.named)
  have decoded : schemaOfContent (c.schemaPath database schema.name) (SchemaText.content schema)
      = .ok schema :=
    SchemaText.schemaOfContent_encode _ (.of_isName after.named)
      (fun column mem => .of_isName (columns column mem)) (Content.bytes_ofBytes _)
  have data := after.read_name (plain_fileName after.named table_mem)
    (after.short_file table_mem) (get?_withFiles_table es after.named)
  have place (ext : String) : w'.tree.at? (l ++ [fileName schema.name ext])
      = Entries.get? (fileName schema.name ext) (withFiles schema es) := by
    rw [World.tree, World.files, disk]
    exact after.at?_name _
  refine ⟨(found.readSchema read decoded w' disk).1, ?_, ?_, ?_, ?_⟩
  · rw [contentAt?_of_at? ((place _).trans (get?_withFiles_table es after.named)), Option.map_some,
      bytes_emptyContent]
  · rw [contentAt?_of_at? ((place _).trans (get?_withFiles_index es)), Option.map_some,
      Content.bytes_ofBytes, IndexHeader.content_initial]
  · rintro ⟨name, span⟩ rfl
    have answer := select_empty_yields current found read decoded data
    rw [← disk] at answer
    obtain ⟨_, -, run⟩ := runParsed_of_keeping (.select .all ⟨schema.name, span⟩ none) rfl answer
    rw [run]
  · have same := same_withFiles reaches flat
    rw [show w'.files = (w.disk.putEntries l (withFiles schema es)).files from congrArg _ disk]
    exact same

end Created

section Withdrawn

variable {c : Catalog δ} {s : Session} {w w' : World δ} {database table : String} {l : Location}
  {es : List (String × Tree)}

theorem withdrawn_of_holds (service : c.directory = .onFiles)
    (holds : w'.files.Holds (c.databasePath database) l es)
    (undeclared : Entries.get? (fileName table schemaExtension) es = none)
    (same : w.files.Same w'.files [l ++ [fileName table tableExtension]]) :
    Withdrawn c database table l w.files w' where
  undeclared := (holds.at?_name _).trans undeclared
  unlisted := by
    obtain ⟨stems, answer, yields⟩ := tables_yields (d := w'.disk) service holds
    have list := Files.list_directory holds.located holds.stands
    exact ⟨_, (yields w' rfl).1, not_mem_fileStems list undeclared answer⟩
  others := same

theorem withdrawn_of_withTable (reaches : c.Reaches w.files database table l es)
    (service : c.directory = .onFiles)
    (fresh : Entries.get? (fileName table schemaExtension) es = none)
    (flat : ∀ ds, Entries.get? (fileName table tableExtension) es ≠ some (.directory ds))
    (disk : w'.disk = w.disk.putEntries l (withTable table es)) :
    Withdrawn c database table l w.files w' := by
  have files : w'.files = w.files.putAt l (.directory (withTable table es)) :=
    congrArg Disk.files disk
  have holds := (reaches.put flat TableFile.emptyContent).toHolds
  have undeclared : Entries.get? (fileName table schemaExtension) (withTable table es) = none :=
    (get?_put_fileName reaches.named table_ne_schema.symm _ es).trans fresh
  have same : w.files.Same (w.files.putAt l (.directory (withTable table es)))
      [l ++ [fileName table tableExtension]] := by
    refine reaches.toHolds.same [fileName table tableExtension] ?_ ?_
    · intro name other
      exact Entries.get?_put_of_ne (fun eq => other (List.mem_singleton.2 eq)) _ es
    · intro name mem ds
      obtain rfl := List.mem_singleton.1 mem
      refine ⟨flat ds, ?_⟩
      rw [withTable, Entries.get?_put_self]
      rintro ⟨⟩
  exact withdrawn_of_holds service (files ▸ holds) undeclared (files ▸ same)

end Withdrawn

section Statements

variable {c : Catalog δ} {s : Session} {w : World δ} {database : String}

theorem isName_of_parse {text : String} {name : Sql.Identifier}
    {columns : List Sql.ColumnDefinition}
    (parsed : .ok (.createTable name columns) ∈ Sql.parse text) :
    Sql.IsName name.name ∧ ∀ column ∈ (schemaOf name columns).columns, Sql.IsName column.name := by
  have names := (Sql.wellNamed_of_mem_parse parsed).names
  refine ⟨names _ (.head _), fun column mem => ?_⟩
  obtain ⟨d, there, rfl⟩ := List.mem_map.1 mem
  exact names _ (.tail _ (List.mem_map.2 ⟨d, there, rfl⟩))

theorem runParsed_createTable_fresh {name : Sql.Identifier} {columns : List Sql.ColumnDefinition}
    {l : Location} {es : List (String × Tree)}
    (reaches : c.Reaches w.files database name.name l es) (service : c.directory = .onFiles)
    (current : s.database = some database)
    (fresh : Entries.get? (fileName name.name schemaExtension) es = none)
    (named : ∀ column ∈ (schemaOf name columns).columns, Sql.IsName column.name) :
    ∃ result w', runParsed c s w (.ok (.createTable name columns)) = (result, s, w') ∧
      ((∃ outcome, result = .ok outcome) ↔ ∀ ext ∈ [tableExtension, indexExtension], ∀ ds,
        Entries.get? (fileName name.name ext) es ≠ some (.directory ds)) ∧
      (∀ outcome, result = .ok outcome → outcome = .tableCreated name.name ∧
        Created c s database (schemaOf name columns) l w.files w') ∧
      ∀ e, result = .error e → Withdrawn c database name.name l w.files w' := by
  have reaches' : c.Reaches w.files database (schemaOf name columns).name l es := reaches
  by_cases flat : ∀ ext ∈ [tableExtension, indexExtension], ∀ ds,
      Entries.get? (fileName name.name ext) es ≠ some (.directory ds)
  · have flat' : ∀ ext ∈ extensions, ∀ ds,
        Entries.get? (fileName name.name ext) es ≠ some (.directory ds) :=
      List.forall_mem_cons.2 ⟨flat_of_fresh fresh, flat⟩
    obtain ⟨w', disk, run⟩ := runParsed_of_keeping (.createTable name columns) rfl
      (createTable_yields reaches' service current fresh flat)
    refine ⟨_, w', run, iff_of_true ⟨_, rfl⟩ flat, ?_, nofun⟩
    rintro outcome ⟨⟩
    exact ⟨rfl, created_of_disk reaches' service current flat' named disk⟩
  · have refused : ∃ e w', runParsed c s w (.ok (.createTable name columns)) = (.error e, s, w') ∧
        Withdrawn c database name.name l w.files w' := by
      -- A directory in the place of the table file is met before one in that of the index file.
      by_cases first : ∀ ds,
          Entries.get? (fileName name.name tableExtension) es ≠ some (.directory ds)
      · have second : ¬∀ ds,
            Entries.get? (fileName name.name indexExtension) es ≠ some (.directory ds) :=
          fun second => flat
            (List.forall_mem_cons.2 ⟨first, List.forall_mem_cons.2 ⟨second, nofun⟩⟩)
        obtain ⟨ds, directory⟩ := not_forall_not.1 second
        obtain ⟨w', disk, run⟩ := runParsed_of_keeping (.createTable name columns) rfl
          (createTable_yields_index reaches' service current fresh first directory)
        exact ⟨_, w', run, withdrawn_of_withTable reaches service fresh first disk⟩
      · obtain ⟨ds, directory⟩ := not_forall_not.1 first
        obtain ⟨w', disk, run⟩ := runParsed_of_keeping (.createTable name columns) rfl
          (createTable_yields_table reaches' service current fresh directory)
        have files : w'.files = w.files := congrArg Disk.files disk
        exact ⟨_, w', run, withdrawn_of_holds service (files ▸ reaches.toHolds) fresh
          ⟨congrArg Files.here files, fun _ _ => by rw [files]⟩⟩
    obtain ⟨e, w', run, withdrawn⟩ := refused
    refine ⟨_, w', run, iff_of_false nofun flat, nofun, fun _ _ => withdrawn⟩

/-- A table is created over any leftovers, or nothing is left of it. When there is an entry for its
schema, or the path to it is longer than any that leads somewhere, nothing changes. Otherwise it is
created exactly when no directory stands in the place of its table file or its index file. -/
theorem runParsed_createTable (service : c.directory = .onFiles)
    (current : s.database = some database)
    (there : w.files.isDirectory (c.databasePath database) = true) {text : String}
    {name : Sql.Identifier} {columns : List Sql.ColumnDefinition}
    (parsed : .ok (.createTable name columns) ∈ Sql.parse text) :
    ∃ l result w', w.files.locate (c.databasePath database) = .ok l ∧
      runParsed c s w (.ok (.createTable name columns)) = (result, s, w') ∧
      (Files.pathLimit ≤ (c.schemaPath database name.name).text.utf8ByteSize →
        result = .error (.catalog (.io (c.schemaPath database name.name) .nameTooLong)) ∧
          w'.disk = w.disk) ∧
      ((c.schemaPath database name.name).text.utf8ByteSize < Files.pathLimit →
        (w.tree.at? (l ++ [fileName name.name schemaExtension]) ≠ none →
          result = .error (.catalog (.tableExists name.name)) ∧ w'.disk = w.disk) ∧
        (w.tree.at? (l ++ [fileName name.name schemaExtension]) = none →
          ((∃ outcome, result = .ok outcome) ↔ ∀ ext ∈ [tableExtension, indexExtension], ∀ ds,
            w.tree.at? (l ++ [fileName name.name ext]) ≠ some (.directory ds)) ∧
          (∀ outcome, result = .ok outcome → outcome = .tableCreated name.name ∧
            Created c s database (schemaOf name columns) l w.files w') ∧
          ∀ e, result = .error e → Withdrawn c database name.name l w.files w')) := by
  obtain ⟨named, columnsNamed⟩ := isName_of_parse parsed
  obtain ⟨l, es, holds⟩ := Files.Holds.of_isDirectory there
  have found := finds_of_isDirectory (d := w.disk) service there
  rcases Nat.lt_or_ge (c.schemaPath database name.name).text.utf8ByteSize Files.pathLimit
    with short | long
  · have reaches : c.Reaches w.files database (schemaOf name columns).name l es :=
      ⟨holds, named, short⟩
    have place (ext : String) : w.tree.at? (l ++ [fileName name.name ext])
        = Entries.get? (fileName name.name ext) es := holds.at?_name _
    cases entry : Entries.get? (fileName name.name schemaExtension) es with
    | some t =>
      have refused := (found.createSchema_error (reaches.writeNew_exists
        (plain_fileName named schema_mem) short entry (SchemaText.content (schemaOf name columns))))
      obtain ⟨w', disk, run⟩ := runParsed_of_keeping (.createTable name columns) rfl
        (createTable_yields_refused current refused)
      refine ⟨l, _, w', holds.located, run, fun long => absurd short (Nat.not_lt.2 long),
        fun _ => ⟨fun _ => ⟨rfl, disk⟩, fun missing => ?_⟩⟩
      exact nomatch missing.symm.trans ((place schemaExtension).trans entry)
    | none =>
      obtain ⟨result, w', run, created, new, withdrawn⟩ :=
        runParsed_createTable_fresh reaches service current entry columnsNamed
      refine ⟨l, result, w', holds.located, run, fun long => absurd short (Nat.not_lt.2 long),
        fun _ => ⟨absurd ((place schemaExtension).trans entry), fun _ => ?_⟩⟩
      simp only [place]
      exact ⟨created, new, withdrawn⟩
  · have answer : (createTable c s (schemaOf name columns)).Yields w.disk _ _ :=
      createTable_yields_far service current holds named long
    obtain ⟨w', disk, run⟩ := runParsed_of_keeping (.createTable name columns) rfl answer
    exact ⟨l, _, w', holds.located, run, fun _ => ⟨rfl, disk⟩,
      fun short => absurd short (Nat.not_lt.2 long)⟩

section Leftovers

def leftSchema : TableSchema := ⟨"t", [⟨"a", .int⟩]⟩

def leftovers : World Unit :=
  World.ofFiles ⟨.directory [("r", .directory [("d", .directory
    [("t.table", .file (.ofBytes [1, 0, 0, 0, 7, 0, 0, 0])),
      ("t.idx", .file (.ofBytes [3, 0, 0, 0]))])])], []⟩ ()

theorem runParsed_createTable_leftovers : ∃ w',
    runParsed rootCatalog ⟨some "d"⟩ leftovers
      (.ok (.createTable ⟨"t", ⟨13, 13⟩⟩ [⟨⟨"a", ⟨16, 16⟩⟩, .int⟩]))
        = (.ok (.tableCreated "t"), ⟨some "d"⟩, w') ∧
      Created rootCatalog ⟨some "d"⟩ "d" leftSchema ["r", "d"] leftovers.files w' := by
  have parsed : Except.ok (Sql.Statement.createTable ⟨"t", ⟨13, 13⟩⟩ [⟨⟨"a", ⟨16, 16⟩⟩, .int⟩])
      ∈ Sql.parse "CREATE TABLE t (a int);" := by decide +kernel
  obtain ⟨l, result, w', located, run, -, near⟩ := runParsed_createTable
    (c := rootCatalog) (s := ⟨some "d"⟩) (w := leftovers) rfl rfl rfl parsed
  cases located
  obtain ⟨possible, created, -⟩ := (near (by decide)).2 rfl
  have flat : ∀ ext ∈ [tableExtension, indexExtension], ∀ ds,
      leftovers.tree.at? (["r", "d"] ++ [fileName "t" ext]) ≠ some (.directory ds) := by
    intro ext mem ds
    rcases List.mem_pair.1 mem with rfl | rfl <;> nofun
  obtain ⟨outcome, rfl⟩ := possible.2 flat
  obtain ⟨rfl, new⟩ := created outcome rfl
  exact ⟨w', run, new⟩

end Leftovers

section Far

def slashes (n : Nat) : Path := ⟨String.ofList (List.replicate n '/')⟩

theorem pieces_slashes (n : Nat) :
    Path.pieces (List.replicate n '/') = List.replicate (n + 1) [] := by
  induction n with
  | zero => rfl
  | succ n ih => rw [List.replicate_succ, Path.pieces, if_pos rfl, ih, ← List.replicate_succ]

theorem steps_slashes (n : Nat) : (slashes n).steps = [] := by
  simp [Path.steps, slashes, pieces_slashes]

theorem utf8ByteSize_slashes (n : Nat) : (slashes n).text.utf8ByteSize = n := by
  rw [slashes, Text.utf8ByteSize_eq, String.toList_ofList]
  induction n with
  | zero => rfl
  | succ n ih =>
    have slash : '/'.utf8Size = 1 := rfl
    rw [List.replicate_succ, Text.byteSize, ih, slash, Nat.add_comm]

theorem locate_slashes {n : Nat} (f : Files) (some_ : 0 < n) (short : n < Files.pathLimit) :
    f.locate (slashes n) = .ok [] := by
  refine Files.follow_eq_ok.2 ⟨?_, (utf8ByteSize_slashes n).symm ▸ short, ?_⟩
  · simp [slashes]
  · have top : (slashes n).isAbsolute = true := by
      obtain ⟨m, rfl⟩ := Nat.exists_eq_succ_of_ne_zero (Nat.ne_of_gt some_)
      simp [Path.isAbsolute, slashes, List.replicate_succ]
    rw [steps_slashes, Files.start, if_pos top]
    rfl

def farCatalog (n : Nat) : Catalog Unit := ⟨slashes n, .onFiles⟩

def farWorld : World Unit := World.ofFiles ⟨.directory [("d", .directory [])], []⟩ ()

theorem plain_d : Path.Plain "d" := by constructor <;> decide

theorem holds_far {n : Nat} (some_ : 0 < n) (short : n + 2 < Files.pathLimit) :
    farWorld.files.Holds ((farCatalog n).databasePath "d") ["d"] [] := by
  have size : ((slashes n).join "d").text.utf8ByteSize ≤ n + 2 := by
    have upper := Path.utf8ByteSize_join plain_d (slashes n)
    rwa [utf8ByteSize_slashes] at upper
  have top := locate_slashes farWorld.files some_ (Nat.lt_of_le_of_lt (Nat.le_add_right n 2) short)
  exact ⟨Files.locate_join top rfl plain_d (Nat.lt_of_le_of_lt size short), rfl⟩

theorem long_far {n : Nat} (many : Files.pathLimit ≤ n + 9) :
    Files.pathLimit ≤ ((farCatalog n).schemaPath "d" "t").text.utf8ByteSize := by
  have plain : Path.Plain (fileName "t" schemaExtension) := by constructor <;> decide
  have database := Path.utf8ByteSize_add_le_join plain_d (slashes n)
  have file := Path.utf8ByteSize_add_le_join plain ((slashes n).join "d")
  have one : "d".utf8ByteSize = 1 := rfl
  have eight : (fileName "t" schemaExtension).utf8ByteSize = 8 := rfl
  rw [utf8ByteSize_slashes, one] at database
  rw [eight] at file
  exact Nat.le_trans (by omega) file

theorem run_far {n : Nat} (holds : farWorld.files.Holds ((farCatalog n).databasePath "d") ["d"] [])
    (many : Files.pathLimit ≤ n + 9) :
    (run (farCatalog n) ⟨some "d"⟩ farWorld "CREATE TABLE t (a int);").1
      = [.error (.catalog (.io ((farCatalog n).schemaPath "d" "t") .nameTooLong))] := by
  have parsed : Sql.parse "CREATE TABLE t (a int);"
      = [.ok (.createTable ⟨"t", ⟨13, 13⟩⟩ [⟨⟨"a", ⟨16, 16⟩⟩, .int⟩])] := by decide +kernel
  have named : Sql.IsName "t" := (isName_of_parse (parsed ▸ List.mem_singleton_self _)).1
  have answer : (createTable (farCatalog n) ⟨some "d"⟩
      (schemaOf ⟨"t", ⟨13, 13⟩⟩ [⟨⟨"a", ⟨16, 16⟩⟩, .int⟩])).Yields farWorld.disk
      (.error (.catalog (.io ((farCatalog n).schemaPath "d" "t") .nameTooLong))) farWorld.disk :=
    createTable_yields_far rfl rfl holds named (long_far many)
  obtain ⟨w', -, result⟩ := runParsed_of_keeping
    (.createTable ⟨"t", ⟨13, 13⟩⟩ [⟨⟨"a", ⟨16, 16⟩⟩, .int⟩]) rfl (w := farWorld) answer
  rw [run, parsed, runAll, result]
  rfl

/-- A database is there and empty, but the path to a schema in it leads nowhere. -/
theorem createTable_far :
    farWorld.files.isDirectory ((farCatalog 4090).databasePath "d") = true ∧
      (∀ ext, farWorld.tree.at? ["d", fileName "t" ext] = none) ∧
      (run (farCatalog 4090) ⟨some "d"⟩ farWorld "CREATE TABLE t (a int);").1
        = [.error (.catalog (.io ((farCatalog 4090).schemaPath "d" "t") .nameTooLong))] :=
  have holds := holds_far (by decide) (by decide)
  ⟨holds.isDirectory, fun _ => rfl, run_far holds (by decide)⟩

end Far

end Statements

end Engine

end RowStore
