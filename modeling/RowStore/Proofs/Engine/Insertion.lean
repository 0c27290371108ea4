import RowStore.Proofs.Disk.Writing
import RowStore.Proofs.Row.Literals
import RowStore.Proofs.Table.Appends

namespace RowStore.Engine

variable {δ : Type} {c : Catalog δ} {d : Disk δ} {s : Session} {database table : String}
  {schema : TableSchema} {literals : List Sql.Literal} {content : Content} {row : List Value}

section Steps

variable {f : TableFile}

theorem addRow_yields {row : List Value} {longer : Content} {r : Except TableError TableFile}
    {files : Files} (parsed : f.codec.parseRow (literals.map Sql.Literal.text) = .ok row)
    (appended : f.append row content = (r, longer))
    (written : d.files.write longer f.path = .ok files) :
    (addRow table literals f content).Yields d
      ((r.mapError EngineError.storage).map fun _ => .inserted table 1) { d with files := files } := by
  have given : (Action.ofExcept ((f.codec.parseRow (literals.map Sql.Literal.text)).mapError
      EngineError.storage) : Act δ (List Value)).Yields d (.ok row) d := by
    rw [parsed]
    exact .succeed _
  refine .bind given ?_
  simp only [appended]
  refine .bind ((Action.Yields.write written).mapError (tableFault f.path)) ?_
  cases r with
  | ok t => exact .pure _
  | error e => exact .fail _

theorem addRow_yields_error {e : TableError}
    (parsed : f.codec.parseRow (literals.map Sql.Literal.text) = .error e) :
    (addRow table literals f content).Yields d (.error (.storage e)) d := by
  have given : (Action.ofExcept ((f.codec.parseRow (literals.map Sql.Literal.text)).mapError
      EngineError.storage) : Act δ (List Value)).Yields d (.error (.storage e)) d := by
    rw [parsed]
    exact .fail _
  exact .bind_error given

theorem insert_yields (columns : Option Sql.Columns) (current : s.database = some database)
    (read : (inCatalog (c.readSchema database table)).Yields d (.ok schema) d)
    (length : literals.length = schema.columns.length) {r : Except EngineError Outcome}
    {d' : Disk δ}
    (rest : (openTable c database schema >>= fun p => addRow table literals p.1 p.2).Yields d r d') :
    (insert c s table columns literals).Yields d r d' := by
  refine .bind (currentDatabase_yields current) (.bind read ?_)
  rw [if_pos length]
  split
  · exact .bind (.notify _ _) rest
  · exact rest

theorem exists_openTable_yields (c : Catalog δ) (d : Disk δ) (database : String)
    (schema : TableSchema) : ∃ r, (openTable c database schema).Yields d r d ∧
      ∀ f content, r = .ok (f, content) →
        d.files.read (c.tablePath database schema.name) = .ok content ∧
          TableFile.headerSize ≤ content.bytes.length ∧ f.codec = .ofSchema schema := by
  let p := c.tablePath database schema.name
  have read := (Action.Yields.read (d := d) p).mapError (tableFault p)
  cases file : d.files.read p with
  | error e =>
    rw [file] at read
    refine ⟨_, .bind_error read, ?_⟩
    rintro _ _ ⟨⟩
  | ok content =>
    by_cases header : TableFile.headerSize ≤ content.bytes.length
    · refine ⟨_, openTable_yields file (TableFile.ofContent_eq header), ?_⟩
      rintro f content ⟨⟩
      exact ⟨rfl, header, rfl⟩
    · have refused : TableFile.ofContent p schema content = .error (.io p .endOfFile) := by
        have short : content.slice? 0 TableFile.headerSize = none := by
          rw [Content.slice?_eq, Bytes.slice?, List.drop_zero, List.length_take]
          exact if_neg (by omega)
        rw [TableFile.ofContent, short]
      rw [file] at read
      refine ⟨.error (.storage (.io p .endOfFile)), .bind read ?_, ?_⟩
      · simp only [p] at refused
        rw [refused]
        exact .fail _
      · rintro _ _ ⟨⟩

end Steps

/-- What an insertion needs: a current database with a schema for the table, a literal for each column
that writes a value of its type, and a table file with a header. -/
structure Insertion (c : Catalog δ) (f : Files) (s : Session) (table : String)
    (literals : List Sql.Literal) (database : String) (schema : TableSchema) (content : Content)
    (row : List Value) : Prop where
  current : s.database = some database
  declared : c.Declares f database table schema
  length : literals.length = schema.columns.length
  file : f.read (c.tablePath database schema.name) = .ok content
  header : TableFile.headerSize ≤ content.bytes.length
  values : List.zipWith (fun column l => Value.ofLiteral? column.type l.text) schema.columns literals
    = row.map some

/-- The bytes of a table file with one more row behind those that it counts. Bytes that are missing
before the row become zero; those behind it stay. -/
def bytesWith (schema : TableSchema) (row : List Value) (content : Content) : Bytes :=
  let counted := TableFile.counted content
  let front := counted * schema.rowWidth
  TableFile.header (counted + 1) ++ (Bytes.padded front (content.bytes.drop TableFile.headerSize)
    ++ (RowCodec.rowBytes row
      ++ content.bytes.drop (TableFile.headerSize + front + schema.rowWidth)))

theorem counted_of_bytesWith {new : Content} (h : new.bytes = bytesWith schema row content)
    (room : TableFile.counted content < 2 ^ 32 - 1) :
    TableFile.counted new = TableFile.counted content + 1 := by
  rw [TableFile.counted, h, bytesWith, List.take_left' (TableFile.length_header _),
    TableFile.toNat_header (by omega)]

theorem whole_of_bytesWith {new : Content} (h : new.bytes = bytesWith schema row content)
    (count : TableFile.counted new = TableFile.counted content + 1)
    (typed : row.map Value.type = schema.types) : TableFile.Whole schema new := by
  have width := RowCodec.length_rowBytes_of_types typed
  rw [TableFile.Whole, count, h, bytesWith, Nat.succ_mul]
  simp only [List.length_append, TableFile.length_header, Bytes.length_padded, width]
  omega

theorem rowsAt_of_bytesWith {new : Content} (h : new.bytes = bytesWith schema row content)
    (typed : row.map Value.type = schema.types) : ∃ former,
    TableFile.rowsAt schema.types (TableFile.counted content + 1)
      (new.bytes.drop TableFile.headerSize) = former ++ [row.map Value.kept] := by
  rw [h, bytesWith, List.drop_left' (TableFile.length_header _)]
  exact ⟨_, TableFile.rowsAt_concat _ (Bytes.length_padded _ _) typed⟩

namespace Insertion

theorem parseRow (h : Insertion c d.files s table literals database schema content row) :
    (RowCodec.ofSchema schema).parseRow (literals.map Sql.Literal.text) = .ok row :=
  (RowCodec.parseRow_eq_ok h.length).2 h.values

theorem append (h : Insertion c d.files s table literals database schema content row)
    (room : TableFile.counted content < 2 ^ 32 - 1) {t : TableFile}
    (opened : TableFile.ofContent (c.tablePath database schema.name) schema content = .ok t) :
    ∃ t' new, t.append row content = (.ok t', new) ∧ new.bytes = bytesWith schema row content := by
  -- The row is encoded before the file is written, so that nothing can fail any more.
  rw [TableFile.ofContent_eq h.header] at opened
  cases opened
  have typed : row.map Value.type = schema.types := RowCodec.map_type_of_parseRow h.parseRow
  have width := RowCodec.length_rowBytes_of_types typed
  have within : RowCodec.rowBytes row = [] →
      TableFile.headerSize + TableFile.counted content * schema.rowWidth ≤ content.bytes.length := by
    intro nothing
    rw [← width, nothing]
    exact h.header
  have counts : TableFile.counted content + 1 < UInt32.size := Nat.add_lt_of_lt_sub room
  rw [← TableFile.rowCount_counted] at counts
  refine ⟨_, _, TableFile.append_ok typed counts content, ?_⟩
  have bytes := TableFile.bytes_written h.header within (TableFile.counted content + 1)
  rw [width] at bytes
  rw [TableFile.rowOffset, TableFile.rowCount_counted]
  exact bytes

theorem insert_yields (service : c.directory = .onFiles)
    (h : Insertion c d.files s table literals database schema content row)
    (room : TableFile.counted content < 2 ^ 32 - 1) (columns : Option Sql.Columns) : ∃ new files,
      new.bytes = bytesWith schema row content ∧
      Files.Rewritten (c.tablePath database schema.name) content new d.files files ∧
      (insert c s table columns literals).Yields d (.ok (.inserted table 1))
        { d with files := files } := by
  obtain ⟨there, text, file, decoded⟩ := h.declared
  have found := Catalog.finds_of_isDirectory service there
  have opened : TableFile.ofContent (c.tablePath database schema.name) schema content = .ok _ :=
    TableFile.ofContent_eq h.header
  obtain ⟨t', new, appended, bytes⟩ := h.append room opened
  obtain ⟨files, written, rewritten⟩ := Files.exists_write_of_read h.file new
  exact ⟨new, files, bytes, rewritten, Engine.insert_yields columns h.current
    (readSchema_yields found file decoded) h.length
    (.bind (openTable_yields h.file opened) (addRow_yields h.parseRow appended written))⟩

theorem insert_full (service : c.directory = .onFiles)
    (h : Insertion c d.files s table literals database schema content row)
    (full : ¬TableFile.counted content < 2 ^ 32 - 1) (columns : Option Sql.Columns) :
    ∃ e d', (insert c s table columns literals).Yields d (.error e) d' := by
  obtain ⟨there, text, file, decoded⟩ := h.declared
  have found := Catalog.finds_of_isDirectory service there
  have opened : TableFile.ofContent (c.tablePath database schema.name) schema content = .ok _ :=
    TableFile.ofContent_eq h.header
  have last : ¬TableFile.counted content + 1 < UInt32.size :=
    fun fewer => full (Nat.lt_sub_of_add_lt fewer)
  rw [← TableFile.rowCount_counted (c.tablePath database schema.name) (.ofSchema schema)] at last
  obtain ⟨e, refused⟩ := TableFile.append_refused row (.inr (if_neg last)) content
  obtain ⟨files, written, -⟩ := Files.exists_write_of_read h.file content
  exact ⟨_, _, Engine.insert_yields columns h.current (readSchema_yields found file decoded) h.length
    (.bind (openTable_yields h.file opened) (addRow_yields h.parseRow refused written))⟩

theorem unique {database' : String} {schema' : TableSchema} {content' : Content} {row' : List Value}
    (h : Insertion c d.files s table literals database schema content row)
    (h' : Insertion c d.files s table literals database' schema' content' row') :
    database = database' ∧ schema = schema' ∧ content = content' ∧ row = row' := by
  cases Option.some.inj (h.current.symm.trans h'.current)
  cases h.declared.unique h'.declared
  cases Except.ok.inj (h.file.symm.trans h'.file)
  have same : row.map some = row'.map some := h.values.symm.trans h'.values
  exact ⟨rfl, rfl, rfl, (List.map_inj_right fun _ _ => Option.some.inj).1 same⟩

end Insertion

theorem insert_refused (service : c.directory = .onFiles) (columns : Option Sql.Columns)
    (h : ∀ database schema content row,
      ¬Insertion c d.files s table literals database schema content row) :
    ∃ e, (insert c s table columns literals).Yields d (.error e) d := by
  cases current : s.database with
  | none => exact ⟨_, .bind_error (currentDatabase_yields_none current)⟩
  | some database =>
    have selected := currentDatabase_yields (d := d) (δ := δ) current
    obtain ⟨r, read, declares⟩ := Catalog.exists_readSchema_yields service d database table
    have read := read.mapError EngineError.ofCatalog
    cases r with
    | error e => exact ⟨_, .bind selected (.bind_error read)⟩
    | ok schema =>
      by_cases length : literals.length = schema.columns.length
      · obtain ⟨answer, opened, header⟩ := exists_openTable_yields c d database schema
        cases answer with
        | error e => exact ⟨_, insert_yields columns current read length (.bind_error opened)⟩
        | ok answer =>
          obtain ⟨t, content⟩ := answer
          obtain ⟨file, long, codec⟩ := header t content rfl
          cases parsed : t.codec.parseRow (literals.map Sql.Literal.text) with
          | error e =>
            exact ⟨_, insert_yields columns current read length
              (.bind opened (addRow_yields_error parsed))⟩
          | ok row =>
            rw [codec, RowCodec.parseRow_eq_ok length] at parsed
            exact absurd ⟨current, (declares schema).1 rfl, length, file, long, parsed⟩
              (h database schema content row)
      · refine ⟨.arityMismatch table schema.columns.length literals.length,
          .bind selected (.bind read ?_)⟩
        rw [if_neg length]
        exact .fail _

section Statements

variable {stmt : Sql.Statement} {w : World δ} {d' : Disk δ}

theorem runParsed_of_yields {r : Result} {s' : Session}
    (h : (execute c stmt).Yields s w.disk r s' d') :
    ∃ w', w'.disk = d' ∧ runParsed c s w (.ok stmt) = (r, s', w') := by
  obtain ⟨answer, session, disk⟩ := h w rfl
  exact ⟨_, disk, Prod.ext answer (Prod.ext session rfl)⟩

theorem runParsed_of_keeping (stmt : Sql.Statement) {action : Session → Act δ Outcome}
    (keeps : execute c stmt = .within action) {r : Result} (h : (action s).Yields w.disk r d') :
    ∃ w', w'.disk = d' ∧ runParsed c s w (.ok stmt) = (r, s, w') :=
  runParsed_of_yields (keeps ▸ .within h)

end Statements

/-- An insertion is done whole or not at all. It is done exactly when nothing is missing for it; then the
table file that the schema names counts and holds one more row, and every other file and directory and
the session stay. When it is refused, all files stay. -/
theorem runParsed_insert (service : c.directory = .onFiles) (s : Session) (w : World δ)
    (name : Sql.Identifier) (columns : Option Sql.Columns) (literals : List Sql.Literal)
    (room : ∀ database schema content row,
      Insertion c w.files s name.name literals database schema content row →
        TableFile.counted content < 2 ^ 32 - 1) :
    ∃ result w', runParsed c s w (.ok (.insert name columns literals)) = (result, s, w') ∧
      ((∃ outcome, result = .ok outcome) ↔ ∃ database schema content row,
        Insertion c w.files s name.name literals database schema content row) ∧
      (∀ e, result = .error e → w'.disk = w.disk) ∧
      (∀ outcome, result = .ok outcome → outcome = .inserted name.name 1 ∧
        w'.disk.state = w.disk.state ∧ ∃ database schema content row new,
          Insertion c w.files s name.name literals database schema content row ∧
          Files.Rewritten (c.tablePath database schema.name) content new w.files w'.files ∧
          TableFile.counted new = TableFile.counted content + 1 ∧
          new.bytes = bytesWith schema row content) := by
  by_cases possible : ∃ database schema content row,
      Insertion c w.files s name.name literals database schema content row
  · obtain ⟨database, schema, content, row, h⟩ := possible
    obtain ⟨new, files, bytes, rewritten, answer⟩ :=
      Insertion.insert_yields (d := w.disk) service h (room _ _ _ _ h) columns
    obtain ⟨w', disk, run⟩ := runParsed_of_keeping (.insert name columns literals) rfl answer
    have files' : w'.files = files := congrArg Disk.files disk
    refine ⟨.ok (.inserted name.name 1), w', run, ⟨fun _ => ⟨_, _, _, _, h⟩, fun _ => ⟨_, rfl⟩⟩,
      nofun, ?_⟩
    rintro outcome ⟨⟩
    refine ⟨rfl, by rw [disk], database, schema, content, row, new, h, ?_,
      counted_of_bytesWith bytes (room _ _ _ _ h), bytes⟩
    rw [files']
    exact rewritten
  · obtain ⟨e, refused⟩ := insert_refused (d := w.disk) service columns
      fun database schema content row h => possible ⟨database, schema, content, row, h⟩
    obtain ⟨w', disk, run⟩ := runParsed_of_keeping (.insert name columns literals) rfl refused
    refine ⟨.error e, w', run, ⟨?_, fun h => absurd h possible⟩, fun _ _ => disk, nofun⟩
    rintro ⟨outcome, ⟨⟩⟩

theorem exists_of_inserted (service : c.directory = .onFiles) {s' : Session} {w w' : World δ}
    {name : Sql.Identifier} {columns : Option Sql.Columns} {literals : List Sql.Literal}
    {outcome : Outcome}
    (inserted : runParsed c s w (.ok (.insert name columns literals)) = (.ok outcome, s', w')) :
    ∃ database schema content row,
      Insertion c w.files s name.name literals database schema content row ∧
        TableFile.counted content < 2 ^ 32 - 1 := by
  -- Where anything is missing, the statement answers with an error.
  have done (e : EngineError) (d : Disk δ)
      (refused : (insert c s name.name columns literals).Yields w.disk (.error e) d) : False := by
    obtain ⟨_, -, run⟩ := runParsed_of_keeping (.insert name columns literals) rfl refused
    cases inserted.symm.trans run
  by_contra missing
  have given : ¬∃ database schema content row,
      Insertion c w.files s name.name literals database schema content row := by
    rintro ⟨database, schema, content, row, h⟩
    obtain ⟨e, d, refused⟩ := h.insert_full (d := w.disk) service
      (fun room => missing ⟨database, schema, content, row, h, room⟩) columns
    exact done e d refused
  obtain ⟨e, refused⟩ := insert_refused (d := w.disk) service columns
    fun database schema content row h => given ⟨database, schema, content, row, h⟩
  exact done e _ refused

section Short

def shortSchema : TableSchema := ⟨"t", [⟨"a", .int⟩]⟩

def shortContent : Content := .ofBytes (TableFile.header 3 ++ [9, 9])

def shortFiles : Files :=
  ⟨.directory [("r", .directory [("d", .directory
    [("t.schema", .file (SchemaText.content shortSchema)), ("t.table", .file shortContent)])])], []⟩

def shortWorld : World Unit := World.ofFiles shortFiles ()

theorem insertion_short : Insertion exampleCatalog shortFiles ⟨some "d"⟩ "t" [.number "5"] "d"
    shortSchema shortContent [.int 5] where
  current := rfl
  declared := ⟨rfl, _, rfl, rfl⟩
  length := rfl
  file := rfl
  header := by decide
  values := by decide

theorem runParsed_insert_short : ∃ w' new,
    runParsed exampleCatalog ⟨some "d"⟩ shortWorld (.ok (.insert ⟨"t", ⟨0, 0⟩⟩ none [.number "5"]))
      = (.ok (.inserted "t" 1), ⟨some "d"⟩, w') ∧
    new.bytes = TableFile.header 4 ++ [9, 9] ++ List.replicate 10 0 ++ [5, 0, 0, 0] ∧
    Files.Rewritten (exampleCatalog.tablePath "d" "t") shortContent new shortFiles w'.files := by
  have room : ∀ database schema content row,
      Insertion exampleCatalog shortWorld.files ⟨some "d"⟩ "t" [.number "5"] database schema content
        row → TableFile.counted content < 2 ^ 32 - 1 := by
    intro database schema content row h
    obtain ⟨-, -, rfl, -⟩ := Insertion.unique (d := shortWorld.disk) insertion_short h
    decide
  obtain ⟨result, w', run, possible, -, done⟩ :=
    runParsed_insert rfl ⟨some "d"⟩ shortWorld ⟨"t", ⟨0, 0⟩⟩ none [.number "5"] room
  obtain ⟨outcome, rfl⟩ := possible.2 ⟨_, _, _, _, insertion_short⟩
  obtain ⟨rfl, -, _, _, _, _, new, h, rewritten, -, bytes⟩ := done outcome rfl
  obtain ⟨rfl, rfl, rfl, rfl⟩ := Insertion.unique (d := shortWorld.disk) insertion_short h
  exact ⟨w', new, run, bytes.trans (by decide), rewritten⟩

end Short

end RowStore.Engine
