import RowStore.Proofs.Engine.Insertion
import RowStore.Proofs.Engine.Reached
import RowStore.Proofs.Sql.Literals

namespace RowStore

open Engine

theorem Value.kept_of_clip {text : List Char} (free : '\x00' ∉ text) :
    (Value.varchar (Text.clipped (String.ofList (Text.clip Text.clipLimit text)))).kept
      = .varchar (String.ofList (Text.clip Text.clipLimit text)) := by
  have inside : ∀ c ∈ Text.clip Text.clipLimit text, decide (c ≠ '\x00') = true := by
    intro c mem
    refine decide_eq_true ?_
    rintro rfl
    exact free ((Text.clip_isPrefix _ _).subset mem)
  rw [Text.clipped, kept, String.toList_ofList, String.toList_ofList, Text.clip_clip, Text.clip_clip,
    List.takeWhile_eq_self_iff.2 inside]

namespace Catalog

variable {δ : Type} {c : Catalog δ} {f f' : Files} {database table : String} {schema : TableSchema}
  {old new : Content}

theorem Declares.rewritten (declared : c.Declares f database table schema) (named : Sql.IsName table)
    (h : Files.Rewritten (c.tablePath database table) old new f f') :
    c.Declares f' database table schema := by
  obtain ⟨l, es, there, stand⟩ := Files.exists_of_isDirectory declared.directory
  obtain ⟨text, file, decoded⟩ := declared.file
  have place {ext : String} (mem : ext ∈ extensions) {l' : Location}
      (located : f.locate (c.filePath database table ext) = .ok l') :
      f.locate (c.filePath database table ext) = .ok (l ++ [fileName table ext]) :=
    Files.locate_join there stand (plain_fileName named mem) (Files.follow_eq_ok.1 located).2.1
  obtain ⟨a, ha, -, -⟩ := Files.exists_of_read file
  obtain ⟨b, hb, -⟩ := h.place
  refine ⟨Files.isDirectory_of_stay h.here h.stay declared.directory, text, ?_, decoded⟩
  refine h.read_other (fun same => ?_) file
  rw [schemaPath, place schema_mem ha, tablePath, place table_mem hb] at same
  have names := List.append_cancel_left (Except.ok.inj same)
  exact table_ne_schema ((fileName_inj named named).1 (List.singleton_inj.1 names)).2.symm

end Catalog

namespace Naive

variable {schema : TableSchema} {i : Nat} {row : List Value}

theorem shown_all (full : row.length = schema.columns.length) : shown schema .all row = row := by
  have all : (schema.columns.zip row).filter (fun p => requested .all p.1)
      = schema.columns.zip row := List.filter_eq_self.2 fun _ _ => rfl
  rw [shown, all, List.map_snd_zip (Nat.le_of_eq full)]

theorem admits_equal {x : Sql.Identifier} {l : Sql.Literal}
    (column : schema.columnIndex? x.name = some i) (type : schema.types[i]? = some .varchar)
    (typed : row.map Value.type = schema.types) :
    admits schema (some ⟨⟨x, .equal, l⟩, []⟩) row = true ↔ row[i]? = some (.varchar l.text) := by
  rw [← typed, List.getElem?_map, Option.map_eq_some_iff] at type
  obtain ⟨v, cell, kind⟩ := type
  cases v with
  | varchar s =>
    simp only [admits, List.foldl_nil, holds, TableSchema.cell?_eq column, cell, compareTexts,
      Value.text, beq_iff_eq, Option.some.injEq, Value.varchar.injEq]
  | int n | double x | date n => cases kind

theorem select_equal {x : Sql.Identifier} {rows : List (List Value)} (l : Sql.Literal)
    (column : schema.columnIndex? x.name = some i) (type : schema.types[i]? = some .varchar)
    (typed : ∀ row ∈ rows, row.map Value.type = schema.types) :
    select schema .all (some ⟨⟨x, .equal, l⟩, []⟩) rows
      = ⟨schema.columnNames, rows.filter fun row => row[i]? = some (.varchar l.text)⟩ := by
  have columns : schema.columns.filter (requested .all) = schema.columns :=
    List.filter_eq_self.2 fun _ _ => rfl
  have chosen : rows.filter (admits schema (some ⟨⟨x, .equal, l⟩, []⟩))
      = rows.filter fun row => row[i]? = some (.varchar l.text) := by
    apply List.filter_congr
    intro row mem
    rw [Bool.eq_iff_iff, admits_equal column type (typed row mem), decide_eq_true_eq]
  have whole : ∀ row ∈ rows.filter fun row => row[i]? = some (.varchar l.text),
      shown schema .all row = id row := by
    intro row mem
    have length := congrArg List.length (typed row (List.mem_of_mem_filter mem))
    rw [List.length_map, TableSchema.types, List.length_map] at length
    exact shown_all length
  rw [select, columns, chosen, List.map_congr_left whole, List.map_id]
  rfl

theorem missing?_single {x : Sql.Identifier} (op : Sql.Comparator) (l : Sql.Literal)
    (column : schema.columnIndex? x.name = some i) :
    missing? schema (some ⟨⟨x, op, l⟩, []⟩) = none := by
  have known : x.name ∈ schema.columnNames := by
    by_contra out
    rw [TableSchema.columnIndex?_eq_none.2 out] at column
    cases column
  simp [missing?, Sql.Filter.conditions, known]

end Naive

section Reached

variable {δ ι : Type} [DecidableEq ι] {data : Path} {S : ι → Session} {w : World δ} {user : ι}
  {database table : String} {schema : TableSchema}

theorem Reached.schema_name (reached : Reached data S w) (current : (S user).database = some database)
    (named : Sql.PlainName table)
    (declared : (Catalog.ofDataDirectory (δ := δ) data .onFiles).Declares w.files database table
      schema) :
    schema.name = table := by
  rcases reached.tidy_or_lost with ⟨v, state, root, tidy⟩ | lost
  · rw [v.ofDataDirectory_eq root] at declared
    obtain ⟨es, disk, neat⟩ := tidy.disk
    obtain ⟨r, read, declares⟩ := Catalog.exists_readSchema_yields (c := v.catalog δ) rfl w.disk
      database table
    cases (declares schema).2 declared
    rcases neat.none_or_directory database with missing | ⟨hd, fs, entry, orderly⟩
    · have missed := v.misses state (tidy.session user database current).isName missing
      rw [← disk] at missed
      have found := Catalog.finds_of_isDirectory (c := v.catalog δ) (d := w.disk) rfl
        declared.directory
      cases found.symm.trans missed
    · obtain ⟨r, fs', -, post, run⟩ := v.readSchema_confined (δ := δ) hd named fs orderly
      have answer := run state es entry
      rw [← disk] at answer
      exact post schema ((answer w rfl).1.symm.trans (read w rfl).1)
  · rw [lost.session user] at current
    cases current

end Reached

section Inserted

variable {δ : Type} {c : Catalog δ} {w : World δ} {s : Session} {database : String}
  {schema : TableSchema} {content : Content} {row : List Value} {literals : List Sql.Literal} {i : Nat}
  {x : Sql.Identifier}

theorem Engine.Insertion.exists_select (service : c.directory = .onFiles)
    (h : Insertion c w.files s x.name literals database schema content row)
    (own : schema.name = x.name) (named : Sql.IsName x.name)
    (room : TableFile.counted content < 2 ^ 32 - 1) (columns : Option Sql.Columns) :
    ∃ w' former,
      runParsed c s w (.ok (.insert x columns literals)) = (.ok (.inserted x.name 1), s, w') ∧
      ∀ (asking : Session) (y z : Sql.Identifier) (l : Sql.Literal) (i : Nat),
        asking.database = some database → y.name = x.name → schema.columnIndex? z.name = some i →
        schema.types[i]? = some .varchar → ∃ w'', w''.disk = w'.disk ∧
          runParsed c asking w' (.ok (.select .all y (some ⟨⟨z, .equal, l⟩, []⟩)))
            = (.ok (.selected ⟨schema.columnNames, (former ++ [row.map Value.kept]).filter
                fun r => r[i]? = some (.varchar l.text)⟩), asking, w'') := by
  obtain ⟨new, files, bytes, rewritten, answer⟩ := h.insert_yields (d := w.disk) service room columns
  obtain ⟨w', disk, run⟩ := runParsed_of_keeping (.insert x columns literals) rfl answer
  have count := counted_of_bytesWith bytes room
  have typed : row.map Value.type = schema.types :=
    RowCodec.map_type_of_parseRow (h.parseRow (d := w.disk))
  obtain ⟨former, rows⟩ := rowsAt_of_bytesWith bytes typed
  have file := Path.namesDirectory_join (Catalog.plain_fileName (own ▸ named) Catalog.table_mem)
    (c.databasePath database)
  have data : w'.files.read (c.tablePath database schema.name) = .ok new := by
    rw [World.files, disk]
    exact rewritten.read_self file
  have declared : c.Declares w'.files database x.name schema := by
    rw [own] at rewritten
    rw [World.files, disk]
    exact h.declared.rewritten named rewritten
  refine ⟨w', former, run, ?_⟩
  intro asking y z l i current same column type
  obtain ⟨text, schemaFile, decoded⟩ := declared.file
  have found := Catalog.finds_of_isDirectory (d := w'.disk) service declared.directory
  have query := select_yields .all current found schemaFile decoded
    (Naive.missing?_single .equal l column) data (whole_of_bytesWith bytes count typed)
  rw [count, rows, Naive.select_equal l column type, ← same] at query
  · obtain ⟨w'', disk', run'⟩ := runParsed_of_keeping
      (.select .all y (some ⟨⟨z, .equal, l⟩, []⟩)) rfl query
    exact ⟨w'', disk', run'⟩
  · rw [← rows]
    exact fun r => TableFile.map_type_of_mem_rowsAt

theorem getElem?_kept {text : List Char} {l : Sql.Literal}
    (values : List.zipWith (fun column l => Value.ofLiteral? column.type l.text) schema.columns
      literals = row.map some)
    (type : schema.types[i]? = some .varchar) (supplied : literals[i]? = some l)
    (cut : l.text = String.ofList (Text.clip Text.clipLimit text)) (free : '\x00' ∉ text) :
    (row.map Value.kept)[i]? = some (.varchar l.text) := by
  rw [TableSchema.types, List.getElem?_map, Option.map_eq_some_iff] at type
  obtain ⟨declared, there, kind⟩ := type
  have cell := congrArg (fun cells => cells[i]?) values
  simp only [List.getElem?_zipWith, there, supplied, List.getElem?_map, kind, Value.ofLiteral?]
    at cell
  obtain ⟨v, at_, eq⟩ := Option.map_eq_some_iff.1 cell.symm
  cases eq
  rw [List.getElem?_map, at_, Option.map_some, cut, Value.kept_of_clip free]

end Inserted

section Found

variable {δ ι : Type} [DecidableEq ι] {data : Path} {S : ι → Session} {w w' : World δ} {user : ι}
  {database first second : String} {schema : TableSchema} {i : Nat} {x y z : Sql.Identifier}
  {columns : Option Sql.Columns} {literals : List Sql.Literal} {l : Sql.Literal}
  {ts us : List Sql.Token} {text : List Char} {s s' : Session} {outcome : Outcome}

/-- In every state that texts lead to, a text that was inserted into the first varchar column of a name
is found by the literal that wrote it: a query for the literal shows the new row, as the last of the
rows that have the cut text there, and no other rows. -/
theorem select_inserted (reached : Reached data S w) (current : (S user).database = some database)
    (declared : (Catalog.ofDataDirectory (δ := δ) data .onFiles).Declares w.files database x.name
      schema)
    (column : schema.columnIndex? z.name = some i) (type : schema.types[i]? = some .varchar)
    (insertion : Sql.Says first ts (.insert x columns literals))
    (supplied : (Sql.uncut ts)[i]? = some text) (free : '\x00' ∉ text)
    (inserted : runParsed (Catalog.ofDataDirectory data .onFiles) (S user) w
      (.ok (.insert x columns literals)) = (.ok outcome, s', w'))
    (query : Sql.Says second us (.select .all y (some ⟨⟨z, .equal, l⟩, []⟩)))
    (asked : Sql.uncut us = [text]) (same : y.name = x.name) (asking : s.database = some database) :
    s' = S user ∧ ∃ (row : List Value) (short : List Char) (rows : List (List Value)) (w'' : World δ),
      List.zipWith (fun column l => Value.ofLiteral? column.type l.text) schema.columns literals
        = row.map some ∧
      Sql.Grammar.Cut text short ∧
      runParsed (Catalog.ofDataDirectory data .onFiles) s w'
        (.ok (.select .all y (some ⟨⟨z, .equal, l⟩, []⟩)))
        = (.ok (.selected ⟨schema.columnNames, rows⟩), s, w'') ∧
      w''.disk = w'.disk ∧
      rows.getLast? = some (row.map Value.kept) ∧
      ∀ r ∈ rows, r[i]? = some (.varchar (String.ofList short)) := by
  have named := (Sql.printable_of_mem_parse insertion.mem_parse).names x.name (.head _)
  have own : schema.name = x.name := reached.schema_name current named declared
  obtain ⟨database', schema', content, row, h, room⟩ := exists_of_inserted rfl inserted
  cases Option.some.inj (h.current.symm.trans current)
  cases h.declared.unique declared
  obtain ⟨v, former, run, queries⟩ := h.exists_select rfl own named.isName room columns
  cases run.symm.trans inserted
  -- Both statements have the same text, cut in the same way.
  obtain ⟨m, given, stored⟩ := insertion.exists_literal supplied
  obtain ⟨_, ⟨⟩, cut⟩ := query.exists_literal (congrArg (fun texts => texts[0]?) asked)
  have shown := getElem?_kept h.values type given stored free
  obtain ⟨w'', disk, answer⟩ := queries s y z l i asking same column type
  rw [stored] at shown
  rw [cut] at answer
  refine ⟨rfl, row, _, _, w'', h.values, Sql.Grammar.cut_clip text, answer, disk, ?_, ?_⟩
  · rw [List.filter_append, List.filter_singleton, decide_eq_true shown]
    exact List.getLast?_concat
  · intro r mem
    exact of_decide_eq_true (List.mem_filter.1 mem).2

end Found

section Straddling

def longText : List Char := List.replicate 62 'q' ++ ['é']

def longLiteral : Sql.Literal := .string (String.ofList (List.replicate 62 'q'))

def longInsertion : String := "INSERT INTO t VALUES ('" ++ String.ofList longText ++ "');"

def longQuery : String := "SELECT * FROM t WHERE a = \"" ++ String.ofList longText ++ "\";"

def tokensOf (text : String) : List Sql.Token := (Sql.scan text).filterMap Except.toOption

def longInsert : Sql.Statement := .insert ⟨"t", ⟨12, 12⟩⟩ none [longLiteral]

def longSelect : Sql.Statement :=
  .select .all ⟨"t", ⟨14, 14⟩⟩ (some ⟨⟨⟨"a", ⟨22, 22⟩⟩, .equal, longLiteral⟩, []⟩)

theorem says_tokensOf {text : String} {stmt : Sql.Statement} {written : List (List Char)}
    (h : ((tokensOf text).map .ok ∈ Sql.runs (Sql.scan text) ∧
      Sql.Reader.read text.utf8ByteSize .between ((tokensOf text).map .ok) = [.ok stmt]) ∧
      Sql.uncut (tokensOf text) = written) :
    Sql.Says text (tokensOf text) stmt ∧ Sql.uncut (tokensOf text) = written :=
  ⟨.of_read h.1.1 h.1.2, h.2⟩

theorem says_longInsertion : Sql.Says longInsertion (tokensOf longInsertion) longInsert ∧
    Sql.uncut (tokensOf longInsertion) = [longText] := says_tokensOf (by decide +kernel)

theorem says_longQuery : Sql.Says longQuery (tokensOf longQuery) longSelect ∧
    Sql.uncut (tokensOf longQuery) = [longText] := says_tokensOf (by decide +kernel)

def oneTable : (Bool → Session) × World Unit :=
  said false "CREATE DATABASE d; USE d; CREATE TABLE t (a varchar);"
    (fun _ => .fresh, (sharedCatalog.prepare (World.ofFiles vacantFiles ())).2)

theorem reached_oneTable : Reached ⟨"/r"⟩ oneTable.1 oneTable.2 :=
  reached_said (.opened vacant_vacantFiles.empty) _ _

theorem facts_oneTable : ((oneTable.1 false).database = some "d" ∧
      (runParsed sharedCatalog (oneTable.1 false) oneTable.2 (.ok longInsert)).1
        = .ok (.inserted "t" 1)) ∧
    oneTable.2.files.isDirectory (sharedCatalog.databasePath "d") = true ∧
    oneTable.2.files.read (sharedCatalog.schemaPath "d" "t")
      = .ok (SchemaText.content ⟨"t", [⟨"a", .varchar⟩]⟩) := by
  decide +kernel

theorem select_inserted_straddling : ∃ w' w'' rows,
    runParsed sharedCatalog (oneTable.1 false) oneTable.2 (.ok longInsert)
      = (.ok (.inserted "t" 1), oneTable.1 false, w') ∧
    runParsed sharedCatalog (oneTable.1 false) w' (.ok longSelect)
      = (.ok (.selected ⟨["a"], rows⟩), oneTable.1 false, w'') ∧
    rows.getLast? = some [.varchar (String.ofList (List.replicate 62 'q'))] := by
  have reached := reached_oneTable
  obtain ⟨⟨current, inserted⟩, directory, schema⟩ := facts_oneTable
  generalize oneTable = now at *
  have declared : sharedCatalog.Declares now.2.files "d" "t" ⟨"t", [⟨"a", .varchar⟩]⟩ :=
    ⟨directory, _, schema, by decide +kernel⟩
  cases ran : runParsed sharedCatalog (now.1 false) now.2 (.ok longInsert) with
  | mk r rest =>
    obtain ⟨s', w'⟩ := rest
    rw [ran] at inserted
    cases inserted
    obtain ⟨rfl, row, short, rows, w'', values, -, answer, -, last, -⟩ := select_inserted reached
      current (x := ⟨"t", ⟨12, 12⟩⟩) (z := ⟨"a", ⟨22, 22⟩⟩) declared rfl rfl says_longInsertion.1
      (by rw [says_longInsertion.2]; rfl) (by decide +kernel) ran says_longQuery.1
      says_longQuery.2 rfl current
    obtain rfl : row = [.varchar (Text.clipped longLiteral.text)] :=
      (List.map_inj_right fun _ _ => Option.some.inj).1 values.symm
    refine ⟨w', w'', rows, rfl, answer, ?_⟩
    rw [last]
    decide +kernel

end Straddling

end RowStore
