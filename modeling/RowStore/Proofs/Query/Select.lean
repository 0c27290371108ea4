import RowStore.Proofs.Catalog.Lookup
import RowStore.Proofs.Engine.Statements
import RowStore.Proofs.Query.Naive

namespace RowStore

open Engine

namespace Naive

theorem projection_eq (schema : TableSchema) (columns : Sql.Columns) :
    projection schema columns = schema.columns.map (requested columns) := by
  cases columns with
  | all => rfl
  | named names => simp [projection, TableSchema.columnNames, requested]

theorem project_map {α β : Type} (f : α → Bool) (g : α → β) (as : List α) :
    project (as.map f) (as.map g) = (as.filter f).map g := by
  induction as with
  | nil => rfl
  | cons a as ih =>
    simp only [project] at ih
    cases h : f a <;> simp [project, h, ih]

theorem project_row {α β : Type} (f : α → Bool) (as : List α) (bs : List β) :
    project (as.map f) bs = ((as.zip bs).filter fun p => f p.1).map Prod.snd := by
  induction as generalizing bs with
  | nil => simp [project]
  | cons a as ih =>
    cases bs with
    | nil => rfl
    | cons b bs =>
      have rest := ih bs
      simp only [project] at rest
      cases h : f a <;> simp [project, h, rest]

theorem project_projection (schema : TableSchema) (columns : Sql.Columns) :
    project (projection schema columns) = shown schema columns := by
  funext row
  rw [projection_eq, project_row, shown]

theorem project_columnNames (schema : TableSchema) (columns : Sql.Columns) :
    project (projection schema columns) schema.columnNames
      = (schema.columns.filter (requested columns)).map Column.name := by
  rw [projection_eq, TableSchema.columnNames, project_map]

theorem map_type_shown {schema : TableSchema} {row : List Value} (columns : Sql.Columns)
    (h : row.map Value.type = schema.types) :
    (shown schema columns row).map Value.type
      = (schema.columns.filter (requested columns)).map Column.type := by
  obtain ⟨table, cs⟩ := schema
  simp only [shown, TableSchema.types] at h ⊢
  induction cs generalizing row with
  | nil => rfl
  | cons c cs ih =>
    cases row with
    | nil => cases h
    | cons v vs =>
      obtain ⟨type, rest⟩ := List.cons_eq_cons.1 h
      cases asked : requested columns c <;> simp [asked, type, ih rest]

end Naive

section Binding

variable {schema : TableSchema}

theorem BoundCondition.ofCondition_error {c : Sql.Condition}
    (h : c.column.name ∉ schema.columnNames) :
    ofCondition schema c = .error (.noSuchColumn c.column.name schema.name) := by
  rw [ofCondition, TableSchema.columnIndex?_eq_none.2 h]

theorem BoundCondition.exists_ofCondition {c : Sql.Condition}
    (h : c.column.name ∈ schema.columnNames) : ∃ b, ofCondition schema c = .ok b := by
  rw [ofCondition]
  split
  · exact ⟨_, rfl⟩
  · rename_i none
    exact absurd h (TableSchema.columnIndex?_eq_none.1 none)

theorem Predicate.ofLinks_error {links : List (Sql.Connective × Sql.Condition)}
    {x : Sql.Identifier}
    (h : (links.map fun link => link.2.column).find?
      (fun x => decide (x.name ∉ schema.columnNames)) = some x) :
    ofLinks schema links = .error (.noSuchColumn x.name schema.name) := by
  induction links with
  | nil => cases h
  | cons link links ih =>
    obtain ⟨op, c⟩ := link
    rw [List.map_cons, List.find?_cons] at h
    by_cases known : c.column.name ∈ schema.columnNames
    · obtain ⟨b, bound⟩ := BoundCondition.exists_ofCondition known
      simp only [known, not_true_eq_false, decide_false] at h
      simp [ofLinks, bound, ih h, bind, Except.bind]
    · simp only [known, not_false_eq_true, decide_true, Option.some.injEq] at h
      cases h
      simp [ofLinks, BoundCondition.ofCondition_error known, bind, Except.bind]

theorem Predicate.exists_ofLinks {links : List (Sql.Connective × Sql.Condition)}
    (h : (links.map fun link => link.2.column).find?
      (fun x => decide (x.name ∉ schema.columnNames)) = none) :
    ∃ bs, ofLinks schema links = .ok bs := by
  induction links with
  | nil => exact ⟨_, rfl⟩
  | cons link links ih =>
    obtain ⟨op, c⟩ := link
    rw [List.map_cons, List.find?_cons] at h
    by_cases known : c.column.name ∈ schema.columnNames
    · obtain ⟨b, bound⟩ := BoundCondition.exists_ofCondition known
      simp only [known, not_true_eq_false, decide_false] at h
      obtain ⟨bs, others⟩ := ih h
      exact ⟨(op, b) :: bs, by simp [ofLinks, bound, others, bind, Except.bind, pure, Except.pure]⟩
    · simp [known] at h

def bindFilter (schema : TableSchema) (filter : Option Sql.Filter) :
    Except EngineError (Option Predicate) :=
  match filter with
  | some f => (Predicate.ofFilter schema f).map some
  | none => .ok none

theorem bindFilter_error {filter : Option Sql.Filter} {x : Sql.Identifier}
    (h : Naive.missing? schema filter = some x) :
    bindFilter schema filter = .error (.noSuchColumn x.name schema.name) := by
  cases filter with
  | none => cases h
  | some f =>
    rw [Naive.missing?, Sql.Filter.conditions, List.map_cons, List.find?_cons] at h
    by_cases known : f.first.column.name ∈ schema.columnNames
    · obtain ⟨b, bound⟩ := BoundCondition.exists_ofCondition known
      simp only [known, not_true_eq_false, decide_false, List.map_map] at h
      have links := Predicate.ofLinks_error h
      simp [bindFilter, Predicate.ofFilter, bound, links, bind, Except.bind, Except.map]
    · simp only [known, not_false_eq_true, decide_true, Option.some.injEq] at h
      cases h
      simp [bindFilter, Predicate.ofFilter, BoundCondition.ofCondition_error known, bind,
        Except.bind, Except.map]

theorem exists_bindFilter {filter : Option Sql.Filter}
    (h : Naive.missing? schema filter = none) :
    ∃ p, bindFilter schema filter = .ok p ∧ ∀ (t : TableFile) (rest : Content),
      t.codec = .ofSchema schema → schema.rowWidth ≤ rest.bytes.length →
      selects p t rest = .ok (Naive.admits schema filter (rowAt schema rest)) := by
  cases filter with
  | none => exact ⟨none, rfl, fun _ _ _ _ => rfl⟩
  | some f =>
    rw [Naive.missing?, Sql.Filter.conditions, List.map_cons, List.find?_cons] at h
    by_cases known : f.first.column.name ∈ schema.columnNames
    · obtain ⟨b, bound⟩ := BoundCondition.exists_ofCondition known
      simp only [known, not_true_eq_false, decide_false, List.map_map] at h
      obtain ⟨bs, links⟩ := Predicate.exists_ofLinks h
      have whole : Predicate.ofFilter schema f = .ok ⟨b, bs⟩ := by
        simp [Predicate.ofFilter, bound, links, bind, Except.bind, pure, Except.pure]
      refine ⟨some ⟨b, bs⟩, by simp [bindFilter, whole, Except.map], ?_⟩
      intro t rest codec full
      exact Predicate.evaluate_eq codec full whole
    · simp [known] at h

end Binding

section Scanning

variable {schema : TableSchema} {p : Option Predicate} {t : TableFile}

theorem scanRows_eq {keeps : List Value → Bool} (marks : List Bool)
    (codec : t.codec = .ofSchema schema)
    (decides : ∀ rest : Content, schema.rowWidth ≤ rest.bytes.length →
      selects p t rest = .ok (keeps (rowAt schema rest)))
    (n : Nat) {rest : Content} (full : n * schema.rowWidth ≤ rest.bytes.length) :
    scanRows p marks t n rest
      = .ok (((TableFile.rowsAt schema.types n rest.bytes).filter keeps).map (project marks)) := by
  induction n generalizing rest with
  | zero => rfl
  | succ n ih =>
    rw [Nat.succ_mul] at full
    have width : t.codec.width = schema.rowWidth := by
      rw [codec]
      rfl
    have next : (t.nextRow rest).bytes = rest.bytes.drop schema.rowWidth := by
      rw [TableFile.nextRow, Content.bytes_behind, width]
    have left_ : n * schema.rowWidth ≤ (t.nextRow rest).bytes.length := by
      rw [next, List.length_drop]
      omega
    have row : t.firstRow rest = .ok (rowAt schema rest) := by
      rw [t.firstRow_eq (by omega), codec]
      rfl
    have others := ih left_
    rw [next] at others
    rw [scanRows, decides rest (by omega), TableFile.rowsAt, List.filter_cons]
    cases keeps (rowAt schema rest) with
    | false => exact others
    | true =>
      simp only [bind, Except.bind, row, others, pure, Except.pure, if_true, List.map_cons]
      rfl

end Scanning

namespace TableFile

/-- How many rows the header of a file counts. -/
def counted (content : Content) : Nat := Bytes.toNat (content.bytes.take headerSize)

/-- A table file that holds the rows it counts, and maybe more bytes. -/
def Whole (schema : TableSchema) (content : Content) : Prop :=
  headerSize + counted content * schema.rowWidth ≤ content.bytes.length

theorem counted_lt (content : Content) : counted content < UInt32.size := by
  have taken : (content.bytes.take headerSize).length ≤ 4 := List.length_take_le ..
  exact Nat.lt_of_lt_of_le (Bytes.toNat_lt _) (Nat.pow_le_pow_right (by decide) taken)

@[simp] theorem rowCount_counted (p : Path) (codec : RowCodec) (content : Content) :
    (⟨p, codec, .ofNat (counted content)⟩ : TableFile).rowCount = counted content :=
  UInt32.toNat_ofNat_of_lt' (counted_lt content)

theorem ofContent_eq {p : Path} {schema : TableSchema} {content : Content}
    (h : headerSize ≤ content.bytes.length) :
    ofContent p schema content = .ok ⟨p, .ofSchema schema, .ofNat (counted content)⟩ := by
  have header : content.slice? 0 headerSize = some (content.bytes.take headerSize) := by
    rw [Content.slice?_eq, Bytes.slice?_eq_some (by omega), List.drop_zero]
  rw [ofContent, header]
  rfl

theorem Whole.exists_ofContent {schema : TableSchema} {content : Content}
    (h : Whole schema content) (p : Path) :
    ∃ t, ofContent p schema content = .ok t ∧ t.codec = .ofSchema schema ∧
      t.rowCount = counted content :=
  ⟨_, ofContent_eq (Nat.le_trans (Nat.le_add_right _ _) h), rfl, rowCount_counted ..⟩

theorem bytes_fromRow_zero (t : TableFile) (content : Content) :
    (t.fromRow 0 content).bytes = content.bytes.drop headerSize := by
  rw [fromRow, Content.bytes_behind, rowOffset, Nat.zero_mul, Nat.add_zero]

theorem Whole.rows_fit {schema : TableSchema} {content : Content} (h : Whole schema content)
    (t : TableFile) :
    counted content * schema.rowWidth ≤ (t.fromRow 0 content).bytes.length := by
  rw [bytes_fromRow_zero, List.length_drop]
  rw [Whole] at h
  omega

theorem Whole.map_readRow {p : Path} {schema : TableSchema} {content : Content}
    (h : Whole schema content) {t : TableFile} (opened : ofContent p schema content = .ok t) :
    (t.scan.map fun i => t.readRow i content)
      = (rowsAt schema.types (counted content) (content.bytes.drop headerSize)).map .ok := by
  have header : headerSize ≤ content.bytes.length := Nat.le_trans (Nat.le_add_right _ _) h
  rw [ofContent_eq header] at opened
  cases opened
  rw [← rows_eq, rows, rowCount_counted, firstRows_eq _ _ (h.rows_fit _), bytes_fromRow_zero]
  rfl

end TableFile

section Queries

variable {δ : Type} {c : Catalog δ} {d : Disk δ} {s : Session} {database : String}
  {schema : TableSchema}

theorem openTable_yields {content : Content} {t : TableFile}
    (file : d.files.read (c.tablePath database schema.name) = .ok content)
    (opened : TableFile.ofContent (c.tablePath database schema.name) schema content = .ok t) :
    (openTable c database schema).Yields d (.ok (t, content)) d := by
  have read := (Action.Yields.read (d := d) (c.tablePath database schema.name)).mapError
    (tableFault (c.tablePath database schema.name))
  rw [file] at read
  refine .bind read ?_
  rw [opened]
  exact .succeed _

theorem currentDatabase_yields (current : s.database = some database) :
    (currentDatabase s : Act δ String).Yields d (.ok database) d := by
  rw [currentDatabase, current]
  exact .succeed _

theorem currentDatabase_yields_none (none_ : s.database = none) :
    (currentDatabase s : Act δ String).Yields d (.error .noDatabaseSelected) d := by
  rw [currentDatabase, none_]
  exact .fail _

theorem readSchema_yields {table : String} {text : Content} (found : c.Finds d database)
    (file : d.files.read (c.schemaPath database table) = .ok text)
    (decoded : Catalog.schemaOfContent (c.schemaPath database table) text = .ok schema) :
    (inCatalog (c.readSchema database table)).Yields d (.ok schema) d :=
  (found.readSchema file decoded).mapError EngineError.ofCatalog

variable {table : String} {text : Content} (columns : Sql.Columns) {filter : Option Sql.Filter}

theorem select_yields (current : s.database = some database) (found : c.Finds d database)
    (file : d.files.read (c.schemaPath database table) = .ok text)
    (decoded : Catalog.schemaOfContent (c.schemaPath database table) text = .ok schema)
    (known : Naive.missing? schema filter = none) {content : Content}
    (data : d.files.read (c.tablePath database schema.name) = .ok content)
    (whole : TableFile.Whole schema content) :
    (select c s columns table filter).Yields d (.ok (.selected (Naive.select schema columns filter
      (TableFile.rowsAt schema.types (TableFile.counted content)
        (content.bytes.drop TableFile.headerSize))))) d := by
  obtain ⟨p, bound, decides⟩ := exists_bindFilter known
  obtain ⟨t, opened, codec, count⟩ := whole.exists_ofContent (c.tablePath database schema.name)
  have rows := scanRows_eq (projection schema columns) codec
    (fun rest => decides t rest codec) _ (whole.rows_fit t)
  refine .bind (currentDatabase_yields current) (.bind (readSchema_yields found file decoded) ?_)
  have predicate : (Action.ofExcept (bindFilter schema filter) : Act δ (Option Predicate)).Yields d
      (.ok p) d := bound ▸ .ofExcept _
  refine .bind predicate (.bind (openTable_yields data opened) ?_)
  simp only [count, rows]
  refine .bind (.notify _ _) ?_
  rw [TableFile.bytes_fromRow_zero, Naive.project_columnNames, Naive.project_projection]
  exact .succeed _

theorem select_yields_missing (current : s.database = some database) (found : c.Finds d database)
    (file : d.files.read (c.schemaPath database table) = .ok text)
    (decoded : Catalog.schemaOfContent (c.schemaPath database table) text = .ok schema)
    {x : Sql.Identifier} (missing : Naive.missing? schema filter = some x) :
    (select c s columns table filter).Yields d (.error (.noSuchColumn x.name schema.name)) d := by
  refine .bind (currentDatabase_yields current) (.bind (readSchema_yields found file decoded) ?_)
  have predicate : (Action.ofExcept (bindFilter schema filter) : Act δ (Option Predicate)).Yields d
      (.error (.noSuchColumn x.name schema.name)) d := bindFilter_error missing ▸ .ofExcept _
  exact .bind_error predicate

/-- A query on a table file with arbitrary bytes answers as the plain query on the decoded rows, in the
declared types, and changes no file and no session. A filter on a column that the table does not have
is refused, whatever the table file. -/
theorem execute_select (w : World δ) (name : Sql.Identifier) (current : s.database = some database)
    (found : c.Finds w.disk database)
    (file : w.files.read (c.schemaPath database name.name) = .ok text)
    (decoded : Catalog.schemaOfContent (c.schemaPath database name.name) text = .ok schema) :
    (∀ x, Naive.missing? schema filter = some x → ∃ w', w'.disk = w.disk ∧
      execute c (.select columns name filter) s w
        = (.error (.noSuchColumn x.name schema.name), s, w')) ∧
    (Naive.missing? schema filter = none →
      ∀ content, w.files.read (c.tablePath database schema.name) = .ok content →
        TableFile.Whole schema content → ∃ t rows w',
          TableFile.ofContent (c.tablePath database schema.name) schema content = .ok t ∧
          (t.scan.map fun i => t.readRow i content) = rows.map .ok ∧
          execute c (.select columns name filter) s w
            = (.ok (.selected (Naive.select schema columns filter rows)), s, w') ∧
          w'.disk = w.disk ∧
          ∀ row ∈ (Naive.select schema columns filter rows).rows,
            row.map Value.type
              = (schema.columns.filter (Naive.requested columns)).map Column.type) := by
  refine ⟨?_, ?_⟩
  · intro x missing
    have answer := select_yields_missing columns current found file decoded missing
    exact ⟨_, (answer w rfl).2, Prod.ext (answer w rfl).1 rfl⟩
  · intro known content data whole
    have header : TableFile.headerSize ≤ content.bytes.length :=
      Nat.le_trans (Nat.le_add_right _ _) whole
    have answer := select_yields columns current found file decoded known data whole
    refine ⟨_, _, _, TableFile.ofContent_eq header, whole.map_readRow (TableFile.ofContent_eq header),
      Prod.ext (answer w rfl).1 rfl, (answer w rfl).2, ?_⟩
    intro row member
    obtain ⟨full, kept, rfl⟩ := List.mem_map.1 member
    exact Naive.map_type_shown columns (TableFile.map_type_of_mem_rowsAt (List.mem_filter.1 kept).1)

end Queries

def exampleSchema : TableSchema := ⟨"t", [⟨"a", .int⟩, ⟨"b", .varchar⟩]⟩

def exampleFiles : Files :=
  let rows := Bytes.ofNat 4 2 ++ Bytes.ofNat 4 1 ++ List.replicate 64 0 ++
    Bytes.ofNat 4 2 ++ [0xff, 0x41, 0, 7] ++ List.replicate 60 0xff ++ [9, 9]
  ⟨.directory [("r", .directory [("d", .directory
    [("t.schema", .file (.ofBytes (Text.encode (SchemaText.encode exampleSchema).toList))),
      ("t.table", .file (.ofBytes rows))])])], []⟩

def exampleCatalog : Catalog Unit := ⟨⟨"/r"⟩, Directory.onFiles⟩

theorem execute_select_garbled :
    let x : Sql.Identifier := ⟨"b", ⟨0, 0⟩⟩
    let y : Sql.Identifier := ⟨"a", ⟨0, 0⟩⟩
    let f : Sql.Filter := ⟨⟨x, .equal, .string "\uFFFDA"⟩, [(.or, ⟨y, .equal, .number "9"⟩)]⟩
    let w := World.ofFiles exampleFiles ()
    ∃ w', w'.disk = w.disk ∧
      execute exampleCatalog (.select (.named [x, x]) ⟨"t", ⟨0, 0⟩⟩ (some f)) ⟨some "d"⟩ w
        = (.ok (.selected ⟨["b"], [[.varchar "\uFFFDA"]]⟩), ⟨some "d"⟩, w') := by
  intro x y f w
  have current : (⟨some "d"⟩ : Session).database = some "d" := rfl
  have found : exampleCatalog.Finds w.disk "d" := rfl
  have decoded : Catalog.schemaOfContent (exampleCatalog.schemaPath "d" "t")
      (.ofBytes (Text.encode (SchemaText.encode exampleSchema).toList)) = .ok exampleSchema := rfl
  have known : Naive.missing? exampleSchema (some f) = none := rfl
  obtain ⟨t, rows, w', opened, read, result, disk, -⟩ :=
    (execute_select (.named [x, x]) w ⟨"t", ⟨0, 0⟩⟩ current found rfl decoded).2 known _ rfl (by
      unfold TableFile.Whole
      decide +kernel)
  have scanned : rows = [[.int 1, .varchar ""], [.int 2, .varchar "\uFFFDA"]] := by
    cases opened
    exact (List.map_inj_right fun _ _ => Except.ok.inj).1 (read.symm.trans rfl)
  refine ⟨w', disk, ?_⟩
  rw [result, scanned]
  rfl

end RowStore
