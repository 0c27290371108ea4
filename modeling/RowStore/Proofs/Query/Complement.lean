import RowStore.Proofs.Table.Reads

namespace RowStore

open Engine

namespace Sql

/-- The order that holds where another one does not. Equality has no opposite among comparators. -/
def Comparator.opposite : Comparator → Comparator
  | .less => .greaterEqual
  | .greaterEqual => .less
  | .greater => .lessEqual
  | .lessEqual => .greater
  | .equal => .equal

def Connective.opposite : Connective → Connective
  | .and => .or
  | .or => .and

def Condition.opposite (c : Condition) : Condition := { c with comparator := c.comparator.opposite }

def Filter.opposite (f : Filter) : Filter :=
  ⟨f.first.opposite, f.rest.map fun link => (link.1.opposite, link.2.opposite)⟩

def Filter.Ordering (f : Filter) : Prop := ∀ c ∈ f.conditions, c.comparator ≠ .equal

theorem Filter.conditions_opposite (f : Filter) :
    f.opposite.conditions = f.conditions.map Condition.opposite := by
  simp [opposite, conditions, Function.comp_def]

end Sql

theorem compareTexts_opposite {op : Sql.Comparator} (order : op ≠ .equal) (text literal : String) :
    compareTexts text op.opposite literal = !compareTexts text op literal := by
  cases op with
  | equal => exact absurd rfl order
  | less | greater | lessEqual | greaterEqual =>
    simp [compareTexts, Sql.Comparator.opposite, ← decide_not]

namespace Naive

variable {schema : TableSchema} {row : List Value}

theorem combine_opposite (a b : Bool) (op : Sql.Connective) :
    combine (!a) op.opposite (!b) = !combine a op b := by
  cases op <;> simp [combine, Sql.Connective.opposite]

theorem exists_cell {name : String} (known : name ∈ schema.columnNames)
    (full : row.length = schema.columns.length) : ∃ v, cell? schema row name = some v := by
  cases at_ : schema.columnIndex? name with
  | none => exact absurd known (TableSchema.columnIndex?_eq_none.1 at_)
  | some i =>
    have inside : i < schema.columns.length := (List.findIdx?_eq_some_iff_findIdx_eq.1 at_).1
    exact ⟨row[i], by rw [TableSchema.cell?_eq at_, List.getElem?_eq_getElem]⟩

theorem holds_opposite {c : Sql.Condition} (known : c.column.name ∈ schema.columnNames)
    (order : c.comparator ≠ .equal) (full : row.length = schema.columns.length) :
    holds schema row c.opposite = !holds schema row c := by
  obtain ⟨v, cell⟩ := exists_cell known full
  simp only [holds, Sql.Condition.opposite, cell, compareTexts_opposite order]

theorem admits_opposite {f : Sql.Filter}
    (known : ∀ c ∈ f.conditions, c.column.name ∈ schema.columnNames) (orders : f.Ordering)
    (full : row.length = schema.columns.length) :
    admits schema (some f.opposite) row = !admits schema (some f) row := by
  obtain ⟨first, links⟩ := f
  simp only [Sql.Filter.Ordering, Sql.Filter.conditions, List.forall_mem_cons,
    List.forall_mem_map] at known orders
  simp only [admits, Sql.Filter.opposite, List.foldl_map, holds_opposite known.1 orders.1 full]
  generalize holds schema row first = acc
  replace known := known.2
  replace orders := orders.2
  -- The opposite of what the links before came out as goes along the chain.
  induction links generalizing acc with
  | nil => rfl
  | cons link links ih =>
    rw [List.forall_mem_cons] at known orders
    rw [List.foldl_cons, List.foldl_cons, holds_opposite known.1 orders.1 full, combine_opposite,
      ih _ known.2 orders.2]

def resultAt (schema : TableSchema) (columns : Sql.Columns) (row : Nat → List Value)
    (places : List Nat) : ResultSet :=
  ⟨(schema.columns.filter (requested columns)).map Column.name,
    places.map fun i => shown schema columns (row i)⟩

theorem select_map (schema : TableSchema) (columns : Sql.Columns) (filter : Option Sql.Filter)
    (row : Nat → List Value) (places : List Nat) :
    select schema columns filter (places.map row)
      = resultAt schema columns row (places.filter fun i => admits schema filter (row i)) := by
  rw [select, resultAt, List.filter_map, List.map_map]
  rfl

theorem missing?_eq_none {f : Sql.Filter} :
    missing? schema (some f) = none ↔ ∀ c ∈ f.conditions, c.column.name ∈ schema.columnNames := by
  simp [missing?]

end Naive

theorem exists_ofFilter {schema : TableSchema} {f : Sql.Filter}
    (known : ∀ c ∈ f.conditions, c.column.name ∈ schema.columnNames) :
    ∃ p, Predicate.ofFilter schema f = .ok p := by
  obtain ⟨q, bound, -⟩ := exists_bindFilter (Naive.missing?_eq_none.2 known)
  cases made : Predicate.ofFilter schema f with
  | ok p => exact ⟨p, rfl⟩
  | error e => simp [bindFilter, made, Except.map] at bound

theorem merge_filter_not (keep : Nat → Bool) {places : List Nat} (h : places.Pairwise (· ≤ ·)) :
    (places.filter keep).merge (places.filter fun i => !keep i) = places := by
  have ascending : ((places.filter keep).merge (places.filter fun i => !keep i)).Pairwise
      fun a b => decide (a ≤ b) = true := by
    apply List.pairwise_merge
    · intro a b c ab bc
      exact decide_eq_true (Nat.le_trans (of_decide_eq_true ab) (of_decide_eq_true bc))
    · intro a b
      simpa using Nat.le_total a b
    · simpa using h.filter keep
    · simpa using h.filter fun i => !keep i
  simp only [decide_eq_true_eq] at ascending
  have same : ((places.filter keep).merge (places.filter fun i => !keep i)).Perm places :=
    (List.merge_perm_append _).trans (List.filter_append_perm keep places)
  exact same.eq_of_pairwise (fun _ _ _ _ => Nat.le_antisymm) ascending h

namespace TableFile

variable {schema : TableSchema} {content : Content} {t : TableFile}

theorem rowsAt_eq_map (types : List DataType) (n : Nat) (bs : Bytes) :
    rowsAt types n bs
      = (List.range n).map fun i => RowCodec.values types (bs.drop (i * DataType.totalWidth types)) := by
  induction n generalizing bs with
  | zero => rfl
  | succ n ih =>
    rw [rowsAt, ih, List.range_succ_eq_map, List.map_cons, List.map_map, Nat.zero_mul, List.drop_zero]
    congr 1
    apply List.map_congr_left
    intro i _
    rw [Function.comp_apply, List.drop_drop, Nat.succ_mul, Nat.add_comm]

def rowOf (t : TableFile) (schema : TableSchema) (content : Content) (i : Nat) : List Value :=
  rowAt schema (t.fromRow i content)

def selected (t : TableFile) (p : Predicate) (content : Content) : List Nat :=
  t.scan.filter fun i => p.evaluate t (t.fromRow i content) = .ok true

theorem map_rowOf (codec : t.codec = .ofSchema schema) :
    t.scan.map (t.rowOf schema content)
      = rowsAt schema.types t.rowCount (content.bytes.drop headerSize) := by
  rw [rowsAt_eq_map, scan]
  apply List.map_congr_left
  intro i _
  rw [rowOf, rowAt, fromRow, Content.bytes_behind, rowOffset, codec, List.drop_drop]
  rfl

section Places

variable {f : Sql.Filter} {p q : Predicate}

theorem evaluate_fromRow (codec : t.codec = .ofSchema schema)
    (full : ∀ i ∈ t.scan, schema.rowWidth ≤ (t.fromRow i content).bytes.length)
    (bound : Predicate.ofFilter schema f = .ok p) {i : Nat} (counted : i ∈ t.scan) :
    p.evaluate t (t.fromRow i content)
      = .ok (Naive.admits schema (some f) (t.rowOf schema content i)) :=
  Predicate.evaluate_eq codec (full i counted) bound

theorem selected_eq (codec : t.codec = .ofSchema schema)
    (full : ∀ i ∈ t.scan, schema.rowWidth ≤ (t.fromRow i content).bytes.length)
    (bound : Predicate.ofFilter schema f = .ok p) :
    t.selected p content
      = t.scan.filter fun i => Naive.admits schema (some f) (t.rowOf schema content i) := by
  apply List.filter_congr
  intro i counted
  rw [evaluate_fromRow codec full bound counted]
  simp

theorem evaluate_opposite (codec : t.codec = .ofSchema schema)
    (full : ∀ i ∈ t.scan, schema.rowWidth ≤ (t.fromRow i content).bytes.length)
    (known : ∀ x ∈ f.conditions, x.column.name ∈ schema.columnNames) (orders : f.Ordering)
    (bound : Predicate.ofFilter schema f = .ok p)
    (bound' : Predicate.ofFilter schema f.opposite = .ok q) {i : Nat} (counted : i ∈ t.scan) :
    ∃ b, p.evaluate t (t.fromRow i content) = .ok b ∧
      q.evaluate t (t.fromRow i content) = .ok !b := by
  refine ⟨_, evaluate_fromRow codec full bound counted, ?_⟩
  rw [evaluate_fromRow codec full bound' counted, Naive.admits_opposite known orders]
  simp [rowOf, TableSchema.types]

theorem merge_selected (opposed : ∀ i ∈ t.scan, ∃ b, p.evaluate t (t.fromRow i content) = .ok b ∧
      q.evaluate t (t.fromRow i content) = .ok !b) :
    (∀ i ∈ t.scan, i ∈ t.selected q content ↔ i ∉ t.selected p content) ∧
      (t.selected p content).merge (t.selected q content) = t.scan := by
  have others : t.selected q content
      = t.scan.filter fun i => !decide (p.evaluate t (t.fromRow i content) = .ok true) := by
    apply List.filter_congr
    intro i counted
    obtain ⟨b, first, second⟩ := opposed i counted
    cases b <;> simp [first, second]
  refine ⟨?_, ?_⟩
  · intro i counted
    rw [others]
    simp [selected, counted]
  · rw [others]
    exact merge_filter_not _ (List.pairwise_lt_range.imp Nat.le_of_lt)

end Places

theorem Whole.le_length_fromRow (whole : Whole schema content) (codec : t.codec = .ofSchema schema)
    (count : t.rowCount = counted content) {i : Nat} (h : i ∈ t.scan) :
    schema.rowWidth ≤ (t.fromRow i content).bytes.length := by
  have inside : (i + 1) * schema.rowWidth ≤ counted content * schema.rowWidth := by
    rw [← count]
    exact Nat.mul_le_mul_right _ (List.mem_range.1 h)
  have start : t.rowOffset i = headerSize + i * schema.rowWidth := by
    rw [rowOffset, codec]
    rfl
  rw [Whole] at whole
  rw [Nat.succ_mul] at inside
  rw [fromRow, Content.bytes_behind, List.length_drop, start]
  omega

end TableFile

section Queries

variable {δ : Type} {c : Catalog δ} {d : Disk δ} {s : Session} {database : String}
  {schema : TableSchema} {text content : Content} (columns : Sql.Columns) (name : Sql.Identifier)

theorem execute_select_yields {filter : Option Sql.Filter} {t : TableFile}
    (current : s.database = some database) (found : c.Finds d database)
    (file : d.files.read (c.schemaPath database name.name) = .ok text)
    (decoded : Catalog.schemaOfContent (c.schemaPath database name.name) text = .ok schema)
    (known : Naive.missing? schema filter = none)
    (data : d.files.read (c.tablePath database schema.name) = .ok content)
    (whole : TableFile.Whole schema content) (codec : t.codec = .ofSchema schema)
    (count : t.rowCount = TableFile.counted content) :
    (execute c (.select columns name filter)).Yields s d (.ok (.selected (Naive.resultAt schema
      columns (t.rowOf schema content)
      (t.scan.filter fun i => Naive.admits schema filter (t.rowOf schema content i))))) s d := by
  have answer := select_yields columns current found file decoded known data whole
  rw [← count, ← TableFile.map_rowOf codec, Naive.select_map] at answer
  exact .within answer

/-- Of the rows that a table holds, a filter of orders and its opposite select each one exactly once,
and merging the places that the two select gives the places of all rows. -/
theorem select_opposite {f : Sql.Filter}
    (current : s.database = some database) (found : c.Finds d database)
    (file : d.files.read (c.schemaPath database name.name) = .ok text)
    (decoded : Catalog.schemaOfContent (c.schemaPath database name.name) text = .ok schema)
    (known : ∀ x ∈ f.conditions, x.column.name ∈ schema.columnNames) (orders : f.Ordering)
    (data : d.files.read (c.tablePath database schema.name) = .ok content)
    (whole : TableFile.Whole schema content) :
    ∃ t p q, ∃ row : Nat → List Value,
      TableFile.ofContent (c.tablePath database schema.name) schema content = .ok t ∧
      Predicate.ofFilter schema f = .ok p ∧ Predicate.ofFilter schema f.opposite = .ok q ∧
      (∀ i ∈ t.scan, t.readRow i content = .ok (row i) ∧
        ∃ b, p.evaluate t (t.fromRow i content) = .ok b ∧
          q.evaluate t (t.fromRow i content) = .ok !b) ∧
      (∀ i ∈ t.scan, i ∈ t.selected q content ↔ i ∉ t.selected p content) ∧
      (t.selected p content).merge (t.selected q content) = t.scan ∧
      (execute c (.select columns name none)).Yields s d
        (.ok (.selected (Naive.resultAt schema columns row t.scan))) s d ∧
      (execute c (.select columns name (some f))).Yields s d
        (.ok (.selected (Naive.resultAt schema columns row (t.selected p content)))) s d ∧
      (execute c (.select columns name (some f.opposite))).Yields s d
        (.ok (.selected (Naive.resultAt schema columns row (t.selected q content)))) s d := by
  have known' : ∀ x ∈ f.opposite.conditions, x.column.name ∈ schema.columnNames := by
    rw [Sql.Filter.conditions_opposite, List.forall_mem_map]
    exact known
  obtain ⟨p, bound⟩ := exists_ofFilter known
  obtain ⟨q, bound'⟩ := exists_ofFilter known'
  obtain ⟨t, opened, codec, count⟩ := whole.exists_ofContent (c.tablePath database schema.name)
  have full : ∀ i ∈ t.scan, schema.rowWidth ≤ (t.fromRow i content).bytes.length :=
    fun i => whole.le_length_fromRow codec count
  have opposed : ∀ i ∈ t.scan, ∃ b, p.evaluate t (t.fromRow i content) = .ok b ∧
      q.evaluate t (t.fromRow i content) = .ok !b :=
    fun i => TableFile.evaluate_opposite codec full known orders bound bound'
  obtain ⟨other, merged⟩ := TableFile.merge_selected opposed
  have answer (filter) (known : Naive.missing? schema filter = none) :=
    execute_select_yields columns name current found file decoded known data whole codec count
  refine ⟨t, p, q, t.rowOf schema content, opened, bound, bound', ?_, other, merged, ?_, ?_, ?_⟩
  · intro i counted
    refine ⟨?_, opposed i counted⟩
    rw [TableFile.readRow_inside (List.mem_range.1 counted), t.firstRow_eq, codec]
    · rfl
    · rw [codec]
      exact full i counted
  · simpa [Naive.admits] using answer none rfl
  · rw [TableFile.selected_eq codec full bound]
    exact answer _ (Naive.missing?_eq_none.2 known)
  · rw [TableFile.selected_eq codec full bound']
    exact answer _ (Naive.missing?_eq_none.2 known')

end Queries

def exampleFilter : Sql.Filter :=
  ⟨⟨⟨"a", ⟨0, 0⟩⟩, .less, .number "2"⟩, [(.and, ⟨⟨"b", ⟨0, 0⟩⟩, .greaterEqual, .string "x"⟩)]⟩

theorem select_opposite_garbled :
    let d := (World.ofFiles exampleFiles ()).disk
    let ask := fun filter => execute exampleCatalog (.select .all ⟨"t", ⟨0, 0⟩⟩ filter)
    exampleFilter.Ordering ∧
      (ask (some exampleFilter)).Yields ⟨some "d"⟩ d
        (.ok (.selected ⟨["a", "b"], [[.int 1, .varchar ""]]⟩)) ⟨some "d"⟩ d ∧
      (ask (some exampleFilter.opposite)).Yields ⟨some "d"⟩ d
        (.ok (.selected ⟨["a", "b"], [[.int 2, .varchar "\uFFFDA"]]⟩)) ⟨some "d"⟩ d := by
  intro d ask
  have found : exampleCatalog.Finds d "d" := rfl
  have decoded : Catalog.schemaOfContent (exampleCatalog.schemaPath "d" "t")
      (.ofBytes (Text.encode (SchemaText.encode exampleSchema).toList)) = .ok exampleSchema := rfl
  have known : ∀ x ∈ exampleFilter.conditions, x.column.name ∈ exampleSchema.columnNames := by
    decide
  have orders : exampleFilter.Ordering := by
    simp [exampleFilter, Sql.Filter.Ordering, Sql.Filter.conditions]
  obtain ⟨content, data⟩ : ∃ content,
      d.files.read (exampleCatalog.tablePath "d" "t") = .ok content := ⟨_, rfl⟩
  have whole : TableFile.Whole exampleSchema content := by
    cases data
    unfold TableFile.Whole
    decide +kernel
  obtain ⟨t, p, q, row, opened, bound, bound', rows, -, -, -, answer, answer'⟩ :=
    select_opposite .all ⟨"t", ⟨0, 0⟩⟩ (s := ⟨some "d"⟩) rfl found rfl decoded known orders data whole
  have places : t.selected p content = [0] := by
    cases data
    cases opened
    cases bound
    decide +kernel
  have places' : t.selected q content = [1] := by
    cases data
    cases opened
    cases bound'
    decide +kernel
  have first : row 0 = [.int 1, .varchar ""] := by
    cases data
    cases opened
    exact Except.ok.inj ((rows 0 (by decide +kernel)).1.symm.trans rfl)
  have second : row 1 = [.int 2, .varchar "\uFFFDA"] := by
    cases data
    cases opened
    exact Except.ok.inj ((rows 1 (by decide +kernel)).1.symm.trans rfl)
  rw [places, Naive.resultAt, List.map_singleton, first] at answer
  rw [places', Naive.resultAt, List.map_singleton, second] at answer'
  exact ⟨orders, answer, answer'⟩

end RowStore
