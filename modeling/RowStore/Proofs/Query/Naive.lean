import RowStore.Engine
import RowStore.Proofs.Row.Layout

namespace RowStore

open Engine

namespace Naive

def requested (columns : Sql.Columns) (c : Column) : Bool :=
  match columns with
  | .all => true
  | .named names => names.any fun x => x.name == c.name

def cell? (schema : TableSchema) (row : List Value) (name : String) : Option Value :=
  (schema.columnNames.zip row).lookup name

def holds (schema : TableSchema) (row : List Value) (c : Sql.Condition) : Bool :=
  match cell? schema row c.column.name with
  | some v => compareTexts v.text c.comparator c.literal.text
  | none => false

def combine (a : Bool) (op : Sql.Connective) (b : Bool) : Bool :=
  match op with
  | .and => a && b
  | .or => a || b

def admits (schema : TableSchema) (filter : Option Sql.Filter) (row : List Value) : Bool :=
  match filter with
  | none => true
  | some f => f.rest.foldl (fun acc link => combine acc link.1 (holds schema row link.2))
      (holds schema row f.first)

def shown (schema : TableSchema) (columns : Sql.Columns) (row : List Value) : List Value :=
  ((schema.columns.zip row).filter fun p => requested columns p.1).map Prod.snd

def select (schema : TableSchema) (columns : Sql.Columns) (filter : Option Sql.Filter)
    (rows : List (List Value)) : ResultSet :=
  ⟨(schema.columns.filter (requested columns)).map Column.name,
    (rows.filter (admits schema filter)).map (shown schema columns)⟩

/-- The first column of a filter that the table does not have. -/
def missing? (schema : TableSchema) (filter : Option Sql.Filter) : Option Sql.Identifier :=
  match filter with
  | none => none
  | some f => (f.conditions.map Sql.Condition.column).find? fun x =>
      decide (x.name ∉ schema.columnNames)

end Naive

theorem TableSchema.cell?_eq {schema : TableSchema} {name : String} {i : Nat}
    (h : schema.columnIndex? name = some i) (row : List Value) :
    Naive.cell? schema row name = row[i]? := by
  obtain ⟨table, columns⟩ := schema
  simp only [Naive.cell?, TableSchema.columnNames, TableSchema.columnIndex?] at h ⊢
  induction columns generalizing row i with
  | nil => cases h
  | cons c cs ih =>
    rw [List.findIdx?_cons] at h
    cases row with
    | nil => simp
    | cons v vs =>
      rw [List.map_cons, List.zip_cons_cons, List.lookup_cons]
      by_cases same : c.name = name
      · rw [if_pos (beq_iff_eq.2 same)] at h
        cases h
        simp [same]
      · rw [if_neg (by simpa using same)] at h
        obtain ⟨j, at_, rfl⟩ := Option.map_eq_some_iff.1 h
        have other : (name == c.name) = false := by simpa using Ne.symm same
        rw [other]
        exact ih vs at_

theorem TableSchema.columnIndex?_eq_none {schema : TableSchema} {name : String} :
    schema.columnIndex? name = none ↔ name ∉ schema.columnNames := by
  simp [columnIndex?, columnNames, List.findIdx?_eq_none_iff]

section Filters

variable {schema : TableSchema} {t : TableFile} {rest : Content}

abbrev rowAt (schema : TableSchema) (rest : Content) : List Value :=
  RowCodec.values schema.types rest.bytes

theorem BoundCondition.evaluate_eq {c : Sql.Condition} {b : BoundCondition}
    (codec : t.codec = .ofSchema schema) (full : schema.rowWidth ≤ rest.bytes.length)
    (h : ofCondition schema c = .ok b) :
    b.evaluate t rest = .ok (Naive.holds schema (rowAt schema rest) c) := by
  rw [ofCondition] at h
  split at h
  · rename_i i at_
    cases h
    have inside : i < schema.columns.length := (List.findIdx?_eq_some_iff_findIdx_eq.1 at_).1
    have bound : i < (rowAt schema rest).length := by simpa [TableSchema.types] using inside
    have cell := TableSchema.cell?_eq at_ (rowAt schema rest)
    rw [List.getElem?_eq_getElem bound] at cell
    have value : t.firstColumn i rest = .ok (rowAt schema rest)[i] := by
      apply t.firstColumn_eq
      · rw [codec]
        exact full
      · rw [codec]
        exact List.getElem?_eq_getElem bound
    simp only [evaluate, value, Naive.holds, cell]
    rfl
  · cases h

theorem Predicate.evaluateLinks_eq {links : List (Sql.Connective × Sql.Condition)}
    {bound : List (Sql.Connective × BoundCondition)} (codec : t.codec = .ofSchema schema)
    (full : schema.rowWidth ≤ rest.bytes.length) (h : ofLinks schema links = .ok bound)
    (acc : Bool) :
    evaluateLinks t rest acc bound = .ok (links.foldl (fun acc link =>
      Naive.combine acc link.1 (Naive.holds schema (rowAt schema rest) link.2)) acc) := by
  -- Once a connective is decided, its right side does not matter.
  induction links generalizing bound acc with
  | nil =>
    cases h
    rfl
  | cons link links ih =>
    obtain ⟨op, c⟩ := link
    cases first : BoundCondition.ofCondition schema c with
    | error e => simp [ofLinks, first, bind, Except.bind] at h
    | ok b =>
      cases others : ofLinks schema links with
      | error e => simp [ofLinks, first, others, bind, Except.bind] at h
      | ok bs =>
        simp only [ofLinks, first, others, bind, Except.bind, pure, Except.pure] at h
        cases h
        have value := BoundCondition.evaluate_eq codec full first
        rw [evaluateLinks, value, List.foldl_cons]
        -- Where the left side decides, the right side is not evaluated, and the fold agrees.
        cases op <;> cases acc <;> simp [Naive.combine, ih others]

theorem Predicate.evaluate_eq {f : Sql.Filter} {p : Predicate} (codec : t.codec = .ofSchema schema)
    (full : schema.rowWidth ≤ rest.bytes.length) (h : ofFilter schema f = .ok p) :
    p.evaluate t rest = .ok (Naive.admits schema (some f) (rowAt schema rest)) := by
  cases first : BoundCondition.ofCondition schema f.first with
  | error e => simp [ofFilter, first, bind, Except.bind] at h
  | ok b =>
    cases others : ofLinks schema f.rest with
    | error e => simp [ofFilter, first, others, bind, Except.bind] at h
    | ok bs =>
      simp only [ofFilter, first, others, bind, Except.bind, pure, Except.pure] at h
      cases h
      simp only [evaluate, BoundCondition.evaluate_eq codec full first,
        evaluateLinks_eq codec full others, Naive.admits]

end Filters

end RowStore
