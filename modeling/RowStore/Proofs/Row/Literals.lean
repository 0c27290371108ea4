import RowStore.Row.Codec
import RowStore.Sql.Statement

namespace RowStore.RowCodec

theorem parseValues_eq_ok {cs : List Column} {ls : List Sql.Literal} {row : List Value} :
    parseValues (cs.map Column.type) (ls.map Sql.Literal.text) = .ok row ↔
      List.zipWith (fun c l => Value.ofLiteral? c.type l.text) cs ls = row.map some := by
  induction cs generalizing ls row with
  | nil => cases row <;> simp [parseValues]
  | cons c cs ih =>
    cases ls with
    | nil => cases row <;> simp [parseValues]
    | cons l ls =>
      rw [List.map_cons, List.map_cons, parseValues, List.zipWith_cons_cons]
      cases Value.ofLiteral? c.type l.text with
      | none => cases row <;> simp
      | some v =>
        cases row with
        | nil => cases parseValues (cs.map Column.type) (ls.map Sql.Literal.text) <;> simp [Except.map]
        | cons u us =>
          rw [List.map_cons, List.cons_eq_cons, Option.some_inj, ← ih]
          cases parseValues (cs.map Column.type) (ls.map Sql.Literal.text) <;> simp [Except.map]

theorem map_type_of_parseValues {types : List DataType} {literals : List String} {row : List Value}
    (length : literals.length = types.length) (h : parseValues types literals = .ok row) :
    row.map Value.type = types := by
  induction types generalizing literals row with
  | nil =>
    cases literals <;> cases h <;> rfl
  | cons t ts ih =>
    cases literals with
    | nil => cases length
    | cons l ls =>
      rw [parseValues] at h
      cases first : Value.ofLiteral? t l with
      | none =>
        rw [first] at h
        cases h
      | some v =>
        cases others : parseValues ts ls with
        | error e =>
          rw [first, others] at h
          cases h
        | ok vs =>
          rw [first, others] at h
          cases h
          rw [List.map_cons, Value.type_of_ofLiteral? first, ih (Nat.succ.inj length) others]

theorem parseRow_eq_ok {schema : TableSchema} {ls : List Sql.Literal} {row : List Value}
    (length : ls.length = schema.columns.length) :
    (ofSchema schema).parseRow (ls.map Sql.Literal.text) = .ok row ↔
      List.zipWith (fun c l => Value.ofLiteral? c.type l.text) schema.columns ls = row.map some := by
  have same : (ls.map Sql.Literal.text).length = (schema.columns.map Column.type).length := by
    rw [List.length_map, List.length_map, length]
  rw [parseRow, ofSchema, TableSchema.types, if_pos same, parseValues_eq_ok]

theorem map_type_of_parseRow {c : RowCodec} {literals : List String} {row : List Value}
    (h : c.parseRow literals = .ok row) : row.map Value.type = c.types := by
  rw [parseRow] at h
  split at h
  · rename_i length
    exact map_type_of_parseValues length h
  · cases h

end RowStore.RowCodec
