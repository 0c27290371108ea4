import Mathlib.Data.Finmap
import Mathlib.Data.Finset.Sort
import Mathlib.Data.String.Basic
import RowStore.Proofs.Query.Naive
import RowStore.Proofs.Row.Literals
import RowStore.Proofs.Row.RoundTrip

/-!
Databases in memory, without files and bytes: finite maps from names to databases and from names to
tables. Each statement is given its plain meaning on them.
-/

namespace RowStore.Memory

structure Table where
  columns : List Column
  rows : List (List Value)

abbrev Database : Type := Finmap fun _ : String => Table

abbrev Store : Type := Finmap fun _ : String => Database

def names {α : Type} (m : Finmap fun _ : String => α) : List String := m.keys.sort

theorem mem_names {α : Type} {m : Finmap fun _ : String => α} {name : String} :
    name ∈ names m ↔ name ∈ m := by
  rw [names, Finset.mem_sort, Finmap.mem_keys]

def database (m : Store) (current : Option String) : Except EngineError (String × Database) :=
  match current with
  | none => .error .noDatabaseSelected
  | some name => match m.lookup name with
    | none => .error (.noSuchDatabase name)
    | some tables => .ok (name, tables)

def table (m : Store) (current : Option String) (name : String) :
    Except EngineError (String × Database × Table) := do
  let (selected, tables) ← database m current
  match tables.lookup name with
  | none => .error (.noSuchTable name)
  | some t => .ok (selected, tables, t)

def rowOf : List Column → List Sql.Literal → Except EngineError (List Value)
  | c :: cs, l :: ls => match Value.ofLiteral? c.type l.text with
    | none => .error (.storage (.invalidLiteral l.text c.type))
    | some v => (rowOf cs ls).map (v :: ·)
  | _, _ => .ok []

theorem rowOf_eq (cs : List Column) (ls : List Sql.Literal) :
    rowOf cs ls = (RowCodec.parseValues (cs.map Column.type) (ls.map Sql.Literal.text)).mapError
      EngineError.storage := by
  induction cs generalizing ls with
  | nil => rfl
  | cons c cs ih =>
    cases ls with
    | nil => rfl
    | cons l ls =>
      rw [rowOf, List.map_cons, List.map_cons, RowCodec.parseValues]
      cases Value.ofLiteral? c.type l.text with
      | none => rfl
      | some v =>
        simp only [ih ls]
        generalize RowCodec.parseValues (cs.map Column.type) (ls.map Sql.Literal.text) = answer
        cases answer <;> rfl

theorem mapError_parseRow (name : String) {cs : List Column} {ls : List Sql.Literal}
    (length : ls.length = cs.length) :
    ((RowCodec.ofSchema ⟨name, cs⟩).parseRow (ls.map Sql.Literal.text)).mapError EngineError.storage
      = rowOf cs ls := by
  have same : (ls.map Sql.Literal.text).length = (cs.map Column.type).length := by
    rw [List.length_map, List.length_map, length]
  rw [rowOf_eq]
  exact congrArg _ (if_pos same)

theorem map_type_rowOf {cs : List Column} {ls : List Sql.Literal} {row : List Value}
    (length : ls.length = cs.length) (h : rowOf cs ls = .ok row) :
    row.map Value.type = cs.map Column.type := by
  have same : (ls.map Sql.Literal.text).length = (cs.map Column.type).length := by
    rw [List.length_map, List.length_map, length]
  rw [rowOf_eq] at h
  cases parsed : RowCodec.parseValues (cs.map Column.type) (ls.map Sql.Literal.text) with
  | error e =>
    rw [parsed] at h
    cases h
  | ok values =>
    rw [parsed] at h
    cases h
    exact RowCodec.map_type_of_parseValues same parsed

def columnOf (c : Sql.ColumnDefinition) : Column := ⟨c.name.name, c.type⟩

/-- What a statement answers, the databases after it, and the current database after it. A statement
with an error changes neither. -/
def execute (m : Store) (current : Option String) :
    Sql.Statement → Except EngineError (Outcome × Store × Option String)
  | .createDatabase name =>
    if name.name ∈ m then .error (.catalog (.databaseExists name.name))
    else .ok (.databaseCreated name.name, m.insert name.name ∅, current)
  | .dropDatabase name =>
    if name.name ∈ m then
      .ok (.databaseDropped name.name, m.erase name.name,
        if current = some name.name then none else current)
    else .error (.noSuchDatabase name.name)
  | .useDatabase name =>
    if name.name ∈ m then .ok (.databaseChanged name.name, m, some name.name)
    else .error (.noSuchDatabase name.name)
  | .showNames .databases => .ok (.listing "Databases" (names m), m, current)
  | .showNames .tables => do
    let (selected, tables) ← database m current
    return (.listing s!"Tables in {selected}" (names tables), m, current)
  | .createTable name columns => do
    let (selected, tables) ← database m current
    if name.name ∈ tables then .error (.catalog (.tableExists name.name))
    else return (.tableCreated name.name,
      m.insert selected (tables.insert name.name ⟨columns.map columnOf, []⟩), current)
  | .dropTable name => do
    let (selected, tables, _) ← table m current name.name
    return (.tableDropped name.name, m.insert selected (tables.erase name.name), current)
  | .insert name _ literals => do
    let (selected, tables, t) ← table m current name.name
    if literals.length = t.columns.length then
      let row ← rowOf t.columns literals
      let longer : Table := ⟨t.columns, t.rows ++ [row.map Value.kept]⟩
      return (.inserted name.name 1, m.insert selected (tables.insert name.name longer), current)
    else .error (.arityMismatch name.name t.columns.length literals.length)
  | .select columns name filter => do
    let (_, _, t) ← table m current name.name
    match Naive.missing? ⟨name.name, t.columns⟩ filter with
    | some column => .error (.noSuchColumn column.name name.name)
    | none =>
      return (.selected (Naive.select ⟨name.name, t.columns⟩ columns filter t.rows), m, current)

end RowStore.Memory
