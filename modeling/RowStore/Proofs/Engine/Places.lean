import RowStore.Engine
import RowStore.Proofs.Sql.Relocation

namespace RowStore.Engine

open Sql

variable {δ : Type}

section Execute

variable (f : Span → Span)

@[simp] theorem differs_relocate (schema : TableSchema) (columns : Option Columns) :
    differs schema (columns.map (Columns.relocate f)) = differs schema columns := by
  cases columns with
  | none => rfl
  | some columns =>
    cases columns <;> simp [differs, Columns.relocate, Function.comp_def, Identifier.relocate]

@[simp] theorem projection_relocate (schema : TableSchema) (columns : Columns) :
    projection schema (columns.relocate f) = projection schema columns := by
  cases columns with
  | all => rfl
  | named names =>
    simp [projection, Columns.relocate, List.any_map, Function.comp_def, Identifier.relocate]

@[simp] theorem schemaOf_relocate (name : Identifier) (columns : List ColumnDefinition) :
    schemaOf (name.relocate f) (columns.map (ColumnDefinition.relocate f))
      = schemaOf name columns := by
  simp [schemaOf, Function.comp_def, ColumnDefinition.relocate, Identifier.relocate]

theorem ofLinks_relocate (schema : TableSchema) (links : List (Connective × Condition)) :
    Predicate.ofLinks schema (links.map fun link => (link.1, link.2.relocate f))
      = Predicate.ofLinks schema links := by
  induction links with
  | nil => rfl
  | cons link links ih =>
    rw [List.map_cons, Predicate.ofLinks, ih]
    rfl

@[simp] theorem ofFilter_relocate (schema : TableSchema) (w : Filter) :
    Predicate.ofFilter schema (w.relocate f) = Predicate.ofFilter schema w := by
  rw [Predicate.ofFilter, Predicate.ofFilter, Filter.relocate, ofLinks_relocate]
  rfl

theorem execute_relocate (c : Catalog δ) (stmt : Statement) :
    execute c (stmt.relocate f) = execute c stmt := by
  cases stmt with
  | createDatabase | dropDatabase | dropTable | useDatabase | showNames => rfl
  | createTable name columns => simp only [Statement.relocate, execute, schemaOf_relocate]
  | insert table columns values =>
    simp only [Statement.relocate, execute, insert, differs_relocate]
    rfl
  | select columns table filter =>
    cases filter <;>
      simp only [Statement.relocate, execute, select, projection_relocate, Option.map_none,
        Option.map_some, ofFilter_relocate] <;> rfl

end Execute

end RowStore.Engine

namespace RowStore

def EngineError.bare : EngineError → EngineError
  | .parse e => .parse e.bare
  | e => e

namespace Engine

variable {δ : Type}

def Result.bare (r : Result) : Result := r.mapError EngineError.bare

section Run

variable (c : Catalog δ) (s : Session) (w : World δ)

theorem runParsed_congr {p p' : Sql.Parsed} (h : p.bare = p'.bare) :
    (runParsed c s w p).1.bare = (runParsed c s w p').1.bare ∧
      (runParsed c s w p).2 = (runParsed c s w p').2 := by
  cases p with
  | error e =>
    cases p' with
    | ok s' => cases h
    | error e' =>
      have errors : e.bare = e'.bare := Except.error.inj h
      exact ⟨congrArg (fun e => (.error (.parse e) : Result)) errors, rfl⟩
  | ok stmt =>
    cases p' with
    | error e' => cases h
    | ok stmt' =>
      have statements : stmt.bare = stmt'.bare := Except.ok.inj h
      have same : execute c stmt = execute c stmt' := by
        rw [← execute_relocate Sql.Span.forget c stmt, ← execute_relocate Sql.Span.forget c stmt']
        exact congrArg (execute c) statements
      rw [runParsed, runParsed, same]
      exact ⟨rfl, rfl⟩

theorem runAll_cons (p : Sql.Parsed) (ps : List Sql.Parsed) :
    runAll c s w (p :: ps)
      = ((runParsed c s w p).1 :: (runAll c (runParsed c s w p).2.1 (runParsed c s w p).2.2 ps).1,
        (runAll c (runParsed c s w p).2.1 (runParsed c s w p).2.2 ps).2) := rfl

theorem runAll_congr {ps ps' : List Sql.Parsed}
    (h : ps.map Sql.Parsed.bare = ps'.map Sql.Parsed.bare) :
    (runAll c s w ps).1.map Result.bare = (runAll c s w ps').1.map Result.bare ∧
      (runAll c s w ps).2 = (runAll c s w ps').2 := by
  induction ps generalizing ps' s w with
  | nil =>
    obtain rfl : ps' = [] := List.map_eq_nil_iff.1 h.symm
    exact ⟨rfl, rfl⟩
  | cons p ps ih =>
    obtain ⟨p', others, rfl, first, rest⟩ := List.map_eq_cons_iff.1 h.symm
    obtain ⟨result, after⟩ := runParsed_congr c s w first.symm
    obtain ⟨results, final⟩ := ih (runParsed c s w p).2.1 (runParsed c s w p).2.2 rest.symm
    simp only [runAll_cons, List.map_cons]
    rw [result, results, final, after]
    exact ⟨rfl, rfl⟩

theorem runAll_append (ps ps' : List Sql.Parsed) :
    runAll c s w (ps ++ ps')
      = ((runAll c s w ps).1 ++ (runAll c (runAll c s w ps).2.1 (runAll c s w ps).2.2 ps').1,
        (runAll c (runAll c s w ps).2.1 (runAll c s w ps).2.2 ps').2) := by
  induction ps generalizing s w with
  | nil => rfl
  | cons p ps ih =>
    rw [List.cons_append, runAll_cons, ih, runAll_cons]
    rfl

end Run

end Engine

end RowStore
