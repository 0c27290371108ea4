import RowStore.Proofs.Catalog.FileNames
import RowStore.Proofs.Sql.Image

namespace RowStore.Catalog

inductive OfTable : String → Prop
  | mk {table ext : String} : Sql.PlainName table → ext ∈ extensions → OfTable (fileName table ext)

inductive Place (root : Path) : Path → Prop
  | root : Place root root
  | database {database : String} : Sql.PlainName database → Place root (root.join database)
  | file {database name : String} : Sql.PlainName database → OfTable name →
      Place root ((root.join database).join name)

theorem OfTable.plain {name : String} (h : OfTable name) : Path.Plain name := by
  cases h with
  | mk plain mem => exact plain_fileName plain.isName mem

theorem steps_join_join {root : Path} {database name : String} (outer : Path.Plain database)
    (inner : Path.Plain name) :
    ((root.join database).join name).steps = root.steps ++ [database, name] := by
  rw [Path.steps_join inner, Path.steps_join outer, List.append_assoc, List.singleton_append]

theorem Place.exists_steps {root p : Path} (h : Place root p) : ∃ below : List String,
    p.steps = root.steps ++ below ∧ below.length ≤ 2 ∧ ∀ step ∈ below, Path.Plain step := by
  cases h with
  | root => exact ⟨[], (List.append_nil _).symm, Nat.zero_le 2, nofun⟩
  | @database database plain =>
    have step := plain.isName.plain
    refine ⟨[database], Path.steps_join step root, Nat.le_succ 1, fun name mem => ?_⟩
    rwa [List.mem_singleton.1 mem]
  | @file database name plain own =>
    have step := plain.isName.plain
    refine ⟨[database, name], steps_join_join step own.plain, Nat.le_refl 2, fun other mem => ?_⟩
    rcases List.mem_cons.1 mem with rfl | mem
    · exact step
    · rw [List.mem_singleton.1 mem]
      exact own.plain

theorem steps_filePath_inj {δ : Type} (c : Catalog δ) {database database' table table' : String}
    {ext ext' : String} (hd : Sql.IsName database) (hd' : Sql.IsName database')
    (ht : Sql.IsName table) (ht' : Sql.IsName table') (hx : ext ∈ extensions)
    (hx' : ext' ∈ extensions)
    (same : (c.filePath database table ext).steps = (c.filePath database' table' ext').steps) :
    database = database' ∧ table = table' ∧ ext = ext' := by
  have path {database table ext : String} (hd : Sql.IsName database) (ht : Sql.IsName table)
      (hx : ext ∈ extensions) :
      (c.filePath database table ext).steps = c.root.steps ++ [database, fileName table ext] :=
    steps_join_join hd.plain (plain_fileName ht hx)
  rw [path hd ht hx, path hd' ht' hx'] at same
  obtain ⟨databases, rest⟩ := List.cons.inj (List.append_cancel_left same)
  exact ⟨databases, (fileName_inj ht ht').1 (List.cons.inj rest).1⟩

end RowStore.Catalog
