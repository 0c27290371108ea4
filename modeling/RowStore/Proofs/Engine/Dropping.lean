import RowStore.Proofs.Catalog.Declaring
import RowStore.Proofs.Catalog.Dropping
import RowStore.Proofs.Engine.Insertion

namespace RowStore

namespace Engine

open Catalog

variable {δ : Type} {c : Catalog δ} {s : Session} {w : World δ} {database : String}

theorem notFound_of_noSuchTable (unreliable : c.directory.Unreliable)
    (current : s.database = some database) {x : Sql.Identifier} {table : String}
    (answer : (runParsed c s w (.ok (.dropTable x))).1 = .error (.noSuchTable table)) :
    ∃ (d : Disk δ) (f : Fault), d.files = w.files ∧
      (c.directory.deleteFile (c.schemaPath database x.name) d).1 = .error f ∧
      f.faultClass = .notFound := by
  obtain ⟨r, d', dropped, dropping⟩ := exists_dropTable_yields unreliable w.disk database x.name
  have selected := currentDatabase_yields (d := w.disk) (δ := δ) current
  have passed := dropped.mapError EngineError.ofCatalog
  cases r with
  | ok =>
    obtain ⟨w', -, run⟩ := runParsed_of_keeping (.dropTable x) rfl
      (selected.bind (passed.bind (.pure _)))
    rw [run] at answer
    cases answer
  | error e =>
    obtain ⟨w', -, run⟩ := runParsed_of_keeping (.dropTable x) rfl
      (selected.bind passed.bind_error)
    rw [run] at answer
    have cause : EngineError.ofCatalog e = .noSuchTable table := Except.error.inj answer
    generalize d'.files = left at dropping
    cases dropping with
    | stopped mem fault gone => cases cause
    | refused refusal =>
      cases refusal with
      | unfound => cases cause
      | @service d f files refused =>
        refine ⟨d, f, files, refused, ?_⟩
        by_cases missing : f.faultClass = .notFound
        · exact missing
        · rw [missingFault, if_neg missing] at cause
          cases cause

/-- A drop that fails leaves everything as it was, or it is a data file that could not be deleted,
and the schema is gone then. -/
theorem dropTable_error (unreliable : c.directory.Unreliable) {table : String} {e : CatalogError}
    (failed : (c.dropTable database table w).1 = .error e) :
    let w' := (c.dropTable database table w).2
    (Retriable c database table w w' ∧
      ∀ s x w'', s.database = some database → x.name = table →
        (runParsed c s w'' (.ok (.dropTable x))).1 = .error (.noSuchTable table) →
          ∃ (d : Disk δ) (f : Fault), d.files = w''.files ∧
            (c.directory.deleteFile (c.schemaPath database table) d).1 = .error f ∧
            f.faultClass = .notFound) ∨
      ∃ ext ∈ [tableExtension, indexExtension], ∃ f : Fault,
        e = .io (c.filePath database table ext) f ∧ f.faultClass ≠ .notFound ∧
        Undeclares c database table w.files w'.files ∧
        ∀ w'', w''.files = w'.files → (c.dropTable database table w'').1 ≠ .ok () := by
  intro w'
  obtain ⟨r, d', dropped, dropping⟩ := exists_dropTable_yields unreliable w.disk database table
  obtain ⟨answer, disk⟩ := dropped w rfl
  rw [answer] at failed
  rw [← show w'.files = d'.files from congrArg Disk.files disk] at dropping
  generalize left : w'.files = f' at dropping
  cases failed
  cases dropping with
  | refused refusal =>
    refine .inl ⟨retriable_of_files unreliable left, ?_⟩
    rintro s x w'' current rfl answer
    exact notFound_of_noSuchTable unreliable current answer
  | @stopped _ ext f mem fault gone =>
    refine .inr ⟨ext, mem, f, rfl, fault, gone, fun w'' files again => ?_⟩
    obtain ⟨r, d'', dropped, dropping⟩ := exists_dropTable_yields unreliable w''.disk database table
    rw [(dropped w'' rfl).1] at again
    subst again
    generalize d''.files = f'' at dropping
    cases dropping with
    | done gone' =>
      have before := gone'.before
      rw [show w''.disk.files = f' from files, gone.after] at before
      cases before

section Witnesses

def databaseWith (data : Tree) : World Unit :=
  World.ofFiles ⟨.directory [("r", .directory [("d", .directory
    [("t.schema", .file (SchemaText.content twinSchema)), ("t.table", data),
      ("t.idx", .file (.ofBytes IndexHeader.initial.content))])])], []⟩ ()

def denied : Fault := .reported .other "Permission denied (os error 13)"

def sealedCatalog : Catalog Unit :=
  ⟨⟨"/r"⟩, .scripted (fun c => if c = .deleteFile ⟨"/r/d/t.schema"⟩ then some (.fault denied)
    else none) .onFiles⟩

theorem dropTable_error_sealed :
    let w := databaseWith (.file TableFile.emptyContent)
    (sealedCatalog.dropTable "d" "t" w).1 = .error (.io ⟨"/r/d/t.schema"⟩ denied) ∧
      Retriable sealedCatalog "d" "t" w (sealedCatalog.dropTable "d" "t" w).2 := by
  intro w
  have faults : ∀ (c : Call) (a : Directory.Answer),
      (if c = .deleteFile ⟨"/r/d/t.schema"⟩ then some (Directory.Answer.fault denied) else none)
        = some a → ∃ e, a = .fault e := by
    intro c a answer
    split at answer <;> cases answer
    exact ⟨denied, rfl⟩
  have failed : (sealedCatalog.dropTable "d" "t" w).1 = .error (.io ⟨"/r/d/t.schema"⟩ denied) := rfl
  have sealed : sealedCatalog.directory.Unreliable :=
    Directory.unreliable_onFiles.scripted faults
  rcases dropTable_error sealed failed with ⟨retriable, -⟩ | ⟨ext, mem, f, eq, -⟩
  · exact ⟨failed, retriable⟩
  · have path := (CatalogError.io.inj eq).1
    rcases List.mem_pair.1 mem with rfl | rfl <;> exact absurd path (by decide)

/-- A directory in the place of the table file keeps a table from being dropped. Its schema is gone
afterwards, and dropping it again finds no table, with both other files still there. -/
theorem dropTable_stubborn :
    let w := databaseWith (.directory [])
    let w' := (rootCatalog.dropTable "d" "t" w).2
    (rootCatalog.dropTable "d" "t" w).1
        = .error (.io (rootCatalog.tablePath "d" "t") .isDirectory) ∧
      w.files.isFile (rootCatalog.schemaPath "d" "t") = true ∧
      w'.files.isFile (rootCatalog.schemaPath "d" "t") = false ∧
      (rootCatalog.readSchema "d" "t" w').1 = .error (.noSuchTable "t") ∧
      (rootCatalog.dropTable "d" "t" w').1 = .error (.noSuchTable "t") ∧
      (rootCatalog.dropTable "d" "t" w').2.files.isFile (rootCatalog.indexPath "d" "t") = true := by
  decide

end Witnesses

end Engine

end RowStore
