import RowStore.Proofs.Catalog.FileNames
import RowStore.Proofs.Catalog.Lookup
import RowStore.Proofs.Catalog.Names
import RowStore.Proofs.Disk.Holding
import RowStore.Proofs.Disk.Unreliable

namespace RowStore

namespace Catalog

variable {δ : Type}

inductive Refusal (c : Catalog δ) (database table : String) (f : Files) : CatalogError → Prop
  | unfound : Refusal c database table f (.noSuchDatabase database)
  | service {d : Disk δ} {e : Fault} : d.files = f →
      (c.directory.deleteFile (c.schemaPath database table) d).1 = .error e →
      Refusal c database table f (missingFault (c.schemaPath database table) table e)

structure Undeclares (c : Catalog δ) (database table : String) (f f' : Files) : Prop where
  before : f.isFile (c.schemaPath database table) = true
  after : f'.isFile (c.schemaPath database table) = false

theorem Undeclares.shrink {c : Catalog δ} {database table : String} {f f' f'' : Files}
    (gone : Undeclares c database table f f')
    (less : ∀ p, f''.isFile p = true → f'.isFile p = true) :
    Undeclares c database table f f'' :=
  ⟨gone.before, Bool.eq_false_iff.2 fun still => Bool.eq_false_iff.1 gone.after (less _ still)⟩

/-- How dropping a table comes out, and what files it leaves. -/
inductive Dropping (c : Catalog δ) (database table : String) (f : Files) :
    Except CatalogError Unit → Files → Prop
  | refused {e : CatalogError} : Refusal c database table f e →
      Dropping c database table f (.error e) f
  | stopped {f' : Files} {ext : String} {e : Fault} : ext ∈ [tableExtension, indexExtension] →
      e.faultClass ≠ .notFound → Undeclares c database table f f' →
      Dropping c database table f (.error (.io (c.filePath database table ext) e)) f'
  | done {f' : Files} : Undeclares c database table f f' → Dropping c database table f (.ok ()) f'

section Steps

variable {c : Catalog δ} (unreliable : c.directory.Unreliable) (d : Disk δ)
  (database table : String) (p : Path)

include unreliable

theorem exists_requireDatabase_yields : ∃ r d', (c.requireDatabase database).Yields d r d' ∧
    d'.files = d.files ∧ (r = .ok () ∨ r = .error (.noSuchDatabase database)) := by
  have files := unreliable.directoryExists (c.databasePath database) d
  cases answer : c.directory.directoryExists (c.databasePath database) d with
  | mk there d' =>
    rw [answer] at files
    have asked : (c.databaseExists database : Act δ Bool).Yields d (.ok there) d' := .askFlag answer
    cases there with
    | true => exact ⟨_, d', asked.bind (.pure ()), files, .inl rfl⟩
    | false => exact ⟨_, d', asked.bind (.fail _), files, .inr rfl⟩

theorem exists_dropSchema_yields : ∃ r d', (c.dropSchema database table).Yields d r d' ∧
    ((∃ e, r = .error e ∧ d'.files = d.files ∧ Refusal c database table d.files e) ∨
      r = .ok () ∧ Undeclares c database table d.files d'.files) := by
  obtain ⟨r, d', required, files, rfl | rfl⟩ := exists_requireDatabase_yields unreliable d database
  · have asked : (c.deleteFile (c.schemaPath database table)).Yields d' _ _ := .ask rfl
    rcases unreliable.deleteFile (c.schemaPath database table) d'
      with ⟨e, refused, files'⟩ | ⟨answer, gone⟩
    · rw [refused] at asked
      exact ⟨_, _, required.bind (asked.mapError _),
        .inl ⟨_, rfl, files'.trans files, .service files refused⟩⟩
    · rw [answer] at asked
      have before := (Files.exists_of_deleteFile gone).1
      have after := fun still => (Files.isFile_of_deleteFile gone still).1 rfl
      exact ⟨_, _, required.bind (asked.mapError _),
        .inr ⟨rfl, files ▸ before, Bool.eq_false_iff.2 after⟩⟩
  · exact ⟨_, d', required.bind_error, .inl ⟨_, rfl, files, .unfound⟩⟩

theorem exists_deleteLeftover_yields : ∃ r d', (c.deleteLeftover p).Yields d r d' ∧
    (∀ q, d'.files.isFile q = true → d.files.isFile q = true) ∧
    (r = .ok () ∨ ∃ e : Fault, r = .error (.io p e) ∧ e.faultClass ≠ .notFound) := by
  have asked : (c.deleteFile p).Yields d _ _ := .ask rfl
  rcases unreliable.deleteFile p d with ⟨e, refused, files⟩ | ⟨answer, gone⟩
  · have same : ∀ q, (c.directory.deleteFile p d).2.files.isFile q = true →
        d.files.isFile q = true := by
      rw [files]
      exact fun _ => id
    rw [refused] at asked
    by_cases missing : e.faultClass = .notFound
    · refine ⟨_, _, .bind asked.attempt ?_, same, .inl rfl⟩
      simp only [if_pos missing]
      exact .pure ()
    · refine ⟨_, _, .bind asked.attempt ?_, same, .inr ⟨e, rfl, missing⟩⟩
      simp only [if_neg missing]
      exact .fail _
  · rw [answer] at asked
    exact ⟨_, _, .bind asked.attempt (.pure ()),
      fun q still => (Files.isFile_of_deleteFile gone still).2, .inl rfl⟩

theorem exists_dropTable_yields : ∃ r d', (c.dropTable database table).Yields d r d' ∧
    Dropping c database table d.files r d'.files := by
  obtain ⟨r, d₁, schema, ⟨e, rfl, files, refusal⟩ | ⟨rfl, gone⟩⟩ :=
    exists_dropSchema_yields unreliable d database table
  · exact ⟨_, d₁, schema.bind_error, by rw [files]; exact .refused refusal⟩
  · obtain ⟨r, d₂, first, less, rfl | ⟨e, rfl, fault⟩⟩ :=
      exists_deleteLeftover_yields unreliable d₁ (c.tablePath database table)
    · obtain ⟨r, d₃, second, less', rfl | ⟨e, rfl, fault⟩⟩ :=
        exists_deleteLeftover_yields unreliable d₂ (c.indexPath database table)
      · exact ⟨_, d₃, schema.bind (first.bind (second.bind (.notify _ _))),
          .done ((gone.shrink less).shrink less')⟩
      · exact ⟨_, d₃, schema.bind (first.bind second.bind_error),
          .stopped (.tail _ (.head _)) fault ((gone.shrink less).shrink less')⟩
    · exact ⟨_, d₂, schema.bind first.bind_error, .stopped (.head _) fault (gone.shrink less)⟩

end Steps

/-- Nothing was lost by a drop that failed: the schema is still listed and found, as far as the
service answers. -/
structure Retriable (c : Catalog δ) (database table : String) (w w' : World δ) : Prop where
  files : w'.files = w.files
  listed : ∀ names, (c.tables database w').1 = .ok names → ∃ stems,
    Directory.fileStems schemaExtension (c.databasePath database) w.files = .ok stems ∧
      names = Names.sort stems
  named : ∀ names, (c.tables database w').1 = .ok names → Sql.IsName table →
    w.files.isFile (c.schemaPath database table) = true → table ∈ names
  found : ∀ content, w.files.read (c.schemaPath database table) = .ok content →
    (c.readSchema database table w').1 = schemaOfContent (c.schemaPath database table) content ∨
      (c.readSchema database table w').1 = .error (.noSuchDatabase database)

theorem mem_fileStems_of_isFile {c : Catalog δ} {f : Files} {database table : String}
    {stems : List String} (named : Sql.IsName table)
    (list : Directory.fileStems schemaExtension (c.databasePath database) f = .ok stems)
    (file : f.isFile (c.schemaPath database table) = true) : table ∈ stems := by
  rw [Directory.fileStems] at list
  cases entries : f.list (c.databasePath database) with
  | error e =>
    rw [entries] at list
    cases list
  | ok es =>
    rw [entries] at list
    cases list
    obtain ⟨l, holds⟩ := Files.Holds.of_list entries
    obtain ⟨-, place, content, way, stand⟩ := Files.isFile_iff.1 file
    have plain := plain_fileName named schema_mem
    have located := holds.locate_name plain (Files.follow_eq_ok.1 way).2.1
    cases way.symm.trans located
    rw [holds.at?_name] at stand
    refine List.mem_filterMap.2 ⟨_, List.mem_filter.2 ⟨Entries.mem_of_get? stand, file⟩, ?_⟩
    exact (stem?_fileName named schema_mem schemaExtension).trans (if_pos rfl)

section Answers

variable {c : Catalog δ} (unreliable : c.directory.Unreliable) {d : Disk δ}
  {database table : String}

include unreliable

theorem exists_tables_yields : ∃ r d', (c.tables database).Yields d r d' ∧
    ∀ names, r = .ok names → ∃ stems,
      Directory.fileStems schemaExtension (c.databasePath database) d.files = .ok stems ∧
        names = Names.sort stems := by
  obtain ⟨r, d', required, files, rfl | rfl⟩ := exists_requireDatabase_yields unreliable d database
  · have list := (unreliable.listFiles schemaExtension (c.databasePath database) d').2
    cases answer : c.directory.listFiles schemaExtension (c.databasePath database) d' with
    | mk r d'' =>
      cases r with
      | error e => exact ⟨_, d'', required.bind (.bind_error (.mapError _ (.ask answer))), nofun⟩
      | ok ns =>
        refine ⟨_, d'', required.bind (.bind (.mapError _ (.ask answer)) (.pure _)), ?_⟩
        rintro names ⟨⟩
        obtain ⟨stems, there, perm⟩ := list ns (by rw [answer])
        exact ⟨stems, files ▸ there, Names.sort_eq_of_perm perm⟩
  · exact ⟨_, d', required.bind_error, nofun⟩

theorem exists_readSchema_yields_found {content : Content}
    (file : d.files.read (c.schemaPath database table) = .ok content) :
    ∃ r d', (c.readSchema database table).Yields d r d' ∧
      (r = schemaOfContent (c.schemaPath database table) content ∨
        r = .error (.noSuchDatabase database)) := by
  obtain ⟨r, d', required, files, rfl | rfl⟩ := exists_requireDatabase_yields unreliable d database
  · have read := (Action.Yields.read (d := d') (c.schemaPath database table)).mapError
      (missingFault (c.schemaPath database table) table)
    rw [files, file] at read
    exact ⟨_, d', required.bind (.bind read (.ofExcept _)), .inl rfl⟩
  · exact ⟨_, d', required.bind_error, .inr rfl⟩

end Answers

theorem retriable_of_files {c : Catalog δ} (unreliable : c.directory.Unreliable)
    {database table : String} {w w' : World δ} (files : w'.files = w.files) :
    Retriable c database table w w' := by
  have listed : ∀ names, (c.tables database w').1 = .ok names → ∃ stems,
      Directory.fileStems schemaExtension (c.databasePath database) w.files = .ok stems ∧
        names = Names.sort stems := by
    obtain ⟨r, d', yields, list⟩ := exists_tables_yields unreliable (d := w'.disk)
    rw [show w'.disk.files = w.files from files] at list
    intro names answer
    exact list names ((yields w' rfl).1.symm.trans answer)
  refine ⟨files, listed, ?_, ?_⟩
  · intro names answer named file
    obtain ⟨stems, there, rfl⟩ := listed names answer
    exact (Names.sort_perm _).mem_iff.2 (mem_fileStems_of_isFile named there file)
  · intro content read
    obtain ⟨r, d', yields, found⟩ := exists_readSchema_yields_found unreliable (d := w'.disk)
      (files.symm ▸ read)
    rw [(yields w' rfl).1]
    exact found

end Catalog

end RowStore
