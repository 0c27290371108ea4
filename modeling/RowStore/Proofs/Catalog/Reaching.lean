import RowStore.Proofs.Catalog.FileNames
import RowStore.Proofs.Catalog.Lookup
import RowStore.Proofs.Disk.Holding

namespace RowStore

variable {δ : Type}

def Disk.putEntries (d : Disk δ) (l : Location) (es : List (String × Tree)) : Disk δ :=
  { d with files := d.files.putAt l (.directory es) }

section Entries

variable {d : Disk δ} {p : Path} {l : Location} {es : List (String × Tree)}
  (holds : d.files.Holds p l es)

include holds

theorem Disk.putEntries_putEntries (fs gs : List (String × Tree)) :
    (d.putEntries l fs).putEntries l gs = d.putEntries l gs :=
  congrArg (fun files => (⟨files, d.state⟩ : Disk δ)) (holds.putAt_putAt _ _)

theorem Disk.putEntries_self : d.putEntries l es = d :=
  congrArg (fun files => (⟨files, d.state⟩ : Disk δ)) holds.putAt_self

end Entries

namespace Catalog

variable {c : Catalog δ} {d : Disk δ} {f : Files} {database table ext : String} {l : Location}
  {es fs : List (String × Tree)} {content : Content}

theorem utf8ByteSize_filePath_le (c : Catalog δ) (database : String) (named : Sql.IsName table)
    (mem : ext ∈ extensions) : (c.filePath database table ext).text.utf8ByteSize
      ≤ (c.schemaPath database table).text.utf8ByteSize := by
  refine Path.utf8ByteSize_join_le_join (plain_fileName named mem)
    (plain_fileName named schema_mem) _ ?_
  have size (ext : String) : (fileName table ext).utf8ByteSize
      = (table ++ ".").utf8ByteSize + ext.utf8ByteSize := String.utf8ByteSize_append
  rw [size, size]
  simp only [extensions, List.mem_cons, List.not_mem_nil, or_false] at mem
  rcases mem with rfl | rfl | rfl
  · exact Nat.le_refl _
  · exact Nat.add_le_add_left (by decide) _
  · exact Nat.add_le_add_left (by decide) _

theorem tables_yields (service : c.directory = .onFiles)
    (holds : d.files.Holds (c.databasePath database) l es) : ∃ stems,
      Directory.fileStems schemaExtension (c.databasePath database) d.files = .ok stems ∧
      (c.tables database).Yields d (.ok (Names.sort stems)) d := by
  obtain ⟨stems, eq⟩ : ∃ stems,
      Directory.fileStems schemaExtension (c.databasePath database) d.files = .ok stems :=
    ⟨_, congrArg (Except.map _) (Files.list_directory holds.located holds.stands)⟩
  have answer : c.directory.listFiles schemaExtension (c.databasePath database) d
      = (.ok stems, d) := by
    rw [service]
    exact Prod.ext eq rfl
  exact ⟨stems, eq, .bind (finds_of_isDirectory service holds.isDirectory).requireDatabase
    (.bind (.mapError _ (.ask answer)) (.pure _))⟩

theorem not_mem_fileStems {stems : List String} (list : f.list (c.databasePath database) = .ok es)
    (missing : Entries.get? (fileName table schemaExtension) es = none)
    (answer : Directory.fileStems schemaExtension (c.databasePath database) f = .ok stems) :
    table ∉ Names.sort stems := by
  rw [Directory.fileStems, list] at answer
  cases answer
  rw [(Names.sort_perm _).mem_iff, List.mem_filterMap]
  rintro ⟨⟨name, t⟩, mem, stem⟩
  have name_eq : name = fileName table schemaExtension := eq_fileName_of_stem? stem
  exact Entries.get?_eq_none.1 missing
    (name_eq ▸ List.mem_map_of_mem (List.mem_of_mem_filter mem))

structure Reaches (c : Catalog δ) (f : Files) (database table : String) (l : Location)
    (es : List (String × Tree)) : Prop extends f.Holds (c.databasePath database) l es where
  named : Sql.IsName table
  short : (c.schemaPath database table).text.utf8ByteSize < Files.pathLimit

namespace Reaches

variable (reaches : c.Reaches f database table l es)

include reaches

theorem short_file (mem : ext ∈ extensions) :
    (c.filePath database table ext).text.utf8ByteSize < Files.pathLimit :=
  Nat.lt_of_le_of_lt (c.utf8ByteSize_filePath_le database reaches.named mem) reaches.short

theorem replaced (keeps : ∀ name ds, Entries.get? name es = some (.directory ds) →
    Entries.get? name fs = some (.directory ds)) :
    c.Reaches (f.putAt l (.directory fs)) database table l fs :=
  ⟨reaches.toHolds.replaced keeps, reaches.named, reaches.short⟩

theorem put (flat : ∀ ds, Entries.get? (fileName table ext) es ≠ some (.directory ds))
    (content : Content) :
    c.Reaches (f.putAt l (.directory (Entries.put (fileName table ext) (.file content) es)))
      database table l (Entries.put (fileName table ext) (.file content) es) := by
  refine reaches.replaced fun name ds entry => ?_
  have other : name ≠ fileName table ext := fun eq => flat ds (eq ▸ entry)
  rw [Entries.get?_put_of_ne other, entry]

end Reaches

end Catalog

end RowStore
