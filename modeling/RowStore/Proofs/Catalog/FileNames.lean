import RowStore.Catalog
import RowStore.Proofs.Disk.Path
import RowStore.Proofs.Sql.Names

namespace RowStore

theorem Sql.IsName.plain {name : String} (h : Sql.IsName name) : Path.Plain name where
  some_ := h.some_
  slash := h.not_mem (by decide)
  nul := h.not_mem (by decide)
  dot eq := h.not_mem (c := '.') (by decide) (by rw [eq]; decide)
  dots eq := h.not_mem (c := '.') (by decide) (by rw [eq]; decide)
  short := by
    have short := h.short
    rw [← Text.utf8ByteSize_eq] at short
    exact Nat.le_trans short (by decide)

namespace Catalog

def extensions : List String := [schemaExtension, tableExtension, indexExtension]

theorem schema_mem : schemaExtension ∈ extensions := by simp [extensions]

theorem table_mem : tableExtension ∈ extensions := by simp [extensions]

theorem index_mem : indexExtension ∈ extensions := by simp [extensions]

theorem table_ne_schema : tableExtension ≠ schemaExtension := by decide

theorem index_ne_schema : indexExtension ≠ schemaExtension := by decide

theorem index_ne_table : indexExtension ≠ tableExtension := by decide

def fileName (table ext : String) : String := table ++ "." ++ ext

theorem toList_fileName (table ext : String) :
    (fileName table ext).toList = table.toList ++ '.' :: ext.toList := by
  rw [fileName, String.toList_append, String.toList_append, List.append_assoc]
  rfl

variable {table other ext ext' : String}

theorem dot_not_mem_of_mem_extensions (h : ext ∈ extensions) : '.' ∉ ext.toList := by
  simp only [extensions, List.mem_cons, List.not_mem_nil, or_false] at h
  rcases h with rfl | rfl | rfl <;> decide

theorem fileName_inj (h : Sql.IsName table) (h' : Sql.IsName other) :
    fileName table ext = fileName other ext' ↔ table = other ∧ ext = ext' := by
  constructor
  · intro eq
    have chars := congrArg String.toList eq
    rw [toList_fileName, toList_fileName] at chars
    have before {name : String} (h : Sql.IsName name) (rest : List Char) :
        (name.toList ++ '.' :: rest).takeWhile (· ≠ '.') = name.toList := by
      have inner : ∀ c ∈ name.toList, decide (c ≠ '.') = true := by
        intro c mem
        exact decide_eq_true fun dot => h.not_mem (c := '.') (by decide) (dot ▸ mem)
      rw [List.takeWhile_append_of_pos inner]
      simp
    have first := congrArg (List.takeWhile (· ≠ '.')) chars
    rw [before h, before h'] at first
    rw [first] at chars
    exact ⟨String.toList_inj.1 first,
      String.toList_inj.1 (List.cons.inj (List.append_cancel_left chars)).2⟩
  · rintro ⟨rfl, rfl⟩
    rfl

theorem utf8ByteSize_fileName_le (h : Sql.IsName table) (mem : ext ∈ extensions) :
    (fileName table ext).utf8ByteSize ≤ 70 := by
  have short := h.short
  rw [← Text.utf8ByteSize_eq] at short
  have size : ext.utf8ByteSize ≤ 6 := by
    simp only [extensions, List.mem_cons, List.not_mem_nil, or_false] at mem
    rcases mem with rfl | rfl | rfl <;> decide
  have limit : Text.clipLimit = 63 := rfl
  have dot : ".".utf8ByteSize = 1 := rfl
  rw [fileName, String.utf8ByteSize_append, String.utf8ByteSize_append, dot]
  omega

theorem plain_fileName (h : Sql.IsName table) (mem : ext ∈ extensions) :
    Path.Plain (fileName table ext) := by
  have chars : '/' ∉ ext.toList ∧ '\x00' ∉ ext.toList := by
    simp only [extensions, List.mem_cons, List.not_mem_nil, or_false] at mem
    rcases mem with rfl | rfl | rfl <;> decide
  have name := toList_fileName table ext
  have first : (fileName table ext).toList.head? ≠ some '.' := by
    cases letters : table.toList with
    | nil => exact absurd letters h.some_
    | cons c cs =>
      have letter : c ≠ '.' := by
        rintro rfl
        exact h.not_mem (c := '.') (by decide) (letters ▸ List.mem_cons_self)
      simpa [name, letters] using letter
  refine ⟨?_, ?_, ?_, ?_, ?_, ?_⟩
  · simp [name]
  · simp [name, chars.1, h.plain.slash]
  · simp [name, chars.2, h.plain.nul]
  · intro eq
    exact first (by rw [eq]; rfl)
  · intro eq
    exact first (by rw [eq]; rfl)
  · exact Nat.le_trans (utf8ByteSize_fileName_le h mem) (by decide)

def without (table : String) (fs : List (String × Tree)) : List (String × Tree) :=
  Entries.erase (fileName table indexExtension) (Entries.erase (fileName table tableExtension)
    (Entries.erase (fileName table schemaExtension) fs))

theorem get?_erase_fileName (h : Sql.IsName table) (ne : ext ≠ ext') (fs : List (String × Tree)) :
    Entries.get? (fileName table ext) (Entries.erase (fileName table ext') fs)
      = Entries.get? (fileName table ext) fs :=
  Entries.get?_erase_of_ne (fun eq => ne ((fileName_inj h h).1 eq).2) fs

theorem get?_put_fileName (h : Sql.IsName table) (ne : ext ≠ ext') (t : Tree)
    (fs : List (String × Tree)) :
    Entries.get? (fileName table ext) (Entries.put (fileName table ext') t fs)
      = Entries.get? (fileName table ext) fs :=
  Entries.get?_put_of_ne (fun eq => ne ((fileName_inj h h).1 eq).2) t fs

theorem stem?_fileName (h : Sql.IsName table) (mem : ext ∈ extensions) (wanted : String) :
    Path.stem? wanted (fileName table ext) = if ext = wanted then some table else none := by
  have cut := Path.cutName_append table.toList (dot_not_mem_of_mem_extensions mem)
  rw [if_neg h.some_] at cut
  simp only [Path.stem?, toList_fileName, cut, Option.some.injEq, String.toList_inj,
    String.ofList_toList]

theorem eq_fileName_of_stem? {name : String} (h : Path.stem? ext name = some table) :
    name = fileName table ext := by
  rw [← String.toList_inj, toList_fileName]
  exact Path.eq_of_stem? h

end Catalog

end RowStore
