import RowStore.Proofs.Catalog.Names
import RowStore.Proofs.Catalog.OnVolume
import RowStore.Proofs.Catalog.SchemaText
import RowStore.Proofs.Memory.Store
import RowStore.Proofs.Query.Select
import RowStore.Table.Index

namespace RowStore.Memory

open Catalog

structure Table.WellNamed (name : String) (t : Table) : Prop where
  table : Sql.IsName name
  column : ∀ c ∈ t.columns, Sql.IsName c.name
  some_ : t.columns ≠ []

/-- The content of a table file that keeps these rows. What was written for a row may say more than what
is read from it. -/
def Table.Written (t : Table) (content : Content) : Prop :=
  ∃ rows, content.bytes = TableFile.imageOf rows ∧
    (∀ row ∈ rows, row.map Value.type = t.columns.map Column.type) ∧
    t.rows = rows.map (List.map Value.kept)

structure Table.Image (name : String) (t : Table) (fs : List (String × Tree)) : Prop where
  named : t.WellNamed name
  small : t.rows.length < 2 ^ 32
  schema : ∃ content, Entries.get? (fileName name schemaExtension) fs = some (.file content) ∧
    content.bytes = Text.encode (SchemaText.encode ⟨name, t.columns⟩).toList
  data : ∃ content, Entries.get? (fileName name tableExtension) fs = some (.file content) ∧
    t.Written content
  index : ∃ content, Entries.get? (fileName name indexExtension) fs = some (.file content) ∧
    content.bytes = IndexHeader.initial.content

structure Database.Image (tables : Database) (fs : List (String × Tree)) : Prop where
  nodup : (fs.map Prod.fst).Nodup
  table : ∀ name t, tables.lookup name = some t → t.Image name fs
  only : ∀ file ∈ fs.map Prod.fst, ∃ name ∈ tables, ∃ ext ∈ extensions, file = fileName name ext

structure Store.Image (m : Store) (es : List (String × Tree)) : Prop where
  nodup : (es.map Prod.fst).Nodup
  named : ∀ name ∈ m, Sql.IsName name
  database : ∀ name tables, m.lookup name = some tables →
    ∃ fs, Entries.get? name es = some (.directory fs) ∧ tables.Image fs
  only : ∀ name ∈ es.map Prod.fst, name ∈ m

def Named (current : Option String) : Prop := ∀ name, current = some name → Sql.IsName name

def Store.Roomy (m : Store) : Prop :=
  ∀ database tables, m.lookup database = some tables →
    ∀ name t, tables.lookup name = some t → t.rows.length < 2 ^ 32 - 1

section Tables

variable {name other : String} {t : Table} {fs fs' : List (String × Tree)}

theorem Table.Image.congr (h : t.Image name fs)
    (same : ∀ ext ∈ extensions,
      Entries.get? (fileName name ext) fs' = Entries.get? (fileName name ext) fs) :
    t.Image name fs' where
  named := h.named
  small := h.small
  schema := by
    rw [same _ schema_mem]
    exact h.schema
  data := by
    rw [same _ table_mem]
    exact h.data
  index := by
    rw [same _ index_mem]
    exact h.index

theorem Table.Image.files (h : t.Image name fs) :
    ∀ ext ∈ extensions, ∃ content, Entries.get? (fileName name ext) fs = some (.file content) := by
  intro ext mem
  obtain ⟨_, schema, -⟩ := h.schema
  obtain ⟨_, data, -⟩ := h.data
  obtain ⟨_, index, -⟩ := h.index
  simp only [extensions, List.mem_cons, List.not_mem_nil, or_false] at mem
  rcases mem with rfl | rfl | rfl
  · exact ⟨_, schema⟩
  · exact ⟨_, data⟩
  · exact ⟨_, index⟩

def SameApart (name : String) (fs fs' : List (String × Tree)) : Prop :=
  ∀ file, (∀ ext ∈ extensions, file ≠ fileName name ext) →
    Entries.get? file fs' = Entries.get? file fs

theorem SameApart.put {ext : String} (mem : ext ∈ extensions) (u : Tree)
    (h : SameApart name fs fs') :
    SameApart name fs (Entries.put (fileName name ext) u fs') := by
  intro file away
  rw [Entries.get?_put_of_ne (away ext mem), h file away]

theorem SameApart.erase {ext : String} (mem : ext ∈ extensions) (h : SameApart name fs fs') :
    SameApart name fs (Entries.erase (fileName name ext) fs') := by
  intro file away
  rw [Entries.get?_erase_of_ne (away ext mem), h file away]

theorem SameApart.refl (name : String) (fs : List (String × Tree)) : SameApart name fs fs :=
  fun _ _ => rfl

theorem Table.Image.of_sameApart (h : t.Image other fs) (apart : SameApart name fs fs')
    (named : Sql.IsName name) (ne : other ≠ name) : t.Image other fs' := by
  apply h.congr
  intro ext _
  apply apart
  intro ext' _ eq
  exact ne ((fileName_inj h.named.table named).1 eq).1

end Tables

section Databases

variable {tables : Database} {name : String} {t : Table} {fs fs' : List (String × Tree)}

theorem Database.Image.empty : Database.Image ∅ [] where
  nodup := List.nodup_nil
  table name t h := by simp at h
  only := by simp

theorem Database.Image.missing (h : tables.Image fs) (named : Sql.IsName name)
    (out : name ∉ tables) (ext : String) :
    Entries.get? (fileName name ext) fs = none := by
  rw [Entries.get?_eq_none]
  intro file
  obtain ⟨other, inside, ext', -, eq⟩ := h.only _ file
  obtain ⟨u, found⟩ := Finmap.mem_iff.1 inside
  obtain ⟨rfl, -⟩ := (fileName_inj named (h.table _ _ found).named.table).1 eq
  exact out inside

theorem Database.Image.only_sameApart (h : tables.Image fs) (apart : SameApart name fs fs')
    {file : String} (there : file ∈ fs'.map Prod.fst) :
    (∃ ext ∈ extensions, file = fileName name ext) ∨
      ∃ other ∈ tables, ∃ ext ∈ extensions, file = fileName other ext := by
  by_cases own : ∃ ext ∈ extensions, file = fileName name ext
  · exact .inl own
  · have away : ∀ ext ∈ extensions, file ≠ fileName name ext := fun ext one eq => own ⟨ext, one, eq⟩
    obtain ⟨u, found⟩ := Entries.mem_map_fst_iff.1 there
    rw [apart file away] at found
    exact .inr (h.only file (Entries.mem_map_fst_iff.2 ⟨u, found⟩))

theorem Database.Image.insert (h : tables.Image fs) (apart : SameApart name fs fs')
    (nodup : (fs'.map Prod.fst).Nodup) (image : t.Image name fs') :
    Database.Image (tables.insert name t) fs' where
  nodup := nodup
  table other u found := by
    by_cases same : other = name
    · cases same
      rw [Finmap.lookup_insert] at found
      cases found
      exact image
    · rw [Finmap.lookup_insert_of_ne _ same] at found
      exact (h.table other u found).of_sameApart apart image.named.table same
  only file mem := by
    rcases h.only_sameApart apart mem with ⟨ext, one, eq⟩ | ⟨other, inside, ext, one, eq⟩
    · exact ⟨name, Finmap.mem_insert.2 (.inl rfl), ext, one, eq⟩
    · exact ⟨other, Finmap.mem_insert.2 (.inr inside), ext, one, eq⟩

theorem fileName_not_mem_without (name : String) (fs : List (String × Tree)) {ext : String}
    (mem : ext ∈ extensions) : fileName name ext ∉ (without name fs).map Prod.fst := by
  simp only [without, Entries.mem_map_fst_erase]
  simp only [extensions, List.mem_cons, List.not_mem_nil, or_false] at mem
  rcases mem with rfl | rfl | rfl <;> simp

theorem Database.Image.erase (h : tables.Image fs) (named : Sql.IsName name) :
    Database.Image (tables.erase name) (without name fs) := by
  have apart : SameApart name fs (without name fs) :=
    (((SameApart.refl name fs).erase schema_mem).erase table_mem).erase index_mem
  refine ⟨Entries.nodup_erase (Entries.nodup_erase (Entries.nodup_erase h.nodup)), ?_, ?_⟩
  · intro other u found
    have ne : other ≠ name := by
      rintro rfl
      rw [Finmap.lookup_erase] at found
      cases found
    rw [Finmap.lookup_erase_ne ne] at found
    exact (h.table other u found).of_sameApart apart named ne
  · intro file mem
    rcases h.only_sameApart apart mem with ⟨ext, one, rfl⟩ | ⟨other, inside, ext, one, rfl⟩
    · exact absurd mem (fileName_not_mem_without name fs one)
    · have ne : other ≠ name := by
        rintro rfl
        exact fileName_not_mem_without other fs one mem
      exact ⟨other, Finmap.mem_erase.2 ⟨ne, inside⟩, ext, one, rfl⟩

end Databases

section Stores

variable {m : Store} {tables : Database} {name : String} {es fs : List (String × Tree)}

theorem Store.Image.empty : Store.Image ∅ [] where
  nodup := List.nodup_nil
  named name h := absurd h Finmap.notMem_empty
  database name tables h := by simp at h
  only := by simp

theorem Store.Image.missing (h : m.Image es) (out : m.lookup name = none) :
    Entries.get? name es = none :=
  Entries.get?_eq_none.2 fun mem => Finmap.lookup_eq_none.1 out (h.only name mem)

theorem Store.Image.insert (h : m.Image es) (named : Sql.IsName name) (image : tables.Image fs) :
    Store.Image (m.insert name tables) (Entries.put name (.directory fs) es) where
  nodup := Entries.nodup_put h.nodup
  named other mem := by
    rcases Finmap.mem_insert.1 mem with rfl | mem
    · exact named
    · exact h.named other mem
  database other inner found := by
    by_cases same : other = name
    · cases same
      rw [Finmap.lookup_insert] at found
      cases found
      exact ⟨fs, Entries.get?_put_self name _ es, image⟩
    · rw [Finmap.lookup_insert_of_ne _ same] at found
      rw [Entries.get?_put_of_ne same]
      exact h.database other inner found
  only other mem := by
    rcases Entries.mem_map_fst_put.1 mem with rfl | mem
    · exact Finmap.mem_insert.2 (.inl rfl)
    · exact Finmap.mem_insert.2 (.inr (h.only other mem))

theorem Store.Image.erase (h : m.Image es) (name : String) :
    Store.Image (m.erase name) (Entries.erase name es) where
  nodup := Entries.nodup_erase h.nodup
  named other mem := h.named other (Finmap.mem_erase.1 mem).2
  database other inner found := by
    have ne : other ≠ name := by
      rintro rfl
      rw [Finmap.lookup_erase] at found
      cases found
    rw [Finmap.lookup_erase_ne ne] at found
    rw [Entries.get?_erase_of_ne ne]
    exact h.database other inner found
  only other mem := by
    obtain ⟨ne, mem⟩ := Entries.mem_map_fst_erase.1 mem
    exact Finmap.mem_erase.2 ⟨ne, h.only other mem⟩

end Stores

section Listings

variable {m : Store} {tables : Database} {es fs : List (String × Tree)}

theorem nodup_filterMap {α : Type} {es : List (String × α)} {f : String × α → Option String}
    (h : (es.map Prod.fst).Nodup)
    (inj : ∀ a b n, f a = some n → f b = some n → a.1 = b.1) : (es.filterMap f).Nodup := by
  rw [List.Nodup, List.pairwise_filterMap]
  rw [List.Nodup, List.pairwise_map] at h
  apply h.imp
  rintro a b ne n first n' second rfl
  exact ne (inj a b n first second)

theorem Store.Image.sort_subdirectoryNames (h : m.Image es) :
    Names.sort (Directory.subdirectoryNames es) = names m := by
  apply Names.sort_eq
  · apply nodup_filterMap h.nodup
    rintro ⟨a, t⟩ ⟨b, u⟩ n first second
    cases t <;> cases u <;> simp_all
  · intro n
    rw [Finmap.mem_keys, Directory.subdirectoryNames, List.mem_filterMap]
    constructor
    · rintro ⟨⟨name, t⟩, mem, eq⟩
      cases t with
      | file content => cases eq
      | directory fs =>
        cases eq
        exact h.only _ (List.mem_map_of_mem mem)
    · intro inside
      obtain ⟨tables, found⟩ := Finmap.mem_iff.1 inside
      obtain ⟨fs, entry, -⟩ := h.database n tables found
      exact ⟨_, Entries.mem_of_get? entry, rfl⟩

theorem Database.Image.flat (h : tables.Image fs) : Volume.Flat fs := by
  rintro ⟨file, u⟩ mem
  obtain ⟨name, inside, ext, one, rfl⟩ := h.only file (List.mem_map_of_mem mem)
  obtain ⟨t, found⟩ := Finmap.mem_iff.1 inside
  have image := h.table _ _ found
  exact ⟨plain_fileName image.named.table one, image.files ext one⟩

theorem Database.Image.stems_eq (h : tables.Image fs) (v : NearVolume) {database : String}
    (hd : Sql.IsName database) (ext : String) :
    v.stems ext database fs = fs.filterMap fun e => Path.stem? ext e.1 := by
  rw [Volume.stems, List.filter_eq_self.2]
  intro e mem
  obtain ⟨name, inside, ext, one, eq⟩ := h.only e.1 (List.mem_map_of_mem mem)
  obtain ⟨t, found⟩ := Finmap.mem_iff.1 inside
  rw [eq]
  exact decide_eq_true (v.reachesFile hd (h.table _ _ found).named.table one).fits

theorem Database.Image.sort_stems (h : tables.Image fs) (v : NearVolume) {database : String}
    (hd : Sql.IsName database) :
    Names.sort (v.stems schemaExtension database fs) = names tables := by
  rw [h.stems_eq v hd]
  apply Names.sort_eq
  · apply nodup_filterMap h.nodup
    intro a b n first second
    exact (eq_fileName_of_stem? first).trans (eq_fileName_of_stem? second).symm
  · intro n
    rw [Finmap.mem_keys, List.mem_filterMap]
    constructor
    · rintro ⟨⟨name, t⟩, mem, eq⟩
      obtain ⟨other, inside, ext, one, rfl⟩ := h.only name (List.mem_map_of_mem mem)
      obtain ⟨u, found⟩ := Finmap.mem_iff.1 inside
      simp only [stem?_fileName (h.table _ _ found).named.table one,
        Option.ite_none_right_eq_some, Option.some.injEq] at eq
      obtain ⟨-, rfl⟩ := eq
      exact inside
    · intro inside
      obtain ⟨u, found⟩ := Finmap.mem_iff.1 inside
      have image := h.table n u found
      obtain ⟨content, file, -⟩ := image.schema
      refine ⟨_, Entries.mem_of_get? file, ?_⟩
      simp only [stem?_fileName image.named.table schema_mem, if_true]

end Listings

section Contents

variable {name : String} {t : Table} {tables : Database} {content : Content}
  {fs : List (String × Tree)}

theorem Table.WellNamed.schemaOfContent (named : t.WellNamed name) (p : Path)
    (bytes : content.bytes = Text.encode (SchemaText.encode ⟨name, t.columns⟩).toList) :
    Catalog.schemaOfContent p content = .ok ⟨name, t.columns⟩ :=
  SchemaText.schemaOfContent_encode p (.of_isName named.table)
    (fun c mem => .of_isName (named.column c mem)) bytes

theorem Table.WellNamed.new {name : Sql.Identifier} {columns : List Sql.ColumnDefinition}
    (proper : (Sql.Statement.createTable name columns).WellNamed) :
    Table.WellNamed name.name ⟨columns.map columnOf, []⟩ := by
  refine ⟨proper.names _ (.head _), ?_, ?_⟩
  · intro c mem
    obtain ⟨d, there, rfl⟩ := List.mem_map.1 mem
    exact proper.names _ (.tail _ (List.mem_map.2 ⟨d, there, rfl⟩))
  · intro none
    exact proper.columns name columns rfl (List.map_eq_nil_iff.1 none)

theorem Table.Written.counted (h : t.Written content) (small : t.rows.length < 2 ^ 32) :
    TableFile.counted content = t.rows.length := by
  obtain ⟨rows, bytes, -, kept⟩ := h
  have length : t.rows.length = rows.length := by rw [kept, List.length_map]
  rw [TableFile.counted, bytes, TableFile.take_imageOf, length,
    TableFile.toNat_header (length ▸ small)]

theorem Table.Written.length (h : t.Written content) : content.bytes.length
    = TableFile.headerSize + t.rows.length * DataType.totalWidth (t.columns.map Column.type) := by
  obtain ⟨rows, bytes, typed, kept⟩ := h
  rw [bytes, TableFile.length_imageOf typed, kept, List.length_map]

theorem Table.Written.rowsAt (h : t.Written content) :
    TableFile.rowsAt (t.columns.map Column.type) t.rows.length
      (content.bytes.drop TableFile.headerSize) = t.rows := by
  obtain ⟨rows, bytes, typed, kept⟩ := h
  have read := TableFile.rowsAt_flatMap [] typed
  rw [List.append_nil] at read
  rw [bytes, TableFile.drop_imageOf, kept, List.length_map, read]

theorem Table.Written.empty (columns : List Column) :
    Table.Written ⟨columns, []⟩ TableFile.emptyContent :=
  ⟨[], by simp [TableFile.emptyContent, TableFile.imageOf], nofun, rfl⟩

theorem Table.Written.ofContent (h : t.Written content) (name : String)
    (small : t.rows.length < 2 ^ 32) (p : Path) :
    TableFile.ofContent p ⟨name, t.columns⟩ content
      = .ok ⟨p, .ofSchema ⟨name, t.columns⟩, .ofNat t.rows.length⟩ := by
  have length := h.length
  rw [TableFile.ofContent_eq (by omega), h.counted small]

theorem Table.Written.whole (h : t.Written content) (name : String)
    (small : t.rows.length < 2 ^ 32) :
    TableFile.Whole ⟨name, t.columns⟩ content := by
  rw [TableFile.Whole, h.counted small, h.length]
  exact Nat.le_refl _

theorem Table.Written.append (h : t.Written content) (name : String) {row : List Value}
    (typed : row.map Value.type = t.columns.map Column.type)
    (roomy : t.rows.length + 1 < UInt32.size) (p : Path) :
    ∃ f longer, TableFile.append ⟨p, .ofSchema ⟨name, t.columns⟩, .ofNat t.rows.length⟩ row content
        = (.ok f, longer) ∧
      Table.Written ⟨t.columns, t.rows ++ [row.map Value.kept]⟩ longer := by
  obtain ⟨rows, bytes, all, kept⟩ := h
  have same : t.rows.length = rows.length := by rw [kept, List.length_map]
  have count : (UInt32.ofNat t.rows.length).toNat = rows.length :=
    (UInt32.toNat_ofNat_of_lt' (Nat.lt_of_succ_lt roomy)).trans same
  obtain ⟨f, longer, appended, image⟩ := TableFile.append_eq
    (t := ⟨p, .ofSchema ⟨name, t.columns⟩, .ofNat t.rows.length⟩) all typed count (same ▸ roomy)
      bytes
  refine ⟨f, longer, appended, rows ++ [row], image, ?_, ?_⟩
  · intro r mem
    rcases List.mem_append.1 mem with mem | mem
    · exact all r mem
    · rw [List.mem_singleton.1 mem]
      exact typed
  · rw [kept, List.map_append, List.map_singleton]

def withTable (name : String) (columns : List Column) (fs : List (String × Tree)) :
    List (String × Tree) :=
  Entries.put (fileName name indexExtension) (.file (.ofBytes IndexHeader.initial.content))
    (Entries.put (fileName name tableExtension) (.file TableFile.emptyContent)
      (Entries.put (fileName name schemaExtension)
        (.file (SchemaText.content ⟨name, columns⟩)) fs))

theorem Database.Image.create {columns : List Column} (h : tables.Image fs)
    (named : Table.WellNamed name ⟨columns, []⟩) :
    Database.Image (tables.insert name ⟨columns, []⟩) (withTable name columns fs) := by
  have apart : SameApart name fs (withTable name columns fs) :=
    (((SameApart.refl name fs).put schema_mem _).put table_mem _).put index_mem _
  apply h.insert apart
  · exact Entries.nodup_put (Entries.nodup_put (Entries.nodup_put h.nodup))
  · refine ⟨named, Nat.two_pow_pos 32, ⟨_, ?_, Content.bytes_ofBytes _⟩, ⟨_, ?_, .empty columns⟩,
      ⟨_, ?_, Content.bytes_ofBytes _⟩⟩
    · rw [withTable, get?_put_fileName named.table index_ne_schema.symm,
        get?_put_fileName named.table table_ne_schema.symm, Entries.get?_put_self]
      rfl
    · rw [withTable, get?_put_fileName named.table index_ne_table.symm, Entries.get?_put_self]
    · rw [withTable, Entries.get?_put_self]

theorem Database.Image.rewrite {rows : List (List Value)} (h : tables.Image fs)
    (found : tables.lookup name = some t) (written : Table.Written ⟨t.columns, rows⟩ content)
    (small : rows.length < 2 ^ 32) :
    Database.Image (tables.insert name ⟨t.columns, rows⟩)
      (Entries.put (fileName name tableExtension) (.file content) fs) := by
  have image := h.table name t found
  obtain ⟨⟨table, column, some_⟩, -, ⟨text, schema, chars⟩, -, ⟨nodes, index, bytes⟩⟩ := image
  apply h.insert ((SameApart.refl name fs).put table_mem _)
  · exact Entries.nodup_put h.nodup
  · refine ⟨⟨table, column, some_⟩, small, ⟨text, ?_, chars⟩, ⟨content, ?_, written⟩,
      ⟨nodes, ?_, bytes⟩⟩
    · rw [get?_put_fileName table table_ne_schema.symm, schema]
    · rw [Entries.get?_put_self]
    · rw [get?_put_fileName table index_ne_table, index]

end Contents

end RowStore.Memory
