import RowStore.Proofs.Memory.Run

namespace RowStore

open Catalog (fileName extensions schemaExtension tableExtension indexExtension)

/-- A varchar slot that ends in a NUL, with text before the first one. Reading the text as text with
faults finds none. -/
structure SoundSlot (slot : Bytes) : Prop where
  closed : slot.getLast? = some 0
  text : ∃ cs, Text.decode? (slot.takeWhile (· ≠ 0)) = some cs ∧
    Text.decodeLossy (slot.takeWhile (· ≠ 0)) = cs

def varcharSlot (schema : TableSchema) (content : Content) (i j : Nat) : Bytes :=
  let start := TableFile.headerSize + i * schema.rowWidth + (RowCodec.ofSchema schema).offset j
  (content.bytes.drop start).take DataType.varcharWidth

structure SoundData (schema : TableSchema) (content : Content) : Prop where
  length : content.bytes.length
    = TableFile.headerSize + TableFile.counted content * schema.rowWidth
  slot : ∀ i < TableFile.counted content, ∀ j, schema.types[j]? = some .varchar →
    SoundSlot (varcharSlot schema content i j)

structure SoundTable (table : String) (fs : List (String × Tree)) (schema : TableSchema) : Prop where
  name : schema.name = table
  some_ : schema.columns ≠ []
  text : ∃ content, Entries.get? (fileName table schemaExtension) fs = some (.file content) ∧
    ∀ p, Catalog.schemaOfContent p content = .ok schema
  data : ∃ content, Entries.get? (fileName table tableExtension) fs = some (.file content) ∧
    SoundData schema content
  index : ∃ content, Entries.get? (fileName table indexExtension) fs = some (.file content) ∧
    content.bytes = [3, 0, 0, 0, 0, 0, 0, 0]

structure SoundDatabase (tables : List String) (fs : List (String × Tree)) : Prop where
  nodup : (fs.map Prod.fst).Nodup
  only : ∀ file, file ∈ fs.map Prod.fst ↔
    ∃ table ∈ tables, ∃ ext ∈ extensions, file = fileName table ext
  table : ∀ table ∈ tables, ∃ schema, SoundTable table fs schema

def SoundRoot (root : Path) (f : Files) : Prop :=
  ∃ es, f.find root = .ok (.directory es) ∧ (es.map Prod.fst).Nodup ∧
    ∀ e ∈ es, ∃ tables fs, e.2 = .directory fs ∧ SoundDatabase tables fs

section Slots

theorem SoundSlot.encode (s : String) : SoundSlot (Value.varcharBytes s) := by
  have room := Value.length_clip_lt s
  refine ⟨?_, (Text.clip Text.clipLimit s.toList).takeWhile (· ≠ '\x00'), ?_, ?_⟩
  · rw [Value.varcharBytes, List.getLast?_append_of_ne_nil, List.getLast?_replicate]
    · rw [if_neg (by omega)]
    · simp only [ne_eq, List.replicate_eq_nil_iff]
      omega
  · rw [Value.varcharBytes, Text.takeWhile_encode, Text.decode?_encode]
  · rw [Value.varcharBytes, Text.takeWhile_encode, Text.decodeLossy_encode]

theorem varcharSlot_eq {name : String} {columns : List Column} {content : Content}
    {rows : List (List Value)} {i j : Nat} {row : List Value} {text : String}
    (typed : ∀ row ∈ rows, row.map Value.type = columns.map Column.type)
    (bytes : content.bytes = TableFile.imageOf rows) (first : rows[i]? = some row)
    (value : row[j]? = some (.varchar text)) :
    varcharSlot ⟨name, columns⟩ content i j = Value.varcharBytes text := by
  have own := typed row (List.mem_of_getElem? first)
  obtain ⟨inside, rfl⟩ := List.getElem?_eq_some_iff.1 first
  obtain ⟨within, encoded⟩ := List.getElem?_eq_some_iff.1 value
  have width : (Value.varchar text).encode.length = DataType.varcharWidth := Value.length_encode _
  -- The header goes first, then the rows before this one, then the columns before this one.
  rw [varcharSlot, ← List.drop_drop, ← List.drop_drop, bytes, TableFile.drop_imageOf,
    TableSchema.rowWidth, TableSchema.types, TableFile.drop_flatMap_rowBytes typed,
    List.drop_eq_getElem_cons inside, List.flatMap_cons, RowCodec.offset, RowCodec.ofSchema,
    TableSchema.types, ← own, RowCodec.drop_rowBytes, List.drop_eq_getElem_cons within, encoded,
    RowCodec.rowBytes_cons_append, ← width, List.take_left]
  rfl

end Slots

section Images

open Memory (Store Database Table)

theorem Memory.Table.Written.soundData {t : Table} {content : Content} (h : t.Written content)
    (name : String) (small : t.rows.length < 2 ^ 32) : SoundData ⟨name, t.columns⟩ content := by
  have counted := h.counted small
  refine ⟨?_, ?_⟩
  · rw [counted, h.length]
    rfl
  · intro i below j varchar
    obtain ⟨rows, bytes, typed, kept⟩ := h
    rw [counted, kept, List.length_map] at below
    have row := List.getElem?_eq_getElem below
    rw [TableSchema.types, ← typed _ (List.mem_of_getElem? row), List.getElem?_map] at varchar
    obtain ⟨v, value, type⟩ := Option.map_eq_some_iff.1 varchar
    cases v with
    | varchar text =>
      rw [varcharSlot_eq typed bytes row value]
      exact .encode text
    | int n | double x | date n => cases type

theorem Memory.Table.Image.sound {name : String} {t : Table} {fs : List (String × Tree)}
    (h : t.Image name fs) : SoundTable name fs ⟨name, t.columns⟩ := by
  obtain ⟨content, file, bytes⟩ := h.schema
  obtain ⟨rows, data, written⟩ := h.data
  obtain ⟨nodes, index, header⟩ := h.index
  exact ⟨rfl, h.named.some_, ⟨content, file, fun p => h.named.schemaOfContent p bytes⟩,
    ⟨rows, data, written.soundData name h.small⟩,
    ⟨nodes, index, header.trans IndexHeader.content_initial⟩⟩

theorem Memory.Database.Image.sound {tables : Database} {fs : List (String × Tree)}
    (h : tables.Image fs) : SoundDatabase (Memory.names tables) fs := by
  refine ⟨h.nodup, ?_, ?_⟩
  · intro file
    constructor
    · intro there
      obtain ⟨name, inside, ext, mem, eq⟩ := h.only file there
      exact ⟨name, Memory.mem_names.2 inside, ext, mem, eq⟩
    · rintro ⟨name, mem, ext, one, rfl⟩
      obtain ⟨t, inside⟩ := Finmap.mem_iff.1 (Memory.mem_names.1 mem)
      obtain ⟨content, file⟩ := (h.table name t inside).files ext one
      exact Entries.mem_map_fst_iff.2 ⟨_, file⟩
  · intro name mem
    obtain ⟨t, inside⟩ := Finmap.mem_iff.1 (Memory.mem_names.1 mem)
    exact ⟨_, (h.table name t inside).sound⟩

theorem Keeps.sound {δ : Type} {v : NearVolume} {state : δ} {m : Store} {w : World δ}
    (h : Keeps v state m w) : SoundRoot v.root w.files := by
  obtain ⟨es, disk, image⟩ := h
  have holding : w.files = v.holding es := congrArg Disk.files disk
  refine ⟨es, ?_, image.nodup, ?_⟩
  · rw [holding]
    exact Files.find_directory (v.locate_root es) (v.at?_root es)
  · rintro ⟨name, entry⟩ mem
    have found := Entries.get?_of_mem image.nodup mem
    obtain ⟨tables, inside⟩ := Finmap.mem_iff.1 (image.only name (List.mem_map_of_mem mem))
    obtain ⟨fs, directory, files⟩ := image.database name tables inside
    rw [found] at directory
    cases directory
    exact ⟨_, fs, rfl, files.sound⟩

/-- Whatever texts have been run on a data directory that was empty at first, its databases are sound,
also in the middle of a text. -/
theorem sound_of_mem_history {δ ι : Type} [DecidableEq ι] {data : Path} {w w' : World δ}
    (vacant : Vacant data w.files) (events : List (Event ι))
    (roomy : ∀ w' ∈ Engine.history (Catalog.ofDataDirectory data .onFiles) (fun _ => .fresh) w
      (.opening :: events), Roomy (data.join "databases") w'.files)
    (reached : w' ∈ Engine.history (Catalog.ofDataDirectory data .onFiles) (fun _ => .fresh) w
      (.opening :: events)) :
    SoundRoot (data.join "databases") w'.files := by
  obtain ⟨v, root, -, all⟩ := vacant.serve_keeps roomy
  obtain ⟨m, keeps⟩ := all w' reached
  exact root ▸ keeps.sound

theorem sound_of_mem_history_twoUsers :
    Vacant ⟨"/r"⟩ vacantFiles ∧
      (∀ w ∈ twoUsersWorlds, Roomy (Path.join ⟨"/r"⟩ "databases") w.files) ∧
      ∃ w, twoUsersWorlds[5]? = some w ∧ SoundRoot (Path.join ⟨"/r"⟩ "databases") w.files := by
  have inside : 5 < twoUsersWorlds.length := by decide +kernel
  exact ⟨vacant_vacantFiles, roomy_twoUsers, _, List.getElem?_eq_getElem inside,
    sound_of_mem_history (w := World.ofFiles vacantFiles ()) vacant_vacantFiles twoUsers
      roomy_twoUsers (List.getElem_mem inside)⟩

end Images

end RowStore
