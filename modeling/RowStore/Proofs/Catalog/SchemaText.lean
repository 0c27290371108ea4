import Mathlib.Data.List.Basic
import Mathlib.Data.List.TakeWhile
import RowStore.Catalog
import RowStore.Proofs.Sql.Names
import RowStore.Proofs.Text.Lines
import RowStore.Proofs.Text.Utf8

namespace RowStore

namespace SchemaText

def TableNamed (name : String) : Prop :=
  '\n' ∉ name.toList ∧ name.toList.getLast? ≠ some '\r'

def ColumnNamed (name : String) : Prop := ',' ∉ name.toList ∧ '\n' ∉ name.toList

theorem TableNamed.of_isName {name : String} (h : Sql.IsName name) : TableNamed name := by
  refine ⟨h.not_mem (by decide), fun last => ?_⟩
  exact h.not_mem (c := '\r') (by decide) (List.mem_of_getLast? last)

theorem ColumnNamed.of_isName {name : String} (h : Sql.IsName name) : ColumnNamed name :=
  ⟨h.not_mem (by decide), h.not_mem (by decide)⟩

def columnText (c : Column) : List Char := c.name.toList ++ ',' :: c.type.name.toList

theorem column?_append {name type : List Char} (inner : ',' ∉ name) :
    column? (name ++ ',' :: type)
      = (DataType.ofName? (String.ofList type)).map fun t => ⟨String.ofList name, t⟩ := by
  have before : ∀ x ∈ name, decide (x ≠ ',') = true := by
    intro x mem
    exact decide_eq_true fun eq => inner (eq ▸ mem)
  rw [column?, List.dropWhile_append_of_pos before, List.takeWhile_append_of_pos before]
  simp

theorem column?_columnText {c : Column} (h : ColumnNamed c.name) :
    column? (columnText c) = some c := by
  rw [columnText, column?_append h.1]
  simp

theorem newline_not_mem_columnText {c : Column} (h : ColumnNamed c.name) :
    '\n' ∉ columnText c := by
  have type : '\n' ∉ c.type.name.toList := by cases c.type <;> decide
  simp [columnText, h.2, type]

theorem getLast?_columnText (c : Column) : (columnText c).getLast? ≠ some '\r' := by
  have type : c.type.name.toList.getLast?.getD ',' ≠ '\r' := by cases c.type <;> decide
  simpa [columnText, List.getLast?_cons] using type

theorem decodeColumns_lines {columns : List Column} (n : Nat)
    (h : ∀ c ∈ columns, ColumnNamed c.name) :
    decodeColumns n (Text.textLines (columns.flatMap columnLine)) = .ok columns := by
  induction columns generalizing n with
  | nil => rfl
  | cons c cs ih =>
    have named := h c List.mem_cons_self
    have bytes : (c :: cs).flatMap columnLine = columnText c ++ '\n' :: cs.flatMap columnLine := by
      simp [columnLine, columnText]
    obtain ⟨x, xs, text⟩ : ∃ x xs, columnText c = x :: xs := by
      cases eq : columnText c with
      | nil => simp [columnText] at eq
      | cons x xs => exact ⟨x, xs, rfl⟩
    rw [bytes, Text.textLines, Text.lines_append _ (newline_not_mem_columnText named)
      (getLast?_columnText c), text, decodeColumns, ← text, column?_columnText named,
      ← Text.textLines, ih (n + 1) fun d mem => h d (List.mem_cons_of_mem _ mem)]
    · rfl
    · simp

theorem decode_encode {s : TableSchema} (table : TableNamed s.name)
    (columns : ∀ c ∈ s.columns, ColumnNamed c.name) : decode (encode s) = .ok s := by
  have first : '\n' ∉ tableMark ++ s.name.toList := by
    simp only [List.mem_append, not_or]
    exact ⟨by decide, table.1⟩
  have last : (tableMark ++ s.name.toList).getLast? ≠ some '\r' := by
    cases ending : s.name.toList.getLast? with
    | none =>
      rw [List.getLast?_append, ending]
      decide
    | some c =>
      rw [List.getLast?_append, ending, Option.some_or, ← ending]
      exact table.2
  have text : encodeChars s = (tableMark ++ s.name.toList) ++
      '\n' :: (columnsMark ++ '\n' :: s.columns.flatMap columnLine) := by
    rw [encodeChars, List.append_assoc, List.cons_append]
  rw [decode, encode, String.toList_ofList, text, Text.textLines, Text.lines_append _ first last,
    Text.lines_append _ (by decide) (by decide), ← Text.textLines]
  have name : tableMark.isPrefixOf? (tableMark ++ s.name.toList) = some s.name.toList := rfl
  simp only [decodeLines, name, if_true, decodeColumns_lines 3 columns]
  simp [Except.map]

theorem columnNamed_of_column? {line : List Char} {c : Column} (h : column? line = some c)
    (inner : '\n' ∉ line) : ColumnNamed c.name := by
  rw [column?] at h
  split at h
  · cases h
  · obtain ⟨type, -, rfl⟩ := Option.map_eq_some_iff.1 h
    simp only [ColumnNamed, String.toList_ofList]
    refine ⟨fun mem => ?_, fun mem => inner ((List.takeWhile_prefix _).subset mem)⟩
    simpa using List.mem_takeWhile_imp mem

theorem columnNamed_of_decodeColumns {ls : List (List Char)} {columns : List Column} {n : Nat}
    (h : decodeColumns n ls = .ok columns) (inner : ∀ line ∈ ls, '\n' ∉ line) :
    ∀ c ∈ columns, ColumnNamed c.name := by
  induction ls generalizing n columns with
  | nil =>
    cases h
    intro c mem
    cases mem
  | cons line rest ih =>
    have below : ∀ line ∈ rest, '\n' ∉ line := fun l mem => inner l (List.mem_cons_of_mem _ mem)
    cases line with
    | nil => exact ih h below
    | cons x xs =>
      rw [decodeColumns] at h
      · split at h
        · rename_i c column
          cases others : decodeColumns (n + 1) rest with
          | error e => simp [others, Except.map] at h
          | ok cs =>
            rw [others] at h
            cases h
            intro d mem
            rcases List.mem_cons.1 mem with rfl | mem
            · exact columnNamed_of_column? column (inner _ List.mem_cons_self)
            · exact ih others below d mem
        · cases h
      · exact List.cons_ne_nil x xs

theorem decodeLines_eq_ok {ls : List (List Char)} {s : TableSchema} : decodeLines ls = .ok s ↔
    ∃ rest, ls = (tableMark ++ s.name.toList) :: columnsMark :: rest ∧
      decodeColumns 3 rest = .ok s.columns := by
  constructor
  · intro h
    rw [decodeLines.eq_def] at h
    split at h
    · cases h
    · split at h
      · cases h
      · rename_i name mark
        split at h
        · cases h
        · rename_i second rest
          split at h
          · rename_i announced
            cases columns : decodeColumns 3 rest with
            | error e => simp [columns, Except.map] at h
            | ok cs =>
              rw [columns] at h
              cases h
              rw [List.isPrefixOf?_eq_some_iff_append_eq] at mark
              exact ⟨rest, by rw [← mark, announced, String.toList_ofList], columns⟩
          · cases h
  · rintro ⟨rest, rfl, columns⟩
    have name : tableMark.isPrefixOf? (tableMark ++ s.name.toList) = some s.name.toList := rfl
    simp only [decodeLines, name, if_true, columns, Except.map, String.ofList_toList]

theorem tableNamed_of_decode_encode {s : TableSchema} (h : decode (encode s) = .ok s) :
    TableNamed s.name := by
  obtain ⟨rest, text, -⟩ := decodeLines_eq_ok.1 h
  have line : tableMark ++ s.name.toList ∈ Text.textLines (encode s).toList := by
    rw [text]
    exact List.mem_cons_self
  have first := (Text.isLines_textLines _).not_mem line
  have inner : '\n' ∉ s.name.toList := fun mem => first (List.mem_append_right _ mem)
  refine ⟨inner, fun last => ?_⟩
  -- A carriage return at the end of the name is taken for a part of the line's end.
  obtain ⟨short, name⟩ := List.getLast?_eq_some_iff.1 last
  have shorter : '\n' ∉ tableMark ++ short := by
    rw [name, ← List.append_assoc] at first
    exact fun mem => first (List.mem_append_left _ mem)
  have bytes : encodeChars s = (tableMark ++ short) ++ '\r' :: '\n' ::
      (columnsMark ++ '\n' :: s.columns.flatMap columnLine) := by
    simp [encodeChars, name]
  rw [encode, String.toList_ofList, bytes, Text.textLines,
    Text.lines_append_return _ shorter (by decide)] at text
  have same := congrArg List.length (List.cons.inj text).1
  simp [name] at same

theorem decode_encode_iff {s : TableSchema} : decode (encode s) = .ok s ↔
    TableNamed s.name ∧ ∀ c ∈ s.columns, ColumnNamed c.name := by
  refine ⟨fun h => ⟨tableNamed_of_decode_encode h, ?_⟩, fun h => decode_encode h.1 h.2⟩
  obtain ⟨rest, text, columns⟩ := decodeLines_eq_ok.1 h
  refine columnNamed_of_decodeColumns columns fun line mem => ?_
  have inside : line ∈ Text.textLines (encode s).toList := by
    rw [text]
    exact List.mem_cons_of_mem _ (List.mem_cons_of_mem _ mem)
  exact (Text.isLines_textLines _).not_mem inside

def content (s : TableSchema) : Content := .ofBytes (Text.encode (encode s).toList)

theorem schemaOfContent_encode {s : TableSchema} {content : Content} (p : Path)
    (table : TableNamed s.name) (columns : ∀ c ∈ s.columns, ColumnNamed c.name)
    (bytes : content.bytes = Text.encode (encode s).toList) :
    Catalog.schemaOfContent p content = .ok s := by
  rw [Catalog.schemaOfContent, bytes, Text.decode?_encode]
  simp only [String.ofList_toList, decode_encode table columns]

end SchemaText

end RowStore
