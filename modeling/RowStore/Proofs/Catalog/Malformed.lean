import Mathlib.Data.List.Forall2
import Mathlib.Order.Bounds.Basic
import RowStore.Proofs.Catalog.SchemaText

namespace RowStore

theorem DataType.ofName?_eq_some {s : String} {t : DataType} :
    ofName? s = some t ↔ s.toList.map Char.toLower = t.name.toList := by
  constructor
  · intro h
    rw [ofName?] at h
    have spelt := List.find?_some h
    exact (beq_iff_eq.1 spelt).symm
  · intro spelt
    rw [ofName?, spelt]
    cases t <;> decide

namespace SchemaText

/-- A line that says a column: its name goes up to the first comma, and all behind it is the type, in any
letter case. -/
def Describes (line : List Char) (c : Column) : Prop :=
  ∃ type, line = c.name.toList ++ ',' :: type ∧ ',' ∉ c.name.toList ∧
    type.map Char.toLower = c.type.name.toList

/-- Line `i` says something, and no column. -/
def Undescribed (lines : List (List Char)) (i : Nat) : Prop :=
  ∃ line, lines[i]? = some line ∧ line ≠ [] ∧ ∀ c, ¬Describes line c

/-- The line with number `k`, counted from 1, is not what it has to be. -/
def Malformed (lines : List (List Char)) : Nat → Prop
  | 0 => False
  | 1 => ∀ name, lines[0]? ≠ some ("TABLE:".toList ++ name)
  | 2 => lines[1]? ≠ some "COLUMNS:".toList
  | k + 3 => Undescribed lines (k + 2)

/-- What well-formed lines say: the table's name, and a column in each line behind the second one that is
not empty. -/
def Says (lines : List (List Char)) (s : TableSchema) : Prop :=
  ∃ rest, lines = ("TABLE:".toList ++ s.name.toList) :: "COLUMNS:".toList :: rest ∧
    List.Forall₂ Describes (rest.filter (· ≠ [])) s.columns

section Results

variable {ε α β : Type} {x : Except ε α} {f : α → β} {e : ε} {b : β}

theorem map_eq_ok_iff : x.map f = .ok b ↔ ∃ a, x = .ok a ∧ f a = b := by
  cases x <;> simp [Except.map]

theorem map_eq_error_iff : x.map f = .error e ↔ x = .error e := by
  cases x <;> simp [Except.map]

end Results

section Least

variable {P : Nat → Prop} {i : Nat}

theorem isLeast_zero (h : P 0) : IsLeast {i | P i} 0 := ⟨h, fun j _ => j.zero_le⟩

theorem isLeast_succ (zero : ¬P 0) (h : IsLeast {i | P (i + 1)} i) : IsLeast {i | P i} (i + 1) := by
  refine ⟨h.1, fun j holds => ?_⟩
  cases j with
  | zero => exact absurd holds zero
  | succ j => exact Nat.succ_le_succ (h.2 holds)

end Least

section Columns

variable {line : List Char} {rest : List (List Char)} {c : Column} {columns : List Column} {n k : Nat}

theorem column?_eq_some : column? line = some c ↔ Describes line c := by
  constructor
  · intro h
    by_cases comma : ',' ∈ line
    · obtain ⟨name, type, rfl, inner⟩ := List.eq_append_cons_of_mem comma
      rw [column?_append inner, Option.map_eq_some_iff] at h
      obtain ⟨t, named, rfl⟩ := h
      have spelt := DataType.ofName?_eq_some.1 named
      rw [String.toList_ofList] at spelt
      exact ⟨type, by rw [String.toList_ofList], by rwa [String.toList_ofList], spelt⟩
    · have none_ : line.dropWhile (· ≠ ',') = [] :=
        List.dropWhile_eq_nil_iff.2 fun x mem => decide_eq_true (ne_of_mem_of_not_mem mem comma)
      rw [column?, none_] at h
      cases h
  · rintro ⟨type, rfl, inner, spelt⟩
    rw [← String.toList_ofList (l := type)] at spelt
    rw [column?_append inner, DataType.ofName?_eq_some.2 spelt, Option.map_some,
      String.ofList_toList]

theorem undescribed_cons_zero :
    Undescribed (line :: rest) 0 ↔ line ≠ [] ∧ ∀ c, ¬Describes line c := by
  simp [Undescribed]

theorem Describes.ne_nil (h : Describes line c) : line ≠ [] := by
  rintro rfl
  obtain ⟨type, empty, -⟩ := h
  simp at empty

theorem decodeColumns_of_describes (h : Describes line c) (n : Nat) :
    decodeColumns n (line :: rest) = (decodeColumns (n + 1) rest).map (c :: ·) := by
  rw [decodeColumns, column?_eq_some.2 h]
  exact h.ne_nil

theorem decodeColumns_of_undescribed (h : Undescribed (line :: rest) 0) (n : Nat) :
    decodeColumns n (line :: rest) = .error n := by
  obtain ⟨some_, undescribed⟩ := undescribed_cons_zero.1 h
  have none_ : column? line = none :=
    Option.eq_none_iff_forall_ne_some.2 fun c column => undescribed c (column?_eq_some.1 column)
  rw [decodeColumns, none_]
  exact some_

theorem first_line_cases (line : List Char) (rest : List (List Char)) :
    line = [] ∨ (∃ c, Describes line c) ∨ Undescribed (line :: rest) 0 := by
  by_cases empty : line = []
  · exact .inl empty
  · by_cases described : ∃ c, Describes line c
    · exact .inr (.inl described)
    · exact .inr (.inr (undescribed_cons_zero.2 ⟨empty, not_exists.1 described⟩))

theorem describes_unique {c' : Column} (h : Describes line c) (h' : Describes line c') : c = c' :=
  Option.some.inj ((column?_eq_some.2 h).symm.trans (column?_eq_some.2 h'))

theorem decodeColumns_eq_ok (n : Nat) : decodeColumns n rest = .ok columns ↔
    List.Forall₂ Describes (rest.filter (· ≠ [])) columns := by
  induction rest generalizing n columns with
  | nil => simp [decodeColumns, eq_comm]
  | cons line rest ih =>
    rcases first_line_cases line rest with rfl | ⟨c, described⟩ | undescribed
    · exact ih (n + 1)
    · have some_ : line ≠ [] := described.ne_nil
      rw [decodeColumns_of_describes described, map_eq_ok_iff,
        List.filter_cons_of_pos (by simpa using some_), List.forall₂_cons_left_iff]
      constructor
      · rintro ⟨cs, below, rfl⟩
        exact ⟨c, cs, described, (ih (n + 1)).1 below, rfl⟩
      · rintro ⟨c', cs, described', others, rfl⟩
        exact ⟨cs, (ih (n + 1)).2 others, by rw [describes_unique described' described]⟩
    · obtain ⟨some_, none_⟩ := undescribed_cons_zero.1 undescribed
      rw [decodeColumns_of_undescribed undescribed, List.filter_cons_of_pos (by simpa using some_),
        List.forall₂_cons_left_iff]
      constructor
      · intro h
        cases h
      · rintro ⟨c, -, described, -⟩
        exact absurd described (none_ c)

theorem isLeast_of_decodeColumns (h : decodeColumns n rest = .error k) :
    ∃ i, k = n + i ∧ IsLeast {i | Undescribed rest i} i := by
  induction rest generalizing n with
  | nil => cases h
  | cons line rest ih =>
    -- A line that is not blamed only shifts the numbers of the others.
    have later (zero : ¬Undescribed (line :: rest) 0) (h : decodeColumns (n + 1) rest = .error k) :
        ∃ i, k = n + i ∧ IsLeast {i | Undescribed (line :: rest) i} i := by
      obtain ⟨i, rfl, least⟩ := ih h
      exact ⟨i + 1, by omega, isLeast_succ zero least⟩
    rcases first_line_cases line rest with rfl | ⟨c, described⟩ | undescribed
    · exact later (fun blamed => (undescribed_cons_zero.1 blamed).1 rfl) h
    · rw [decodeColumns_of_describes described, map_eq_error_iff] at h
      exact later (fun blamed => (undescribed_cons_zero.1 blamed).2 c described) h
    · rw [decodeColumns_of_undescribed undescribed] at h
      cases h
      exact ⟨0, rfl, isLeast_zero undescribed⟩

theorem not_undescribed_of_decodeColumns (h : decodeColumns n rest = .ok columns) (i : Nat) :
    ¬Undescribed rest i := by
  rintro ⟨line, at_, some_, none_⟩
  have there : line ∈ rest.filter (· ≠ []) :=
    List.mem_filter.2 ⟨List.mem_of_getElem? at_, by simpa using some_⟩
  obtain ⟨length, each⟩ := List.forall₂_iff_get.1 ((decodeColumns_eq_ok n).1 h)
  obtain ⟨j, rfl⟩ := List.mem_iff_get.1 there
  exact none_ _ (each j j.2 (length ▸ j.2))

end Columns

section Lines

variable {lines : List (List Char)} {s : TableSchema} {k : Nat}

theorem decodeLines_eq_ok_iff : decodeLines lines = .ok s ↔ Says lines s := by
  rw [decodeLines_eq_ok]
  exact exists_congr fun rest => and_congr_right fun _ => decodeColumns_eq_ok 3

theorem Says.not_malformed (h : Says lines s) (k : Nat) : ¬Malformed lines k := by
  obtain ⟨rest, rfl, columns⟩ := h
  match k with
  | 0 => exact id
  | 1 => exact fun blamed => blamed s.name.toList rfl
  | 2 => exact fun blamed => blamed rfl
  | k + 3 => exact not_undescribed_of_decodeColumns ((decodeColumns_eq_ok 3).2 columns) k

theorem decodeLines_of_malformed_one (h : Malformed lines 1) : decodeLines lines = .error 1 := by
  cases lines with
  | nil => rfl
  | cons first rest =>
    have unmarked : tableMark.isPrefixOf? first = none := by
      refine Option.eq_none_iff_forall_ne_some.2 fun name marked => h name ?_
      rw [List.isPrefixOf?_eq_some_iff_append_eq] at marked
      exact congrArg some marked.symm
    rw [decodeLines, unmarked]

theorem exists_of_not_malformed_one (h : ¬Malformed lines 1) :
    ∃ name rest, lines = (tableMark ++ name) :: rest := by
  simp only [Malformed, not_forall, ne_eq, not_not] at h
  obtain ⟨name, text⟩ := h
  cases lines with
  | nil => cases text
  | cons first rest => exact ⟨name, rest, congrArg (· :: rest) (Option.some.inj text)⟩

theorem decodeLines_marked (name second : List Char) (rest : List (List Char)) :
    decodeLines ((tableMark ++ name) :: second :: rest) =
      if second = columnsMark then
        (decodeColumns 3 rest).map fun columns => ⟨String.ofList name, columns⟩
      else .error 2 := rfl

theorem isLeast_of_decodeLines (h : decodeLines lines = .error k) : IsLeast {k | Malformed lines k} k := by
  have zero : ¬Malformed lines 0 := id
  by_cases one : Malformed lines 1
  · rw [decodeLines_of_malformed_one one] at h
    cases h
    exact isLeast_succ zero (isLeast_zero one)
  obtain ⟨name, rest, rfl⟩ := exists_of_not_malformed_one one
  cases rest with
  | nil =>
    cases h
    exact isLeast_succ zero (isLeast_succ one (isLeast_zero nofun))
  | cons second rest =>
    rw [decodeLines_marked] at h
    by_cases two : second = columnsMark
    · rw [if_pos two, map_eq_error_iff] at h
      have announced : ¬Malformed ((tableMark ++ name) :: second :: rest) 2 :=
        fun blamed => blamed (congrArg some two)
      obtain ⟨i, rfl, least⟩ := isLeast_of_decodeColumns h
      rw [Nat.add_comm]
      exact isLeast_succ zero (isLeast_succ one (isLeast_succ announced least))
    · rw [if_neg two] at h
      cases h
      exact isLeast_succ zero (isLeast_succ one (isLeast_zero fun text => two (Option.some.inj text)))

end Lines

/-- A text with these lines is refused with the number of the first one that is malformed, if there is
one. Otherwise its lines say one schema and it is read as that, and the schema is found again in its own
text, unless the table's name ends in a carriage return. -/
theorem decode_of_isLines {text : String} {lines : List (List Char)}
    (split : Text.IsLines '\n' '\r' text.toList lines) :
    (∀ k, decode text = .error k ↔ IsLeast {k | Malformed lines k} k) ∧
    ((∃ s, decode text = .ok s) ↔ ∀ k, ¬Malformed lines k) ∧
    (∀ s, decode text = .ok s ↔ Says lines s) ∧
    ∀ s, decode text = .ok s →
      (decode (encode s) = .ok s ↔ s.name.toList.getLast? ≠ some '\r') := by
  have read : decode text = decodeLines lines := by
    rw [decode, Text.textLines, split.lines_eq (by decide)]
  have accepted (s : TableSchema) : decode text = .ok s ↔ Says lines s := by
    rw [read, decodeLines_eq_ok_iff]
  have refused {k : Nat} (h : decode text = .error k) : IsLeast {k | Malformed lines k} k :=
    isLeast_of_decodeLines (read ▸ h)
  refine ⟨fun k => ⟨refused, fun least => ?_⟩, ⟨?_, fun sound => ?_⟩, accepted, fun s h => ?_⟩
  · cases result : decode text with
    | ok s => exact absurd least.1 (((accepted s).1 result).not_malformed k)
    | error j => rw [(refused result).unique least]
  · rintro ⟨s, h⟩
    exact ((accepted s).1 h).not_malformed
  · cases result : decode text with
    | ok s => exact ⟨s, rfl⟩
    | error j => exact absurd (refused result).1 (sound j)
  · obtain ⟨rest, text_, columns⟩ := decodeLines_eq_ok.1 (read ▸ h)
    subst text_
    have inner : '\n' ∉ s.name.toList := fun mem =>
      split.not_mem List.mem_cons_self (List.mem_append_right _ mem)
    have named : ∀ c ∈ s.columns, ColumnNamed c.name :=
      columnNamed_of_decodeColumns columns fun line mem =>
        split.not_mem (List.mem_cons_of_mem _ (List.mem_cons_of_mem _ mem))
    rw [decode_encode_iff]
    exact ⟨fun back => back.1.2, fun last => ⟨⟨inner, last⟩, named⟩⟩

section Blank

def looseText : String := "TABLE: t\r\nCOLUMNS:\n\na\r,Int\n,DATE"

def looseLines : List (List Char) :=
  ["TABLE: t".toList, "COLUMNS:".toList, [], "a\r,Int".toList, ",DATE".toList]

def looseSchema : TableSchema := ⟨" t", [⟨"a\r", .int⟩, ⟨"", .date⟩]⟩

def brokenText : String := "TABLE:t\nCOLUMNS:\n\nid,int\nname\nage,int,int\n"

def brokenLines : List (List Char) :=
  ["TABLE:t".toList, "COLUMNS:".toList, [], "id,int".toList, "name".toList, "age,int,int".toList]

theorem decode_of_isLines_blank :
    (Text.IsLines '\n' '\r' looseText.toList looseLines ∧ Says looseLines looseSchema ∧
      (∀ k, ¬Malformed looseLines k) ∧ decode (encode looseSchema) = .ok looseSchema) ∧
    Text.IsLines '\n' '\r' brokenText.toList brokenLines ∧
      IsLeast {k | Malformed brokenLines k} 5 := by
  have loose : Text.IsLines '\n' '\r' looseText.toList looseLines :=
    (Text.isLines_iff (by decide)).2 (by decide +kernel)
  have broken : Text.IsLines '\n' '\r' brokenText.toList brokenLines :=
    (Text.isLines_iff (by decide)).2 (by decide +kernel)
  have read : decode looseText = .ok looseSchema := by decide +kernel
  have refused : decode brokenText = .error 5 := by decide +kernel
  obtain ⟨-, sound, accepted, again⟩ := decode_of_isLines loose
  refine ⟨⟨loose, (accepted _).1 read, sound.1 ⟨_, read⟩, (again _ read).2 (by decide)⟩, broken, ?_⟩
  exact ((decode_of_isLines broken).1 5).1 refused

end Blank

end SchemaText

end RowStore
