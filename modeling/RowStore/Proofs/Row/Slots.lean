import Mathlib.Data.List.Forall2
import RowStore.Proofs.Row.RoundTrip
import RowStore.Proofs.Sql.Grammar

namespace RowStore

/-- What a row keeps of a value: a number as it is, of a text its longest initial part that fits, up to
the first NUL. -/
inductive Value.Keeps : Value → Value → Prop
  | int (n : Int32) : Keeps (.int n) (.int n)
  | date (n : Int32) : Keeps (.date n) (.date n)
  | double (x : Binary64) : Keeps (.double x) (.double x)
  | varchar {s : String} {short : List Char} : Sql.Grammar.Cut s.toList short →
      Keeps (.varchar s) (.varchar (String.ofList (short.takeWhile (· ≠ '\x00'))))

theorem Value.keeps_kept (v : Value) : v.Keeps v.kept := by
  cases v with
  | int n => exact .int n
  | date n => exact .date n
  | double x => exact .double x
  | varchar s => exact .varchar (Sql.Grammar.cut_clip s.toList)

namespace RowCodec

section Refusal

structure FirstMismatch (types : List DataType) (values : List Value) (i : Nat) (t : DataType)
    (v : Value) : Prop where
  column : types[i]? = some t
  value : values[i]? = some v
  other : v.type ≠ t
  former : ∀ j < i, values[j]?.map Value.type = types[j]?

variable {types : List DataType} {values : List Value} {i : Nat} {t : DataType} {v : Value}

theorem FirstMismatch.cons (h : FirstMismatch types values i t v) (u : Value) :
    FirstMismatch (u.type :: types) (u :: values) (i + 1) t v where
  column := h.column
  value := h.value
  other := h.other
  former := by
    intro j before
    cases j with
    | zero => rfl
    | succ j => exact h.former j (Nat.lt_of_succ_lt_succ before)

theorem writeFrom_cases (length : values.length = types.length) (k : Nat) (front : Bytes) {n : Nat}
    (room : DataType.totalWidth types ≤ n) :
    values.map Value.type = types ∨ ∃ i t v, FirstMismatch types values i t v ∧
      writeFrom k types values (.filled front n) = .error (.typeMismatch (k + i) t v.type) := by
  induction types generalizing values k front n with
  | nil => exact .inl (by rw [List.length_eq_zero_iff.1 length, List.map_nil])
  | cons u us ih =>
    cases values with
    | nil => cases length
    | cons w ws =>
      rw [DataType.totalWidth] at room
      by_cases type : w.type = u
      · subst type
        have first := RowBuffer.write_filled front w.encode (n := n)
          (by rw [Value.length_encode]; omega)
        obtain typed | ⟨i, t, v, mismatch, refused⟩ := ih (Nat.succ.inj length) (k + 1)
          (front ++ w.encode) (n := n - w.encode.length) (by rw [Value.length_encode]; omega)
        · exact .inl (by rw [List.map_cons, typed])
        · refine .inr ⟨i + 1, t, v, mismatch.cons w, ?_⟩
          rw [writeFrom, if_pos rfl, first]
          exact refused.trans (by rw [Nat.add_right_comm, Nat.add_assoc])
      · refine .inr ⟨0, u, w, ⟨rfl, rfl, type, fun j h => absurd h j.not_lt_zero⟩, ?_⟩
        rw [writeFrom, if_neg type]
        rfl

end Refusal

section Slots

variable {c : RowCodec} {i j k n : Nat} {t : DataType}

theorem column_eq_ok : c.column i = .ok t ↔ c.types[i]? = some t := by
  rw [column]
  split <;> simp_all

theorem columnOffset_eq (h : c.types[i]? = some t) : c.columnOffset i = .ok (c.offset i) := by
  rw [columnOffset, column_eq_ok.2 h]
  rfl

/-- Byte `k` of a row lies in the slot of column `i`. -/
def Covers (c : RowCodec) (i k : Nat) : Prop :=
  ∃ offset t, c.columnOffset i = .ok offset ∧ c.column i = .ok t ∧ offset ≤ k ∧ k < offset + t.width

theorem covers_iff :
    c.Covers i k ↔ ∃ t, c.types[i]? = some t ∧ c.offset i ≤ k ∧ k < c.offset i + t.width := by
  constructor
  · rintro ⟨offset, t, start, column, within⟩
    have at_ := column_eq_ok.1 column
    rw [columnOffset_eq at_] at start
    cases start
    exact ⟨t, at_, within⟩
  · rintro ⟨t, at_, within⟩
    exact ⟨_, t, columnOffset_eq at_, column_eq_ok.2 at_, within⟩

theorem offset_add_width_le_offset (h : c.types[i]? = some t) (before : i < j) :
    c.offset i + t.width ≤ c.offset j :=
  offset_add_width h ▸ c.offset_mono before

theorem Covers.lt_width (h : c.Covers i k) : k < c.width := by
  obtain ⟨t, at_, -, below⟩ := covers_iff.1 h
  exact Nat.lt_of_lt_of_le below (offset_add_width_le at_)

theorem Covers.unique (hi : c.Covers i k) (hj : c.Covers j k) : i = j := by
  obtain ⟨t, ti, starts, ends⟩ := covers_iff.1 hi
  obtain ⟨u, uj, starts', ends'⟩ := covers_iff.1 hj
  rcases Nat.lt_trichotomy i j with before | same | behind
  · have apart := offset_add_width_le_offset ti before
    omega
  · exact same
  · have apart := offset_add_width_le_offset uj behind
    omega

theorem exists_covers (h : k < c.width) : ∃ i, c.Covers i k := by
  obtain ⟨types⟩ := c
  induction types generalizing k with
  | nil => cases h
  | cons t ts ih =>
    by_cases first : k < t.width
    · exact ⟨0, covers_iff.2 ⟨t, rfl, Nat.zero_le k, by simpa [offset, DataType.totalWidth]⟩⟩
    · have total : width ⟨t :: ts⟩ = t.width + width ⟨ts⟩ := rfl
      obtain ⟨i, inner⟩ := ih (k := k - t.width) (by omega)
      obtain ⟨u, at_, starts, ends⟩ := covers_iff.1 inner
      refine ⟨i + 1, covers_iff.2 ⟨u, at_, ?_, ?_⟩⟩
      · rw [offset_succ]
        omega
      · rw [offset_succ]
        omega

theorem existsUnique_covers_iff : (∃! i, c.Covers i k) ↔ k < c.width :=
  ⟨fun h => h.exists.choose_spec.lt_width,
    fun h => existsUnique_of_exists_of_unique (exists_covers h) fun _ _ => Covers.unique⟩

end Slots

/-- A row of bytes with the values in the slots of their columns, which share the row between them. -/
structure Laid (c : RowCodec) (values : List Value) (row : Bytes) : Prop where
  length : row.length = c.width
  slot : ∀ i v, values[i]? = some v → ∃ offset, c.columnOffset i = .ok offset ∧
    c.column i = .ok v.type ∧ Bytes.slice? offset v.type.width row = some v.encode
  tiled : ∀ k, (∃! i, c.Covers i k) ↔ k < row.length

theorem laid_rowBytes {c : RowCodec} {values : List Value} (typed : values.map Value.type = c.types) :
    Laid c values (rowBytes values) := by
  have length : (rowBytes values).length = c.width := by rw [length_rowBytes, typed, width]
  refine ⟨length, ?_, fun k => by rw [existsUnique_covers_iff, length]⟩
  intro i v at_
  have type : c.types[i]? = some v.type := by rw [← typed, List.getElem?_map, at_, Option.map_some]
  have within : c.offset i + v.type.width ≤ (rowBytes values).length :=
    length ▸ offset_add_width_le type
  have behind : (rowBytes values).drop (c.offset i) = v.encode ++ rowBytes (values.drop (i + 1)) := by
    have dropped := drop_rowBytes values i []
    rw [typed, List.append_nil, List.append_nil] at dropped
    obtain ⟨inside, rfl⟩ := List.getElem?_eq_some_iff.1 at_
    rw [offset, dropped, List.drop_eq_getElem_cons inside]
    rfl
  refine ⟨_, columnOffset_eq type, column_eq_ok.2 type, ?_⟩
  rw [Bytes.slice?_eq_some within, behind, ← Value.length_encode, List.take_left]

/-- As many values as columns are needed, then values of the columns' types. Such a row fills the
width of the table exactly, each value in its own slot, and is decoded to what it keeps. -/
theorem encode_trichotomy (c : RowCodec) (values : List Value) :
    (values.length ≠ c.types.length ∧
      c.encode values = .error (.arityMismatch c.types.length values.length)) ∨
    (values.length = c.types.length ∧ ∃ i t v, FirstMismatch c.types values i t v ∧
      c.encode values = .error (.typeMismatch i t v.type)) ∨
    (values.map Value.type = c.types ∧ ∃ row kept, c.encode values = .ok row ∧ Laid c values row ∧
      (∀ schema : TableSchema, ofSchema schema = c → row.length = schema.rowWidth) ∧
      c.decode row = .ok kept ∧ List.Forall₂ Value.Keeps values kept) := by
  by_cases length : values.length = c.types.length
  · obtain typed | ⟨i, t, v, first, refused⟩ := writeFrom_cases length 0 [] (Nat.le_refl c.width)
    · have laid : Laid c values (rowBytes values) := laid_rowBytes typed
      refine .inr (.inr ⟨typed, _, values.map Value.kept, encode_eq typed, laid, ?_, ?_, ?_⟩)
      · rintro schema rfl
        exact laid.length
      · have read := values_rowBytes values []
        rw [typed, List.append_nil] at read
        rw [decode, decodeFrom_eq (Nat.le_of_eq laid.length.symm), read]
      · rw [List.forall₂_map_right_iff, List.forall₂_same]
        exact fun v _ => v.keeps_kept
    · refine .inr (.inl ⟨length, i, t, v, first, ?_⟩)
      rw [encode, if_pos length, RowBuffer.ofWidth_eq, refused, Nat.zero_add]
      rfl
  · exact .inl ⟨length, by rw [encode, if_neg length]⟩

example : (⟨[.int, .varchar]⟩ : RowCodec).encode [.int 258, .date 1]
    = .error (.typeMismatch 1 .varchar .date) := by decide

end RowCodec

end RowStore
