import RowStore.Table.File

/-!
Where the values of a row stand in bytes. Whole rows and single columns are read by different ways
through the same slots, and both give what the slots hold.
-/

namespace RowStore

theorem Bytes.slice?_eq_some {start len : Nat} {bs : Bytes} (h : start + len ≤ bs.length) :
    Bytes.slice? start len bs = some ((bs.drop start).take len) := by
  have full : ((bs.drop start).take len).length = len := by
    rw [List.length_take, List.length_drop]
    omega
  simp [Bytes.slice?, full]

theorem DataType.totalWidth_append (a b : List DataType) :
    totalWidth (a ++ b) = totalWidth a + totalWidth b := by
  induction a with
  | nil => exact (Nat.zero_add _).symm
  | cons t ts ih => rw [List.cons_append, totalWidth, totalWidth, ih, Nat.add_assoc]

namespace Value

@[simp] theorem type_ofSlot (slot : Bytes) (t : DataType) : (ofSlot slot t).type = t := by
  cases t <;> rfl

theorem decode_eq {t : DataType} {bs : Bytes} (h : t.width ≤ bs.length) :
    decode t bs = .ok (ofSlot (bs.take t.width) t) := by
  rw [decode, Bytes.slice?_eq_some (by omega), List.drop_zero]

end Value

namespace RowCodec

def values : List DataType → Bytes → List Value
  | [], _ => []
  | t :: ts, bs => Value.ofSlot (bs.take t.width) t :: values ts (bs.drop t.width)

@[simp] theorem map_type_values (types : List DataType) (bs : Bytes) :
    (values types bs).map Value.type = types := by
  induction types generalizing bs with
  | nil => rfl
  | cons t ts ih => simp only [values, List.map_cons, Value.type_ofSlot, ih]

@[simp] theorem length_values (types : List DataType) (bs : Bytes) :
    (values types bs).length = types.length := by
  rw [← List.length_map Value.type, map_type_values]

theorem values_take {types : List DataType} {n : Nat} (bs : Bytes)
    (h : DataType.totalWidth types ≤ n) : values types (bs.take n) = values types bs := by
  induction types generalizing n bs with
  | nil => rfl
  | cons t ts ih =>
    rw [DataType.totalWidth] at h
    simp only [values, List.take_take, List.drop_take, Nat.min_eq_left (show t.width ≤ n by omega)]
    rw [ih _ (by omega)]

theorem decodeFrom_eq {types : List DataType} {bs : Bytes}
    (h : DataType.totalWidth types ≤ bs.length) : decodeFrom types bs = .ok (values types bs) := by
  induction types generalizing bs with
  | nil => rfl
  | cons t ts ih =>
    rw [DataType.totalWidth] at h
    have rest : DataType.totalWidth ts ≤ (bs.drop t.width).length := by
      rw [List.length_drop]
      omega
    rw [decodeFrom, Value.decode_eq (by omega), ih rest]
    rfl

theorem offset_succ (t : DataType) (ts : List DataType) (i : Nat) :
    offset ⟨t :: ts⟩ (i + 1) = t.width + offset ⟨ts⟩ i := rfl

theorem offset_length (c : RowCodec) : c.offset c.types.length = c.width := by
  rw [offset, List.take_length, width]

theorem offset_mono (c : RowCodec) {i j : Nat} (h : i ≤ j) : c.offset i ≤ c.offset j := by
  have parts := List.take_append_drop i (c.types.take j)
  rw [List.take_take, Nat.min_eq_left h] at parts
  rw [offset, offset, ← parts, DataType.totalWidth_append]
  exact Nat.le_add_right _ _

theorem offset_add_width {c : RowCodec} {i : Nat} {t : DataType} (h : c.types[i]? = some t) :
    c.offset i + t.width = c.offset (i + 1) := by
  rw [offset, offset, List.take_add_one, h, DataType.totalWidth_append]
  rfl

theorem offset_add_width_le {c : RowCodec} {i : Nat} {t : DataType} (h : c.types[i]? = some t) :
    c.offset i + t.width ≤ c.width := by
  obtain ⟨inside, -⟩ := List.getElem?_eq_some_iff.1 h
  rw [offset_add_width h, ← c.offset_length]
  exact c.offset_mono inside

theorem getElem?_values (types : List DataType) (bs : Bytes) (i : Nat) :
    (values types bs)[i]? = types[i]?.map fun t =>
      Value.ofSlot ((bs.drop (offset ⟨types⟩ i)).take t.width) t := by
  induction types generalizing bs i with
  | nil => rfl
  | cons t ts ih =>
    cases i with
    | zero => rfl
    | succ i =>
      simp only [values, List.getElem?_cons_succ, ih, List.drop_drop, offset_succ]

end RowCodec

namespace TableFile

variable (t : TableFile)

theorem firstRow_eq {rest : Content} (h : t.codec.width ≤ rest.bytes.length) :
    t.firstRow rest = .ok (RowCodec.values t.codec.types rest.bytes) := by
  have slice : rest.slice? 0 t.codec.width = some (rest.bytes.take t.codec.width) := by
    rw [Content.slice?_eq, Bytes.slice?_eq_some (by omega), List.drop_zero]
  have fits : DataType.totalWidth t.codec.types ≤ (rest.bytes.take t.codec.width).length := by
    rw [List.length_take, Nat.min_eq_left h]
    exact Nat.le_refl _
  rw [firstRow, readAt, slice]
  show RowCodec.decodeFrom t.codec.types _ = _
  rw [RowCodec.decodeFrom_eq fits]
  exact congrArg Except.ok (RowCodec.values_take _ (Nat.le_refl _))

theorem firstColumn_slot {rest : Content} {i : Nat} {type : DataType}
    (at_ : t.codec.types[i]? = some type)
    (within : t.codec.offset i + type.width ≤ rest.bytes.length) :
    t.firstColumn i rest
      = .ok (Value.ofSlot ((rest.bytes.drop (t.codec.offset i)).take type.width) type) := by
  have slice : rest.slice? (t.codec.offset i) type.width
      = some ((rest.bytes.drop (t.codec.offset i)).take type.width) := by
    rw [Content.slice?_eq, Bytes.slice?_eq_some within]
  have column : t.codec.column i = .ok type := by rw [RowCodec.column, at_]
  have full : type.width ≤ ((rest.bytes.drop (t.codec.offset i)).take type.width).length := by
    rw [List.length_take, List.length_drop]
    omega
  simp only [firstColumn, RowCodec.columnOffset, RowCodec.decodeColumn, readAt, column, slice,
    Except.map, bind, Except.bind]
  rw [Value.decode_eq full, List.take_take, Nat.min_self]

theorem firstColumn_eq {rest : Content} {i : Nat} {v : Value}
    (h : t.codec.width ≤ rest.bytes.length)
    (hv : (RowCodec.values t.codec.types rest.bytes)[i]? = some v) :
    t.firstColumn i rest = .ok v := by
  rw [RowCodec.getElem?_values] at hv
  obtain ⟨type, at_, rfl⟩ := Option.map_eq_some_iff.1 hv
  exact t.firstColumn_slot at_ (Nat.le_trans (RowCodec.offset_add_width_le at_) h)

def rowsAt (types : List DataType) : Nat → Bytes → List (List Value)
  | 0, _ => []
  | n + 1, bs => RowCodec.values types bs :: rowsAt types n (bs.drop (DataType.totalWidth types))

@[simp] theorem length_rowsAt (types : List DataType) (n : Nat) (bs : Bytes) :
    (rowsAt types n bs).length = n := by
  induction n generalizing bs with
  | zero => rfl
  | succ n ih => simp only [rowsAt, List.length_cons, ih]

theorem map_type_of_mem_rowsAt {types : List DataType} {n : Nat} {bs : Bytes} {row : List Value}
    (h : row ∈ rowsAt types n bs) : row.map Value.type = types := by
  induction n generalizing bs with
  | zero => cases h
  | succ n ih =>
    cases h with
    | head => exact RowCodec.map_type_values types bs
    | tail _ h => exact ih h

theorem firstRows_eq (n : Nat) {rest : Content} (h : n * t.codec.width ≤ rest.bytes.length) :
    t.firstRows n rest = (rowsAt t.codec.types n rest.bytes).map .ok := by
  induction n generalizing rest with
  | zero => rfl
  | succ n ih =>
    rw [Nat.succ_mul] at h
    have next : (t.nextRow rest).bytes = rest.bytes.drop t.codec.width := Content.bytes_behind _ _
    have left_ : n * t.codec.width ≤ (t.nextRow rest).bytes.length := by
      rw [next, List.length_drop]
      omega
    rw [firstRows, t.firstRow_eq (by omega), ih left_, next]
    rfl

end TableFile

end RowStore
