import Mathlib.Algebra.Group.Nat.Defs
import RowStore.Proofs.Row.Layout
import RowStore.Proofs.Text.Utf8

namespace RowStore

namespace Bytes

theorem overwrite_end (part bs : Bytes) : overwrite bs.length part bs = bs ++ part := by
  rw [overwrite]
  split
  · rename_i nothing
    rw [nothing, List.append_nil]
  · simp

theorem overwrite_start (part bs : Bytes) : overwrite 0 part bs = part ++ bs.drop part.length := by
  rw [overwrite]
  split
  · rename_i nothing
    rw [nothing]
    rfl
  · simp

end Bytes

namespace Value

/-- What a row keeps of a value: a varchar is cut to its slot and ends before its first NUL. -/
def kept : Value → Value
  | .varchar s =>
    .varchar (String.ofList ((Text.clip Text.clipLimit s.toList).takeWhile (· ≠ '\x00')))
  | v => v

theorem length_clip_lt (s : String) :
    (Text.encode (Text.clip Text.clipLimit s.toList)).length < DataType.varcharWidth := by
  rw [Text.length_encode]
  exact Nat.lt_succ_of_le (Text.byteSize_clip_le _ _)

@[simp] theorem length_encode (v : Value) : v.encode.length = v.type.width := by
  cases v with
  | int n | date n => exact Bytes.length_ofNat 4 _
  | double x => exact Bytes.length_ofNat 8 _
  | varchar s =>
    have room := length_clip_lt s
    simp only [encode, varcharBytes, List.length_append, List.length_replicate, type,
      DataType.width]
    omega

theorem ofSlot_encode (v : Value) : ofSlot v.encode v.type = v.kept := by
  cases v with
  | int n | date n => simp only [encode, type, ofSlot, Bytes.toInt32_ofInt32, kept]
  | double x => simp only [encode, type, ofSlot, Bytes.toUInt64_ofUInt64, kept]
  | varchar s =>
    simp only [encode, varcharBytes, type, ofSlot, Text.takeWhile_encode, Text.decodeLossy_encode,
      kept]

end Value

namespace RowBuffer

def filled (front : Bytes) (n : Nat) : RowBuffer := ⟨front ++ List.replicate n 0, front.length⟩

theorem ofWidth_eq (n : Nat) : ofWidth n = filled [] n := rfl

theorem write_filled (front part : Bytes) {n : Nat} (room : part.length ≤ n) :
    (filled front n).write part = .ok (filled (front ++ part) (n - part.length)) := by
  have within : (filled front n).position + part.length ≤ (filled front n).bytes.length := by
    simp only [filled, List.length_append, List.length_replicate]
    omega
  rw [write, if_pos within]
  simp only [filled]
  rw [List.take_left, List.drop_append, Nat.add_sub_cancel_left, List.drop_replicate,
    List.drop_eq_nil_of_le (Nat.le_add_right _ _), List.nil_append, List.length_append]

end RowBuffer

namespace RowCodec

def rowBytes (row : List Value) : Bytes := row.flatMap Value.encode

theorem rowBytes_cons_append (v : Value) (vs : List Value) (rest : Bytes) :
    rowBytes (v :: vs) ++ rest = v.encode ++ (rowBytes vs ++ rest) := by
  rw [rowBytes, List.flatMap_cons, List.append_assoc, ← rowBytes]

@[simp] theorem length_rowBytes (row : List Value) :
    (rowBytes row).length = DataType.totalWidth (row.map Value.type) := by
  induction row with
  | nil => rfl
  | cons v vs ih =>
    rw [rowBytes, List.flatMap_cons, List.length_append, Value.length_encode, ← rowBytes, ih]
    rfl

theorem length_rowBytes_of_types {schema : TableSchema} {row : List Value}
    (typed : row.map Value.type = schema.types) : (rowBytes row).length = schema.rowWidth := by
  rw [length_rowBytes, typed]
  rfl

theorem writeFrom_filled (i : Nat) (row : List Value) (front : Bytes) {n : Nat}
    (room : DataType.totalWidth (row.map Value.type) ≤ n) :
    writeFrom i (row.map Value.type) row (.filled front n)
      = .ok (.filled (front ++ rowBytes row) (n - DataType.totalWidth (row.map Value.type))) := by
  induction row generalizing i front n with
  | nil => simp [writeFrom, rowBytes, DataType.totalWidth]
  | cons v vs ih =>
    rw [List.map_cons, DataType.totalWidth] at room
    have first := RowBuffer.write_filled front v.encode (n := n)
      (by rw [Value.length_encode]; omega)
    rw [Value.length_encode] at first
    have others := ih (i + 1) (front ++ v.encode) (n := n - v.type.width) (by omega)
    rw [List.append_assoc, Nat.sub_sub] at others
    rw [List.map_cons, writeFrom, if_pos rfl, first, DataType.totalWidth]
    exact others

theorem encode_eq {c : RowCodec} {row : List Value} (h : row.map Value.type = c.types) :
    c.encode row = .ok (rowBytes row) := by
  have length : row.length = c.types.length := by rw [← h, List.length_map]
  have full := writeFrom_filled 0 row [] (n := c.width) (Nat.le_of_eq (by rw [h, width]))
  rw [h, ← width, Nat.sub_self, List.nil_append] at full
  rw [encode, if_pos length, RowBuffer.ofWidth_eq, full]
  exact congrArg Except.ok (List.append_nil _)

theorem values_rowBytes (row : List Value) (rest : Bytes) :
    values (row.map Value.type) (rowBytes row ++ rest) = row.map Value.kept := by
  induction row with
  | nil => rfl
  | cons v vs ih =>
    rw [rowBytes_cons_append, List.map_cons, values, ← Value.length_encode v, List.take_left,
      List.drop_left, Value.ofSlot_encode, ih, List.map_cons]

theorem drop_rowBytes (row : List Value) (j : Nat) (rest : Bytes) :
    (rowBytes row ++ rest).drop (DataType.totalWidth ((row.map Value.type).take j))
      = rowBytes (row.drop j) ++ rest := by
  induction row generalizing j with
  | nil => simp [DataType.totalWidth, rowBytes]
  | cons v vs ih =>
    cases j with
    | zero => rfl
    | succ j =>
      rw [rowBytes_cons_append, List.map_cons, List.take_succ_cons, DataType.totalWidth,
        ← List.drop_drop, ← Value.length_encode v, List.drop_left, ih, List.drop_succ_cons]

end RowCodec

namespace TableFile

open RowCodec

theorem rowsAt_flatMap {types : List DataType} {rows : List (List Value)} (rest : Bytes)
    (typed : ∀ row ∈ rows, row.map Value.type = types) :
    rowsAt types rows.length (rows.flatMap rowBytes ++ rest) = rows.map (List.map Value.kept) := by
  induction rows with
  | nil => rfl
  | cons row rows ih =>
    have first : row.map Value.type = types := typed row List.mem_cons_self
    have width : DataType.totalWidth types = (rowBytes row).length := by
      rw [length_rowBytes, first]
    have bytes : (row :: rows).flatMap rowBytes ++ rest
        = rowBytes row ++ (rows.flatMap rowBytes ++ rest) := by
      rw [List.flatMap_cons, List.append_assoc]
    rw [bytes, List.length_cons, rowsAt, width, List.drop_left, List.map_cons,
      ih fun r mem => typed r (List.mem_cons_of_mem _ mem)]
    congr 1
    rw [← first]
    exact values_rowBytes row _

theorem length_header (n : Nat) : (header n).length = headerSize := Bytes.length_ofNat _ _

def imageOf (rows : List (List Value)) : Bytes := header rows.length ++ rows.flatMap rowBytes

theorem length_flatMap_rowBytes {types : List DataType} {rows : List (List Value)}
    (typed : ∀ row ∈ rows, row.map Value.type = types) :
    (rows.flatMap rowBytes).length = rows.length * DataType.totalWidth types := by
  induction rows with
  | nil => simp
  | cons row rows ih =>
    rw [List.flatMap_cons, List.length_append, length_rowBytes, typed row List.mem_cons_self,
      ih fun r mem => typed r (List.mem_cons_of_mem _ mem), List.length_cons, Nat.succ_mul,
      Nat.add_comm]

theorem drop_flatMap_rowBytes {types : List DataType} {rows : List (List Value)}
    (typed : ∀ row ∈ rows, row.map Value.type = types) (i : Nat) :
    (rows.flatMap rowBytes).drop (i * DataType.totalWidth types)
      = (rows.drop i).flatMap rowBytes := by
  induction rows generalizing i with
  | nil => simp
  | cons row rows ih =>
    cases i with
    | zero => simp
    | succ i =>
      have width : (rowBytes row).length = DataType.totalWidth types := by
        rw [length_rowBytes, typed row List.mem_cons_self]
      rw [List.flatMap_cons, Nat.succ_mul, Nat.add_comm, ← List.drop_drop, ← width, List.drop_left,
        width, ih fun r mem => typed r (List.mem_cons_of_mem _ mem), List.drop_succ_cons]

theorem length_imageOf {types : List DataType} {rows : List (List Value)}
    (typed : ∀ row ∈ rows, row.map Value.type = types) :
    (imageOf rows).length = headerSize + rows.length * DataType.totalWidth types := by
  rw [imageOf, List.length_append, length_flatMap_rowBytes typed, length_header]

theorem take_imageOf (rows : List (List Value)) :
    (imageOf rows).take headerSize = header rows.length := by
  rw [imageOf]
  exact List.take_left' (length_header _)

theorem drop_imageOf (rows : List (List Value)) :
    (imageOf rows).drop headerSize = rows.flatMap rowBytes := by
  rw [imageOf]
  exact List.drop_left' (length_header _)

theorem imageOf_concat (rows : List (List Value)) (row : List Value) :
    imageOf (rows ++ [row])
      = header (rows.length + 1) ++ (imageOf rows ++ rowBytes row).drop headerSize := by
  rw [imageOf, List.length_append, List.length_singleton, List.flatMap_append,
    List.flatMap_singleton, imageOf, List.append_assoc (header rows.length),
    List.drop_left' (length_header _)]

theorem nextCount_eq {t : TableFile} (roomy : t.rowCount + 1 < UInt32.size) :
    t.nextCount = .ok (t.count + 1) := if_pos roomy

theorem toNat_count_add_one {t : TableFile} (roomy : t.rowCount + 1 < UInt32.size) :
    (t.count + 1).toNat = t.rowCount + 1 := by
  rw [UInt32.toNat_add]
  exact Nat.mod_eq_of_lt roomy

theorem append_ok {t : TableFile} {row : List Value} (fits : row.map Value.type = t.codec.types)
    (roomy : t.rowCount + 1 < UInt32.size) (content : Content) :
    t.append row content = (.ok { t with count := t.count + 1 },
      (content.overwrite (t.rowOffset t.rowCount) (rowBytes row)).overwrite 0
        (header (t.rowCount + 1))) := by
  rw [← toNat_count_add_one roomy, append, encode_eq fits, nextCount_eq roomy]
  rfl

theorem append_refused {t : TableFile} (row : List Value) {e : TableError}
    (h : t.codec.encode row = .error e ∨ t.nextCount = .error e) (content : Content) :
    ∃ e', t.append row content = (.error e', content) := by
  -- A row that cannot be encoded, or counted, leaves the file as it was: both are found out before
  -- the first byte is written.
  rw [append]
  cases encoded : t.codec.encode row with
  | error e' => exact ⟨e', rfl⟩
  | ok bytes =>
    obtain refused | full := h
    · rw [encoded] at refused
      cases refused
    · rw [full]
      exact ⟨e, rfl⟩

/-- Appending a row to a table file adds it behind the others. -/
theorem append_eq {t : TableFile} {rows : List (List Value)} {row : List Value} {content : Content}
    (typed : ∀ r ∈ rows, r.map Value.type = t.codec.types)
    (fits : row.map Value.type = t.codec.types) (count : t.rowCount = rows.length)
    (roomy : rows.length + 1 < UInt32.size) (file : content.bytes = imageOf rows) :
    ∃ t' content', t.append row content = (.ok t', content') ∧
      content'.bytes = imageOf (rows ++ [row]) := by
  have place : t.rowOffset t.rowCount = content.bytes.length := by
    rw [file, length_imageOf typed, count]
    rfl
  refine ⟨_, _, append_ok fits (count ▸ roomy) content, ?_⟩
  rw [Content.bytes_overwrite, Content.bytes_overwrite, place, Bytes.overwrite_end,
    Bytes.overwrite_start, file, imageOf_concat, count, header, Bytes.length_ofNat]

theorem toNat_header {n : Nat} (h : n < 2 ^ 32) : Bytes.toNat (header n) = n :=
  Bytes.toNat_ofNat h

end TableFile

end RowStore
