import RowStore.Proofs.Query.Select

namespace RowStore

theorem Bytes.slice?_eq_none {start len : Nat} {bs : Bytes} (some_ : 0 < len)
    (h : bs.length < start + len) : Bytes.slice? start len bs = none := by
  have short : ((bs.drop start).take len).length ≠ len := by
    rw [List.length_take, List.length_drop]
    omega
  rw [Bytes.slice?, if_neg short]

namespace RowCodec

theorem width_pos {c : RowCodec} (some_ : c.types ≠ []) : 0 < c.width := by
  obtain ⟨types⟩ := c
  cases types with
  | nil => exact absurd rfl some_
  | cons t ts => exact Nat.lt_of_lt_of_le t.width_pos (Nat.le_add_right _ _)

theorem forall_offset_le_iff {c : RowCodec} (some_ : c.types ≠ []) {start size : Nat} :
    (∀ k < c.types.length, start + c.offset (k + 1) ≤ size) ↔ start + c.width ≤ size := by
  rw [← c.offset_length]
  constructor
  · intro all
    have count : c.types.length - 1 + 1 = c.types.length :=
      Nat.sub_add_cancel (List.length_pos_iff.2 some_)
    have last := all (c.types.length - 1) (by omega)
    rwa [count] at last
  · intro full k known
    exact Nat.le_trans (Nat.add_le_add_left (c.offset_mono known) _) full

end RowCodec

namespace TableFile

section First

variable {t : TableFile} {rest : Content} {c : Nat}

theorem readAt_eq_error {offset len : Nat} (some_ : 0 < len)
    (h : rest.bytes.length < offset + len) :
    t.readAt offset len rest = .error (.io t.path .endOfFile) := by
  rw [readAt, Content.slice?_eq, Bytes.slice?_eq_none some_ h]

theorem exists_firstRow_iff (some_ : 0 < t.codec.width) :
    (∃ row, t.firstRow rest = .ok row) ↔ t.codec.width ≤ rest.bytes.length := by
  constructor
  · rintro ⟨row, read⟩
    by_contra short
    rw [firstRow, readAt_eq_error some_ (by omega)] at read
    cases read
  · exact fun full => ⟨_, t.firstRow_eq full⟩

theorem exists_firstColumn_iff {type : DataType} (at_ : t.codec.types[c]? = some type) :
    (∃ v, t.firstColumn c rest = .ok v) ↔ t.codec.offset (c + 1) ≤ rest.bytes.length := by
  rw [← RowCodec.offset_add_width at_]
  constructor
  · rintro ⟨v, read⟩
    by_contra short
    have column : t.codec.column c = .ok type := by rw [RowCodec.column, at_]
    have refused : t.readAt (t.codec.offset c) type.width rest = .error (.io t.path .endOfFile) :=
      readAt_eq_error type.width_pos (Nat.lt_of_not_le short)
    rw [firstColumn, RowCodec.columnOffset, column] at read
    simp only [Except.map, bind, Except.bind, refused] at read
    cases read
  · exact fun within => ⟨_, t.firstColumn_slot at_ within⟩

theorem firstColumn_outside (outside : t.codec.types.length ≤ c) :
    t.firstColumn c rest = .error (.columnOutOfRange c t.codec.types.length) := by
  have column : t.codec.column c = .error (.columnOutOfRange c t.codec.types.length) := by
    rw [RowCodec.column, List.getElem?_eq_none outside]
  rw [firstColumn, RowCodec.columnOffset, column]
  rfl

end First

section Counted

variable {t : TableFile} {i c : Nat} {content : Content}

theorem readRow_inside (inside : i < t.rowCount) :
    t.readRow i content = t.firstRow (t.fromRow i content) := by
  rw [readRow, checkRow, if_pos inside]
  rfl

theorem readColumn_inside (inside : i < t.rowCount) :
    t.readColumn i c content = t.firstColumn c (t.fromRow i content) := by
  rw [readColumn, checkRow, if_pos inside]
  rfl

theorem checkRow_outside (outside : t.rowCount ≤ i) :
    t.checkRow i = .error (.rowOutOfRange i t.rowCount) := by
  rw [checkRow, if_neg (Nat.not_lt.2 outside)]

theorem le_length_fromRow {n : Nat} (some_ : 0 < n) :
    n ≤ (t.fromRow i content).bytes.length ↔ t.rowOffset i + n ≤ content.bytes.length := by
  rw [fromRow, Content.bytes_behind, List.length_drop]
  omega

theorem exists_readRow_iff (some_ : 0 < t.codec.width) (inside : i < t.rowCount) :
    (∃ row, t.readRow i content = .ok row) ↔
      t.rowOffset i + t.codec.width ≤ content.bytes.length := by
  rw [readRow_inside inside, exists_firstRow_iff some_, le_length_fromRow some_]

theorem exists_readColumn_iff (known : c < t.codec.types.length) (inside : i < t.rowCount) :
    (∃ v, t.readColumn i c content = .ok v) ↔
      t.rowOffset i + t.codec.offset (c + 1) ≤ content.bytes.length := by
  have at_ : t.codec.types[c]? = some t.codec.types[c] := List.getElem?_eq_getElem known
  have some_ : 0 < t.codec.offset (c + 1) := by
    rw [← RowCodec.offset_add_width at_]
    exact Nat.lt_of_lt_of_le (DataType.width_pos _) (Nat.le_add_left _ _)
  rw [readColumn_inside inside, exists_firstColumn_iff at_, le_length_fromRow some_]

theorem readColumn_of_readRow {row : List Value} (some_ : 0 < t.codec.width)
    (inside : i < t.rowCount) (read : t.readRow i content = .ok row) :
    row.length = t.codec.types.length ∧ ∀ c v, row[c]? = some v → t.readColumn i c content = .ok v := by
  rw [readRow_inside inside] at read
  have full := (exists_firstRow_iff some_).1 ⟨row, read⟩
  rw [t.firstRow_eq full] at read
  cases read
  refine ⟨RowCodec.length_values _ _, fun c v at_ => ?_⟩
  rw [readColumn_inside inside]
  exact t.firstColumn_eq full at_

end Counted

/-- A counted row is read at once exactly where the file reaches to its end, and exactly where all its
columns are read by themselves, with the same values. Other columns and rows are refused. -/
theorem readRow_iff_readColumn {schema : TableSchema} {t : TableFile}
    (some_ : schema.columns ≠ []) (codec : t.codec = .ofSchema schema) (content : Content) (i : Nat) :
    (i < t.rowCount →
      ((∃ row, t.readRow i content = .ok row) ↔
        headerSize + (i + 1) * schema.rowWidth ≤ content.bytes.length) ∧
      ((∃ row, t.readRow i content = .ok row) ↔
        ∀ c < schema.columns.length, ∃ v, t.readColumn i c content = .ok v) ∧
      (∀ row, t.readRow i content = .ok row → row.length = schema.columns.length ∧
        ∀ c v, row[c]? = some v → t.readColumn i c content = .ok v) ∧
      (∀ c < schema.columns.length, (∃ v, t.readColumn i c content = .ok v) ↔
        t.rowOffset i + t.codec.offset (c + 1) ≤ content.bytes.length) ∧
      ∀ c, schema.columns.length ≤ c →
        t.readColumn i c content = .error (.columnOutOfRange c schema.columns.length)) ∧
    (t.rowCount ≤ i →
      t.readRow i content = .error (.rowOutOfRange i t.rowCount) ∧
      ∀ c, t.readColumn i c content = .error (.rowOutOfRange i t.rowCount)) := by
  have columns : t.codec.types.length = schema.columns.length := by
    rw [codec]
    exact List.length_map _
  have types : t.codec.types ≠ [] := by
    rw [← List.length_pos_iff, columns]
    exact List.length_pos_iff.2 some_
  have ends : t.rowOffset i + t.codec.width = headerSize + (i + 1) * schema.rowWidth := by
    rw [rowOffset, codec, Nat.succ_mul, ← Nat.add_assoc]
    rfl
  have wide := RowCodec.width_pos types
  refine ⟨fun inside => ⟨?_, ?_, ?_, ?_, ?_⟩, fun outside => ⟨?_, fun c => ?_⟩⟩
  · rw [exists_readRow_iff wide inside, ends]
  · rw [exists_readRow_iff wide inside, ← RowCodec.forall_offset_le_iff types, columns]
    exact forall₂_congr fun c known => (exists_readColumn_iff (columns ▸ known) inside).symm
  · intro row read
    exact columns ▸ readColumn_of_readRow wide inside read
  · exact fun c known => exists_readColumn_iff (columns ▸ known) inside
  · intro c unknown
    rw [readColumn_inside inside, firstColumn_outside (columns ▸ unknown), columns]
  · rw [readRow, checkRow_outside outside]
    rfl
  · rw [readColumn, checkRow_outside outside]
    rfl

def cutContent : Content :=
  .ofBytes (header 3 ++ Bytes.ofNat 4 7 ++ [0xff, 0x41] ++ List.replicate 62 0 ++ Bytes.ofNat 4 8
    ++ [0x42, 0xc3])

def cutTable : TableFile := ⟨⟨"t.table"⟩, .ofSchema exampleSchema, 3⟩

theorem readRow_iff_readColumn_cut :
    exampleSchema.columns ≠ [] ∧ cutTable.codec = .ofSchema exampleSchema ∧
      cutTable.readRow 0 cutContent = .ok [.int 7, .varchar "\uFFFDA"] ∧
      cutTable.readColumn 0 1 cutContent = .ok (.varchar "\uFFFDA") ∧
      (∃ v, cutTable.readColumn 1 0 cutContent = .ok v) ∧
      (¬∃ row, cutTable.readRow 1 cutContent = .ok row) ∧
      cutTable.readColumn 1 2 cutContent = .error (.columnOutOfRange 2 2) ∧
      cutTable.readRow 3 cutContent = .error (.rowOutOfRange 3 3) := by
  have some_ : exampleSchema.columns ≠ [] := List.cons_ne_nil _ _
  have codec : cutTable.codec = .ofSchema exampleSchema := rfl
  have read : cutTable.readRow 0 cutContent = .ok [.int 7, .varchar "\uFFFDA"] := by decide +kernel
  obtain ⟨-, -, values, -, -⟩ := (readRow_iff_readColumn some_ codec cutContent 0).1 (by decide)
  obtain ⟨row, -, -, column, unknown⟩ :=
    (readRow_iff_readColumn some_ codec cutContent 1).1 (by decide)
  obtain ⟨outside, -⟩ := (readRow_iff_readColumn some_ codec cutContent 3).2 (by decide)
  refine ⟨some_, codec, read, (values _ read).2 1 _ rfl, ?_, ?_, unknown 2 (by decide), outside⟩
  · rw [column 0 (by decide)]
    decide +kernel
  · rw [row]
    decide +kernel

end TableFile

end RowStore
