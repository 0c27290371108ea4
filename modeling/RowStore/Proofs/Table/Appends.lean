import Mathlib.Data.List.Forall2
import RowStore.Proofs.Query.Select
import RowStore.Proofs.Row.RoundTrip

/-!
A table file over time: rows are appended, the file is closed and opened again. Whatever follows the
counted rows at first, no row is damaged or lost, and a row that does not fit the schema changes nothing.
-/

namespace RowStore

namespace Bytes

def padded (k : Nat) (bs : Bytes) : Bytes := bs.take k ++ List.replicate (k - bs.length) 0

theorem padded_of_le {k : Nat} {bs : Bytes} (h : k ≤ bs.length) : padded k bs = bs.take k := by
  simp [padded, Nat.sub_eq_zero_of_le h]

theorem length_padded (k : Nat) (bs : Bytes) : (padded k bs).length = k := by
  rw [padded, List.length_append, List.length_take, List.length_replicate]
  omega

theorem overwrite_padded {start : Nat} {part bs : Bytes} (h : part = [] → start ≤ bs.length) :
    overwrite start part bs = padded start bs ++ (part ++ bs.drop (start + part.length)) := by
  rw [overwrite]
  split
  · rename_i nothing
    simp [nothing, padded_of_le (h nothing)]
  · simp [padded]

end Bytes

namespace RowCodec

theorem map_type_of_writeFrom {types : List DataType} {row : List Value} {i : Nat} {b b' : RowBuffer}
    (length : row.length = types.length) (h : writeFrom i types row b = .ok b') :
    row.map Value.type = types := by
  induction row generalizing types i b with
  | nil => exact (List.length_eq_zero_iff.1 length.symm).symm
  | cons v vs ih =>
    cases types with
    | nil => cases length
    | cons t ts =>
      rw [writeFrom] at h
      split at h
      · rename_i type
        cases written : b.write v.encode with
        | error e =>
          rw [written] at h
          cases h
        | ok longer =>
          rw [written] at h
          rw [List.map_cons, type, ih (Nat.succ.inj length) h]
      · cases h

theorem encode_ok_iff {c : RowCodec} {row : List Value} :
    (∃ bs, c.encode row = .ok bs) ↔ row.map Value.type = c.types := by
  constructor
  · rintro ⟨bs, h⟩
    rw [encode] at h
    split at h
    · rename_i length
      cases written : writeFrom 0 c.types row (.ofWidth c.width) with
      | error e =>
        rw [written] at h
        cases h
      | ok b => exact map_type_of_writeFrom length written
    · cases h
  · exact fun typed => ⟨_, encode_eq typed⟩

end RowCodec

namespace TableFile

open RowCodec

section Rows

variable {types : List DataType}

theorem rowsAt_take {n k : Nat} (bs : Bytes) (h : n * DataType.totalWidth types ≤ k) :
    rowsAt types n (bs.take k) = rowsAt types n bs := by
  induction n generalizing bs k with
  | zero => rfl
  | succ n ih =>
    rw [Nat.succ_mul] at h
    rw [rowsAt, rowsAt, values_take bs (by omega), List.drop_take, ih _ (by omega)]

theorem rowsAt_concat {n : Nat} {front : Bytes} {row : List Value} (rest : Bytes)
    (full : front.length = n * DataType.totalWidth types) (typed : row.map Value.type = types) :
    rowsAt types (n + 1) (front ++ (rowBytes row ++ rest))
      = rowsAt types n front ++ [row.map Value.kept] := by
  induction n generalizing front with
  | zero =>
    obtain rfl : front = [] := by simpa using full
    rw [← typed]
    exact congrArg (fun values => [values]) (values_rowBytes row rest)
  | succ n ih =>
    rw [Nat.succ_mul] at full
    have width : DataType.totalWidth types ≤ front.length := by omega
    have first : values types (front ++ (rowBytes row ++ rest)) = values types front := by
      rw [← values_take _ (Nat.le_refl _), List.take_append_of_le_length width,
        values_take _ (Nat.le_refl _)]
    have left_ : (front.drop (DataType.totalWidth types)).length
        = n * DataType.totalWidth types := by
      rw [List.length_drop]
      omega
    rw [rowsAt, first, List.drop_append_of_le_length width, ih left_]
    rfl

end Rows

/-- A row and a new header leave the bytes before and behind the row as they were. Bytes that are
missing before it become zero. -/
theorem bytes_written {content : Content} {k : Nat} {row : Bytes}
    (open_ : headerSize ≤ content.bytes.length)
    (room : row = [] → headerSize + k ≤ content.bytes.length) (n : Nat) :
    ((content.overwrite (headerSize + k) row).overwrite 0 (header n)).bytes
      = header n ++ (Bytes.padded k (content.bytes.drop headerSize)
        ++ (row ++ content.bytes.drop (headerSize + k + row.length))) := by
  have former : headerSize ≤ (content.bytes.take (headerSize + k)).length := by
    rw [List.length_take]
    omega
  have gap : headerSize + k - content.bytes.length
      = k - (content.bytes.drop headerSize).length := by
    rw [List.length_drop]
    omega
  rw [Content.bytes_overwrite, Content.bytes_overwrite, Bytes.overwrite_start,
    Bytes.overwrite_padded room, header, Bytes.length_ofNat, Bytes.padded, List.append_assoc,
    List.drop_append_of_le_length former, List.drop_take, Nat.add_sub_cancel_left, gap, Bytes.padded,
    List.append_assoc]

structure Holds (schema : TableSchema) (rows : List (List Value)) (t : TableFile)
    (content : Content) : Prop where
  codec : t.codec = .ofSchema schema
  count : t.rowCount = rows.length
  header : counted content = rows.length
  room : headerSize + rows.length * schema.rowWidth ≤ content.bytes.length
  stored : rowsAt schema.types rows.length (content.bytes.drop headerSize) = rows

namespace Holds

variable {schema : TableSchema} {rows : List (List Value)} {t : TableFile} {content : Content}

theorem ofWhole (path : Path) (whole : Whole schema content) :
    ∃ t, ofContent path schema content = .ok t ∧
      Holds schema (rowsAt schema.types (counted content) (content.bytes.drop headerSize)) t
        content := by
  refine ⟨_, ofContent_eq (Nat.le_trans (Nat.le_add_right _ _) whole), rfl, ?_, ?_, ?_, ?_⟩
  · rw [length_rowsAt, rowCount_counted]
  · rw [length_rowsAt]
  · rw [length_rowsAt]
    exact whole
  · rw [length_rowsAt]

theorem reopen (h : Holds schema rows t content) :
    ∃ t', ofContent t.path schema content = .ok t' ∧ Holds schema rows t' content := by
  refine ⟨_, ofContent_eq (Nat.le_trans (Nat.le_add_right _ _) h.room), ?_⟩
  exact ⟨rfl, (rowCount_counted ..).trans h.header, h.header, h.room, h.stored⟩

theorem map_readRow (h : Holds schema rows t content) :
    (List.range rows.length).map (fun i => t.readRow i content) = rows.map .ok := by
  have fit : rows.length * t.codec.width ≤ (t.fromRow 0 content).bytes.length := by
    have room := h.room
    rw [bytes_fromRow_zero, List.length_drop, h.codec]
    show rows.length * schema.rowWidth ≤ _
    omega
  have all := (t.rows_eq content).symm
  rw [scan, TableFile.rows, h.count, t.firstRows_eq _ fit, bytes_fromRow_zero, h.codec] at all
  rw [all]
  exact congrArg _ h.stored

theorem readRow {i : Nat} {row : List Value} (h : Holds schema rows t content)
    (at_ : rows[i]? = some row) : t.readRow i content = .ok row := by
  obtain ⟨inside, rfl⟩ := List.getElem?_eq_some_iff.1 at_
  have here := congrArg (fun results => results[i]?) h.map_readRow
  simpa [inside] using here

theorem checkRow {i : Nat} (h : Holds schema rows t content) (outside : rows.length ≤ i) :
    t.checkRow i = .error (.rowOutOfRange i rows.length) := by
  rw [TableFile.checkRow, h.count, if_neg (Nat.not_lt.2 outside)]

theorem append {row : List Value} (h : Holds schema rows t content)
    (typed : row.map Value.type = schema.types) (roomy : rows.length + 1 < 2 ^ 32) :
    ∃ t' content', t.append row content = (.ok t', content') ∧
      Holds schema (rows ++ [row.map Value.kept]) t' content' := by
  have fits : row.map Value.type = t.codec.types := by rw [typed, h.codec]; rfl
  have offset : t.rowOffset t.rowCount = headerSize + rows.length * schema.rowWidth := by
    rw [rowOffset, h.count, h.codec]
    rfl
  have within : rows.length * schema.rowWidth ≤ (content.bytes.drop headerSize).length := by
    have room := h.room
    rw [List.length_drop]
    omega
  have width := length_rowBytes_of_types typed
  have room : rowBytes row = [] → headerSize + rows.length * schema.rowWidth
      ≤ content.bytes.length := fun _ => h.room
  have bytes := bytes_written (Nat.le_trans (Nat.le_add_right _ _) h.room) room (rows.length + 1)
  rw [Bytes.padded_of_le within] at bytes
  have front : ((content.bytes.drop headerSize).take (rows.length * schema.rowWidth)).length
      = rows.length * DataType.totalWidth schema.types := by
    rw [List.length_take, Nat.min_eq_left within]
    rfl
  have length : (rows ++ [row.map Value.kept]).length = rows.length + 1 := by simp
  have former := (rowsAt_take _ (Nat.le_refl _)).trans h.stored
  have counts : t.rowCount + 1 < UInt32.size := h.count ▸ roomy
  rw [append_ok fits counts content, offset, h.count]
  refine ⟨_, _, rfl, h.codec, ?_, ?_, ?_, ?_⟩
  · rw [length, ← h.count]
    exact toNat_count_add_one counts
  · rw [length, counted, bytes, List.take_left' (length_header _), toNat_header roomy]
  · rw [length, bytes, List.length_append, length_header, List.length_append, front,
      List.length_append, width, Nat.succ_mul, TableSchema.rowWidth]
    omega
  · rw [length, bytes, List.drop_left' (length_header _), rowsAt_concat _ front typed]
    exact congrArg (· ++ [row.map Value.kept]) former

theorem append_error {row : List Value} (h : Holds schema rows t content)
    (other : row.map Value.type ≠ schema.types) :
    ∃ e, t.append row content = (.error e, content) := by
  cases encoded : t.codec.encode row with
  | ok bs =>
    have typed := encode_ok_iff.1 ⟨bs, encoded⟩
    rw [h.codec] at typed
    exact absurd typed other
  | error e => exact append_refused row (.inl encoded) content

end Holds

section Deeds

/-- What is done with a table file: a row is given to it, or it is closed and opened again. -/
inductive Deed
  | append (values : List Value)
  | reopen
  deriving DecidableEq, Repr

def perform (schema : TableSchema) (t : TableFile) : Deed → OnContent TableFile
  | .append values => t.append values
  | .reopen => fun content => (ofContent t.path schema content, content)

def performAll (schema : TableSchema) (t : TableFile) (content : Content) :
    List Deed → List (Except TableError Unit) × TableFile × Content
  | [] => ([], t, content)
  | d :: ds => match perform schema t d content with
    | (.ok t', content') =>
      let (answers, last) := performAll schema t' content' ds
      (.ok () :: answers, last)
    | (.error e, content') =>
      let (answers, last) := performAll schema t content' ds
      (.error e :: answers, last)

def Deed.Fits (schema : TableSchema) : Deed → Prop
  | .append values => values.map Value.type = schema.types
  | .reopen => True

def Deed.accepted? (schema : TableSchema) : Deed → Option (List Value)
  | .append values => if values.map Value.type = schema.types then some values else none
  | .reopen => none

def accepted (schema : TableSchema) (deeds : List Deed) : List (List Value) :=
  deeds.filterMap (Deed.accepted? schema)

variable {schema : TableSchema} {rows : List (List Value)} {t : TableFile} {content : Content}

theorem accepted_cons (d : Deed) (ds : List Deed) :
    accepted schema (d :: ds) = (d.accepted? schema).toList ++ accepted schema ds := by
  cases h : d.accepted? schema <;> simp [accepted, h]

theorem Holds.perform (h : Holds schema rows t content) (d : Deed)
    (roomy : rows.length + (d.accepted? schema).toList.length < 2 ^ 32) :
    (d.Fits schema ∧ ∃ t' content', TableFile.perform schema t d content = (.ok t', content') ∧
      Holds schema (rows ++ (d.accepted? schema).toList.map (List.map Value.kept)) t' content') ∨
    (¬d.Fits schema ∧ d.accepted? schema = none ∧
      ∃ e, TableFile.perform schema t d content = (.error e, content)) := by
  cases d with
  | reopen =>
    obtain ⟨t', opened, holds⟩ := h.reopen
    refine .inl ⟨trivial, t', content, ?_, by simpa [Deed.accepted?] using holds⟩
    simp only [TableFile.perform, opened]
  | append values =>
    by_cases typed : values.map Value.type = schema.types
    · have fits : Deed.accepted? schema (.append values) = some values := if_pos typed
      rw [fits] at roomy ⊢
      exact .inl ⟨typed, h.append typed roomy⟩
    · exact .inr ⟨typed, if_neg typed, h.append_error typed⟩

theorem Holds.performAll (h : Holds schema rows t content) (deeds : List Deed)
    (roomy : rows.length + (accepted schema deeds).length < 2 ^ 32) :
    ∃ answers t' content', TableFile.performAll schema t content deeds = (answers, t', content') ∧
      List.Forall₂ (fun d answer => answer = .ok () ↔ d.Fits schema) deeds answers ∧
      Holds schema (rows ++ (accepted schema deeds).map (List.map Value.kept)) t' content' := by
  -- Each deed adds at most its own row, so all of them add those that fit.
  induction deeds generalizing rows t content with
  | nil => exact ⟨[], t, content, rfl, .nil, by simpa [accepted] using h⟩
  | cons d ds ih =>
    rw [accepted_cons, List.length_append] at roomy
    rw [accepted_cons, List.map_append, ← List.append_assoc]
    obtain ⟨fits, t', content', done, holds⟩ | ⟨other, none_, e, refused⟩ := h.perform d (by omega)
    · obtain ⟨answers, t'', content'', others, all, last⟩ := ih holds (by simp; omega)
      refine ⟨.ok () :: answers, t'', content'', ?_, .cons (by simp [fits]) all, last⟩
      rw [TableFile.performAll, done]
      simp only [others]
    · rw [none_] at roomy ⊢
      obtain ⟨answers, t'', content'', others, all, last⟩ := ih h (by simpa using roomy)
      refine ⟨.error e :: answers, t'', content'', ?_, .cons (by simp [other]) all,
        by simpa using last⟩
      rw [TableFile.performAll, refused]
      simp only [others]

theorem performAll_append (deeds others : List Deed) :
    performAll schema t content (deeds ++ others)
      = let (answers, t', content') := performAll schema t content deeds
        let (answers', last) := performAll schema t' content' others
        (answers ++ answers', last) := by
  induction deeds generalizing t content with
  | nil => rfl
  | cons d ds ih =>
    rw [List.cons_append, performAll, performAll]
    rcases perform schema t d content with ⟨_ | _, _⟩ <;> simp only [ih] <;> rfl

/-- A table whose rows are those of another one and some that were added behind them. -/
structure Extends (schema : TableSchema) (t : TableFile) (content : Content)
    (added : List (List Value)) (t' : TableFile) (content' : Content) : Prop where
  whole : Whole schema content'
  header : counted content' = t.rowCount + added.length
  count : t'.rowCount = t.rowCount + added.length
  scan : t'.scan = List.range (t.rowCount + added.length)
  former : ∀ i < t.rowCount, t'.readRow i content' = t.readRow i content
  later : ∀ j row, added[j]? = some row →
    t'.readRow (t.rowCount + j) content' = .ok (row.map Value.kept)
  outside : ∀ i, t.rowCount + added.length ≤ i →
    t'.readRow i content' = .error (.rowOutOfRange i (t.rowCount + added.length)) ∧
      ∀ column, t'.readColumn i column content'
        = .error (.rowOutOfRange i (t.rowCount + added.length))

theorem Holds.extends {added : List (List Value)} {t' : TableFile} {content' : Content}
    (h : Holds schema rows t content)
    (h' : Holds schema (rows ++ added.map (List.map Value.kept)) t' content') :
    Extends schema t content added t' content' := by
  have length : (rows ++ added.map (List.map Value.kept)).length = t.rowCount + added.length := by
    rw [List.length_append, List.length_map, h.count]
  refine ⟨?_, h'.header.trans length, h'.count.trans length, ?_, ?_, ?_, ?_⟩
  · rw [Whole, h'.header]
    exact h'.room
  · rw [TableFile.scan, h'.count, length]
  · intro i inside
    rw [h.count] at inside
    have before : rows[i]? = some rows[i] := List.getElem?_eq_getElem inside
    rw [h.readRow before]
    apply h'.readRow
    rw [List.getElem?_append_left inside, before]
  · intro j row at_
    apply h'.readRow
    rw [h.count, List.getElem?_append_right (Nat.le_add_right _ _), Nat.add_sub_cancel_left,
      List.getElem?_map, at_]
    rfl
  · intro i outside
    have refused := h'.checkRow (length ▸ outside)
    rw [length] at refused
    exact ⟨by rw [TableFile.readRow, refused]; rfl,
      fun column => by rw [TableFile.readColumn, refused]; rfl⟩

/-- A file with all the rows it counts is opened, and whatever is done then, every row that fits the
schema is kept behind the counted ones and nothing else changes. -/
theorem extends_of_whole (path : Path) (whole : Whole schema content) (deeds : List Deed)
    (roomy : counted content + (accepted schema deeds).length < 2 ^ 32) :
    ∃ t answers t' content', ofContent path schema content = .ok t ∧
      t.rowCount = counted content ∧
      performAll schema t content deeds = (answers, t', content') ∧
      List.Forall₂ (fun d answer => answer = .ok () ↔ d.Fits schema) deeds answers ∧
      Extends schema t content (accepted schema deeds) t' content' ∧
      ∀ values, values.map Value.type ≠ schema.types →
        ∃ e, performAll schema t content (deeds ++ [.append values])
          = (answers ++ [.error e], t', content') := by
  obtain ⟨t, opened, start⟩ := Holds.ofWhole path whole
  obtain ⟨answers, t', content', all, fits, last⟩ := start.performAll deeds (by simpa using roomy)
  refine ⟨t, answers, t', content', opened, ?_, all, fits, start.extends last, ?_⟩
  · rw [start.count, length_rowsAt]
  · intro values other
    obtain ⟨e, refused⟩ := last.append_error other
    refine ⟨e, ?_⟩
    rw [performAll_append, all]
    simp only [TableFile.performAll, TableFile.perform, refused]

def staleContent : Content :=
  .ofBytes (header 1 ++ Bytes.ofNat 4 7 ++ List.replicate 64 0 ++ List.replicate 30 0xff)

def staleDeeds : List Deed :=
  [.append [.int 5, .varchar "é\x00b"], .append [.int 5], .reopen,
    .append [.varchar "b", .int 6], .append [.int 8, .varchar ""]]

theorem extends_of_whole_stale :
    Whole exampleSchema staleContent ∧
      counted staleContent + (accepted exampleSchema staleDeeds).length < 2 ^ 32 ∧
      ∃ t answers t' content', ofContent ⟨"t.table"⟩ exampleSchema staleContent = .ok t ∧
        performAll exampleSchema t staleContent staleDeeds = (answers, t', content') ∧
        counted content' = 3 ∧ t'.readRow 0 content' = .ok [.int 7, .varchar ""] ∧
        t'.readRow 1 content' = .ok [.int 5, .varchar "é"] := by
  have whole : Whole exampleSchema staleContent := by
    unfold Whole
    decide +kernel
  have added : accepted exampleSchema staleDeeds
      = [[.int 5, .varchar "é\x00b"], [.int 8, .varchar ""]] := by
    decide +kernel
  have one : counted staleContent = 1 := by decide +kernel
  have roomy : counted staleContent + (accepted exampleSchema staleDeeds).length < 2 ^ 32 := by
    rw [added, one]
    decide
  obtain ⟨t, answers, t', content', opened, count, all, -, extended, -⟩ :=
    extends_of_whole ⟨"t.table"⟩ whole staleDeeds roomy
  refine ⟨whole, roomy, t, answers, t', content', opened, all, ?_, ?_, ?_⟩
  · rw [extended.header, count, one, added]
    rfl
  · rw [extended.former 0 (by rw [count, one]; decide)]
    cases opened
    rfl
  · have first := extended.later 0 [.int 5, .varchar "é\x00b"] (by rw [added]; rfl)
    rw [count, one] at first
    exact first

end Deeds

end TableFile

end RowStore
