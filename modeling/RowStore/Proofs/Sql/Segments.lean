import RowStore.Proofs.Sql.Descent
import RowStore.Proofs.Sql.Lexeme
import RowStore.Proofs.Sql.Relocation
import RowStore.Proofs.Sql.Runs
import RowStore.Proofs.Sql.Scan

namespace RowStore.Sql

def Closed (items : List Item) : Prop := ∀ i, items.getLast? = some i → i.isSemicolon = true

theorem Closed.tail {i : Item} {items : List Item} (h : Closed (i :: items)) : Closed items := by
  cases items with
  | nil => nofun
  | cons j items => simpa [Closed] using h

section Scanning

theorem itemAt_shift (n pos : Nat) (c : Char) (cs : List Char) :
    itemAt (pos + n) c cs = Item.shift n (itemAt pos c cs) := by
  have size := c.utf8Size_pos
  have last : pos + n + Text.byteSize (c :: tailOf c cs) - 1
      = pos + Text.byteSize (c :: tailOf c cs) - 1 + n := by
    rw [Text.byteSize]
    omega
  simp only [itemAt, last]
  split
  · rfl
  · split <;> rfl

theorem scanFrom_shift (n pos skip : Nat) (cs : List Char) :
    scanFrom (pos + n) skip cs = (scanFrom pos skip cs).map (Item.shift n) := by
  induction cs generalizing pos skip with
  | nil => simp [scanFrom]
  | cons c cs ih =>
    have next : pos + n + c.utf8Size = pos + c.utf8Size + n := by omega
    cases skip with
    | succ skip => simp only [scanFrom, next, ih]
    | zero =>
      simp only [scanFrom, next, ih, itemAt_shift]
      split <;> rfl

theorem eq_of_symbolKind?_semicolon {c : Char} {cs : List Char}
    (h : symbolKind? (c :: cs) = some .semicolon) : c = ';' := by
  unfold symbolKind? at h
  split at h <;> cases h
  rename_i eq
  cases eq
  rfl

theorem isSemicolon_itemAt (pos : Nat) (c : Char) (cs : List Char) :
    (itemAt pos c cs).isSemicolon = true ↔ c = ';' := by
  constructor
  · intro h
    cases item : itemAt pos c cs with
    | error e =>
      rw [item] at h
      cases h
    | ok t =>
      have kind : t.kind = .semicolon := by simpa [item, Item.isSemicolon] using h
      have sort := (itemAt_eq_ok item).1
      rw [kind, kindOf?] at sort
      split at sort
      · split at sort <;> cases sort
      · cases sort
      · cases word : Keyword.ofWord? (c :: tailOf c cs) <;> simp [word] at sort
      · exact eq_of_symbolKind?_semicolon sort
  · rintro rfl
    rfl

theorem scanFrom_append {pos skip : Nat} {a : List Char} (h : Closed (scanFrom pos skip a))
    (inside : skip ≤ a.length) (b : List Char) :
    scanFrom pos skip (a ++ b) = scanFrom pos skip a ++ scanFrom (pos + Text.byteSize a) 0 b := by
  induction a generalizing pos skip with
  | nil =>
    obtain rfl : skip = 0 := Nat.le_zero.1 inside
    rfl
  | cons c cs ih =>
    rw [Text.byteSize, ← Nat.add_assoc]
    cases skip with
    | succ skip => exact ih h (Nat.le_of_succ_le_succ inside)
    | zero =>
      rw [List.cons_append, scanFrom, scanFrom]
      rw [scanFrom] at h
      split at h
      · rename_i blank
        rw [if_pos blank, if_pos blank]
        exact ih h (Nat.zero_le _)
      · rename_i solid
        rw [if_neg solid, if_neg solid, List.cons_append]
        obtain whole | ⟨tail, stop, rest, rfl, delimited⟩ := exists_delimited c cs
        -- What takes the rest of the text is its last item, a semicolon, and takes nothing more.
        · have last : itemAt pos c cs :: scanFrom (pos + c.utf8Size) (tailOf c cs).length cs
              = [itemAt pos c cs] := by
            have done := scanFrom_skip (pos + c.utf8Size) cs []
            rw [List.append_nil] at done
            rw [whole, done, scanFrom]
          rw [last] at h
          obtain rfl : c = ';' := (isSemicolon_itemAt pos c cs).1 (h _ rfl)
          obtain rfl : cs = [] := whole.symm
          rfl
        · have more : (tail ++ stop :: rest) ++ b = tail ++ stop :: (rest ++ b) := by simp
          have items : itemAt pos c ((tail ++ stop :: rest) ++ b)
              = itemAt pos c (tail ++ stop :: rest) := by
            rw [more]
            exact delimited.itemAt_eq pos _ _
          have tails : tailOf c ((tail ++ stop :: rest) ++ b)
              = tailOf c (tail ++ stop :: rest) := by
            rw [more, delimited.tailOf_eq, delimited.tailOf_eq]
          rw [items, tails]
          congr 1
          exact ih h.tail (tailOf_isPrefix c _).length_le

end Scanning

namespace Reader

theorem read_append (size size' : Nat) (r : Reader) {items : List Item} (h : Closed items)
    (some_ : items ≠ []) (others : List Item) :
    read size r (items ++ others) = read size' r items ++ read size .between others := by
  -- Behind a semicolon reading starts anew, and the size of the text no longer matters before it.
  induction items generalizing r with
  | nil => exact absurd rfl some_
  | cons i items ih =>
    rw [List.cons_append, read, read, List.append_assoc]
    congr 1
    cases items with
    | nil =>
      rw [step_semicolon r (h i rfl)]
      rfl
    | cons j items => exact ih _ h.tail (List.cons_ne_nil _ _)

theorem read_between_append (size size' : Nat) {items : List Item} (h : Closed items)
    (others : List Item) :
    read size .between (items ++ others) = read size' .between items ++ read size .between others := by
  cases items with
  | nil => rfl
  | cons i items => exact read_append size size' .between h (List.cons_ne_nil _ _) others

end Reader

theorem scan_append {a : String} (h : Closed (scan a)) (b : String) :
    scan (a ++ b) = scan a ++ (scan b).map (Item.shift a.utf8ByteSize) := by
  have moved := scanFrom_shift a.utf8ByteSize 0 0 b.toList
  rw [Nat.zero_add] at moved
  rw [scan, scanChars, String.toList_append, scanFrom_append h (Nat.zero_le _), Nat.zero_add,
    ← Text.utf8ByteSize_eq, moved]
  rfl

theorem parse_append {a : String} (h : Closed (scan a)) (b : String) :
    parse (a ++ b) = parse a ++ (parse b).map (Parsed.shift a.utf8ByteSize) := by
  have moved := Reader.read_shift a.utf8ByteSize .between b.utf8ByteSize (scan b)
  simp only [parse_eq_read]
  rw [scan_append h, Reader.read_between_append _ a.utf8ByteSize h, String.utf8ByteSize_append,
    Nat.add_comm]
  exact congrArg _ moved

section Counting

def countSome (segments : List (List Item)) : Nat := segments.countP fun segment => !segment.isEmpty

theorem countSome_cons_cons (i : Item) (segment : List Item) (segments : List (List Item)) :
    countSome ((i :: segment) :: segments) = countSome segments + 1 :=
  List.countP_cons_of_pos rfl

theorem countSome_nil_cons (segments : List (List Item)) :
    countSome ([] :: segments) = countSome segments :=
  List.countP_cons_of_neg (by simp)

namespace Reader

/-- How many results a reader owes for the segment it stands in and the later ones. -/
def due (segment : List Item) (later : List (List Item)) : Reader → Nat
  | .between => countSome (segment :: later)
  | .reading _ => countSome later + 1
  | .skipping => countSome later

theorem advance_semicolon (d : Draft) {i : Item} (h : i.isSemicolon = true) :
    ∃ x, advance d i = (some x, .between) := by
  cases i with
  | error e => cases h
  | ok t =>
    have kind : t.kind = .semicolon := by simpa [Item.isSemicolon] using h
    simp only [advance, if_pos kind]
    split <;> exact ⟨_, rfl⟩

theorem advance_other (d : Draft) {i : Item} (h : i.isSemicolon = false) :
    (∃ d', advance d i = (none, .reading d')) ∨ ∃ x, advance d i = (some x, .skipping) := by
  cases i with
  | error e => exact .inr ⟨_, rfl⟩
  | ok t =>
    have kind : t.kind ≠ .semicolon := by simpa [Item.isSemicolon] using h
    simp only [advance, if_neg kind]
    split
    · exact .inl ⟨_, rfl⟩
    · exact .inr ⟨_, rfl⟩

theorem due_semicolon (r : Reader) {i : Item} (h : i.isSemicolon = true) (segment : List Item)
    (later : List (List Item)) :
    due [] (segment :: later) r
      = (r.step i).1.toList.length + due segment later (r.step i).2 := by
  cases r with
  | between => simp [step, h, due, countSome_nil_cons]
  | skipping => simp [step, h, due]
  | reading d =>
    obtain ⟨x, settled⟩ := advance_semicolon d h
    simp [step, settled, due, Nat.add_comm]

theorem due_other (r : Reader) {i : Item} (h : i.isSemicolon = false) (segment : List Item)
    (later : List (List Item)) :
    due (i :: segment) later r
      = (r.step i).1.toList.length + due segment later (r.step i).2 := by
  cases r with
  | skipping => simp [step, h, due]
  | between =>
    obtain ⟨d', goes⟩ | ⟨x, fails⟩ := advance_other .start h
    · simp [step, h, goes, due, countSome_cons_cons]
    · simp [step, h, fails, due, countSome_cons_cons, Nat.add_comm]
  | reading d =>
    obtain ⟨d', goes⟩ | ⟨x, fails⟩ := advance_other d h
    · simp [step, goes, due]
    · simp [step, fails, due, Nat.add_comm]

theorem length_read (size : Nat) (r : Reader) {items segment : List Item}
    {later : List (List Item)} (h : items.splitOnP Item.isSemicolon = segment :: later) :
    (read size r items).length = due segment later r := by
  -- Whatever a reader owes, one item changes by what it settles.
  induction items generalizing r segment later with
  | nil =>
    cases h
    cases r <;> rfl
  | cons i rest ih =>
    obtain ⟨first, others, split⟩ := List.exists_cons_of_ne_nil
      (List.splitOnP_ne_nil Item.isSemicolon rest)
    rw [List.splitOnP_cons_eq_if_modifyHead, split] at h
    rw [read, List.length_append, ih _ split]
    split at h
    · rename_i semicolon
      cases h
      exact (due_semicolon r semicolon first others).symm
    · rename_i other
      cases h
      exact (due_other r (by simpa using other) first later).symm

end Reader

theorem length_parse (text : String) :
    (parse text).length = countSome ((scan text).splitOnP Item.isSemicolon) := by
  obtain ⟨first, others, split⟩ := List.exists_cons_of_ne_nil
    (List.splitOnP_ne_nil Item.isSemicolon (scan text))
  rw [parse_eq_read, Reader.length_read _ _ split, split]
  rfl

end Counting

/-- Texts are read apart from each other when the first one ends in a semicolon, and each text gives one
result for each stretch of items without a semicolon. -/
theorem parse_append_and_length :
    (∀ a b : String, (∃ i, (scan a).getLast? = some i ∧ i.isSemicolon = true) →
      parse (a ++ b) = parse a ++ (parse b).map (Parsed.shift a.utf8ByteSize)) ∧
    ∀ text : String, (parse text).length
      = ((scan text).splitOnP Item.isSemicolon).countP fun segment => !segment.isEmpty := by
  refine ⟨?_, length_parse⟩
  rintro a b ⟨i, last, semicolon⟩
  apply parse_append
  intro j other
  cases last.symm.trans other
  exact semicolon

theorem parse_append_and_length_failing :
    (∃ i, (scan "USE ;SELECT @;").getLast? = some i ∧ i.isSemicolon = true) ∧
    parse ("USE ;SELECT @;" ++ "USE d; 'x")
      = parse "USE ;SELECT @;"
        ++ [.ok (.useDatabase ⟨"d", ⟨18, 18⟩⟩), .error (.lexing (.unterminatedString ⟨21, 22⟩))] := by
  have ended : ∃ i, (scan "USE ;SELECT @;").getLast? = some i ∧ i.isSemicolon = true :=
    ⟨.ok ⟨.semicolon, ";", ⟨13, 13⟩⟩, by decide +kernel, rfl⟩
  have second : parse "USE d; 'x"
      = [.ok (.useDatabase ⟨"d", ⟨4, 4⟩⟩), .error (.lexing (.unterminatedString ⟨7, 8⟩))] := by
    decide +kernel
  refine ⟨ended, (parse_append_and_length.1 _ _ ended).trans ?_⟩
  rw [second]
  rfl

end RowStore.Sql
