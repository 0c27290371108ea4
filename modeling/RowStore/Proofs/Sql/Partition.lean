import RowStore.Proofs.Sql.Spelling
import RowStore.Proofs.Text.Utf8

namespace RowStore.Sql

def Item.span : Item → Span
  | .ok t => t.span
  | .error (.unterminatedString span) => span
  | .error (.unexpectedChar c position) => ⟨position, position + c.utf8Size - 1⟩

/-- What an item takes, before `after`. A token has a text of its kind, and with no more of the text
would it be a token; an unexpected character starts none; an open string has no second quote. -/
def Item.Takes : Item → List Char → List Char → Prop
  | .ok t, chars, after => t.text.toList = chars ∧ t.kind.Spells chars ∧
      ∀ more, more <+: after → ∀ k : Kind, k.Spells (chars ++ more) → more = []
  | .error (.unexpectedChar c _), chars, _ => chars = [c] ∧ Text.isBlank c = false ∧
      ∀ (k : Kind) (tail : List Char), ¬k.Spells (c :: tail)
  | .error (.unterminatedString _), chars, after => after = [] ∧ ∃ quote content,
      (quote = '\'' ∨ quote = '"') ∧ quote ∉ content ∧ chars = quote :: content

structure Item.Stands (i : Item) (before chars : List Char) : Prop where
  some_ : chars ≠ []
  start : i.span.start = Text.byteSize before
  last : i.span.last + 1 = Text.byteSize (before ++ chars)

/-- The items stand in a text behind `front`, with nothing but blanks between them. -/
inductive Laid : List Char → List Char → List Item → Prop
  | nil {front gap : List Char} : Text.allBlank gap = true → Laid front gap []
  | cons {front gap chars rest : List Char} {i : Item} {items : List Item} :
      Text.allBlank gap = true → i.Stands (front ++ gap) chars → i.Takes chars rest →
      Laid (front ++ gap ++ chars) rest items → Laid front (gap ++ (chars ++ rest)) (i :: items)

section Items

variable {c : Char} {cs front : List Char}

theorem eq_nil_of_spells {c : Char} {cs rest more : List Char} {k : Kind}
    (text : cs = tailOf c cs ++ rest) (part : more <+: rest)
    (h : k.Spells (c :: (tailOf c cs ++ more))) : more = [] := by
  obtain ⟨behind, rfl⟩ := part
  have within := h.isPrefix_tailOf behind
  rw [List.append_assoc, ← text] at within
  have length := within.length_le
  rw [List.length_append] at length
  exact List.eq_nil_of_length_eq_zero (by omega)

theorem symbolTail_of_symbolKind? (h : symbolKind? (c :: symbolTail c cs) = none) :
    symbolTail c cs = [] := by
  rw [symbolTail] at h ⊢
  split at h
  · rename_i sign
    obtain ⟨rfl | rfl, -⟩ := sign <;> cases h
  · rename_i other
    rw [if_neg other]

theorem tailOf_of_kindOf? (start : Start.ofChar c ≠ .quoted) (h : kindOf? c cs = none) :
    tailOf c cs = [] := by
  cases sort : Start.ofChar c with
  | quoted => exact absurd sort start
  | number | word =>
    simp only [kindOf?, sort] at h
    cases h
  | symbol =>
    simp only [kindOf?, tailOf, sort] at h ⊢
    exact symbolTail_of_symbolKind? h

theorem stands_itemAt (front : List Char) (c : Char) (cs : List Char) :
    (itemAt (Text.byteSize front) c cs).Stands front (c :: tailOf c cs) := by
  have size := c.utf8Size_pos
  have last : Text.byteSize front + Text.byteSize (c :: tailOf c cs) - 1 + 1
      = Text.byteSize (front ++ c :: tailOf c cs) := by
    rw [Text.byteSize_append, Text.byteSize]
    omega
  rw [itemAt]
  split
  · exact ⟨List.cons_ne_nil _ _, rfl, last⟩
  · rename_i none_
    split
    · exact ⟨List.cons_ne_nil _ _, rfl, last⟩
    · rename_i start
      rw [tailOf_of_kindOf? start none_] at last ⊢
      exact ⟨List.cons_ne_nil _ _, rfl, last⟩

theorem takes_itemAt {rest : List Char} (pos : Nat) (solid : Text.isBlank c = false)
    (text : cs = tailOf c cs ++ rest) : (itemAt pos c cs).Takes (c :: tailOf c cs) rest := by
  rw [itemAt]
  split
  · rename_i k kind
    refine ⟨String.toList_ofList, spells_of_kindOf? kind, ?_⟩
    exact fun more part k spelt => eq_nil_of_spells text part spelt
  · rename_i none_
    split
    · rename_i start
      have absent : c ∉ cs := by
        intro mem
        simp [kindOf?, start, mem] at none_
      have whole : tailOf c cs = cs := by simp only [tailOf, start, quotedTail, if_neg absent]
      rw [whole] at text ⊢
      have nothing : rest = [] := List.append_cancel_left (text.symm.trans (List.append_nil cs).symm)
      exact ⟨nothing, c, cs, quote_of_start start, absent, rfl⟩
    · rename_i start
      refine ⟨by rw [tailOf_of_kindOf? start none_], solid, fun k tail spelt => ?_⟩
      obtain ⟨k', token⟩ := exists_kindOf? spelt start cs
      cases none_.symm.trans token

end Items

section Scanning

variable {front cs : List Char} {items : List Item}

theorem Laid.blank {c : Char} (blank : Text.isBlank c = true) (h : Laid (front ++ [c]) cs items) :
    Laid front (c :: cs) items := by
  have gap {g : List Char} (others : Text.allBlank g = true) : Text.allBlank (c :: g) = true := by
    simpa [Text.allBlank, blank] using others
  generalize behind : front ++ [c] = front' at h
  cases h with
  | nil others => exact .nil (gap others)
  | @cons _ g chars rest i items others stands takes laid =>
    have joined : front' ++ g = front ++ c :: g := by rw [← behind, List.append_assoc]; rfl
    rw [joined] at stands laid
    exact .cons (gap others) stands takes laid

theorem Laid.item {i : Item} {chars rest : List Char} (stands : i.Stands front chars)
    (takes : i.Takes chars rest) (h : Laid (front ++ chars) rest items) :
    Laid front (chars ++ rest) (i :: items) := by
  have blank : Text.allBlank [] = true := rfl
  rw [← List.append_nil front] at stands h
  exact .cons blank stands takes h

theorem laid_scanFrom (front : List Char) {skip : Nat} {cs : List Char} (inside : skip ≤ cs.length) :
    Laid (front ++ cs.take skip) (cs.drop skip) (scanFrom (Text.byteSize front) skip cs) := by
  induction cs generalizing front skip with
  | nil =>
    rw [List.drop_nil]
    exact .nil rfl
  | cons c cs ih =>
    have next : Text.byteSize front + c.utf8Size = Text.byteSize (front ++ [c]) := by
      simp [Text.byteSize]
    cases skip with
    | succ skip =>
      have laid := ih (front ++ [c]) (Nat.le_of_succ_le_succ inside)
      rw [List.append_assoc, List.singleton_append, ← next] at laid
      exact laid
    | zero =>
      rw [List.take_zero, List.append_nil, List.drop_zero, scanFrom, next]
      split
      · rename_i blank
        have laid := ih (front ++ [c]) (Nat.zero_le _)
        rw [List.take_zero, List.append_nil, List.drop_zero] at laid
        exact laid.blank blank
      · rename_i solid
        have laid := ih (front ++ [c]) (tailOf_isPrefix c cs).length_le
        have taken := List.prefix_iff_eq_take.1 (tailOf_isPrefix c cs)
        have text := List.take_append_drop (tailOf c cs).length cs
        rw [← taken] at laid text
        have takes := takes_itemAt (Text.byteSize front) (Bool.eq_false_iff.2 solid) text.symm
        rw [List.append_assoc, List.singleton_append] at laid
        have whole := Laid.item (stands_itemAt front c cs) takes laid
        rw [List.cons_append, text] at whole
        exact whole

theorem laid_scanChars (cs : List Char) : Laid [] cs (scanChars cs) := by
  have laid := laid_scanFrom [] (Nat.zero_le cs.length)
  rw [List.take_zero, List.drop_zero] at laid
  exact laid

theorem laid_scan (s : String) : Laid [] s.toList (scan s) := laid_scanChars s.toList

end Scanning

theorem exists_of_append_eq_append_cons {a b before after : List Char} {c : Char}
    (h : a ++ b = before ++ c :: after) :
    (∃ more, a = before ++ c :: more) ∨ ∃ more, before = a ++ more ∧ b = more ++ c :: after := by
  rcases List.append_eq_append_iff.1 h with ⟨more, rfl, text⟩ | ⟨part, rfl, text⟩
  · exact .inr ⟨more, rfl, text⟩
  · cases part with
    | nil => exact .inr ⟨[], by simp, text.symm⟩
    | cons d part =>
      cases text
      exact .inl ⟨part, rfl⟩

namespace Laid

variable {front cs : List Char} {items : List Item}

theorem exists_place (h : Laid front cs items) : ∀ i ∈ items, ∃ before chars after,
    cs = before ++ (chars ++ after) ∧ i.Stands (front ++ before) chars ∧ i.Takes chars after := by
  induction h with
  | nil => exact nofun
  | @cons front gap chars rest i items blank stands takes laid ih =>
    rw [List.forall_mem_cons]
    refine ⟨⟨gap, chars, rest, rfl, stands, takes⟩, fun j mem => ?_⟩
    obtain ⟨before, chars', after, rfl, stands', takes'⟩ := ih j mem
    refine ⟨gap ++ (chars ++ before), chars', after, ?_, ?_, takes'⟩
    · simp only [List.append_assoc]
    · simpa only [List.append_assoc] using stands'

theorem pairwise (h : Laid front cs items) :
    items.Pairwise fun i j => i.span.last < j.span.start := by
  induction h with
  | nil => exact .nil
  | cons blank stands takes laid ih =>
    refine .cons (fun j mem => ?_) ih
    obtain ⟨before, chars', after, -, stands', -⟩ := laid.exists_place j mem
    have last := stands.last
    rw [stands'.start, Text.byteSize_append]
    omega

theorem exists_cover (h : Laid front cs items) {before after : List Char} {c : Char}
    (text : cs = before ++ c :: after) (solid : Text.isBlank c = false) : ∃ i ∈ items,
      i.span.start ≤ Text.byteSize (front ++ before) ∧
        Text.byteSize (front ++ before) + c.utf8Size ≤ i.span.last + 1 := by
  induction h generalizing before with
  | nil blank =>
    rw [text, Text.allBlank, List.all_append, List.all_cons, solid] at blank
    simp at blank
  | @cons front gap chars rest i items blank stands takes laid ih =>
    obtain ⟨more, rfl⟩ | ⟨inner, rfl, behind⟩ := exists_of_append_eq_append_cons text
    · rw [Text.allBlank, List.all_append, List.all_cons, solid] at blank
      simp at blank
    · obtain ⟨more, rfl⟩ | ⟨inner, rfl, later⟩ := exists_of_append_eq_append_cons behind
      · have start := stands.start
        have last := stands.last
        simp only [Text.byteSize_append, Text.byteSize] at start last ⊢
        exact ⟨i, List.mem_cons_self, by omega, by omega⟩
      · obtain ⟨j, mem, covers⟩ := ih later
        refine ⟨j, List.mem_cons_of_mem _ mem, ?_⟩
        simpa only [List.append_assoc] using covers

theorem length_le (h : Laid front cs items) : items.length ≤ cs.length := by
  induction h with
  | nil => exact Nat.zero_le _
  | cons blank stands takes laid ih =>
    have some_ := List.length_pos_iff.2 stands.some_
    simp only [List.length_append, List.length_cons]
    omega

theorem eq_nil (h : Laid front [] items) : items = [] := by
  generalize text : ([] : List Char) = cs at h
  cases h with
  | nil => rfl
  | cons blank stands =>
    simp [stands.some_] at text

theorem getLast?_eq {span : Span} (h : Laid front cs items)
    (mem : .error (.unterminatedString span) ∈ items) :
    items.getLast? = some (.error (.unterminatedString span)) := by
  induction h with
  | nil => cases mem
  | cons blank stands takes laid ih =>
    cases mem with
    | head =>
      obtain ⟨rfl, -⟩ := takes
      rw [laid.eq_nil]
      rfl
    | tail _ mem => rw [List.getLast?_cons, ih mem, Option.getD_some]

end Laid

/-- The items of a text stand one behind the other, on whole characters, and leave nothing but blanks.
Each takes what its kind allows, and a token as much as it can. An open string is the last item, and
there are no more items than characters. -/
theorem scan_partition (s : String) :
    (scan s).Pairwise (fun i j => i.span.last < j.span.start) ∧
    (∀ i ∈ scan s, ∃ before chars after, s.toList = before ++ (chars ++ after) ∧
      i.Stands before chars ∧ i.Takes chars after) ∧
    (∀ before c after, s.toList = before ++ c :: after → Text.isBlank c = false →
      ∃ i ∈ scan s, i.span.start ≤ Text.byteSize before ∧
        Text.byteSize before + c.utf8Size ≤ i.span.last + 1) ∧
    (∀ span, .error (.unterminatedString span) ∈ scan s →
      (scan s).getLast? = some (.error (.unterminatedString span))) ∧
    (scan s).length ≤ s.length := by
  have laid := laid_scan s
  refine ⟨laid.pairwise, laid.exists_place, ?_, fun span mem => laid.getLast?_eq mem, ?_⟩
  · exact fun before c after text solid => laid.exists_cover text solid
  · rw [← String.length_toList]
    exact laid.length_le

example : scan "Drop é>=1.2.'é" =
    [.ok ⟨.keyword .DROP, "Drop", ⟨0, 3⟩⟩, .error (.unexpectedChar 'é' 5),
      .ok ⟨.greaterEqual, ">=", ⟨7, 8⟩⟩, .ok ⟨.number, "1.2", ⟨9, 11⟩⟩,
      .error (.unexpectedChar '.' 12), .error (.unterminatedString ⟨13, 15⟩)] := by
  decide +kernel

end RowStore.Sql
