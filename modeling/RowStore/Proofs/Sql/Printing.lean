import RowStore.Proofs.Sql.Acceptance
import RowStore.Proofs.Sql.Printer
import RowStore.Proofs.Sql.Segments

namespace RowStore.Sql

def Token.mark (t : Token) : Mark := ⟨t.kind, t.text.toList⟩

/-- With a blank behind it the mark is scanned as one token. -/
def Mark.Solid (m : Mark) : Prop :=
  ∃ c tail, m.text = c :: tail ∧ Text.isBlank c = false ∧ Delimited c ' ' tail ∧
    ∀ rest, kindOf? c (tail ++ ' ' :: rest) = some m.kind

section Marks

theorem solid_of_word {c : Char} {tail : List Char} (letter : c.isAlpha = true)
    (inside : ∀ x ∈ tail, isWordChar x = true) :
    Mark.Solid ⟨((Keyword.ofWord? (c :: tail)).map Kind.keyword).getD .identifier, c :: tail⟩ := by
  have start := start_of_isAlpha letter
  have delimited : Delimited c ' ' tail := .word start inside (by decide)
  refine ⟨c, tail, rfl, isBlank_of_isAlphanum (by simp [Char.isAlphanum, letter]), delimited, ?_⟩
  intro rest
  simp only [kindOf?, start, delimited.tailOf_eq]

theorem exists_text_eq (k : Keyword) :
    ∃ c cs, k.text.toList = c :: cs ∧ c.isAlpha = true ∧ (∀ x ∈ cs, isWordChar x = true) ∧
      Keyword.ofWord? (c :: cs) = some k := by
  cases k <;> exact ⟨_, _, rfl, by decide, List.all_eq_true.1 (by decide), by decide⟩

theorem solid_word (k : Keyword) : (Mark.word k).Solid := by
  obtain ⟨c, cs, text, letter, inside, word⟩ := exists_text_eq k
  have solid := solid_of_word letter inside
  rw [word, ← text] at solid
  exact solid

theorem PlainName.solid {x : Identifier} (h : PlainName x.name) : (Mark.name x).Solid := by
  obtain ⟨c, cs, text, letter⟩ := h.letter
  have inside : ∀ y ∈ cs, isWordChar y = true := by
    intro y mem
    exact h.word y (text ▸ List.mem_cons_of_mem _ mem)
  have free : Keyword.ofWord? (c :: cs) = none := by
    rw [← text, Keyword.ofWord?, List.find?_eq_none]
    intro k _ spelt
    exact h.free k (beq_iff_eq.1 spelt).symm
  have solid := solid_of_word letter inside
  rw [free, ← text] at solid
  exact solid

theorem PlainNumber.solid {s : String} (h : PlainNumber s) : (Literal.number s).mark.Solid := by
  obtain ⟨c, cs, text, digit⟩ := h.digit
  have start := start_of_isDigit digit
  have others : ∀ d ∈ cs, d.isDigit = true ∨ d = '.' :=
    fun d mem => h.digits d (text ▸ List.mem_cons_of_mem _ mem)
  have points : cs.count '.' ≤ 1 := by
    have point := h.point
    rw [text] at point
    exact Nat.le_trans (List.Sublist.count_le _ (List.sublist_cons_self _ _)) point
  refine ⟨c, cs, text, isBlank_of_isAlphanum (by simp [Char.isAlphanum, digit]), ?_, ?_⟩
  · by_cases inside : '.' ∈ cs
    · obtain ⟨ds, es, rfl, absent⟩ := List.eq_append_cons_of_mem inside
      have later : '.' ∉ es := by
        rw [List.count_append, List.count_cons_self] at points
        exact List.count_eq_zero.1 (by omega)
      refine .fraction start ?_ ?_ (by decide)
      · intro d mem
        exact (others d (by simp [mem])).resolve_right (ne_of_mem_of_not_mem mem absent)
      · intro e mem
        exact (others e (by simp [mem])).resolve_right (ne_of_mem_of_not_mem mem later)
    · refine .whole start ?_ (by decide) (by decide)
      intro d mem
      exact (others d mem).resolve_right (ne_of_mem_of_not_mem mem inside)
  · intro rest
    simp only [kindOf?, start]
    rfl

theorem Quotable.solid {s : String} (h : Quotable s) : (Literal.string s).mark.Solid := by
  have absent : Mark.quoteFor s.toList ∉ s.toList := by
    rw [Mark.quoteFor]
    split
    · rename_i single
      exact h.lacks.resolve_left (not_not_intro single)
    · assumption
  have start : Start.ofChar (Mark.quoteFor s.toList) = .quoted ∧
      Text.isBlank (Mark.quoteFor s.toList) = false := by
    rw [Mark.quoteFor]
    split <;> decide
  refine ⟨_, _, rfl, start.2, .quoted start.1 absent, ?_⟩
  intro rest
  simp [kindOf?, start.1, Literal.mark, Mark.quoted]

theorem Literal.Printable.solid {l : Literal} (h : l.Printable) : l.mark.Solid := by
  cases l with
  | number s => exact PlainNumber.solid h
  | string s => exact Quotable.solid h

theorem solid_sign {m : Mark} {c : Char} (text : m.text = [c]) (solid : Text.isBlank c = false)
    (start : Start.ofChar c = .symbol) (kind : symbolKind? [c] = some m.kind) : m.Solid := by
  have delimited : Delimited c ' ' [] := .symbol start (by simp)
  refine ⟨c, [], text, solid, delimited, ?_⟩
  intro rest
  simp only [kindOf?, start, delimited.tailOf_eq, kind]

theorem solid_comparator (op : Comparator) : op.mark.Solid := by
  have orEqual (c : Char) (sign : c = '>' ∨ c = '<') (solid : Text.isBlank c = false)
      (start : Start.ofChar c = .symbol) {k : Kind} (kind : symbolKind? [c, '='] = some k) :
      Mark.Solid ⟨k, [c, '=']⟩ := by
    have delimited : Delimited c ' ' ['='] := .comparison start sign
    refine ⟨c, ['='], rfl, solid, delimited, ?_⟩
    intro rest
    simp only [kindOf?, start, delimited.tailOf_eq, kind]
  cases op with
  | equal | greater | less => exact solid_sign rfl (by decide) (by decide) rfl
  | greaterEqual => exact orEqual '>' (.inl rfl) (by decide) (by decide) rfl
  | lessEqual => exact orEqual '<' (.inr rfl) (by decide) (by decide) rfl

theorem solid_comma : Mark.comma.Solid := solid_sign rfl (by decide) (by decide) rfl

theorem solid_separated {parts : List (List Mark)} (h : ∀ part ∈ parts, ∀ m ∈ part, m.Solid) :
    ∀ m ∈ separated parts, m.Solid := by
  fun_induction separated parts with
  | case1 => nofun
  | case2 ms => exact h ms List.mem_cons_self
  | case3 ms others some_ ih =>
    intro m mem
    rcases List.mem_append.1 mem with first | rest
    · exact h ms List.mem_cons_self m first
    · cases rest with
      | head => exact solid_comma
      | tail _ rest => exact ih (fun part inside => h part (List.mem_cons_of_mem _ inside)) m rest

theorem Columns.Printable.solid {columns : Columns} (h : columns.Printable) :
    ∀ m ∈ columns.marks, m.Solid := by
  cases columns with
  | all =>
    intro m mem
    rw [List.mem_singleton.1 mem]
    exact solid_sign rfl (by decide) (by decide) rfl
  | named names =>
    apply solid_separated
    intro part mem
    obtain ⟨x, inside, rfl⟩ := List.mem_map.1 mem
    intro m single
    rw [List.mem_singleton.1 single]
    exact (h.2 x inside).solid

theorem Condition.Printable.solid {c : Condition} (h : c.Printable) : ∀ m ∈ c.marks, m.Solid := by
  simp only [Condition.marks, List.forall_mem_cons]
  exact ⟨h.1.solid, solid_comparator _, h.2.solid, nofun⟩

theorem solid_leftParen : Mark.leftParen.Solid := solid_sign rfl (by decide) (by decide) rfl

theorem solid_rightParen : Mark.rightParen.Solid := solid_sign rfl (by decide) (by decide) rfl

theorem solid_semicolon : Mark.semicolon.Solid := solid_sign rfl (by decide) (by decide) rfl

theorem solid_whereMarks {filter : Option Filter}
    (h : ∀ f, filter = some f → ∀ c ∈ f.conditions, c.Printable) :
    ∀ m ∈ whereMarks filter, m.Solid := by
  cases filter with
  | none => nofun
  | some f =>
    have conditions := h f rfl
    have link : ∀ l ∈ f.rest, ∀ m ∈ linkMarks l, m.Solid := by
      intro l inside
      have condition : l.2.Printable :=
        conditions _ (List.mem_cons_of_mem _ (List.mem_map_of_mem inside))
      rw [linkMarks, List.forall_mem_cons]
      refine ⟨?_, condition.solid⟩
      cases l.1 <;> exact solid_word _
    simp only [whereMarks, Filter.marks, List.cons_append, List.forall_mem_cons,
      List.forall_mem_append, List.forall_mem_flatMap]
    exact ⟨solid_word _, (conditions _ List.mem_cons_self).solid, link⟩

theorem solid_targetMarks {columns : Option Columns}
    (h : ∀ c, columns = some c → c.Printable) : ∀ m ∈ targetMarks columns, m.Solid := by
  cases columns with
  | none => nofun
  | some c =>
    simp only [targetMarks, List.cons_append, List.forall_mem_cons, List.forall_mem_append]
    exact ⟨solid_leftParen, (h c rfl).solid, solid_rightParen, nofun⟩

theorem solid_typeMark (type : DataType) : (typeMark type).Solid := by
  cases type <;> exact solid_word _

theorem Statement.Printable.solid {s : Statement} (h : s.Printable) :
    ∀ m ∈ s.marks, m.Solid := by
  cases s with
  | createDatabase x | dropDatabase x | dropTable x =>
    simp only [Statement.marks, List.forall_mem_cons]
    exact ⟨solid_word _, solid_word _, PlainName.solid h, nofun⟩
  | useDatabase x =>
    simp only [Statement.marks, List.forall_mem_cons]
    exact ⟨solid_word _, PlainName.solid h, nofun⟩
  | showNames target =>
    cases target <;>
    · simp only [Statement.marks, List.forall_mem_cons]
      exact ⟨solid_word _, solid_word _, nofun⟩
  | createTable x columns =>
    obtain ⟨name, -, named⟩ := h
    have definitions : ∀ m ∈ separated (columns.map ColumnDefinition.marks), m.Solid := by
      apply solid_separated
      simp only [List.forall_mem_map, ColumnDefinition.marks, List.forall_mem_cons]
      exact fun c mem => ⟨(named c mem).solid, solid_typeMark _, nofun⟩
    simp only [Statement.marks, List.forall_mem_cons, List.forall_mem_append]
    exact ⟨solid_word _, solid_word _, name.solid, solid_leftParen, definitions, solid_rightParen,
      nofun⟩
  | insert table columns values =>
    obtain ⟨name, targets, -, literals⟩ := h
    have list : ∀ m ∈ separated (values.map fun l => [l.mark]), m.Solid := by
      apply solid_separated
      simp only [List.forall_mem_map, List.forall_mem_cons]
      exact fun l mem => ⟨(literals l mem).solid, nofun⟩
    simp only [Statement.marks, List.forall_mem_cons, List.forall_mem_append]
    exact ⟨solid_word _, solid_word _, name.solid, solid_targetMarks targets, solid_word _,
      solid_leftParen, list, solid_rightParen, nofun⟩
  | select columns table filter =>
    obtain ⟨list, name, conditions⟩ := h
    simp only [Statement.marks, List.forall_mem_cons, List.forall_mem_append]
    exact ⟨solid_word _, list.solid, solid_word _, name.solid, solid_whereMarks conditions⟩

end Marks

section Scanning

theorem itemAt_of_solid {c : Char} {tail : List Char} {k : Kind} (delimited : Delimited c ' ' tail)
    {rest : List Char} (kind : kindOf? c (tail ++ ' ' :: rest) = some k) (pos : Nat) :
    ∃ t : Token, itemAt pos c (tail ++ ' ' :: rest) = .ok t ∧ t.mark = ⟨k, c :: tail⟩ := by
  rw [itemAt]
  simp only [kind, delimited.tailOf_eq]
  exact ⟨_, rfl, by simp [Token.mark]⟩

theorem exists_scanFrom_spaced (pos : Nat) {ms : List Mark} (h : ∀ m ∈ ms, m.Solid) :
    ∃ ts : List Token, scanFrom pos 0 (spaced ms) = ts.map .ok ∧ ts.map Token.mark = ms := by
  induction ms generalizing pos with
  | nil => exact ⟨[], rfl, rfl⟩
  | cons m ms ih =>
    obtain ⟨c, tail, text, solid, delimited, kind⟩ := h m List.mem_cons_self
    obtain ⟨t, item, mark⟩ := itemAt_of_solid delimited (kind (spaced ms)) pos
    obtain ⟨ts, rest, marks⟩ := ih (pos + c.utf8Size + Text.byteSize tail + ' '.utf8Size)
      fun n mem => h n (List.mem_cons_of_mem _ mem)
    refine ⟨t :: ts, ?_, by rw [List.map_cons, mark, marks, ← text]⟩
    have chars : spaced (m :: ms) = c :: (tail ++ ' ' :: spaced ms) := by
      rw [spaced, List.flatMap_cons, text, ← spaced]
      simp
    rw [chars, scanFrom, if_neg (by simp [solid]), item, delimited.tailOf_eq, scanFrom_skip,
      scanFrom, if_pos (by decide), rest]
    rfl

end Scanning

end RowStore.Sql
