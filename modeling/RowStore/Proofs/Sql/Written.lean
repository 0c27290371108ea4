import RowStore.Proofs.Sql.Printing

namespace RowStore.Sql

open Grammar

section Tokens

variable {t : Token}

theorem kind_of_mark {m : Mark} (h : t.mark = m) : t.kind = m.kind := congrArg Mark.kind h

theorem Grammar.cut_self {text : List Char} (h : Text.byteSize text ≤ 63) : Cut text text :=
  ⟨List.prefix_rfl, h, fun _ part _ => part⟩

theorem utf8Size_of_wordChar {c : Char} (h : isWordChar c = true) : c.utf8Size = 1 := by
  have small : c.toNat ≤ 127 := by
    rcases Bool.or_eq_true_iff.1 h with alphanum | underscore
    · rcases Bool.or_eq_true_iff.1 alphanum with letter | digit
      · have := toNat_of_isAlpha letter
        omega
      · have := toNat_of_isDigit digit
        omega
    · rw [beq_iff_eq.1 underscore]
      decide
  exact Char.utf8Size_eq_one_iff.2 (UInt32.le_iff_toNat_le.2 small)

theorem byteSize_of_word {cs : List Char} (h : ∀ c ∈ cs, isWordChar c = true) :
    Text.byteSize cs = cs.length := by
  induction cs with
  | nil => rfl
  | cons c cs ih =>
    have one : c.utf8Size = 1 := utf8Size_of_wordChar (h c List.mem_cons_self)
    rw [Text.byteSize, one, ih fun d mem => h d (List.mem_cons_of_mem _ mem), List.length_cons,
      Nat.add_comm]

theorem PlainName.name {x : Identifier} (h : PlainName x.name) (mark : t.mark = .name x) :
    Name t ⟨x.name, t.span⟩ := by
  obtain ⟨kind, text⟩ := Mark.mk.inj mark
  have short : Text.byteSize x.name.toList ≤ 63 := by
    rw [byteSize_of_word h.word]
    exact h.short
  have cut : Cut t.text.toList x.name.toList := text.symm ▸ cut_self short
  simpa using Name.mk kind cut

theorem Literal.Printable.value {l : Literal} (h : l.Printable) (mark : t.mark = l.mark) :
    Value t l := by
  cases l with
  | number s =>
    obtain ⟨kind, text⟩ := Mark.mk.inj mark
    have short : Text.byteSize s.toList ≤ 63 := Text.utf8ByteSize_eq s ▸ h.short
    have cut : Cut t.text.toList s.toList := text.symm ▸ cut_self short
    simpa using Value.number kind cut
  | string s =>
    obtain ⟨kind, text⟩ := Mark.mk.inj mark
    have short : Text.byteSize s.toList ≤ 63 := Text.utf8ByteSize_eq s ▸ h.short
    simpa using Value.string kind text (cut_self short)

theorem typeWord_of_mark {type : DataType} (mark : t.mark = typeMark type) : TypeWord t type := by
  have kind := kind_of_mark mark
  cases type
  · exact .int kind
  · exact .varchar kind
  · exact .double kind
  · exact .date kind

theorem comparison_of_mark {op : Comparator} (mark : t.mark = op.mark) : Comparison t op := by
  have kind := kind_of_mark mark
  cases op
  · exact .equal kind
  · exact .greater kind
  · exact .less kind
  · exact .greaterEqual kind
  · exact .lessEqual kind

theorem joint_of_mark {op : Connective} (mark : t.mark = op.mark) : Joint t op := by
  have kind := kind_of_mark mark
  cases op
  · exact .and kind
  · exact .or kind

end Tokens

section Rows

variable {ts : List Token} {a b c : Mark}

theorem exists_one (marks : ts.map Token.mark = [a]) : ∃ t, ts = [t] ∧ t.mark = a := by
  obtain ⟨t, rest, rfl, mark, none⟩ := List.map_eq_cons_iff.1 marks
  obtain rfl : rest = [] := List.map_eq_nil_iff.1 none
  exact ⟨t, rfl, mark⟩

theorem exists_two (marks : ts.map Token.mark = [a, b]) :
    ∃ t u, ts = [t, u] ∧ t.mark = a ∧ u.mark = b := by
  obtain ⟨t, rest, rfl, first, others⟩ := List.map_eq_cons_iff.1 marks
  obtain ⟨u, rfl, second⟩ := exists_one others
  exact ⟨t, u, rfl, first, second⟩

theorem exists_three (marks : ts.map Token.mark = [a, b, c]) :
    ∃ t u v, ts = [t, u, v] ∧ t.mark = a ∧ u.mark = b ∧ v.mark = c := by
  obtain ⟨t, rest, rfl, first, others⟩ := List.map_eq_cons_iff.1 marks
  obtain ⟨u, v, rfl, second, third⟩ := exists_two others
  exact ⟨t, u, v, rfl, first, second, third⟩

end Rows

section Lists

variable {α β : Type} {f : α → β}

theorem exists_commas {P : Token → α → Prop} {mark : α → Mark} {as : List α} (some_ : as ≠ [])
    (each : ∀ a ∈ as, ∀ t, t.mark = mark a → ∃ b, P t b ∧ f b = f a) {ts : List Token}
    (marks : ts.map Token.mark = separated (as.map fun a => [mark a])) :
    ∃ bs, Commas P ts bs ∧ bs.map f = as.map f := by
  induction as generalizing ts with
  | nil => exact absurd rfl some_
  | cons a as ih =>
    cases as with
    | nil =>
      obtain ⟨t, rfl, mark⟩ := exists_one marks
      obtain ⟨b, holds, same⟩ := each a List.mem_cons_self t mark
      exact ⟨[b], .one holds, by simp [same]⟩
    | cons a' as =>
      obtain ⟨t, rest, rfl, mark, others⟩ := List.map_eq_cons_iff.1 marks
      obtain ⟨comma, rest, rfl, sign, others⟩ := List.map_eq_cons_iff.1 others
      obtain ⟨b, holds, same⟩ := each a List.mem_cons_self t mark
      obtain ⟨bs, commas, sames⟩ := ih (List.cons_ne_nil _ _)
        (fun c mem => each c (List.mem_cons_of_mem _ mem)) others
      exact ⟨b :: bs, .more holds (kind_of_mark sign) commas,
        by rw [List.map_cons, same, sames]; rfl⟩

theorem exists_many {P : List Token → α → Prop} {marksOf : α → List Mark} {as : List α}
    (each : ∀ a ∈ as, ∀ ts, ts.map Token.mark = marksOf a → ∃ b, P ts b ∧ f b = f a)
    {ts : List Token} (marks : ts.map Token.mark = as.flatMap marksOf) :
    ∃ bs, Many P ts bs ∧ bs.map f = as.map f := by
  induction as generalizing ts with
  | nil =>
    obtain rfl : ts = [] := List.map_eq_nil_iff.1 marks
    exact ⟨[], .nil, rfl⟩
  | cons a as ih =>
    obtain ⟨first, rest, rfl, own, others⟩ := List.map_eq_append_iff.1 marks
    obtain ⟨b, holds, same⟩ := each a List.mem_cons_self first own
    obtain ⟨bs, many, sames⟩ := ih (fun c mem => each c (List.mem_cons_of_mem _ mem)) others
    exact ⟨b :: bs, .cons holds many, by rw [List.map_cons, same, sames]; rfl⟩

end Lists

section Phrases

variable {ts : List Token}

theorem exists_definitions {columns : List ColumnDefinition}
    (h : ∀ c ∈ columns, PlainName c.name.name)
    (marks : ts.map Token.mark = separated (columns.map ColumnDefinition.marks)) :
    ∃ cs, Many Definition ts cs ∧ cs.map (ColumnDefinition.relocate Span.forget)
      = columns.map (ColumnDefinition.relocate Span.forget) := by
  induction columns generalizing ts with
  | nil =>
    obtain rfl : ts = [] := List.map_eq_nil_iff.1 marks
    exact ⟨[], .nil, rfl⟩
  | cons c columns ih =>
    have name : PlainName c.name.name := h c List.mem_cons_self
    cases columns with
    | nil =>
      obtain ⟨x, d, rfl, first, second⟩ := exists_two marks
      have definition := Definition.plain (name.name first) (typeWord_of_mark second)
      exact ⟨_, .cons definition .nil, rfl⟩
    | cons c' columns =>
      obtain ⟨x, rest, rfl, first, others⟩ := List.map_eq_cons_iff.1 marks
      obtain ⟨d, rest, rfl, second, others⟩ := List.map_eq_cons_iff.1 others
      obtain ⟨comma, rest, rfl, sign, others⟩ := List.map_eq_cons_iff.1 others
      obtain ⟨cs, many, same⟩ := ih (fun b mem => h b (List.mem_cons_of_mem _ mem)) others
      have definition := Definition.comma (name.name first) (typeWord_of_mark second)
        (kind_of_mark sign)
      exact ⟨_, .cons definition many, by rw [List.map_cons, same]; rfl⟩

theorem exists_columnList {columns : Columns} (h : columns.Printable)
    (marks : ts.map Token.mark = columns.marks) :
    ∃ cs, ColumnList ts cs ∧ cs.relocate Span.forget = columns.relocate Span.forget := by
  cases columns with
  | all =>
    obtain ⟨t, rfl, mark⟩ := exists_one marks
    exact ⟨.all, .all (kind_of_mark mark), rfl⟩
  | named names =>
    obtain ⟨xs, commas, same⟩ := exists_commas (f := Identifier.relocate Span.forget) h.1
      (fun x mem t mark => ⟨_, (h.2 x mem).name mark, rfl⟩) marks
    exact ⟨.named xs, .named commas, congrArg Columns.named same⟩

theorem exists_targets {columns : Option Columns} (h : ∀ c, columns = some c → c.Printable)
    (marks : ts.map Token.mark = targetMarks columns) :
    ∃ cs, Targets ts cs ∧
      cs.map (Columns.relocate Span.forget) = columns.map (Columns.relocate Span.forget) := by
  cases columns with
  | none =>
    obtain rfl : ts = [] := List.map_eq_nil_iff.1 marks
    exact ⟨none, .absent, rfl⟩
  | some c =>
    obtain ⟨o, rest, rfl, opening, others⟩ := List.map_eq_cons_iff.1 marks
    obtain ⟨list, last, rfl, inner, others⟩ := List.map_eq_append_iff.1 others
    obtain ⟨r, rfl, closing⟩ := exists_one others
    obtain ⟨cs, columnList, same⟩ := exists_columnList (h c rfl) inner
    exact ⟨some cs, .present (kind_of_mark opening) columnList (kind_of_mark closing),
      congrArg some same⟩

theorem exists_test {c : Condition} (h : c.Printable) (marks : ts.map Token.mark = c.marks) :
    ∃ d, Test ts d ∧ d.relocate Span.forget = c.relocate Span.forget := by
  obtain ⟨x, o, v, rfl, first, second, third⟩ := exists_three marks
  exact ⟨_, .mk (h.1.name first) (comparison_of_mark second) (h.2.value third), rfl⟩

def relocateLink (f : Span → Span) (link : Connective × Condition) : Connective × Condition :=
  (link.1, link.2.relocate f)

theorem exists_link {link : Connective × Condition} (h : link.2.Printable)
    (marks : ts.map Token.mark = linkMarks link) :
    ∃ l, Link ts l ∧ relocateLink Span.forget l = relocateLink Span.forget link := by
  obtain ⟨j, rest, rfl, first, others⟩ := List.map_eq_cons_iff.1 marks
  obtain ⟨d, test, same⟩ := exists_test h others
  exact ⟨(link.1, d), .mk (joint_of_mark first) test, congrArg (Prod.mk link.1) same⟩

theorem exists_where {filter : Option Filter}
    (h : ∀ f, filter = some f → ∀ c ∈ f.conditions, c.Printable)
    (marks : ts.map Token.mark = whereMarks filter) :
    ∃ w, Where ts w ∧
      w.map (Filter.relocate Span.forget) = filter.map (Filter.relocate Span.forget) := by
  cases filter with
  | none =>
    obtain rfl : ts = [] := List.map_eq_nil_iff.1 marks
    exact ⟨none, .absent, rfl⟩
  | some f =>
    obtain ⟨w, rest, rfl, word, others⟩ := List.map_eq_cons_iff.1 marks
    obtain ⟨head, tail, rfl, first, links⟩ := List.map_eq_append_iff.1 others
    obtain ⟨d, test, same⟩ := exists_test (h f rfl _ List.mem_cons_self) first
    obtain ⟨ls, many, sames⟩ := exists_many (f := relocateLink Span.forget)
      (fun l mem ts => exists_link (h f rfl _ (List.mem_cons_of_mem _ (List.mem_map_of_mem mem))))
      links
    have joined : Filter.relocate Span.forget ⟨d, ls⟩ = f.relocate Span.forget := by
      show Filter.mk _ _ = Filter.mk _ _
      rw [same]
      exact congrArg _ sames
    exact ⟨some ⟨d, ls⟩, .present (kind_of_mark word) test many, congrArg some joined⟩

theorem exists_phrase {s : Statement} (h : s.Printable) (marks : ts.map Token.mark = s.marks) :
    ∃ s', Phrase ts s' ∧ s'.bare = s.bare := by
  cases s with
  | createDatabase x =>
    obtain ⟨c, d, t, rfl, first, second, third⟩ := exists_three marks
    exact ⟨_, .createDatabase (kind_of_mark first) (kind_of_mark second) (PlainName.name h third),
      rfl⟩
  | dropDatabase x =>
    obtain ⟨p, d, t, rfl, first, second, third⟩ := exists_three marks
    exact ⟨_, .dropDatabase (kind_of_mark first) (kind_of_mark second) (PlainName.name h third),
      rfl⟩
  | dropTable x =>
    obtain ⟨p, u, t, rfl, first, second, third⟩ := exists_three marks
    exact ⟨_, .dropTable (kind_of_mark first) (kind_of_mark second) (PlainName.name h third), rfl⟩
  | useDatabase x =>
    obtain ⟨u, t, rfl, first, second⟩ := exists_two marks
    exact ⟨_, .useDatabase (kind_of_mark first) (PlainName.name h second), rfl⟩
  | showNames target =>
    cases target with
    | databases =>
      obtain ⟨s, d, rfl, first, second⟩ := exists_two marks
      exact ⟨_, .showDatabases (kind_of_mark first) (kind_of_mark second), rfl⟩
    | tables =>
      obtain ⟨s, t, rfl, first, second⟩ := exists_two marks
      exact ⟨_, .showTables (kind_of_mark first) (kind_of_mark second), rfl⟩
  | createTable x columns =>
    obtain ⟨name, some_, named⟩ := h
    obtain ⟨c, rest, rfl, first, others⟩ := List.map_eq_cons_iff.1 marks
    obtain ⟨t, rest, rfl, second, others⟩ := List.map_eq_cons_iff.1 others
    obtain ⟨u, rest, rfl, third, others⟩ := List.map_eq_cons_iff.1 others
    obtain ⟨o, rest, rfl, opening, others⟩ := List.map_eq_cons_iff.1 others
    obtain ⟨ds, last, rfl, inner, others⟩ := List.map_eq_append_iff.1 others
    obtain ⟨r, rfl, closing⟩ := exists_one others
    obtain ⟨cs, definitions, same⟩ := exists_definitions named inner
    have nonempty : cs ≠ [] := by
      rintro rfl
      exact some_ (List.map_eq_nil_iff.1 same.symm)
    refine ⟨_, .createTable (kind_of_mark first) (kind_of_mark second) (name.name third)
      (kind_of_mark opening) definitions nonempty (kind_of_mark closing), ?_⟩
    simp only [Statement.bare, Statement.relocate, same]
    rfl
  | insert table columns values =>
    obtain ⟨name, printable, some_, literals⟩ := h
    obtain ⟨i, rest, rfl, first, others⟩ := List.map_eq_cons_iff.1 marks
    obtain ⟨n, rest, rfl, second, others⟩ := List.map_eq_cons_iff.1 others
    obtain ⟨x, rest, rfl, third, others⟩ := List.map_eq_cons_iff.1 others
    obtain ⟨cs, rest, rfl, inner, others⟩ := List.map_eq_append_iff.1 others
    obtain ⟨v, rest, rfl, word, others⟩ := List.map_eq_cons_iff.1 others
    obtain ⟨o, rest, rfl, opening, others⟩ := List.map_eq_cons_iff.1 others
    obtain ⟨ls, last, rfl, list, others⟩ := List.map_eq_append_iff.1 others
    obtain ⟨r, rfl, closing⟩ := exists_one others
    obtain ⟨cols, targets, same⟩ := exists_targets printable inner
    obtain ⟨vs, commas, sames⟩ := exists_commas (f := id) some_
      (fun l mem t mark => ⟨l, (literals l mem).value mark, rfl⟩) list
    rw [List.map_id, List.map_id] at sames
    subst sames
    refine ⟨_, .insert (kind_of_mark first) (kind_of_mark second) (name.name third) targets
      (kind_of_mark word) (kind_of_mark opening) commas (kind_of_mark closing), ?_⟩
    simp only [Statement.bare, Statement.relocate, same]
    rfl
  | select columns table filter =>
    obtain ⟨printable, name, conditions⟩ := h
    obtain ⟨s, rest, rfl, first, others⟩ := List.map_eq_cons_iff.1 marks
    obtain ⟨cs, rest, rfl, inner, others⟩ := List.map_eq_append_iff.1 others
    obtain ⟨f, rest, rfl, word, others⟩ := List.map_eq_cons_iff.1 others
    obtain ⟨x, ws, rfl, third, others⟩ := List.map_eq_cons_iff.1 others
    obtain ⟨cols, columnList, same⟩ := exists_columnList printable inner
    obtain ⟨w, where_, sames⟩ := exists_where conditions others
    refine ⟨_, .select (kind_of_mark first) columnList (kind_of_mark word) (name.name third) where_,
      ?_⟩
    simp only [Statement.bare, Statement.relocate, same, sames]
    rfl

end Phrases

end RowStore.Sql
