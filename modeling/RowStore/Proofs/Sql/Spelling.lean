import RowStore.Proofs.Sql.Lexeme
import RowStore.Proofs.Sql.Scan

namespace RowStore.Sql

inductive Kind.Spells : Kind → List Char → Prop
  | keyword {k : Keyword} {cs : List Char} : cs.map Char.toUpper = k.text.toList →
      Spells (.keyword k) cs
  | identifier {c : Char} {cs : List Char} : c.isAlpha = true →
      (∀ d ∈ cs, d.isAlphanum = true ∨ d = '_') →
      (∀ k : Keyword, (c :: cs).map Char.toUpper ≠ k.text.toList) → Spells .identifier (c :: cs)
  | whole {ds : List Char} : ds ≠ [] → (∀ d ∈ ds, d.isDigit = true) → Spells .number ds
  | fraction {ds es : List Char} : ds ≠ [] → (∀ d ∈ ds, d.isDigit = true) →
      (∀ e ∈ es, e.isDigit = true) → Spells .number (ds ++ '.' :: es)
  | string {quote : Char} {content : List Char} : quote = '\'' ∨ quote = '"' → quote ∉ content →
      Spells .string (quote :: (content ++ [quote]))
  | asterisk : Spells .asterisk ['*']
  | comma : Spells .comma [',']
  | semicolon : Spells .semicolon [';']
  | leftParen : Spells .leftParen ['(']
  | rightParen : Spells .rightParen [')']
  | equal : Spells .equal ['=']
  | greater : Spells .greater ['>']
  | greaterEqual : Spells .greaterEqual ['>', '=']
  | less : Spells .less ['<']
  | lessEqual : Spells .lessEqual ['<', '=']

variable {c : Char} {cs tail : List Char} {k : Kind}

section Words

theorem isWordChar_iff : isWordChar c = true ↔ c.isAlphanum = true ∨ c = '_' := by
  simp [isWordChar]

theorem isAlpha_toUpper (c : Char) : c.toUpper.isAlpha = c.isAlpha := by
  unfold Char.toUpper Char.isAlpha Char.isUpper Char.isLower
  grind

theorem Keyword.ofWord?_eq_some {w : Keyword} (h : ofWord? cs = some w) :
    cs.map Char.toUpper = w.text.toList := by
  rw [ofWord?] at h
  have spelt := List.find?_some h
  exact (beq_iff_eq.1 spelt).symm

theorem Keyword.ofWord?_eq_none (h : ofWord? cs = none) (w : Keyword) :
    cs.map Char.toUpper ≠ w.text.toList := by
  rw [ofWord?, List.find?_eq_none] at h
  exact fun eq => h w (mem_all w) (beq_iff_eq.2 eq.symm)

theorem Keyword.isAlpha_of_spelt {w : Keyword} (h : cs.map Char.toUpper = w.text.toList) :
    ∀ d ∈ cs, d.isAlpha = true := by
  have letters : ∀ d ∈ w.text.toList, d.isAlpha = true := by
    cases w <;> exact List.all_eq_true.1 (by decide)
  intro d mem
  rw [← isAlpha_toUpper]
  exact letters _ (h ▸ List.mem_map_of_mem mem)

end Words

section Longest

theorem numberTail_append (rest : List Char) {ds : List Char} (digits : ∀ d ∈ ds, d.isDigit = true) :
    numberTail (ds ++ rest) = ds ++ numberTail rest := by
  rw [numberTail, numberTail, List.takeWhile_append_of_pos digits,
    List.dropWhile_append_of_pos digits, List.append_assoc]

theorem isPrefix_numberTail (rest : List Char) {es : List Char} (digits : ∀ e ∈ es, e.isDigit = true) :
    '.' :: es <+: numberTail ('.' :: (es ++ rest)) := by
  have point : numberTail ('.' :: (es ++ rest)) = '.' :: (es ++ rest).takeWhile Char.isDigit := rfl
  rw [point, List.takeWhile_append_of_pos digits]
  exact List.cons_prefix_cons.2 ⟨rfl, List.prefix_append _ _⟩

theorem Kind.Spells.isPrefix_tailOf (h : k.Spells (c :: tail)) (rest : List Char) :
    tail <+: tailOf c (tail ++ rest) := by
  generalize text : c :: tail = cs at h
  cases h with
  | keyword spelt =>
    subst text
    have letters := Keyword.isAlpha_of_spelt spelt
    have inside : ∀ d ∈ tail, isWordChar d = true := by
      intro d mem
      simp [isWordChar, Char.isAlphanum, letters d (List.mem_cons_of_mem _ mem)]
    simp only [tailOf, start_of_isAlpha (letters c List.mem_cons_self)]
    rw [List.takeWhile_append_of_pos inside]
    exact List.prefix_append _ _
  | identifier letter inside =>
    cases text
    simp only [tailOf, start_of_isAlpha letter]
    rw [List.takeWhile_append_of_pos fun d mem => isWordChar_iff.2 (inside d mem)]
    exact List.prefix_append _ _
  | whole _ digits =>
    subst text
    simp only [tailOf, start_of_isDigit (digits c List.mem_cons_self)]
    rw [numberTail_append rest fun d mem => digits d (List.mem_cons_of_mem _ mem)]
    exact List.prefix_append _ _
  | @fraction ds es some_ digits others =>
    cases ds with
    | nil => exact absurd rfl some_
    | cons d ds =>
      rw [List.cons_append] at text
      obtain ⟨rfl, rfl⟩ := List.cons.inj text
      have inner : (ds ++ '.' :: es) ++ rest = ds ++ '.' :: (es ++ rest) := by simp
      simp only [tailOf, start_of_isDigit (digits c List.mem_cons_self)]
      rw [inner, numberTail_append _ fun d mem => digits d (List.mem_cons_of_mem _ mem)]
      exact (List.prefix_append_right_inj ds).2 (isPrefix_numberTail rest others)
  | @string quote content sort absent =>
    cases text
    have start : Start.ofChar c = .quoted := if_pos sort
    have inside : ∀ x ∈ content, decide (x ≠ c) = true :=
      fun x mem => decide_eq_true (ne_of_mem_of_not_mem mem absent)
    have inner : (content ++ [c]) ++ rest = content ++ c :: rest := by simp
    have taken : (content ++ c :: rest).takeWhile (fun x => decide (x ≠ c)) = content :=
      takeWhile_of_stop inside (by simp)
    have whole : quotedTail c ((content ++ [c]) ++ rest) = content ++ [c] := by
      rw [inner, quotedTail, if_pos (List.mem_append_right _ List.mem_cons_self), taken]
    simp only [tailOf, start]
    exact ⟨[], (List.append_nil _).trans whole.symm⟩
  | greaterEqual | lessEqual =>
    cases text
    exact List.prefix_rfl
  | _ =>
    cases text
    exact List.nil_prefix

end Longest

section Scanned

theorem spells_word (start : Start.ofChar c = .word) {w : Option Keyword}
    (h : Keyword.ofWord? (c :: cs.takeWhile isWordChar) = w) :
    ((w.map Kind.keyword).getD .identifier).Spells (c :: cs.takeWhile isWordChar) := by
  cases w with
  | some w => exact .keyword (Keyword.ofWord?_eq_some h)
  | none =>
    refine .identifier (isAlpha_of_start start) ?_ (Keyword.ofWord?_eq_none h)
    exact fun d mem => isWordChar_iff.1 (List.mem_takeWhile_imp mem)

theorem spells_number (start : Start.ofChar c = .number) (cs : List Char) :
    Kind.number.Spells (c :: numberTail cs) := by
  have digits : ∀ d ∈ c :: cs.takeWhile Char.isDigit, d.isDigit = true := by
    intro d mem
    cases mem with
    | head => exact isDigit_of_start start
    | tail _ mem => exact List.mem_takeWhile_imp mem
  rw [numberTail]
  split
  · exact .fraction (List.cons_ne_nil _ _) digits fun e mem => List.mem_takeWhile_imp mem
  · rw [List.append_nil]
    exact .whole (List.cons_ne_nil _ _) digits

theorem spells_symbol (h : symbolKind? cs = some k) : k.Spells cs := by
  unfold symbolKind? at h
  split at h <;> cases h <;> constructor

theorem spells_of_kindOf? (h : kindOf? c cs = some k) : k.Spells (c :: tailOf c cs) := by
  cases start : Start.ofChar c with
  | quoted =>
    simp only [kindOf?, start] at h
    split at h
    · rename_i closed
      cases h
      have absent : c ∉ cs.takeWhile (· ≠ c) := fun mem => by
        simpa using List.mem_takeWhile_imp mem
      simp only [tailOf, start, quotedTail, if_pos closed]
      exact .string (quote_of_start start) absent
    · cases h
  | number =>
    simp only [kindOf?, start] at h
    cases h
    simp only [tailOf, start]
    exact spells_number start cs
  | word =>
    simp only [kindOf?, tailOf, start] at h ⊢
    cases h
    exact spells_word start rfl
  | symbol =>
    simp only [kindOf?, tailOf, start] at h ⊢
    exact spells_symbol h

theorem exists_symbolKind? (h : k.Spells (c :: tail)) (start : Start.ofChar c = .symbol)
    (cs : List Char) : ∃ k', symbolKind? (c :: symbolTail c cs) = some k' := by
  generalize text : c :: tail = chars at h
  cases h with
  | keyword spelt =>
    subst text
    have letter := Keyword.isAlpha_of_spelt spelt c List.mem_cons_self
    cases start.symm.trans (start_of_isAlpha letter)
  | identifier letter =>
    cases text
    cases start.symm.trans (start_of_isAlpha letter)
  | whole _ digits =>
    subst text
    cases start.symm.trans (start_of_isDigit (digits c List.mem_cons_self))
  | @fraction ds es some_ digits =>
    cases ds with
    | nil => exact absurd rfl some_
    | cons d ds =>
      obtain ⟨rfl, -⟩ := List.cons.inj text
      cases start.symm.trans (start_of_isDigit (digits c List.mem_cons_self))
  | string sort =>
    cases text
    cases start.symm.trans (if_pos sort)
  | greater | greaterEqual | less | lessEqual =>
    cases text
    rw [symbolTail]
    split <;> exact ⟨_, rfl⟩
  | _ =>
    cases text
    exact ⟨_, rfl⟩

theorem exists_kindOf? (h : k.Spells (c :: tail)) (start : Start.ofChar c ≠ .quoted)
    (cs : List Char) : ∃ k', kindOf? c cs = some k' := by
  cases sort : Start.ofChar c with
  | quoted => exact absurd sort start
  | number => exact ⟨.number, by simp only [kindOf?, sort]⟩
  | word =>
    simp only [kindOf?, sort]
    exact ⟨_, rfl⟩
  | symbol =>
    simp only [kindOf?, tailOf, sort]
    exact exists_symbolKind? h sort cs

end Scanned

end RowStore.Sql
