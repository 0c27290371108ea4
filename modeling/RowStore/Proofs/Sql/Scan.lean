import Mathlib.Data.List.TakeWhile
import RowStore.Sql.Scan

namespace RowStore.Sql

theorem mem_scanFrom {pos skip : Nat} {cs : List Char} {i : Item} (h : i ∈ scanFrom pos skip cs) :
    ∃ start c rest, Text.isBlank c = false ∧ i = itemAt start c rest := by
  induction cs generalizing pos skip with
  | nil => simp [scanFrom] at h
  | cons c cs ih =>
    cases skip with
    | succ skip => exact ih h
    | zero =>
      rw [scanFrom] at h
      split at h
      · exact ih h
      · rename_i solid
        cases h with
        | head => exact ⟨pos, c, cs, by simpa using solid, rfl⟩
        | tail _ h => exact ih h

theorem mem_scan {text : String} {i : Item} (h : i ∈ scan text) :
    ∃ start c rest, Text.isBlank c = false ∧ i = itemAt start c rest :=
  mem_scanFrom h

theorem itemAt_eq_ok {pos : Nat} {c : Char} {cs : List Char} {t : Token}
    (h : itemAt pos c cs = .ok t) :
    kindOf? c cs = some t.kind ∧ t.text.toList = c :: tailOf c cs := by
  rw [itemAt] at h
  split at h
  · rename_i k kind
    cases h
    exact ⟨kind, String.toList_ofList⟩
  · split at h <;> cases h

theorem kind_of_symbol {cs : List Char} {k : Kind} (h : symbolKind? cs = some k) :
    k ≠ .identifier ∧ k ≠ .number ∧ k ≠ .string := by
  unfold symbolKind? at h
  split at h <;> cases h <;> simp

theorem isAlpha_of_start {c : Char} (h : Start.ofChar c = .word) : c.isAlpha = true := by
  rw [Start.ofChar] at h
  split at h
  · cases h
  · split at h
    · cases h
    · split at h
      · assumption
      · cases h

theorem isDigit_of_start {c : Char} (h : Start.ofChar c = .number) : c.isDigit = true := by
  rw [Start.ofChar] at h
  split at h
  · cases h
  · split at h
    · assumption
    · split at h <;> cases h

theorem quote_of_start {c : Char} (h : Start.ofChar c = .quoted) : c = '\'' ∨ c = '"' := by
  rw [Start.ofChar] at h
  split at h
  · assumption
  · split at h
    · cases h
    · split at h <;> cases h

section Starts

variable {c : Char}

theorem toNat_of_isAlpha (h : c.isAlpha = true) :
    65 ≤ c.toNat ∧ c.toNat ≤ 90 ∨ 97 ≤ c.toNat ∧ c.toNat ≤ 122 := by
  have letter : (c.isUpper || c.isLower) = true := h
  rcases Bool.or_eq_true_iff.1 letter with upper | lower
  · exact .inl (of_decide_eq_true upper)
  · obtain ⟨least, most⟩ := Bool.and_eq_true_iff.1 lower
    exact .inr ⟨of_decide_eq_true least, of_decide_eq_true most⟩

theorem toNat_of_isDigit (h : c.isDigit = true) : 48 ≤ c.toNat ∧ c.toNat ≤ 57 := by
  simp only [Char.isDigit, Bool.and_eq_true, decide_eq_true_eq, UInt32.le_iff_toNat_le,
    ge_iff_le] at h
  exact h

theorem isBlank_of_isAlphanum (h : c.isAlphanum = true) : Text.isBlank c = false := by
  have range : 48 ≤ c.toNat ∧ c.toNat ≤ 122 := by
    rcases Bool.or_eq_true_iff.1 h with letter | digit
    · have := toNat_of_isAlpha letter
      omega
    · have := toNat_of_isDigit digit
      omega
  simp only [Text.isBlank, Bool.or_eq_false_iff, Bool.and_eq_false_iff, decide_eq_false_iff_not,
    beq_eq_false_iff_ne]
  omega

theorem start_of_isAlpha (h : c.isAlpha = true) : Start.ofChar c = .word := by
  have quote : ¬(c = '\'' ∨ c = '"') := by
    rintro (rfl | rfl) <;> cases h
  have digit : ¬c.isDigit = true := by
    intro digit
    have letter := toNat_of_isAlpha h
    have range := toNat_of_isDigit digit
    omega
  rw [Start.ofChar, if_neg quote, if_neg digit, if_pos h]

theorem start_of_isDigit (h : c.isDigit = true) : Start.ofChar c = .number := by
  have quote : ¬(c = '\'' ∨ c = '"') := by
    rintro (rfl | rfl) <;> cases h
  rw [Start.ofChar, if_neg quote, if_pos h]

end Starts

theorem string_of_scan {text : String} {t : Token} (h : .ok t ∈ scan text)
    (kind : t.kind = .string) :
    ∃ quote content, t.text.toList = quote :: (content ++ [quote]) ∧ quote ∉ content ∧
      (quote = '\'' ∨ quote = '"') := by
  obtain ⟨pos, c, cs, -, eq⟩ := mem_scan h
  obtain ⟨sort, chars⟩ := itemAt_eq_ok eq.symm
  rw [kind, kindOf?] at sort
  split at sort
  · rename_i start
    split at sort
    · rename_i closed
      refine ⟨c, cs.takeWhile (· ≠ c), ?_, ?_, quote_of_start start⟩
      · simp only [chars, tailOf, start, quotedTail, if_pos closed]
      · intro mem
        simpa using List.mem_takeWhile_imp mem
    · cases sort
  · cases sort
  · cases word : Keyword.ofWord? (c :: tailOf c cs) <;> simp [word] at sort
  · exact absurd rfl (kind_of_symbol sort).2.2

theorem text_of_string {text : String} {t : Token} (h : .ok t ∈ scan text)
    (kind : t.kind = .string) :
    ∃ quote content, t.text.toList = quote :: (content ++ [quote]) := by
  obtain ⟨quote, content, chars, -⟩ := string_of_scan h kind
  exact ⟨quote, content, chars⟩

end RowStore.Sql
