import Mathlib.Data.List.TakeWhile
import RowStore.Proofs.Text.Utf8
import RowStore.Sql.Scan

namespace RowStore.Sql

variable {c stop : Char} {tail rest : List Char}

section Stretches

variable {p : Char → Bool}

theorem takeWhile_of_stop (inside : ∀ x ∈ tail, p x = true) (outside : p stop = false) :
    (tail ++ stop :: rest).takeWhile p = tail := by
  rw [List.takeWhile_append_of_pos inside, List.takeWhile_cons_of_neg (by simp [outside]),
    List.append_nil]

theorem dropWhile_of_stop (inside : ∀ x ∈ tail, p x = true) (outside : p stop = false) :
    (tail ++ stop :: rest).dropWhile p = stop :: rest := by
  rw [List.dropWhile_append_of_pos inside, List.dropWhile_cons_of_neg (by simp [outside])]

theorem stop_of_takeWhile (h : (tail ++ stop :: rest).takeWhile p = tail) :
    (∀ x ∈ tail, p x = true) ∧ p stop = false := by
  have inside : ∀ x ∈ tail, p x = true := fun x mem => List.mem_takeWhile_imp (h ▸ mem)
  refine ⟨inside, ?_⟩
  rw [List.takeWhile_append_of_pos inside] at h
  cases outside : p stop with
  | false => rfl
  | true => simp [outside] at h

end Stretches

/-- The item that starts at `c` goes on with these characters and ends before `stop`. -/
inductive Delimited (c stop : Char) : List Char → Prop
  | quoted {content : List Char} : Start.ofChar c = .quoted → c ∉ content →
      Delimited c stop (content ++ [c])
  | whole {ds : List Char} : Start.ofChar c = .number → (∀ d ∈ ds, d.isDigit = true) →
      stop.isDigit = false → stop ≠ '.' → Delimited c stop ds
  | fraction {ds es : List Char} : Start.ofChar c = .number → (∀ d ∈ ds, d.isDigit = true) →
      (∀ e ∈ es, e.isDigit = true) → stop.isDigit = false → Delimited c stop (ds ++ '.' :: es)
  | word {cs : List Char} : Start.ofChar c = .word → (∀ x ∈ cs, isWordChar x = true) →
      isWordChar stop = false → Delimited c stop cs
  | comparison : Start.ofChar c = .symbol → c = '>' ∨ c = '<' → Delimited c stop ['=']
  | symbol : Start.ofChar c = .symbol → ¬((c = '>' ∨ c = '<') ∧ stop = '=') → Delimited c stop []

theorem delimited_of_quotedTail (start : Start.ofChar c = .quoted)
    (h : quotedTail c (tail ++ stop :: rest) = tail) : Delimited c stop tail := by
  rw [quotedTail] at h
  split at h
  · rw [← h]
    refine .quoted start ?_
    intro mem
    simpa using List.mem_takeWhile_imp mem
  · simpa using congrArg List.length h

theorem delimited_of_numberTail (start : Start.ofChar c = .number)
    (h : numberTail (tail ++ stop :: rest) = tail) : Delimited c stop tail := by
  have digits : ∀ d ∈ (tail ++ stop :: rest).takeWhile Char.isDigit, d.isDigit = true :=
    fun d => List.mem_takeWhile_imp
  have text := List.takeWhile_append_dropWhile (p := Char.isDigit) (l := tail ++ stop :: rest)
  rw [numberTail] at h
  split at h
  · rename_i r point
    rw [point] at text
    generalize (tail ++ stop :: rest).takeWhile Char.isDigit = ds at digits h text
    subst h
    have behind : r = r.takeWhile Char.isDigit ++ stop :: rest := by simpa using text
    have fraction := stop_of_takeWhile (congrArg (List.takeWhile Char.isDigit) behind).symm
    exact .fraction start digits fraction.1 fraction.2
  · rename_i other
    rw [List.append_nil] at h
    have whole := stop_of_takeWhile h
    refine .whole start whole.1 whole.2 ?_
    rintro rfl
    exact other _ (dropWhile_of_stop whole.1 whole.2)

theorem delimited_of_symbolTail (start : Start.ofChar c = .symbol)
    (h : symbolTail c (tail ++ stop :: rest) = tail) : Delimited c stop tail := by
  rw [symbolTail] at h
  split at h
  · rename_i comparison
    subst h
    exact .comparison start comparison.1
  · rename_i other
    subst h
    exact .symbol start (by simpa using other)

theorem delimited_of_tailOf (h : tailOf c (tail ++ stop :: rest) = tail) :
    Delimited c stop tail := by
  rw [tailOf] at h
  split at h
  · exact delimited_of_quotedTail ‹_› h
  · exact delimited_of_numberTail ‹_› h
  · have word := stop_of_takeWhile h
    exact .word ‹_› word.1 word.2
  · exact delimited_of_symbolTail ‹_› h

namespace Delimited

theorem tailOf_eq (h : Delimited c stop tail) (rest : List Char) :
    tailOf c (tail ++ stop :: rest) = tail := by
  rw [tailOf]
  cases h with
  | @quoted content start absent =>
    have inside : ∀ x ∈ content, decide (x ≠ c) = true :=
      fun x mem => decide_eq_true (ne_of_mem_of_not_mem mem absent)
    have text : (content ++ [c]) ++ stop :: rest = content ++ c :: (stop :: rest) := by simp
    simp only [start, quotedTail]
    rw [text, if_pos (by simp), takeWhile_of_stop inside (by simp)]
  | whole start digits outside point =>
    simp only [start, numberTail]
    rw [takeWhile_of_stop digits outside, dropWhile_of_stop digits outside]
    split
    · rename_i eq
      cases eq
      exact absurd rfl point
    · exact List.append_nil _
  | @fraction ds es start digits others outside =>
    have text : (ds ++ '.' :: es) ++ stop :: rest = ds ++ '.' :: (es ++ stop :: rest) := by simp
    simp only [start, numberTail]
    rw [text, takeWhile_of_stop digits (by decide), dropWhile_of_stop digits (by decide)]
    simp only [takeWhile_of_stop others outside]
  | word start inside outside =>
    simp only [start]
    exact takeWhile_of_stop inside outside
  | comparison start sign => simp [start, symbolTail, sign]
  | symbol start other => simp [start, symbolTail, other]

theorem kindOf?_eq (h : Delimited c stop tail) (rest rest' : List Char) :
    kindOf? c (tail ++ stop :: rest) = kindOf? c (tail ++ stop :: rest') := by
  rw [kindOf?, kindOf?, h.tailOf_eq rest, h.tailOf_eq rest']
  cases h with
  | quoted start absent => simp [start]
  | whole start | fraction start | word start | comparison start | symbol start => simp [start]

theorem itemAt_eq (h : Delimited c stop tail) (pos : Nat) (rest rest' : List Char) :
    itemAt pos c (tail ++ stop :: rest) = itemAt pos c (tail ++ stop :: rest') := by
  rw [itemAt, itemAt, h.tailOf_eq rest, h.tailOf_eq rest', h.kindOf?_eq rest rest']

end Delimited

section Extent

theorem quotedTail_isPrefix (quote : Char) (cs : List Char) : quotedTail quote cs <+: cs := by
  rw [quotedTail]
  split
  · rename_i closed
    obtain ⟨content, rest, rfl, absent⟩ := List.eq_append_cons_of_mem closed
    have inside : ∀ x ∈ content, decide (x ≠ quote) = true :=
      fun x mem => decide_eq_true (ne_of_mem_of_not_mem mem absent)
    rw [takeWhile_of_stop inside (by simp)]
    exact ⟨rest, by simp⟩
  · exact List.prefix_rfl

theorem numberTail_isPrefix (cs : List Char) : numberTail cs <+: cs := by
  have text := List.takeWhile_append_dropWhile (p := Char.isDigit) (l := cs)
  rw [numberTail]
  conv => rhs; rw [← text]
  rw [List.prefix_append_right_inj]
  split
  · rename_i r point
    rw [point]
    exact List.cons_prefix_cons.2 ⟨rfl, List.takeWhile_prefix _⟩
  · exact List.nil_prefix

theorem symbolTail_isPrefix (c : Char) (cs : List Char) : symbolTail c cs <+: cs := by
  rw [symbolTail]
  split
  · rename_i sign
    obtain ⟨rest, rfl⟩ := List.head?_eq_some_iff.1 sign.2
    exact List.cons_prefix_cons.2 ⟨rfl, List.nil_prefix⟩
  · exact List.nil_prefix

theorem tailOf_isPrefix (c : Char) (cs : List Char) : tailOf c cs <+: cs := by
  rw [tailOf]
  split
  · exact quotedTail_isPrefix c cs
  · exact numberTail_isPrefix cs
  · exact List.takeWhile_prefix _
  · exact symbolTail_isPrefix c cs

theorem scanFrom_skip (pos : Nat) (cs rest : List Char) :
    scanFrom pos cs.length (cs ++ rest) = scanFrom (pos + Text.byteSize cs) 0 rest := by
  induction cs generalizing pos with
  | nil => rfl
  | cons c cs ih =>
    rw [List.length_cons, List.cons_append, scanFrom, ih, Text.byteSize, Nat.add_assoc]

theorem exists_delimited (c : Char) (cs : List Char) :
    tailOf c cs = cs ∨ ∃ tail stop rest, cs = tail ++ stop :: rest ∧ Delimited c stop tail := by
  obtain ⟨behind, text⟩ := tailOf_isPrefix c cs
  cases behind with
  | nil => exact .inl (by simpa using text)
  | cons stop rest =>
    have stops : tailOf c (tailOf c cs ++ stop :: rest) = tailOf c cs := by rw [text]
    exact .inr ⟨tailOf c cs, stop, rest, text.symm, delimited_of_tailOf stops⟩

end Extent

end RowStore.Sql
