import RowStore.Text.Lines

namespace RowStore.Text

variable {α : Type} {lf cr : α} {cs : List α} {ls : List (List α)}

/-- A sequence and its lines. A line ends at a line feed, at a carriage return with a line feed behind
it, or with the sequence. -/
inductive IsLines (lf cr : α) : List α → List (List α) → Prop
  | nil : IsLines lf cr [] []
  | last {line : List α} : line ≠ [] → lf ∉ line → IsLines lf cr line [line]
  | feed {line rest : List α} {ls : List (List α)} : lf ∉ line → line.getLast? ≠ some cr →
      IsLines lf cr rest ls → IsLines lf cr (line ++ lf :: rest) (line :: ls)
  | returned {line rest : List α} {ls : List (List α)} : lf ∉ line →
      IsLines lf cr rest ls → IsLines lf cr (line ++ cr :: lf :: rest) (line :: ls)

theorem IsLines.not_mem (h : IsLines lf cr cs ls) {line : List α} (mem : line ∈ ls) : lf ∉ line := by
  induction h with
  | nil => cases mem
  | last _ inner => exact List.mem_singleton.1 mem ▸ inner
  | feed inner _ _ ih | returned inner _ ih =>
    rcases List.mem_cons.1 mem with rfl | later
    · exact inner
    · exact ih later

variable [DecidableEq α]

theorem lines_append {line : List α} (rest : List α)
    (inner : lf ∉ line) (last : line.getLast? ≠ some cr) :
    lines lf cr (line ++ lf :: rest) = line :: lines lf cr rest := by
  induction line with
  | nil => exact lines_lf lf cr rest
  | cons c cs ih =>
    have first : c ≠ lf := fun eq => inner (eq ▸ List.mem_cons_self)
    have others : lf ∉ cs := fun mem => inner (List.mem_cons_of_mem _ mem)
    have inside : ¬(c = cr ∧ (cs ++ lf :: rest).head? = some lf) := by
      rintro ⟨rfl, next⟩
      cases cs with
      | nil => exact last rfl
      | cons d ds =>
        cases next
        exact others List.mem_cons_self
    have later : cs.getLast? ≠ some cr := by
      cases cs with
      | nil => simp
      | cons d ds => rwa [List.getLast?_cons_cons] at last
    rw [List.cons_append, lines, if_neg first, if_neg inside, ih others later]

theorem lines_append_return {line : List α} (rest : List α)
    (inner : lf ∉ line) (other : cr ≠ lf) :
    lines lf cr (line ++ cr :: lf :: rest) = line :: lines lf cr rest := by
  induction line with
  | nil => rw [List.nil_append, lines, if_neg other, if_pos ⟨rfl, rfl⟩, lines_lf]
  | cons c cs ih =>
    have first : c ≠ lf := fun eq => inner (eq ▸ List.mem_cons_self)
    have others : lf ∉ cs := fun mem => inner (List.mem_cons_of_mem _ mem)
    have inside : ¬(c = cr ∧ (cs ++ cr :: lf :: rest).head? = some lf) := by
      rintro ⟨-, next⟩
      cases cs with
      | nil => exact other (Option.some.inj next)
      | cons d ds =>
        cases next
        exact others List.mem_cons_self
    rw [List.cons_append, lines, if_neg first, if_neg inside, ih others]

theorem lines_of_not_mem {line : List α} (some_ : line ≠ []) (inner : lf ∉ line) :
    lines lf cr line = [line] := by
  induction line with
  | nil => exact absurd rfl some_
  | cons c cs ih =>
    have first : c ≠ lf := fun eq => inner (eq ▸ List.mem_cons_self)
    have others : lf ∉ cs := fun mem => inner (List.mem_cons_of_mem _ mem)
    have inside : ¬(c = cr ∧ cs.head? = some lf) := fun h => others (List.mem_of_head? h.2)
    rw [lines, if_neg first, if_neg inside]
    cases cs with
    | nil => rfl
    | cons d ds => rw [ih (List.cons_ne_nil d ds) others]

theorem IsLines.lines_eq (h : IsLines lf cr cs ls) (other : cr ≠ lf) : lines lf cr cs = ls := by
  induction h with
  | nil => rfl
  | last some_ inner => exact lines_of_not_mem some_ inner
  | feed inner last _ ih => rw [lines_append _ inner last, ih]
  | returned inner _ ih => rw [lines_append_return _ inner other, ih]

theorem exists_isLines (lf cr : α) (cs : List α) : ∃ ls, IsLines lf cr cs ls := by
  induction length : cs.length using Nat.strongRecOn generalizing cs with
  | ind n ih =>
    subst length
    by_cases mem : lf ∈ cs
    · obtain ⟨line, rest, rfl, inner⟩ := List.eq_append_cons_of_mem mem
      obtain ⟨ls, below⟩ := ih rest.length (by simp only [List.length_append, List.length_cons]; omega)
        rest rfl
      by_cases last : line.getLast? = some cr
      · obtain ⟨short, rfl⟩ := List.getLast?_eq_some_iff.1 last
        have shorter : lf ∉ short := fun mem => inner (List.mem_append_left _ mem)
        rw [List.append_assoc]
        exact ⟨short :: ls, .returned shorter below⟩
      · exact ⟨line :: ls, .feed inner last below⟩
    · by_cases some_ : cs = []
      · exact ⟨[], some_ ▸ .nil⟩
      · exact ⟨[cs], .last some_ mem⟩

theorem isLines_iff (other : cr ≠ lf) : IsLines lf cr cs ls ↔ lines lf cr cs = ls := by
  refine ⟨fun h => h.lines_eq other, ?_⟩
  rintro rfl
  obtain ⟨ls, h⟩ := exists_isLines lf cr cs
  rw [h.lines_eq other]
  exact h

theorem isLines_textLines (cs : List Char) : IsLines '\n' '\r' cs (textLines cs) :=
  (isLines_iff (by decide)).2 rfl

end RowStore.Text
