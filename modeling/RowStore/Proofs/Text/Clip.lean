import RowStore.Text.Clip

namespace RowStore.Text

theorem isPrefix_clip {n : Nat} {cs part : List Char} (h : part <+: cs) (fits : byteSize part ≤ n) :
    part <+: clip n cs := by
  induction cs generalizing n part with
  | nil => exact h
  | cons c cs ih =>
    cases part with
    | nil => exact List.nil_prefix
    | cons d ds =>
      obtain ⟨rfl, tail⟩ := List.cons_prefix_cons.1 h
      simp only [byteSize] at fits
      rw [clip, if_pos (Nat.le_trans (Nat.le_add_right _ _) fits)]
      exact List.cons_prefix_cons.2 ⟨rfl, ih tail (by omega)⟩

/-- The clipped text is the one longest initial part that fits. -/
theorem eq_clip_iff {n : Nat} {cs short : List Char} :
    short = clip n cs ↔ short <+: cs ∧ byteSize short ≤ n ∧
      ∀ part, part <+: cs → byteSize part ≤ n → part <+: short := by
  constructor
  · rintro rfl
    exact ⟨clip_isPrefix n cs, byteSize_clip_le n cs, fun _ => isPrefix_clip⟩
  · rintro ⟨within, fits, longest⟩
    have up : short <+: clip n cs := isPrefix_clip within fits
    have down : clip n cs <+: short := longest _ (clip_isPrefix n cs) (byteSize_clip_le n cs)
    exact up.eq_of_length (Nat.le_antisymm up.length_le down.length_le)

theorem clip_of_le {n : Nat} {cs : List Char} (fits : byteSize cs ≤ n) : clip n cs = cs :=
  (eq_clip_iff.2 ⟨List.prefix_rfl, fits, fun _ within _ => within⟩).symm

@[simp] theorem clip_clip (n : Nat) (cs : List Char) : clip n (clip n cs) = clip n cs :=
  clip_of_le (byteSize_clip_le n cs)

theorem clip_min (n : Nat) (cs : List Char) : clip (min (byteSize cs) n) cs = clip n cs := by
  rcases Nat.le_total (byteSize cs) n with fits | long
  · rw [Nat.min_eq_left fits, clip_of_le fits, clip_of_le (Nat.le_refl _)]
  · rw [Nat.min_eq_right long]

theorem clip_takeWhile (p : Char → Bool) (n : Nat) (cs : List Char) :
    clip n (cs.takeWhile p) = (clip n cs).takeWhile p := by
  induction cs generalizing n with
  | nil => rfl
  | cons c cs ih =>
    rw [List.takeWhile_cons, clip]
    by_cases stays : p c
    · rw [if_pos stays, clip, apply_ite (List.takeWhile p), List.takeWhile_cons_of_pos stays, ih]
      rfl
    · rw [if_neg stays, apply_ite (List.takeWhile p), List.takeWhile_cons_of_neg stays]
      exact (ite_self []).symm

theorem clip_eq_or_lt (n : Nat) (cs : List Char) : clip n cs = cs ∨ n < byteSize (clip n cs) + 4 := by
  induction cs generalizing n with
  | nil => exact .inl rfl
  | cons c cs ih =>
    have size := c.utf8Size_le_four
    rw [clip]
    split
    · rcases ih (n - c.utf8Size) with whole | cut
      · exact .inl (by rw [whole])
      · refine .inr ?_
        rw [byteSize]
        omega
    · refine .inr ?_
      rw [byteSize]
      omega

theorem byteSize_pos {cs : List Char} (some_ : cs ≠ []) : 0 < byteSize cs := by
  obtain ⟨c, rest, rfl⟩ := List.exists_cons_of_ne_nil some_
  exact Nat.add_pos_left c.utf8Size_pos _

theorem eq_of_byteSize {before before' after after' : List Char}
    (same : before ++ after = before' ++ after')
    (size : byteSize before = byteSize before') : before = before' := by
  induction before generalizing before' with
  | nil =>
    cases before' with
    | nil => rfl
    | cons c cs =>
      have := c.utf8Size_pos
      simp only [byteSize] at size
      omega
  | cons c cs ih =>
    cases before' with
    | nil =>
      have := c.utf8Size_pos
      simp only [byteSize] at size
      omega
    | cons d ds =>
      obtain ⟨rfl, others⟩ := List.cons.inj same
      simp only [byteSize, Nat.add_left_cancel_iff] at size
      rw [ih others size]

end RowStore.Text
