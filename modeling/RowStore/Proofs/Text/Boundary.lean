import Mathlib.Order.Bounds.Basic
import RowStore.Proofs.Text.Clip
import RowStore.Proofs.Text.Utf8

namespace RowStore.Text

abbrev Between (s : String) (e : Nat) : Prop := (⟨e⟩ : String.Pos.Raw).IsValid s

def before? (s : String) (e : Nat) : Option String :=
  if h : Between s e then some (s.sliceTo (s.pos ⟨e⟩ h)).copy else none

def behind? (s : String) (e : Nat) : Option String :=
  if h : Between s e then some (s.sliceFrom (s.pos ⟨e⟩ h)).copy else none

def stepBack? (s : String) : Nat → Option Nat
  | 0 => if Between s 0 then some 0 else none
  | e + 1 => if Between s (e + 1) then some (e + 1) else stepBack? s e

/-- Cutting a text at its end or at the limit, whichever is first, and back from there. -/
def cutFromEnd? (n : Nat) (s : String) : Option String :=
  (stepBack? s (min s.utf8ByteSize n)).bind (before? s)

/-- Cutting a text that is too long at the limit, and back from there. -/
def cutLong? (n : Nat) (s : String) : Option String :=
  if s.utf8ByteSize ≤ n then some s else (stepBack? s n).bind (before? s)

variable {s : String} {a b : List Char} {n e : Nat}

section Places

theorem between_iff : Between s e ↔ ∃ a b, s.toList = a ++ b ∧ byteSize a = e := by
  rw [Between, String.Pos.Raw.isValid_iff_exists_append]
  constructor
  · rintro ⟨a, b, rfl, ends⟩
    refine ⟨a.toList, b.toList, String.toList_append, ?_⟩
    rw [← utf8ByteSize_eq]
    exact (congrArg String.Pos.Raw.byteIdx ends).symm
  · rintro ⟨a, b, text, rfl⟩
    refine ⟨String.ofList a, String.ofList b, ?_, ?_⟩
    · rw [← String.ofList_append, ← text, String.ofList_toList]
    · rw [String.rawEndPos, utf8ByteSize_eq, String.toList_ofList]

theorem splits_pos (text : s.toList = a ++ b) (h : Between s (byteSize a)) :
    (s.pos ⟨byteSize a⟩ h).Splits (String.ofList a) (String.ofList b) where
  eq_append := by rw [← String.ofList_append, ← text, String.ofList_toList]
  offset_eq_rawEndPos := by
    rw [String.offset_pos, String.rawEndPos, utf8ByteSize_eq, String.toList_ofList]

theorem before?_eq (text : s.toList = a ++ b) : before? s (byteSize a) = some (String.ofList a) := by
  have h : Between s (byteSize a) := between_iff.2 ⟨a, b, text, rfl⟩
  rw [before?, dif_pos h, ((String.Pos.splits _).eq (splits_pos text h)).1]

theorem behind?_eq (text : s.toList = a ++ b) : behind? s (byteSize a) = some (String.ofList b) := by
  have h : Between s (byteSize a) := between_iff.2 ⟨a, b, text, rfl⟩
  rw [behind?, dif_pos h, ((String.Pos.splits _).eq (splits_pos text h)).2]

end Places

section Cuts

theorem isGreatest_byteSize_clip (n : Nat) (s : String) :
    IsGreatest {e | Between s e ∧ e ≤ n} (byteSize (clip n s.toList)) := by
  obtain ⟨rest, text⟩ := clip_isPrefix n s.toList
  refine ⟨⟨between_iff.2 ⟨_, rest, text.symm, rfl⟩, byteSize_clip_le _ _⟩, ?_⟩
  rintro _ ⟨place, within⟩
  obtain ⟨a, b, text', rfl⟩ := between_iff.1 place
  obtain ⟨more, longer⟩ := isPrefix_clip ⟨b, text'.symm⟩ within
  rw [← longer, byteSize_append]
  exact Nat.le_add_right _ _

theorem exists_stepBack? (s : String) (e : Nat) :
    ∃ k, stepBack? s e = some k ∧ IsGreatest {j | Between s j ∧ j ≤ e} k := by
  -- The start of a text is between characters, so going back does not go below it.
  induction e with
  | zero =>
    have start : Between s 0 := between_iff.2 ⟨[], s.toList, rfl, rfl⟩
    exact ⟨0, if_pos start, ⟨start, Nat.le_refl 0⟩, fun j h => h.2⟩
  | succ e ih =>
    by_cases here : Between s (e + 1)
    · exact ⟨e + 1, if_pos here, ⟨here, Nat.le_refl _⟩, fun j h => h.2⟩
    · obtain ⟨k, found, ⟨place, within⟩, greatest⟩ := ih
      refine ⟨k, (if_neg here).trans found, ⟨place, Nat.le_succ_of_le within⟩, ?_⟩
      rintro j ⟨between, below⟩
      have other : j ≠ e + 1 := by
        rintro rfl
        exact here between
      exact greatest ⟨between, by omega⟩

theorem stepBack?_eq (n : Nat) (s : String) : stepBack? s n = some (byteSize (clip n s.toList)) := by
  obtain ⟨k, found, greatest⟩ := exists_stepBack? s n
  rw [found, greatest.unique (isGreatest_byteSize_clip n s)]

theorem before?_stepBack? (n : Nat) (s : String) :
    (stepBack? s n).bind (before? s) = some (String.ofList (clip n s.toList)) := by
  obtain ⟨rest, text⟩ := clip_isPrefix n s.toList
  rw [stepBack?_eq, Option.bind_some, before?_eq text.symm]

theorem cutFromEnd?_eq (n : Nat) (s : String) :
    cutFromEnd? n s = some (String.ofList (clip n s.toList)) := by
  rw [cutFromEnd?, before?_stepBack?, utf8ByteSize_eq, clip_min]

theorem cutLong?_eq (n : Nat) (s : String) :
    cutLong? n s = some (String.ofList (clip n s.toList)) := by
  rw [cutLong?, before?_stepBack?]
  split
  · rename_i fits
    rw [clip_of_le (utf8ByteSize_eq s ▸ fits), String.ofList_toList]
  · rfl

end Cuts

end RowStore.Text
