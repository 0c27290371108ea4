import Mathlib.Data.List.TakeWhile
import RowStore.Text.Integer

namespace RowStore.Text

theorem ofDigits_eq (cs : List Char) : ofDigits cs = Nat.ofDigitChars 10 cs 0 := by
  simp only [ofDigits, Nat.ofDigitChars_eq_foldl, digitValue, Nat.mul_comm]

theorem foldl_pushDigit (n : Nat) (cs : List Char) :
    cs.foldl pushDigit (min n int64Max)
      = min (cs.foldl (fun n c => n * 10 + digitValue c) n) int64Max := by
  induction cs generalizing n with
  | nil => rfl
  | cons c cs ih =>
    have step : pushDigit (min n int64Max) c = min (n * 10 + digitValue c) int64Max := by
      rw [pushDigit]
      omega
    rw [List.foldl_cons, List.foldl_cons, step, ih]

theorem leadingNat_eq_min (cs : List Char) :
    leadingNat cs = min (ofDigits (cs.takeWhile Char.isDigit)) int64Max :=
  foldl_pushDigit 0 (cs.takeWhile Char.isDigit)

theorem leadingNat_eq {cs : List Char} (digits : cs.all Char.isDigit) :
    leadingNat cs = min (ofDigits cs) int64Max := by
  have all : cs.takeWhile Char.isDigit = cs := List.takeWhile_eq_self_iff.2 (List.all_eq_true.1 digits)
  rw [leadingNat_eq_min, all]

theorem parseNat?_eq_some {cs : List Char} {n : Nat} :
    parseNat? cs = some n ↔ (cs ≠ [] ∧ cs.all Char.isDigit) ∧ ofDigits cs = n := by
  simp [parseNat?]

theorem leadingNat_of_parseNat? {cs : List Char} {n : Nat} (h : parseNat? cs = some n)
    (small : n ≤ int64Max) : leadingNat cs = n := by
  obtain ⟨⟨-, digits⟩, value⟩ := parseNat?_eq_some.1 h
  rw [leadingNat_eq digits, value, Nat.min_eq_left small]

theorem isBlank_of_isDigit {c : Char} (h : c.isDigit) : isBlank c = false := by
  simp only [Char.isDigit, ge_iff_le, Bool.and_eq_true, decide_eq_true_eq, UInt32.le_iff_toNat_le] at h
  change 48 ≤ c.toNat ∧ c.toNat ≤ 57 at h
  simp only [isBlank, Bool.or_eq_false_iff, Bool.and_eq_false_iff, decide_eq_false_iff_not,
    beq_eq_false_iff_ne]
  omega

theorem trimStart_of_parseNat? {cs : List Char} {n : Nat} (h : parseNat? cs = some n) :
    trimStart cs = cs := by
  cases cs with
  | nil => rfl
  | cons c cs =>
    obtain ⟨⟨-, digits⟩, -⟩ := parseNat?_eq_some.1 h
    have first : c.isDigit := List.all_eq_true.1 digits c List.mem_cons_self
    rw [trimStart_cons, isBlank_of_isDigit first]
    rfl

theorem parseInt?_minus (cs : List Char) :
    parseInt? ('-' :: cs) = (parseNat? cs).map fun n : Nat => -(n : Int) := by
  rw [parseInt?]
  cases parseNat? cs <;> rfl

theorem leadingInt_of_parseInt? {cs : List Char} {n : Int} (h : parseInt? cs = some n)
    (small : n.natAbs ≤ int64Max) : leadingInt cs = n := by
  unfold parseInt? at h
  split at h
  · rename_i ds
    rw [← parseInt?, parseInt?_minus] at h
    obtain ⟨k, digits, rfl⟩ := Option.map_eq_some_iff.1 h
    rw [Int.natAbs_neg, Int.natAbs_natCast] at small
    rw [leadingInt, trimStart_cons, if_neg (by decide)]
    simp only [leadingNat_of_parseNat? digits small]
  · obtain ⟨k, digits, rfl⟩ := Option.map_eq_some_iff.1 h
    rw [leadingInt, trimStart_cons, if_neg (by decide)]
    exact congrArg Int.ofNat (leadingNat_of_parseNat? digits small)
  · rename_i minus plus
    obtain ⟨k, digits, rfl⟩ := Option.map_eq_some_iff.1 h
    rw [leadingInt, trimStart_of_parseNat? digits]
    split
    · exact absurd rfl (minus _)
    · exact absurd rfl (plus _)
    · exact congrArg Int.ofNat (leadingNat_of_parseNat? digits small)

theorem parseInt32?_eq_some {cs : List Char} {n : Int32} :
    parseInt32? cs = some n ↔ parseInt? cs = some n.toInt := by
  have low := n.le_toInt
  have high := n.toInt_lt
  unfold parseInt32?
  split
  · rename_i k read
    rw [Option.ite_none_right_eq_some, Option.some_inj, read, Option.some_inj]
    constructor
    · rintro ⟨room, rfl⟩
      rw [Int32.toInt_ofInt_of_le room.1 room.2]
    · rintro rfl
      exact ⟨by omega, Int32.ofInt_toInt n⟩
  · rename_i read
    simp [read]

theorem leadingInt_of_parseInt32? {cs : List Char} {n : Int32} (h : parseInt32? cs = some n) :
    leadingInt cs = n.toInt := by
  have low := n.le_toInt
  have high := n.toInt_lt
  refine leadingInt_of_parseInt? (parseInt32?_eq_some.1 h) ?_
  rw [int64Max]
  omega

theorem parseNat?_repr (n : Nat) : parseNat? n.repr.toList = some n := by
  rw [parseNat?_eq_some, Nat.repr_eq_ofList_toDigits, String.toList_ofList, ofDigits_eq]
  refine ⟨⟨Nat.toDigits_ne_nil, List.all_eq_true.2 ?_⟩, Nat.ofDigitChars_ten_toDigits⟩
  exact fun c mem => Nat.isDigit_of_mem_toDigits (by decide) (by decide) mem

theorem parseInt?_of_parseNat? {cs : List Char} {n : Nat} (h : parseNat? cs = some n) :
    parseInt? cs = some (n : Int) := by
  obtain ⟨⟨-, digits⟩, -⟩ := parseNat?_eq_some.1 h
  unfold parseInt?
  split
  · simp at digits
  · simp at digits
  · rw [h]
    rfl

theorem parseInt?_toString (n : Int) : parseInt? (toString n).toList = some n := by
  rw [Int.toString_eq_repr, Int.repr_eq_if]
  split
  · rename_i positive
    rw [parseInt?_of_parseNat? (parseNat?_repr _), Int.toNat_of_nonneg positive]
  · rename_i negative
    have sign : ("-" ++ (-n).toNat.repr).toList = '-' :: (-n).toNat.repr.toList := by
      rw [String.toList_append]
      rfl
    rw [sign, parseInt?_minus, parseNat?_repr, Option.map_some, Int.toNat_of_nonneg (by omega),
      Int.neg_neg]

theorem leadingInt_toString (n : Int32) : leadingInt (toString n.toInt).toList = n.toInt :=
  leadingInt_of_parseInt32? (parseInt32?_eq_some.2 (parseInt?_toString _))

end RowStore.Text
