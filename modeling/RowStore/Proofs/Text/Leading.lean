import Mathlib.Algebra.Group.Int.Defs
import RowStore.Proofs.Text.Boundary
import RowStore.Proofs.Text.Integer

/-!
The integer that a text starts with, in three ways: by the parts of the text, as it is read, and in
64-bit words on the bytes. The reading holds the exact integer inside the words, and the words get to the
same without ever leaving their range or cutting a character.
-/

namespace RowStore.Text

/-- A text parted into blanks, a sign or none, digits and a rest, where each part is as long as it can
be. -/
structure Parted (cs blanks sign digits rest : List Char) : Prop where
  text : cs = blanks ++ (sign ++ (digits ++ rest))
  blank : ∀ c ∈ blanks, isBlank c = true
  unblank : ∀ c ∈ (sign ++ (digits ++ rest)).head?, isBlank c = false
  sign_mem : sign ∈ [[], ['+'], ['-']]
  unsigned : sign = [] → ∀ c ∈ (digits ++ rest).head?, c ≠ '+' ∧ c ≠ '-'
  digit : ∀ c ∈ digits, c.isDigit = true
  undigit : ∀ c ∈ rest.head?, c.isDigit = false

def signFactor (sign : List Char) : Int := if sign = ['-'] then -1 else 1

def Leads (cs : List Char) (n : Int) : Prop :=
  ∃ blanks sign digits rest, Parted cs blanks sign digits rest ∧
    n = signFactor sign * (Nat.ofDigitChars 10 digits 0 : Int)

section Parts

variable {cs ds sign a b : List Char} {n m : Int} {p : Char → Bool}

theorem takeWhile_parted (inside : ∀ c ∈ a, p c = true) (outside : ∀ c ∈ b.head?, p c = false) :
    (a ++ b).takeWhile p = a := by
  rw [List.takeWhile_append_of_pos inside]
  cases b with
  | nil => simp
  | cons c cs => simp [outside c rfl]

theorem dropWhile_parted (inside : ∀ c ∈ a, p c = true) (outside : ∀ c ∈ b.head?, p c = false) :
    (a ++ b).dropWhile p = b := by
  rw [List.dropWhile_append_of_pos inside]
  cases b with
  | nil => rfl
  | cons c cs => rw [List.dropWhile_cons_of_neg (by simp [outside c rfl])]

theorem head?_dropWhile (p : Char → Bool) (cs : List Char) :
    ∀ c ∈ (cs.dropWhile p).head?, p c = false := by
  intro c first
  have stop := List.head?_dropWhile_not p cs
  rw [Option.mem_def.1 first] at stop
  exact stop

def splitSign : List Char → List Char × List Char
  | '-' :: ds => (['-'], ds)
  | '+' :: ds => (['+'], ds)
  | ds => ([], ds)

theorem splitSign_eq_iff : splitSign cs = (sign, ds) ↔ cs = sign ++ ds ∧
    sign ∈ [[], ['+'], ['-']] ∧ (sign = [] → ∀ c ∈ ds.head?, c ≠ '+' ∧ c ≠ '-') := by
  constructor
  · intro h
    unfold splitSign at h
    split at h
    · cases h
      simp
    · cases h
      simp
    · rename_i minus plus
      cases h
      refine ⟨rfl, by simp, fun _ c first => ?_⟩
      obtain ⟨tail, rfl⟩ := List.head?_eq_some_iff.1 first
      exact ⟨fun eq => plus tail (by rw [eq]), fun eq => minus tail (by rw [eq])⟩
  · rintro ⟨rfl, mem, unsigned⟩
    simp only [List.mem_cons, List.not_mem_nil, or_false] at mem
    rcases mem with rfl | rfl | rfl
    · rw [List.nil_append, splitSign]
      · rintro tail rfl
        exact (unsigned rfl _ rfl).2 rfl
      · rintro tail rfl
        exact (unsigned rfl _ rfl).1 rfl
    · rfl
    · rfl

theorem leadingInt_eq (cs : List Char) : leadingInt cs
    = signFactor (splitSign (trimStart cs)).1 * (leadingNat (splitSign (trimStart cs)).2 : Int) := by
  unfold leadingInt
  split
  · rename_i ds text
    rw [text]
    exact (Int.neg_one_mul _).symm
  · rename_i ds text
    rw [text]
    exact (Int.one_mul _).symm
  · rename_i minus plus
    rw [splitSign]
    · exact (Int.one_mul _).symm
    · exact minus
    · exact plus

theorem Parted.splitSign_trimStart {blanks digits rest : List Char}
    (h : Parted cs blanks sign digits rest) : splitSign (trimStart cs) = (sign, digits ++ rest) := by
  rw [h.text, trimStart, dropWhile_parted h.blank h.unblank]
  exact splitSign_eq_iff.2 ⟨rfl, h.sign_mem, h.unsigned⟩

theorem exists_parted (cs : List Char) : ∃ blanks sign digits rest, Parted cs blanks sign digits rest := by
  obtain ⟨sign, ds, parts⟩ : ∃ sign ds, splitSign (trimStart cs) = (sign, ds) := ⟨_, _, rfl⟩
  obtain ⟨text, mem, unsigned⟩ := splitSign_eq_iff.1 parts
  have digits : ds.takeWhile Char.isDigit ++ ds.dropWhile Char.isDigit = ds :=
    List.takeWhile_append_dropWhile
  refine ⟨cs.takeWhile isBlank, sign, ds.takeWhile Char.isDigit, ds.dropWhile Char.isDigit, ?_,
    fun c => List.mem_takeWhile_imp, ?_, mem, ?_, fun c => List.mem_takeWhile_imp, head?_dropWhile _ ds⟩
  · rw [digits, ← text]
    exact List.takeWhile_append_dropWhile.symm
  · rw [digits, ← text]
    exact head?_dropWhile isBlank cs
  · rw [digits]
    exact unsigned

theorem existsUnique_leads (cs : List Char) : ∃! n, Leads cs n := by
  obtain ⟨blanks, sign, digits, rest, parted⟩ := exists_parted cs
  refine ⟨_, ⟨blanks, sign, digits, rest, parted, rfl⟩, ?_⟩
  rintro _ ⟨blanks', sign', digits', rest', parted', rfl⟩
  have same := parted'.splitSign_trimStart.symm.trans parted.splitSign_trimStart
  obtain ⟨rfl, tails⟩ := Prod.mk.inj same
  rw [← takeWhile_parted parted'.digit parted'.undigit, tails,
    takeWhile_parted parted.digit parted.undigit]

theorem Leads.leadingInt_eq (h : Leads cs n) :
    leadingInt cs = max (-(2 ^ 63 - 1)) (min n (2 ^ 63 - 1)) := by
  obtain ⟨blanks, sign, digits, rest, parted, rfl⟩ := h
  rw [Text.leadingInt_eq, parted.splitSign_trimStart, leadingNat_eq_min,
    takeWhile_parted parted.digit parted.undigit, ofDigits_eq, signFactor, int64Max]
  split <;> omega

end Parts

section Words

def mulHeld (v w : Int64) : Int64 := .ofIntClamp (v.toInt * w.toInt)

def addHeld (v w : Int64) : Int64 := .ofIntClamp (v.toInt + w.toInt)

/-- A digit behind a word: ten times as much, then the digit more. The byte of `0` cannot be taken from a
lower one. -/
def pushWord? (w : Int64) (b : UInt8) : Option Int64 :=
  if 0x30 ≤ b then some (addHeld (mulHeld w 10) (.ofNat (b - 0x30).toNat)) else none

def negWord? (w : Int64) : Option Int64 := if w = .minValue then none else some (-w)

def isDigitByte (b : UInt8) : Bool := 0x30 ≤ b && b ≤ 0x39

def digitsWord? (s : String) : Option Int64 :=
  ((encode s.toList).takeWhile isDigitByte).foldlM pushWord? 0

def signed? (s : String) : Option (Bool × String) :=
  match (encode s.toList).head? with
  | some 0x2D => (behind? s 1).map (true, ·)
  | some 0x2B => (behind? s 1).map (false, ·)
  | _ => some (false, s)

/-- The integer that a text starts with, in 64-bit words on its bytes. There is none where a step would
leave the words or cut a character. -/
def leadingWord? (s : String) : Option Int64 := do
  let (negative, digits) ← signed? (String.ofList (trimStart s.toList))
  let w ← digitsWord? digits
  if negative then negWord? w else some w

variable {cs ds : List Char} {c : Char} {w : Int64} {n : Nat}

theorem toInt_ofIntClamp (n : Int) :
    (Int64.ofIntClamp n).toInt = max (-2 ^ 63) (min n (2 ^ 63 - 1)) := by
  have least := Int64.toInt_minValue
  have greatest := Int64.toInt_maxValue
  unfold Int64.ofIntClamp
  split
  · split
    · rw [Int64.toInt_ofIntLE]
      omega
    · omega
  · omega

theorem isDigitByte_iff_range {b : UInt8} : isDigitByte b = true ↔ 48 ≤ b.toNat ∧ b.toNat ≤ 57 := by
  simp [isDigitByte, UInt8.le_iff_toNat_le]

theorem encode_cons_digit (digit : c.isDigit = true) :
    encode (c :: ds) = UInt8.ofNat c.toNat :: encode ds := by
  have range : 48 ≤ c.toNat ∧ c.toNat ≤ 57 := Char.isDigit_iff_toNat.1 digit
  obtain ⟨b, tail, bytes, ⟨number, rfl⟩ | ⟨high, -⟩⟩ := utf8EncodeChar_cases c
  · rw [encode, List.flatMap_cons, bytes, ← number, UInt8.ofNat_toNat]
    rfl
  · omega

theorem takeWhile_isDigitByte (cs : List Char) :
    (encode cs).takeWhile isDigitByte = encode (cs.takeWhile Char.isDigit) := by
  induction cs with
  | nil => rfl
  | cons c cs ih =>
    by_cases digit : c.isDigit
    · have inside : isDigitByte (UInt8.ofNat c.toNat) = true := by
        have range : 48 ≤ c.toNat ∧ c.toNat ≤ 57 := Char.isDigit_iff_toNat.1 digit
        rw [isDigitByte_iff_range, UInt8.toNat_ofNat']
        omega
      rw [encode_cons_digit digit, List.takeWhile_cons_of_pos inside, ih,
        List.takeWhile_cons_of_pos digit, encode_cons_digit digit]
    · obtain ⟨b, tail, bytes, first⟩ := utf8EncodeChar_cases c
      have outside : ¬isDigitByte b = true := by
        have range : ¬(48 ≤ c.toNat ∧ c.toNat ≤ 57) := fun h => digit (Char.isDigit_iff_toNat.2 h)
        rw [isDigitByte_iff_range]
        omega
      rw [encode, List.flatMap_cons, bytes, List.cons_append, List.takeWhile_cons_of_neg outside,
        List.takeWhile_cons_of_neg digit]
      rfl

theorem exists_pushWord? (value : w.toInt = n) (digit : c.isDigit = true) :
    ∃ w', pushWord? w (UInt8.ofNat c.toNat) = some w' ∧ w'.toInt = pushDigit n c := by
  have range : 48 ≤ c.toNat ∧ c.toNat ≤ 57 := Char.isDigit_iff_toNat.1 digit
  have byte : (UInt8.ofNat c.toNat).toNat = c.toNat := by
    rw [UInt8.toNat_ofNat']
    omega
  have above : 0x30 ≤ UInt8.ofNat c.toNat := by
    rw [UInt8.le_iff_toNat_le, byte]
    exact range.1
  have digit_ : (UInt8.ofNat c.toNat - 0x30).toNat = digitValue c := by
    rw [UInt8.toNat_sub_of_le _ _ above, byte]
    rfl
  have small : digitValue c < 10 := by
    rw [← digit_, UInt8.toNat_sub_of_le _ _ above, byte]
    change c.toNat - 48 < 10
    omega
  refine ⟨_, if_pos above, ?_⟩
  have ten : (10 : Int64).toInt = 10 := rfl
  rw [addHeld, mulHeld, toInt_ofIntClamp, toInt_ofIntClamp, value, ten, digit_,
    Int64.toInt_ofNat_of_lt (by omega), pushDigit, int64Max]
  omega

theorem exists_foldlM_pushWord? (value : w.toInt = n) (digits : ∀ c ∈ ds, c.isDigit = true) :
    ∃ w', (encode ds).foldlM pushWord? w = some w' ∧ w'.toInt = ds.foldl pushDigit n := by
  induction ds generalizing w n with
  | nil => exact ⟨w, rfl, value⟩
  | cons c ds ih =>
    obtain ⟨w', pushed, value'⟩ := exists_pushWord? value (digits c List.mem_cons_self)
    obtain ⟨w'', run, value''⟩ := ih value' fun d mem => digits d (List.mem_cons_of_mem _ mem)
    refine ⟨w'', ?_, value''⟩
    rw [encode_cons_digit (digits c List.mem_cons_self), List.foldlM_cons, pushed]
    exact run

theorem exists_digitsWord? (s : String) :
    ∃ w, digitsWord? s = some w ∧ w.toInt = leadingNat s.toList := by
  rw [digitsWord?, takeWhile_isDigitByte]
  exact exists_foldlM_pushWord? (n := 0) rfl fun c => List.mem_takeWhile_imp

theorem signed?_of_unsigned {s : String} (h : ∀ c ∈ s.toList.head?, c ≠ '+' ∧ c ≠ '-') :
    signed? s = some (false, s) := by
  unfold signed?
  cases text : s.toList with
  | nil => rfl
  | cons c cs =>
    obtain ⟨plus, minus⟩ := h c (by rw [text]; rfl)
    obtain ⟨b, tail, bytes, first⟩ := utf8EncodeChar_cases c
    have head : (encode (c :: cs)).head? = some b := by
      rw [encode, List.flatMap_cons, bytes]
      rfl
    have other {d : Char} (differs : c ≠ d) (small : d.toNat < 128) : b.toNat ≠ d.toNat := by
      intro eq
      have same : c.toNat = d.toNat := by omega
      exact differs (Char.toNat_inj.1 same)
    rw [head]
    split
    · rename_i eq
      cases eq
      exact absurd rfl (other minus (by decide))
    · rename_i eq
      cases eq
      exact absurd rfl (other plus (by decide))
    · rfl

theorem signed?_eq (s : String) : signed? s = some (decide ((splitSign s.toList).1 = ['-']),
    String.ofList (splitSign s.toList).2) := by
  obtain ⟨sign, ds, parts⟩ : ∃ sign ds, splitSign s.toList = (sign, ds) := ⟨_, _, rfl⟩
  obtain ⟨text, mem, unsigned⟩ := splitSign_eq_iff.1 parts
  have signed (byte : byteSize sign = 1) : behind? s 1 = some (String.ofList ds) :=
    byte ▸ behind?_eq text
  rw [parts]
  simp only [List.mem_cons, List.not_mem_nil, or_false] at mem
  rcases mem with rfl | rfl | rfl
  · rw [List.nil_append] at text
    rw [signed?_of_unsigned (text ▸ unsigned rfl), ← text, String.ofList_toList]
    rfl
  · have first : (encode s.toList).head? = some 0x2B := by rw [text]; rfl
    simp only [signed?, first, signed rfl]
    rfl
  · have first : (encode s.toList).head? = some 0x2D := by rw [text]; rfl
    simp only [signed?, first, signed rfl]
    rfl

theorem exists_negWord? (value : w.toInt = n) : ∃ w', negWord? w = some w' ∧ w'.toInt = -n := by
  have other : w ≠ .minValue := by
    rintro rfl
    have least := Int64.toInt_minValue
    omega
  have greatest := w.toInt_lt
  refine ⟨-w, if_neg other, ?_⟩
  rw [Int64.toInt_neg, value, Int.bmod_eq_of_le_mul_two (by omega) (by omega)]

theorem exists_leadingWord? (s : String) :
    ∃ w, leadingWord? s = some w ∧ w.toInt = leadingInt s.toList := by
  obtain ⟨sign, ds, parts⟩ : ∃ sign ds, splitSign (trimStart s.toList) = (sign, ds) := ⟨_, _, rfl⟩
  obtain ⟨w, digits, value⟩ := exists_digitsWord? (String.ofList ds)
  rw [String.toList_ofList] at value
  rw [leadingInt_eq, parts]
  simp only [leadingWord?, signed?_eq, String.toList_ofList, parts, Option.bind_eq_bind,
    Option.bind_some, digits, signFactor, decide_eq_true_eq]
  split
  · obtain ⟨w', negated, value'⟩ := exists_negWord? value
    exact ⟨w', negated, by rw [value', Int.neg_one_mul]⟩
  · exact ⟨w, rfl, by rw [value, Int.one_mul]⟩

end Words

/-- Every text starts with one integer. The reading is that integer held inside 64 bits on both sides, and
the words get to it without leaving their range, down to the sign, and without cutting a character. -/
theorem leadingInt_clamps (s : String) :
    ∃ n, (∀ m, Leads s.toList m ↔ m = n) ∧
      leadingInt s.toList = max (-(2 ^ 63 - 1)) (min n (2 ^ 63 - 1)) ∧
      ∃ w : Int64, leadingWord? s = some w ∧ w.toInt = leadingInt s.toList := by
  obtain ⟨n, leads, unique⟩ := existsUnique_leads s.toList
  refine ⟨n, fun m => ⟨unique m, ?_⟩, leads.leadingInt_eq, exists_leadingWord? s⟩
  rintro rfl
  exact leads

example : leadingWord? "\u3000-99999999999999999999é1" = some (-.maxValue) := by decide +kernel

end RowStore.Text
