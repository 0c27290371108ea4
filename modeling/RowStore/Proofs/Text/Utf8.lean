import RowStore.Text.Clip
import RowStore.Text.Utf8

namespace RowStore.Text

section Ranges

variable {b x : UInt8}

theorem followers_one (h : b.toNat ≤ 0x7F) : followers b = some [] := by
  simp [followers, UInt8.le_iff_toNat_le, h]

theorem followers_two (h : 0xC2 ≤ b.toNat ∧ b.toNat ≤ 0xDF) :
    followers b = some [(0x80, 0xBF)] := by
  have above : ¬b.toNat ≤ 0x7F ∧ ¬b.toNat < 0xC2 := by omega
  simp [followers, UInt8.le_iff_toNat_le, UInt8.lt_iff_toNat_lt, above, h]

theorem followers_three (lead : 0xE0 ≤ b.toNat ∧ b.toNat ≤ 0xEF)
    (tail : 0x80 ≤ x.toNat ∧ x.toNat ≤ 0xBF) (low : b.toNat = 0xE0 → 0xA0 ≤ x.toNat)
    (high : b.toNat = 0xED → x.toNat ≤ 0x9F) :
    ∃ range, followers b = some [range, (0x80, 0xBF)] ∧ range.1 ≤ x ∧ x ≤ range.2 := by
  have above : ¬b ≤ 0x7F ∧ ¬b < 0xC2 ∧ ¬b ≤ 0xDF := by
    simp only [UInt8.le_iff_toNat_le, UInt8.lt_iff_toNat_lt, UInt8.reduceToNat]
    omega
  have below : b ≤ 0xEF := UInt8.le_iff_toNat_le.2 lead.2
  simp only [followers, above, below, if_false, if_true, UInt8.le_iff_toNat_le]
  split
  · rename_i eq
    exact ⟨_, rfl, low (congrArg UInt8.toNat eq), tail.2⟩
  · split
    · rename_i eq
      exact ⟨_, rfl, tail.1, high (congrArg UInt8.toNat eq)⟩
    · exact ⟨_, rfl, tail⟩

theorem followers_four (lead : 0xF0 ≤ b.toNat ∧ b.toNat ≤ 0xF4)
    (tail : 0x80 ≤ x.toNat ∧ x.toNat ≤ 0xBF) (low : b.toNat = 0xF0 → 0x90 ≤ x.toNat)
    (high : b.toNat = 0xF4 → x.toNat ≤ 0x8F) :
    ∃ range, followers b = some [range, (0x80, 0xBF), (0x80, 0xBF)] ∧
      range.1 ≤ x ∧ x ≤ range.2 := by
  have above : ¬b ≤ 0x7F ∧ ¬b < 0xC2 ∧ ¬b ≤ 0xDF ∧ ¬b = 0xE0 ∧ ¬b = 0xED ∧ ¬b ≤ 0xEF := by
    simp only [UInt8.le_iff_toNat_le, UInt8.lt_iff_toNat_lt, ← UInt8.toNat_inj,
      UInt8.reduceToNat]
    omega
  simp only [followers, above, if_false, UInt8.le_iff_toNat_le]
  split
  · rename_i eq
    exact ⟨_, rfl, low (congrArg UInt8.toNat eq), tail.2⟩
  · split
    · exact ⟨_, rfl, tail⟩
    · rename_i other more
      have last : b = 0xF4 := by
        rw [← UInt8.toNat_inj] at other ⊢
        simp only [UInt8.reduceToNat] at *
        omega
      rw [if_pos last]
      exact ⟨_, rfl, tail.1, high (congrArg UInt8.toNat last)⟩

theorem agreeing_cons {low high : UInt8} {rs : List (UInt8 × UInt8)} {bs : Bytes}
    (h : low ≤ x ∧ x ≤ high) : agreeing ((low, high) :: rs) (x :: bs) = agreeing rs bs + 1 := by
  rw [agreeing, if_pos h]

end Ranges

section Characters

def tailByte (n : Nat) : UInt8 := UInt8.ofNat (n % 64 + 128)

theorem toNat_tailByte (n : Nat) : (tailByte n).toNat = n % 64 + 128 := by
  rw [tailByte, UInt8.toNat_ofNat']
  omega

theorem tailByte_range (n : Nat) : 0x80 ≤ tailByte n ∧ tailByte n ≤ 0xBF := by
  simp only [UInt8.le_iff_toNat_le, toNat_tailByte, UInt8.reduceToNat]
  omega

variable {c : Char} {b : UInt8}

/-- A character is read when its bytes are in their ranges and write its number. -/
theorem readChar_eq {rs : List (UInt8 × UInt8)} (tail rest : Bytes)
    (lead : followers b = some rs) (agree : agreeing rs (tail ++ rest) = rs.length)
    (length : rs.length = tail.length)
    (number : tail.foldl (fun n x => n * 64 + x.toNat % 64) (payload b tail.length)
      = c.val.toNat) :
    readChar b (tail ++ rest) = (some c, tail.length) := by
  have back : Char.ofNat c.val.toNat = c := Char.ofNat_toNat c
  simp only [readChar, lead, agree, if_true, length]
  rw [List.take_left, number, back]

theorem readChar_one (rest : Bytes) (h : c.val.toNat ≤ 0x7F) :
    readChar (UInt8.ofNat c.val.toNat) rest = (some c, 0) := by
  have lead : (UInt8.ofNat c.val.toNat).toNat = c.val.toNat := by
    rw [UInt8.toNat_ofNat']
    omega
  exact readChar_eq [] rest (followers_one (by omega)) rfl rfl lead

theorem readChar_two (rest : Bytes) (h : 0x7F < c.val.toNat ∧ c.val.toNat ≤ 0x7FF) :
    readChar (UInt8.ofNat (c.val.toNat / 64 % 0x20 + 0xc0)) (tailByte c.val.toNat :: rest)
      = (some c, 1) := by
  have lead : (UInt8.ofNat (c.val.toNat / 64 % 0x20 + 0xc0)).toNat = c.val.toNat / 64 + 192 := by
    rw [UInt8.toNat_ofNat']
    omega
  apply readChar_eq [_] rest (followers_two (by omega)) ?_ rfl
  · simp only [List.foldl_cons, List.foldl_nil, List.length_cons, List.length_nil, payload, lead,
      toNat_tailByte]
    omega
  · rw [List.cons_append, agreeing_cons (tailByte_range _)]
    rfl

theorem readChar_three (rest : Bytes) (h : 0x7FF < c.val.toNat ∧ c.val.toNat ≤ 0xFFFF) :
    readChar (UInt8.ofNat (c.val.toNat / 4096 % 0x10 + 0xe0))
      (tailByte (c.val.toNat / 64) :: tailByte c.val.toNat :: rest) = (some c, 2) := by
  have scalar : c.val.toNat < 0xD800 ∨ 0xDFFF < c.val.toNat ∧ c.val.toNat < 0x110000 := c.valid
  have lead : (UInt8.ofNat (c.val.toNat / 4096 % 0x10 + 0xe0)).toNat
      = c.val.toNat / 4096 + 224 := by
    rw [UInt8.toNat_ofNat']
    omega
  have second := toNat_tailByte (c.val.toNat / 64)
  obtain ⟨range, ranges, first⟩ := followers_three
    (b := UInt8.ofNat (c.val.toNat / 4096 % 0x10 + 0xe0)) (x := tailByte (c.val.toNat / 64))
    (by omega) (by omega) (by omega) (by omega)
  apply readChar_eq [_, _] rest ranges ?_ rfl
  · simp only [List.foldl_cons, List.foldl_nil, List.length_cons, List.length_nil, payload, lead,
      toNat_tailByte]
    omega
  · rw [List.cons_append, agreeing_cons first, List.cons_append, agreeing_cons (tailByte_range _)]
    rfl

theorem readChar_four (rest : Bytes) (h : 0xFFFF < c.val.toNat) :
    readChar (UInt8.ofNat (c.val.toNat / 262144 % 0x08 + 0xf0))
      (tailByte (c.val.toNat / 4096) :: tailByte (c.val.toNat / 64) :: tailByte c.val.toNat :: rest)
      = (some c, 3) := by
  have scalar : c.val.toNat < 0xD800 ∨ 0xDFFF < c.val.toNat ∧ c.val.toNat < 0x110000 := c.valid
  have lead : (UInt8.ofNat (c.val.toNat / 262144 % 0x08 + 0xf0)).toNat
      = c.val.toNat / 262144 + 240 := by
    rw [UInt8.toNat_ofNat']
    omega
  have second := toNat_tailByte (c.val.toNat / 4096)
  obtain ⟨range, ranges, first⟩ := followers_four
    (b := UInt8.ofNat (c.val.toNat / 262144 % 0x08 + 0xf0)) (x := tailByte (c.val.toNat / 4096))
    (by omega) (by omega) (by omega) (by omega)
  apply readChar_eq [_, _, _] rest ranges ?_ rfl
  · simp only [List.foldl_cons, List.foldl_nil, List.length_cons, List.length_nil, payload, lead,
      toNat_tailByte]
    omega
  · rw [List.cons_append, agreeing_cons first, List.cons_append, agreeing_cons (tailByte_range _),
      List.cons_append, agreeing_cons (tailByte_range _)]
    rfl

theorem readChar_utf8EncodeChar (c : Char) :
    ∃ b tail, String.utf8EncodeChar c = b :: tail ∧
      ∀ rest, readChar b (tail ++ rest) = (some c, tail.length) := by
  rw [String.utf8EncodeChar]
  split
  · exact ⟨_, [], rfl, fun rest => readChar_one rest ‹_›⟩
  · split
    · exact ⟨_, [_], rfl, fun rest => readChar_two rest (by omega)⟩
    · split
      · exact ⟨_, [_, _], rfl, fun rest => readChar_three rest (by omega)⟩
      · exact ⟨_, [_, _, _], rfl, fun rest => readChar_four rest (by omega)⟩

end Characters

section Texts

theorem decodeFrom?_skip (skipped rest : Bytes) :
    decodeFrom? skipped.length (skipped ++ rest) = decodeFrom? 0 rest := by
  induction skipped with
  | nil => rfl
  | cons b bs ih => exact ih

theorem decodeLossyFrom_skip (skipped rest : Bytes) :
    decodeLossyFrom skipped.length (skipped ++ rest) = decodeLossyFrom 0 rest := by
  induction skipped with
  | nil => rfl
  | cons b bs ih => exact ih

theorem decode?_encode (cs : List Char) : decode? (encode cs) = some cs := by
  induction cs with
  | nil => rfl
  | cons c cs ih =>
    obtain ⟨b, tail, bytes, read⟩ := readChar_utf8EncodeChar c
    have all : encode (c :: cs) = b :: (tail ++ encode cs) := by
      rw [encode, List.flatMap_cons, bytes]
      rfl
    rw [decode?] at ih ⊢
    simp only [all, decodeFrom?, read, decodeFrom?_skip, ih, Option.map_some]

theorem decodeLossy_encode (cs : List Char) : decodeLossy (encode cs) = cs := by
  induction cs with
  | nil => rfl
  | cons c cs ih =>
    obtain ⟨b, tail, bytes, read⟩ := readChar_utf8EncodeChar c
    have all : encode (c :: cs) = b :: (tail ++ encode cs) := by
      rw [encode, List.flatMap_cons, bytes]
      rfl
    rw [decodeLossy] at ih ⊢
    simp only [all, decodeLossyFrom, read, decodeLossyFrom_skip, ih, Option.getD_some]

theorem length_encode (cs : List Char) : (encode cs).length = byteSize cs := by
  induction cs with
  | nil => rfl
  | cons c cs ih =>
    rw [encode, List.flatMap_cons, List.length_append, String.length_utf8EncodeChar, byteSize, ← ih]
    rfl

theorem utf8ByteSize_eq (s : String) : s.utf8ByteSize = byteSize s.toList := by
  rw [← length_encode, encode, ← List.size_toByteArray, ← List.utf8Encode,
    ← String.toByteArray_ofList, String.ofList_toList]
  rfl

theorem utf8EncodeChar_cases (c : Char) : ∃ b tail, String.utf8EncodeChar c = b :: tail ∧
    (b.toNat = c.toNat ∧ tail = [] ∨ 128 ≤ c.toNat ∧ 128 ≤ b.toNat) := by
  have byte {n : Nat} (high : n < 256) : (UInt8.ofNat n).toNat = n := by
    rw [UInt8.toNat_ofNat', Nat.mod_eq_of_lt high]
  have number : c.toNat = c.val.toNat := rfl
  rw [String.utf8EncodeChar]
  split
  · exact ⟨_, _, rfl, .inl ⟨byte (by omega), rfl⟩⟩
  · split
    · exact ⟨_, _, rfl, .inr ⟨by omega, by rw [byte (by omega)]; omega⟩⟩
    · split
      · exact ⟨_, _, rfl, .inr ⟨by omega, by rw [byte (by omega)]; omega⟩⟩
      · exact ⟨_, _, rfl, .inr ⟨by omega, by rw [byte (by omega)]; omega⟩⟩

theorem utf8EncodeChar_ne_zero {c : Char} (h : c ≠ '\x00') {b : UInt8}
    (mem : b ∈ String.utf8EncodeChar c) : b ≠ 0 := by
  have code : c.val.toNat ≠ 0 := by
    intro zero
    exact h (Char.ext (UInt32.toNat_inj.1 zero))
  have byte {n : Nat} (low : 0 < n) (high : n < 256) : UInt8.ofNat n ≠ 0 := by
    rw [ne_eq, ← UInt8.toNat_inj, UInt8.toNat_ofNat', UInt8.toNat_zero]
    omega
  rw [String.utf8EncodeChar] at mem
  split at mem
  · simp only [List.mem_cons, List.not_mem_nil, or_false] at mem
    exact mem ▸ byte (by omega) (by omega)
  · split at mem
    · simp only [List.mem_cons, List.not_mem_nil, or_false] at mem
      rcases mem with rfl | rfl <;> exact byte (by omega) (by omega)
    · split at mem
      · simp only [List.mem_cons, List.not_mem_nil, or_false] at mem
        rcases mem with rfl | rfl | rfl <;> exact byte (by omega) (by omega)
      · simp only [List.mem_cons, List.not_mem_nil, or_false] at mem
        rcases mem with rfl | rfl | rfl | rfl <;> exact byte (by omega) (by omega)

/-- What is written and filled up with zero bytes is, up to the first zero byte, the text up to its
first NUL. -/
theorem takeWhile_encode (cs : List Char) (n : Nat) :
    (encode cs ++ List.replicate n 0).takeWhile (· ≠ 0) = encode (cs.takeWhile (· ≠ '\x00')) := by
  induction cs with
  | nil => cases n <;> simp [encode, List.replicate_succ]
  | cons c cs ih =>
    by_cases nul : c = '\x00'
    · subst nul
      rfl
    · rw [List.takeWhile_cons_of_pos (by simpa using nul), encode, List.flatMap_cons, encode,
        List.flatMap_cons, List.append_assoc, List.takeWhile_append_of_pos, ← encode, ih, ← encode]
      intro b mem
      simpa using utf8EncodeChar_ne_zero nul mem

end Texts

end RowStore.Text
