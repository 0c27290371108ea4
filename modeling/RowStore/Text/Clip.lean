namespace RowStore.Text

def byteSize : List Char → Nat
  | [] => 0
  | c :: cs => c.utf8Size + byteSize cs

/-- The longest initial part of a text that takes at most `n` bytes and ends between characters. -/
def clip : Nat → List Char → List Char
  | _, [] => []
  | n, c :: cs => if c.utf8Size ≤ n then c :: clip (n - c.utf8Size) cs else []

/-- Names, numbers and strings keep at most this many bytes, in a statement and in a row. -/
def clipLimit : Nat := 63

def clipped (s : String) : String := String.ofList (clip clipLimit s.toList)

@[simp] theorem byteSize_append (a b : List Char) : byteSize (a ++ b) = byteSize a + byteSize b := by
  induction a with
  | nil => simp [byteSize]
  | cons c cs ih => simp [byteSize, ih, Nat.add_assoc]

theorem byteSize_clip_le (n : Nat) (cs : List Char) : byteSize (clip n cs) ≤ n := by
  induction cs generalizing n with
  | nil => simp [clip, byteSize]
  | cons c cs ih =>
    simp only [clip]
    split
    · have := ih (n - c.utf8Size)
      simp only [byteSize]
      omega
    · simp [byteSize]

theorem clip_isPrefix (n : Nat) (cs : List Char) : clip n cs <+: cs := by
  induction cs generalizing n with
  | nil => exact List.prefix_rfl
  | cons c cs ih =>
    simp only [clip]
    split
    · exact List.cons_prefix_cons.2 ⟨rfl, ih _⟩
    · exact List.nil_prefix

end RowStore.Text
