import RowStore.Proofs.Sql.Segments
import RowStore.Proofs.Text.Clip

namespace RowStore.Sql

/-- Every semicolon of a text is a token where it stands. -/
def SemicolonTokens (cs : List Char) : Prop :=
  ∀ before after, cs = before ++ ';' :: after →
    ∃ t, .ok t ∈ scanChars cs ∧ t.kind = .semicolon ∧ t.span.start = Text.byteSize before

section Decision

def Item.isSemicolonAt (n : Nat) : Item → Bool
  | .ok t => t.kind == .semicolon && t.span.start == n
  | .error _ => false

theorem exists_isSemicolonAt {n : Nat} {items : List Item} :
    (∃ i ∈ items, i.isSemicolonAt n = true) ↔
      ∃ t, .ok t ∈ items ∧ t.kind = .semicolon ∧ t.span.start = n := by
  constructor
  · rintro ⟨i, mem, semicolon⟩
    cases i with
    | error e => cases semicolon
    | ok t => exact ⟨t, mem, by simpa [Item.isSemicolonAt] using semicolon⟩
  · rintro ⟨t, mem, kind, place⟩
    exact ⟨.ok t, mem, by simp [Item.isSemicolonAt, kind, place]⟩

theorem semicolonTokens_iff {cs : List Char} : SemicolonTokens cs ↔
    ∀ n < cs.length, cs[n]? = some ';' →
      ∃ i ∈ scanChars cs, i.isSemicolonAt (Text.byteSize (cs.take n)) = true := by
  simp only [exists_isSemicolonAt]
  constructor
  · intro h n inside here
    obtain ⟨_, char⟩ := List.getElem?_eq_some_iff.1 here
    apply h (cs.take n) (cs.drop (n + 1))
    rw [← char, ← List.drop_eq_getElem_cons inside, List.take_append_drop]
  · rintro h before after rfl
    simpa using h before.length (by simp) (by simp)

instance (cs : List Char) : Decidable (SemicolonTokens cs) := decidable_of_iff' _ semicolonTokens_iff

example : SemicolonTokens "USE d;; @;".toList ∧ ¬SemicolonTokens "SELECT ';".toList := by
  decide +kernel

end Decision

section Places

theorem start_of_itemAt {pos : Nat} {c : Char} {cs : List Char} {t : Token}
    (h : itemAt pos c cs = .ok t) : t.span.start = pos := by
  rw [itemAt] at h
  split at h
  · cases h
    rfl
  · split at h <;> cases h

theorem exists_place {pos skip : Nat} {cs : List Char} {i : Item} (h : i ∈ scanFrom pos skip cs) :
    ∃ before c rest, cs = before ++ c :: rest ∧ skip ≤ before.length ∧
      i = itemAt (pos + Text.byteSize before) c rest := by
  induction cs generalizing pos skip with
  | nil => simp [scanFrom] at h
  | cons c cs ih =>
    have further {skip' : Nat} (fits : skip ≤ skip' + 1)
        (h : i ∈ scanFrom (pos + c.utf8Size) skip' cs) :
        ∃ before d rest, c :: cs = before ++ d :: rest ∧ skip ≤ before.length ∧
          i = itemAt (pos + Text.byteSize before) d rest := by
      obtain ⟨before, d, rest, rfl, enough, item⟩ := ih h
      refine ⟨c :: before, d, rest, rfl, Nat.le_trans fits (Nat.succ_le_succ enough), ?_⟩
      rw [Text.byteSize, ← Nat.add_assoc]
      exact item
    cases skip with
    | succ skip => exact further (Nat.le_refl _) h
    | zero =>
      rw [scanFrom] at h
      split at h
      · exact further (Nat.zero_le _) h
      · cases h with
        | head => exact ⟨[], c, cs, rfl, Nat.le_refl _, rfl⟩
        | tail _ h => exact further (Nat.zero_le _) h

theorem skip_le_of_token {pos skip : Nat} {before after : List Char} {t : Token}
    (h : .ok t ∈ scanFrom pos skip (before ++ after))
    (place : t.span.start = pos + Text.byteSize before) : skip ≤ before.length := by
  obtain ⟨before', c, rest, text, enough, item⟩ := exists_place h
  have start := start_of_itemAt item.symm
  obtain rfl : before = before' := Text.eq_of_byteSize text (by omega)
  exact enough

theorem start_lt_of_token {pos skip : Nat} {cs : List Char} {t : Token}
    (h : .ok t ∈ scanFrom pos skip cs) : t.span.start < pos + Text.byteSize cs := by
  obtain ⟨before, c, rest, rfl, -, item⟩ := exists_place h
  have start := start_of_itemAt item.symm
  have size := c.utf8Size_pos
  simp only [Text.byteSize_append, Text.byteSize]
  omega

end Places

theorem tailOf_cut {c stop : Char} {cs : List Char} (after : List Char)
    (h : (tailOf c (cs ++ stop :: after)).length ≤ cs.length) :
    tailOf c (cs ++ [stop]) = tailOf c (cs ++ stop :: after) := by
  obtain whole | ⟨tail, stop', rest, text, delimited⟩ := exists_delimited c (cs ++ stop :: after)
  · rw [whole, List.length_append, List.length_cons] at h
    omega
  · rw [text, delimited.tailOf_eq] at h ⊢
    have long : tail ++ [stop'] <+: cs ++ stop :: after := by
      rw [text]
      exact ⟨rest, by simp⟩
    have short : cs ++ [stop] <+: cs ++ stop :: after := ⟨after, by simp⟩
    obtain ⟨rest', part⟩ := List.prefix_of_prefix_length_le long short (by simpa using h)
    rw [← part, List.append_assoc, List.singleton_append, delimited.tailOf_eq]

theorem scanFrom_semicolon {pos skip : Nat} {before after : List Char} {t : Token}
    (h : .ok t ∈ scanFrom pos skip (before ++ ';' :: after))
    (place : t.span.start = pos + Text.byteSize before) :
    ∃ items, scanFrom pos skip (before ++ [';'])
      = items ++ [itemAt (pos + Text.byteSize before) ';' []] := by
  have outside := skip_le_of_token h place
  induction before generalizing pos skip with
  | nil =>
    obtain rfl : skip = 0 := Nat.le_zero.1 outside
    exact ⟨[], rfl⟩
  | cons c cs ih =>
    have next : pos + Text.byteSize (c :: cs) = pos + c.utf8Size + Text.byteSize cs := by
      rw [Text.byteSize, Nat.add_assoc]
    rw [next] at place ⊢
    cases skip with
    | succ skip => exact ih h place (Nat.le_of_succ_le_succ outside)
    | zero =>
      rw [List.cons_append, scanFrom] at h ⊢
      split at h
      · rename_i blank
        rw [if_pos blank]
        exact ih h place (Nat.zero_le _)
      · rename_i solid
        rw [if_neg solid]
        have behind : .ok t ∈ scanFrom (pos + c.utf8Size)
            (tailOf c (cs ++ ';' :: after)).length (cs ++ ';' :: after) := by
          obtain first | behind := List.mem_cons.1 h
          · have start := start_of_itemAt first.symm
            have size := c.utf8Size_pos
            omega
          · exact behind
        have inside := skip_le_of_token behind place
        obtain ⟨items, closed⟩ := ih behind place inside
        rw [tailOf_cut after inside, closed]
        exact ⟨_ :: items, rfl⟩

namespace SemicolonTokens

variable {before after : List Char}

theorem closed (h : SemicolonTokens (before ++ ';' :: after)) :
    Closed (scanChars (before ++ [';'])) := by
  obtain ⟨t, mem, -, place⟩ := h before after rfl
  rw [← Nat.zero_add (Text.byteSize before)] at place
  obtain ⟨items, closed⟩ := scanFrom_semicolon mem place
  intro i last
  obtain rfl : itemAt (0 + Text.byteSize before) ';' [] = i := by
    simpa [scanChars, closed] using last
  exact (isSemicolon_itemAt _ _ _).2 rfl

theorem behind (h : SemicolonTokens (before ++ ';' :: after)) : SemicolonTokens after := by
  have apart : scanChars ((before ++ [';']) ++ after) = scanChars (before ++ [';'])
      ++ (scanChars after).map (Item.shift (Text.byteSize (before ++ [';']))) := by
    have moved := scanFrom_shift (Text.byteSize (before ++ [';'])) 0 0 after
    rw [scanChars, scanFrom_append h.closed (Nat.zero_le _), Nat.zero_add]
    rw [Nat.zero_add] at moved
    exact congrArg _ moved
  rintro before' after' rfl
  obtain ⟨t, mem, kind, place⟩ := h (before ++ ';' :: before') after' (by simp)
  have text : before ++ ';' :: (before' ++ ';' :: after')
      = (before ++ [';']) ++ (before' ++ ';' :: after') := by simp
  have size : Text.byteSize (before ++ ';' :: before')
      = Text.byteSize (before ++ [';']) + Text.byteSize before' := by
    rw [← Text.byteSize_append]
    simp
  rw [text, apart, List.mem_append] at mem
  obtain first | second := mem
  · have early := start_lt_of_token first
    omega
  · obtain ⟨i, mem, item⟩ := List.mem_map.1 second
    cases i with
    | error e => cases item
    | ok t' =>
      cases item
      refine ⟨t', mem, kind, ?_⟩
      simp only [Token.relocate, Span.shift] at place
      omega

theorem parse_append (h : SemicolonTokens (before ++ ';' :: after)) :
    parse (String.ofList (before ++ ';' :: after))
      = parse (String.ofList (before ++ [';']))
        ++ (parse (String.ofList after)).map
          (Parsed.shift (Text.byteSize (before ++ [';']))) := by
  have closed : Closed (scan (String.ofList (before ++ [';']))) := by
    rw [scan, String.toList_ofList]
    exact h.closed
  have both := Sql.parse_append closed (String.ofList after)
  rw [← String.ofList_append, Text.utf8ByteSize_eq, String.toList_ofList] at both
  simpa using both

end SemicolonTokens

theorem scanFrom_of_allBlank (pos : Nat) {cs : List Char} (h : Text.allBlank cs = true) :
    scanFrom pos 0 cs = [] := by
  induction cs generalizing pos with
  | nil => rfl
  | cons c cs ih =>
    obtain ⟨blank, others⟩ : Text.isBlank c = true ∧ Text.allBlank cs = true := by
      simpa [Text.allBlank] using h
    rw [scanFrom, if_pos blank]
    exact ih _ others

theorem parse_of_allBlank {cs : List Char} (h : Text.allBlank cs = true) :
    parse (String.ofList cs) = [] := by
  rw [parse_eq_read, scan, scanChars, String.toList_ofList, scanFrom_of_allBlank 0 h]
  rfl

end RowStore.Sql
