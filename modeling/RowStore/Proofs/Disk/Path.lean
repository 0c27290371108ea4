import RowStore.Disk.Files
import RowStore.Proofs.Text.Utf8

namespace RowStore.Path

section Pieces

variable {cs ds : List Char}

theorem pieces_of_not_mem (h : '/' ∉ cs) : pieces cs = [cs] := by
  induction cs with
  | nil => rfl
  | cons c cs ih =>
    rw [List.mem_cons, not_or] at h
    rw [pieces, if_neg (Ne.symm h.1), ih h.2]

theorem pieces_append_slash (cs ds : List Char) :
    pieces (cs ++ '/' :: ds) = pieces cs ++ pieces ds := by
  induction cs with
  | nil => simp [pieces]
  | cons c cs ih =>
    rw [List.cons_append, pieces, pieces]
    split
    · rw [ih, List.cons_append]
    · rw [ih]
      cases first : pieces cs with
      | nil => exact absurd first (pieces_ne_nil cs)
      | cons p ps => rfl

theorem not_mem_of_mem_pieces {p : List Char} (h : p ∈ pieces cs) : '/' ∉ p := by
  induction cs generalizing p with
  | nil =>
    rw [pieces, List.mem_singleton] at h
    simp [h]
  | cons c cs ih =>
    rw [pieces] at h
    split at h
    · cases h with
      | head => simp
      | tail _ h => exact ih h
    · rename_i other
      cases first : pieces cs with
      | nil => exact absurd first (pieces_ne_nil cs)
      | cons q qs =>
        rw [first] at h ih
        cases h with
        | head =>
          rw [List.mem_cons, not_or]
          exact ⟨Ne.symm other, ih List.mem_cons_self⟩
        | tail _ h => exact ih (List.mem_cons_of_mem _ h)

theorem mem_of_mem_pieces {p : List Char} {c : Char} (h : p ∈ pieces cs) (hc : c ∈ p) : c ∈ cs := by
  induction cs generalizing p with
  | nil =>
    rw [pieces, List.mem_singleton] at h
    simp [h] at hc
  | cons d cs ih =>
    rw [pieces] at h
    split at h
    · cases h with
      | head => cases hc
      | tail _ h => exact List.mem_cons_of_mem _ (ih h hc)
    · cases first : pieces cs with
      | nil => exact absurd first (pieces_ne_nil cs)
      | cons q qs =>
        rw [first] at h ih
        cases h with
        | head =>
          cases hc with
          | head => exact List.mem_cons_self
          | tail _ hc => exact List.mem_cons_of_mem _ (ih List.mem_cons_self hc)
        | tail _ h => exact List.mem_cons_of_mem _ (ih (List.mem_cons_of_mem _ h) hc)

end Pieces

structure Plain (name : String) : Prop where
  some_ : name.toList ≠ []
  slash : '/' ∉ name.toList
  nul : '\x00' ∉ name.toList
  dot : name ≠ "."
  dots : name ≠ ".."
  short : name.utf8ByteSize ≤ Tree.nameLimit

section Join

variable {p : Path} {name : String}

theorem not_isAbsolute (slash : '/' ∉ name.toList) : ¬isAbsolute ⟨name⟩ = true := by
  intro top
  rw [isAbsolute, beq_iff_eq] at top
  exact slash (List.mem_of_mem_head? top)

theorem exists_join (p : Path) (slash : '/' ∉ name.toList) :
    ∃ gap, (p.join name).text.toList = p.text.toList ++ gap ++ name.toList ∧
      (gap = [] ∧ (p.text.toList = [] ∨ p.text.toList.getLast? = some '/') ∨
        gap = ['/'] ∧ p.text.toList ≠ []) := by
  rw [join, if_neg (not_isAbsolute slash)]
  split
  · rename_i close
    exact ⟨[], by simp, .inl ⟨rfl, close⟩⟩
  · rename_i far
    exact ⟨['/'], by simp, .inr ⟨rfl, (not_or.1 far).1⟩⟩

theorem steps_join (h : Plain name) (p : Path) : (p.join name).steps = p.steps ++ [name] := by
  have alone : (pieces name.toList).filter (· ≠ []) = [name.toList] := by
    rw [pieces_of_not_mem h.slash]
    simp [h.some_]
  have last (cs : List Char) : (pieces (cs ++ '/' :: name.toList)).filter (· ≠ [])
      = (pieces cs).filter (· ≠ []) ++ [name.toList] := by
    rw [pieces_append_slash, List.filter_append, alone]
  obtain ⟨gap, text, ⟨rfl, nothing | slash⟩ | ⟨rfl, -⟩⟩ := exists_join p h.slash
  · rw [steps, steps, text, nothing, List.nil_append, List.nil_append, alone]
    simp [pieces]
  · obtain ⟨cs, ending⟩ := List.getLast?_eq_some_iff.1 slash
    have before : (pieces (cs ++ ['/'])).filter (· ≠ []) = (pieces cs).filter (· ≠ []) := by
      rw [pieces_append_slash, List.filter_append]
      simp [pieces]
    rw [steps, steps, text, ending, before, List.append_nil, List.append_assoc,
      List.singleton_append, last, List.map_append]
    simp
  · rw [steps, steps, text, List.append_assoc, List.singleton_append, last, List.map_append]
    simp

theorem isAbsolute_join (h : Plain name) (p : Path) : (p.join name).isAbsolute = p.isAbsolute := by
  have first : name.toList.head? ≠ some '/' := fun top => h.slash (List.mem_of_mem_head? top)
  obtain ⟨gap, text, ⟨rfl, nothing | slash⟩ | ⟨rfl, some_⟩⟩ := exists_join p h.slash
  · rw [isAbsolute, isAbsolute, text, nothing]
    simpa using first
  · cases chars : p.text.toList with
    | nil => simp [chars] at slash
    | cons c cs => simp [isAbsolute, text, chars]
  · cases chars : p.text.toList with
    | nil => exact absurd chars some_
    | cons c cs => simp [isAbsolute, text, chars]

theorem namesDirectory_join (h : Plain name) (p : Path) : (p.join name).namesDirectory = false := by
  have last : name.toList.getLast? ≠ some '/' := fun mem => h.slash (List.mem_of_getLast? mem)
  obtain ⟨gap, text, -⟩ := exists_join p h.slash
  cases ending : name.toList.getLast? with
  | none => exact absurd (List.getLast?_eq_none_iff.1 ending) h.some_
  | some c =>
    rw [ending] at last
    simpa [namesDirectory, text, ending] using last

theorem nul_not_mem_join (h : Plain name) (free : '\x00' ∉ p.text.toList) :
    '\x00' ∉ (p.join name).text.toList := by
  obtain ⟨gap, text, ⟨rfl, -⟩ | ⟨rfl, -⟩⟩ := exists_join p h.slash
  · simp [text, free, h.nul]
  · simp [text, free, h.nul]

theorem utf8ByteSize_add_le_join (h : Plain name) (p : Path) :
    p.text.utf8ByteSize + name.utf8ByteSize ≤ (p.join name).text.utf8ByteSize := by
  obtain ⟨gap, text, -⟩ := exists_join p h.slash
  simp only [Text.utf8ByteSize_eq]
  rw [text, Text.byteSize_append, Text.byteSize_append]
  omega

theorem utf8ByteSize_le_join (h : Plain name) (p : Path) :
    p.text.utf8ByteSize ≤ (p.join name).text.utf8ByteSize :=
  Nat.le_trans (Nat.le_add_right _ _) (utf8ByteSize_add_le_join h p)

theorem utf8ByteSize_join_le_join {other : String} (h : Plain name) (h' : Plain other) (p : Path)
    (le : name.utf8ByteSize ≤ other.utf8ByteSize) :
    (p.join name).text.utf8ByteSize ≤ (p.join other).text.utf8ByteSize := by
  rw [join, if_neg (not_isAbsolute h.slash), join, if_neg (not_isAbsolute h'.slash)]
  split
  · simpa only [String.utf8ByteSize_append] using Nat.add_le_add_left le _
  · simpa only [String.utf8ByteSize_append] using Nat.add_le_add_left le _

theorem utf8ByteSize_join (h : Plain name) (p : Path) :
    (p.join name).text.utf8ByteSize ≤ p.text.utf8ByteSize + 1 + name.utf8ByteSize := by
  have slash : '/'.utf8Size = 1 := rfl
  simp only [Text.utf8ByteSize_eq]
  obtain ⟨gap, text, ⟨rfl, -⟩ | ⟨rfl, -⟩⟩ := exists_join p h.slash
  · rw [text]
    simp only [Text.byteSize_append, Text.byteSize]
    omega
  · rw [text]
    simp only [Text.byteSize_append, Text.byteSize]
    omega

end Join

section Respelling

def respelled (p : Path) : Path := ⟨p.lead ++ "/".intercalate p.steps⟩

variable {p : Path} {ps : List (List Char)}

theorem pieces_intercalate (some_ : ps ≠ []) (h : ∀ q ∈ ps, '/' ∉ q) :
    pieces (['/'].intercalate ps) = ps := by
  induction ps with
  | nil => exact absurd rfl some_
  | cons q ps ih =>
    have first := pieces_of_not_mem (h q List.mem_cons_self)
    cases ps with
    | nil => simpa using first
    | cons r ps =>
      rw [List.intercalate_cons_cons, List.append_assoc, List.singleton_append,
        pieces_append_slash, first, ih (by simp) fun x mem => h x (List.mem_cons_of_mem _ mem)]
      rfl

def weight : List (List Char) → Nat
  | [] => 0
  | q :: ps => Text.byteSize q + 1 + weight ps

theorem weight_pieces (cs : List Char) : weight (pieces cs) = Text.byteSize cs + 1 := by
  induction cs with
  | nil => rfl
  | cons c cs ih =>
    rw [pieces]
    split
    · rename_i slash
      have size : '/'.utf8Size = 1 := rfl
      rw [weight, ih, slash]
      simp only [Text.byteSize, size]
      omega
    · cases first : pieces cs with
      | nil => exact absurd first (pieces_ne_nil cs)
      | cons q qs =>
        rw [first] at ih
        simp only [weight, Text.byteSize] at ih ⊢
        omega

theorem weight_filter_le (ps : List (List Char)) : weight (ps.filter (· ≠ [])) ≤ weight ps := by
  induction ps with
  | nil => exact Nat.le_refl _
  | cons q ps ih =>
    rw [List.filter_cons]
    split
    · simp only [weight] at ih ⊢
      omega
    · simp only [weight] at ih ⊢
      omega

theorem byteSize_intercalate (some_ : ps ≠ []) :
    Text.byteSize (['/'].intercalate ps) + 1 = weight ps := by
  induction ps with
  | nil => exact absurd rfl some_
  | cons q ps ih =>
    cases ps with
    | nil => simp [weight]
    | cons r ps =>
      have size : '/'.utf8Size = 1 := rfl
      have others := ih (by simp)
      rw [List.intercalate_cons_cons]
      simp only [weight, Text.byteSize_append, Text.byteSize, size] at others ⊢
      omega

theorem map_toList_steps (p : Path) :
    p.steps.map String.toList = (pieces p.text.toList).filter (· ≠ []) := by
  simp [steps, Function.comp_def]

theorem toList_respelled (p : Path) : p.respelled.text.toList
    = p.lead.toList ++ ['/'].intercalate ((pieces p.text.toList).filter (· ≠ [])) := by
  rw [respelled, String.toList_append, String.toList_intercalate, map_toList_steps]
  rfl

theorem utf8ByteSize_respelled_le (some_ : p.steps ≠ []) :
    p.respelled.text.utf8ByteSize ≤ p.text.utf8ByteSize := by
  have more : (pieces p.text.toList).filter (· ≠ []) ≠ [] := by
    rw [← map_toList_steps]
    simpa using some_
  have inner := byteSize_intercalate more
  have filtered := weight_filter_le (pieces p.text.toList)
  rw [Text.utf8ByteSize_eq, Text.utf8ByteSize_eq, toList_respelled, Text.byteSize_append, lead]
  split
  · rename_i top
    rw [isAbsolute, beq_iff_eq] at top
    obtain ⟨cs, chars⟩ := List.head?_eq_some_iff.1 top
    have slash : Text.byteSize "/".toList = 1 := rfl
    have first : pieces ('/' :: cs) = [] :: pieces cs := by simp [pieces]
    have rest := weight_filter_le (pieces cs)
    rw [chars, first, List.filter_cons_of_neg (by simp)] at inner ⊢
    rw [weight_pieces] at rest
    rw [Text.byteSize, slash]
    have size : '/'.utf8Size = 1 := rfl
    omega
  · rw [weight_pieces] at filtered
    have nothing : Text.byteSize "".toList = 0 := rfl
    omega

theorem steps_respelled (some_ : p.steps ≠ []) : p.respelled.steps = p.steps := by
  have more : (pieces p.text.toList).filter (· ≠ []) ≠ [] := by
    rw [← map_toList_steps]
    simpa using some_
  have inner : pieces (['/'].intercalate ((pieces p.text.toList).filter (· ≠ [])))
      = (pieces p.text.toList).filter (· ≠ []) :=
    pieces_intercalate more fun q mem => not_mem_of_mem_pieces (List.mem_filter.1 mem).1
  have twice (ps : List (List Char)) : (ps.filter (· ≠ [])).filter (· ≠ []) = ps.filter (· ≠ []) :=
    List.filter_filter.trans (by simp)
  -- The slash at the top makes an empty piece, and an empty piece is no step.
  rw [steps, toList_respelled, lead]
  split
  · have top : "/".toList ++ ['/'].intercalate ((pieces p.text.toList).filter (· ≠ []))
        = '/' :: ['/'].intercalate ((pieces p.text.toList).filter (· ≠ [])) := rfl
    rw [top, pieces, if_pos rfl, inner, List.filter_cons_of_neg (by simp), twice, steps]
  · have nothing : "".toList ++ ['/'].intercalate ((pieces p.text.toList).filter (· ≠ []))
        = ['/'].intercalate ((pieces p.text.toList).filter (· ≠ [])) := rfl
    rw [nothing, inner, twice, steps]

theorem isAbsolute_respelled (some_ : p.steps ≠ []) : p.respelled.isAbsolute = p.isAbsolute := by
  cases top : p.isAbsolute with
  | true =>
    have slash : p.lead.toList = ['/'] := by simp [lead, top]
    rw [isAbsolute, toList_respelled, slash]
    rfl
  | false =>
    have relative : p.lead.toList = [] := by simp [lead, top]
    rw [isAbsolute, toList_respelled, relative, List.nil_append]
    cases first : (pieces p.text.toList).filter (· ≠ []) with
    | nil =>
      rw [← map_toList_steps] at first
      exact absurd (List.map_eq_nil_iff.1 first) some_
    | cons q qs =>
      have mem : q ∈ (pieces p.text.toList).filter (· ≠ []) := first ▸ List.mem_cons_self
      obtain ⟨piece, solid⟩ := List.mem_filter.1 mem
      have slash := not_mem_of_mem_pieces piece
      cases q with
      | nil => simp at solid
      | cons c cs =>
        have other : c ≠ '/' := fun eq => slash (eq ▸ List.mem_cons_self)
        cases qs with
        | nil => simpa using other
        | cons r qs => simpa using other

theorem exists_of_mem_intercalate {c : Char} (h : c ∈ ['/'].intercalate ps) :
    c = '/' ∨ ∃ q ∈ ps, c ∈ q := by
  induction ps with
  | nil => cases h
  | cons q ps ih =>
    cases ps with
    | nil => exact .inr ⟨q, List.mem_cons_self, by simpa using h⟩
    | cons r ps =>
      rw [List.intercalate_cons_cons, List.mem_append, List.mem_append, List.mem_singleton] at h
      rcases h with (first | slash) | rest
      · exact .inr ⟨q, List.mem_cons_self, first⟩
      · exact .inl slash
      · rcases ih rest with slash | ⟨x, mem, inside⟩
        · exact .inl slash
        · exact .inr ⟨x, List.mem_cons_of_mem _ mem, inside⟩

theorem nul_not_mem_respelled (free : '\x00' ∉ p.text.toList) :
    '\x00' ∉ p.respelled.text.toList := by
  have leads : '\x00' ∉ p.lead.toList := by
    rw [lead]
    split <;> decide
  rw [toList_respelled, List.mem_append]
  rintro (before | behind)
  · exact leads before
  · rcases exists_of_mem_intercalate behind with slash | ⟨q, mem, inside⟩
    · cases slash
    · exact free (mem_of_mem_pieces (List.mem_filter.1 mem).1 inside)

end Respelling

section Extensions

variable {before after : List Char}

theorem cutName_append (before : List Char) (last : '.' ∉ after) :
    cutName (before ++ '.' :: after)
      = if before = [] then ('.' :: after, none) else (before, some after) := by
  have inner : ∀ c ∈ after.reverse, decide (c ≠ '.') = true := by
    intro c mem
    exact decide_eq_true fun dot => last (dot ▸ List.mem_reverse.1 mem)
  have behind : ((before ++ '.' :: after).reverse.takeWhile (· ≠ '.')).reverse = after := by
    rw [List.reverse_append, List.reverse_cons, List.append_assoc,
      List.takeWhile_append_of_pos inner]
    simp
  have length : (before ++ '.' :: after).length - after.length - 1 = before.length := by
    simp only [List.length_append, List.length_cons]
    omega
  have dot : '.' ∈ before ++ '.' :: after := by simp
  simp only [cutName, behind, length, List.take_left, dot, not_true_eq_false, false_or]
  split
  · rename_i nothing
    rw [nothing, List.nil_append]
  · rfl

theorem exists_last_dot {cs : List Char} (h : '.' ∈ cs) :
    ∃ before after, cs = before ++ '.' :: after ∧ '.' ∉ after := by
  induction cs with
  | nil => cases h
  | cons c cs ih =>
    by_cases later : '.' ∈ cs
    · obtain ⟨before, after, rfl, last⟩ := ih later
      exact ⟨c :: before, after, rfl, last⟩
    · cases h with
      | head => exact ⟨[], cs, rfl, later⟩
      | tail _ h => exact absurd h later

theorem eq_of_stem? {ext name stem : String} (h : stem? ext name = some stem) :
    name.toList = stem.toList ++ '.' :: ext.toList := by
  rw [stem?] at h
  by_cases dot : '.' ∈ name.toList
  · obtain ⟨before, after, chars, last⟩ := exists_last_dot dot
    rw [chars, cutName_append before last] at h
    by_cases nothing : before = []
    · simp [nothing] at h
    · rw [if_neg nothing] at h
      simp only [Option.some.injEq, Option.ite_none_right_eq_some] at h
      obtain ⟨rfl, rfl⟩ := h
      rw [chars, String.toList_ofList]
  · have whole : cutName name.toList = (name.toList, none) := by simp [cutName, dot]
    simp [whole] at h

end Extensions

end RowStore.Path
