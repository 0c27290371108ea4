import Mathlib.Data.List.Induction
import RowStore.Proofs.Sql.Partition
import RowStore.Proofs.Text.Clip

namespace RowStore.Sql

def quoteStep : Option Char → Char → Option Char
  | none, c => if c = '\'' ∨ c = '"' then some c else none
  | some quote, c => if c = quote then none else some quote

/-- The quote that is open at the end of a text. -/
def openQuote? (cs : List Char) : Option Char := cs.foldl quoteStep none

def EndsOpen (cs : List Char) : Prop := ∃ span, .error (.unterminatedString span) ∈ scanChars cs

section Steps

variable {quote : Char} {cs : List Char}

theorem openQuote?_append {a : List Char} (h : openQuote? a = none) (b : List Char) :
    openQuote? (a ++ b) = openQuote? b := by
  rw [openQuote?, List.foldl_append, ← openQuote?, h, openQuote?]

theorem openQuote?_concat (cs : List Char) (c : Char) :
    openQuote? (cs ++ [c]) = quoteStep (openQuote? cs) c := by
  rw [openQuote?, List.foldl_append, ← openQuote?]
  rfl

theorem openQuote?_of_plain (plain : ∀ c ∈ cs, c ≠ '\'' ∧ c ≠ '"') : openQuote? cs = none := by
  induction cs with
  | nil => rfl
  | cons c cs ih =>
    obtain ⟨here, others⟩ := List.forall_mem_cons.1 plain
    have step : openQuote? [c] = none := if_neg (by simp [here.1, here.2])
    exact (openQuote?_append step cs).trans (ih others)

theorem openQuote?_quoted (sort : quote = '\'' ∨ quote = '"') (absent : quote ∉ cs) :
    openQuote? (quote :: cs) = some quote := by
  induction cs using List.reverseRecOn with
  | nil => exact if_pos sort
  | append_singleton cs c ih =>
    obtain ⟨before, here⟩ := List.forall_mem_append.1 (List.forall_mem_ne'.2 absent)
    have other : c ≠ quote := here c List.mem_cons_self
    rw [← List.cons_append, openQuote?_concat, ih (List.forall_mem_ne'.1 before)]
    exact if_neg other

theorem openQuote?_string (sort : quote = '\'' ∨ quote = '"') (absent : quote ∉ cs) :
    openQuote? (quote :: (cs ++ [quote])) = none := by
  rw [← List.cons_append, openQuote?_concat, openQuote?_quoted sort absent]
  exact if_pos rfl

theorem quote_of_openQuote? (h : openQuote? cs = some quote) : quote = '\'' ∨ quote = '"' := by
  induction cs using List.reverseRecOn with
  | nil => cases h
  | append_singleton cs c ih =>
    rw [openQuote?_concat] at h
    cases before : openQuote? cs with
    | none =>
      rw [before, quoteStep, Option.ite_none_right_eq_some] at h
      obtain ⟨sort, eq⟩ := h
      cases eq
      exact sort
    | some opened =>
      rw [before, quoteStep, Option.ite_none_left_eq_some] at h
      exact ih (before.trans h.2)

@[simp] theorem openQuote?_semicolon (cs : List Char) :
    openQuote? (cs ++ [';']) = openQuote? cs := by
  rw [openQuote?_concat]
  cases before : openQuote? cs with
  | none => rfl
  | some quote =>
    refine if_neg ?_
    rintro rfl
    cases quote_of_openQuote? before <;> contradiction

theorem openQuote?_of_allBlank (h : Text.allBlank cs = true) : openQuote? cs = none := by
  apply openQuote?_of_plain
  intro c mem
  have blank : Text.isBlank c = true := List.all_eq_true.1 h c mem
  constructor <;> rintro rfl <;> cases blank

end Steps

section Tokens

variable {k : Kind} {chars : List Char}

theorem plain_of_isWordChar {c : Char} (h : isWordChar c = true) :
    c ≠ '\'' ∧ c ≠ '"' ∧ c ≠ ';' := by
  refine ⟨?_, ?_, ?_⟩ <;> rintro rfl <;> cases h

theorem Kind.Spells.plain (h : k.Spells chars) (other : k ≠ .string) :
    ∀ c ∈ chars, c ≠ '\'' ∧ c ≠ '"' ∧ (c = ';' → k = .semicolon ∧ chars = [';']) := by
  have word {c : Char} (h : isWordChar c = true) :
      c ≠ '\'' ∧ c ≠ '"' ∧ (c = ';' → k = .semicolon ∧ chars = [';']) :=
    (plain_of_isWordChar h).imp_right (And.imp_right fun no eq => absurd eq no)
  have letter {c : Char} (h : c.isAlpha = true) : isWordChar c = true := by
    simp [isWordChar, Char.isAlphanum, h]
  have digit {c : Char} (h : c.isDigit = true) : isWordChar c = true := by
    simp [isWordChar, Char.isAlphanum, h]
  cases h with
  | keyword spelt => exact fun c mem => word (letter (Keyword.isAlpha_of_spelt spelt c mem))
  | identifier first others =>
    exact List.forall_mem_cons.2
      ⟨word (letter first), fun c mem => word (isWordChar_iff.2 (others c mem))⟩
  | whole _ digits => exact fun c mem => word (digit (digits c mem))
  | fraction _ digits others =>
    refine List.forall_mem_append.2 ⟨fun c mem => word (digit (digits c mem)), ?_⟩
    refine List.forall_mem_cons.2 ⟨⟨by decide, by decide, fun eq => absurd eq (by decide)⟩, ?_⟩
    exact fun c mem => word (digit (others c mem))
  | string => exact absurd rfl other
  | _ => simp

theorem Kind.Spells.openQuote?_eq (h : k.Spells chars) : openQuote? chars = none := by
  by_cases sort : k = .string
  · subst sort
    cases h with
    | string sort absent => exact openQuote?_string sort absent
  · exact openQuote?_of_plain fun c mem => ⟨(h.plain sort c mem).1, (h.plain sort c mem).2.1⟩

end Tokens

section Items

variable {i : Item} {chars inner more after : List Char}

theorem eq_of_append_cons_eq_singleton {c d : Char} (h : inner ++ c :: more = [d]) :
    inner = [] ∧ c = d := by
  cases inner with
  | nil => exact ⟨rfl, (List.cons.inj h).1⟩
  | cons b inner => simp at h

theorem openQuote?_inside {quote : Char} {content : List Char} (sort : quote = '\'' ∨ quote = '"')
    (absent : quote ∉ content) (text : quote :: content = inner ++ ';' :: more) :
    openQuote? inner = some quote := by
  cases inner with
  | nil =>
    cases text
    cases sort <;> contradiction
  | cons c inner =>
    cases text
    exact openQuote?_quoted sort fun mem => absent (List.mem_append_left _ mem)

/-- A semicolon in an item is the item, unless a string is open there. -/
theorem Item.Takes.semicolon_iff (h : i.Takes (inner ++ ';' :: more) after) :
    openQuote? inner = none ↔ inner = [] ∧ i.isSemicolon = true := by
  cases i with
  | ok t =>
    obtain ⟨-, spelt, -⟩ := h
    by_cases sort : t.kind = .string
    · rw [sort] at spelt
      generalize text : inner ++ ';' :: more = chars at spelt
      cases spelt with
      | @string quote content quotes absent =>
        obtain ⟨more', inside⟩ | ⟨inner', -, last⟩ :=
          exists_of_append_eq_append_cons (a := quote :: content) text.symm
        · simp [openQuote?_inside quotes absent inside, isSemicolon, sort]
        · obtain rfl := (eq_of_append_cons_eq_singleton last.symm).2
          cases quotes <;> contradiction
    · obtain ⟨-, -, semicolon⟩ := spelt.plain sort ';' (by simp)
      obtain ⟨kind, text⟩ := semicolon rfl
      obtain rfl := (eq_of_append_cons_eq_singleton text).1
      simp [isSemicolon, kind, openQuote?]
  | error e =>
    cases e with
    | unexpectedChar c position =>
      obtain ⟨text, -, none_⟩ := h
      obtain rfl := (eq_of_append_cons_eq_singleton text).2
      exact absurd .semicolon (none_ .semicolon [])
    | unterminatedString span =>
      obtain ⟨-, quote, content, quotes, absent, text⟩ := h
      simp [openQuote?_inside quotes absent text.symm, isSemicolon]

theorem Item.Takes.openQuote?_iff (h : i.Takes chars after) :
    openQuote? chars = none ↔ ∀ span, i ≠ .error (.unterminatedString span) := by
  cases i with
  | ok t =>
    obtain ⟨-, spelt, -⟩ := h
    simp [spelt.openQuote?_eq]
  | error e =>
    cases e with
    | unexpectedChar c position =>
      obtain ⟨rfl, -, none_⟩ := h
      have plain : c ≠ '\'' ∧ c ≠ '"' := by
        constructor
        · rintro rfl
          exact none_ .string ['\''] (.string (.inl rfl) List.not_mem_nil)
        · rintro rfl
          exact none_ .string ['"'] (.string (.inr rfl) List.not_mem_nil)
      simp [openQuote?_of_plain (List.forall_mem_singleton.2 plain)]
    | unterminatedString span =>
      obtain ⟨-, quote, content, quotes, absent, rfl⟩ := h
      simp [openQuote?_quoted quotes absent]

end Items

namespace Laid

variable {front cs before after : List Char} {items : List Item}

theorem openQuote?_iff (h : Laid front cs items) :
    openQuote? cs = none ↔ ∀ span, .error (.unterminatedString span) ∉ items := by
  induction h with
  | nil blank => simp [openQuote?_of_allBlank blank]
  | @cons front gap chars rest i items blank stands takes laid ih =>
    rw [openQuote?_append (openQuote?_of_allBlank blank)]
    by_cases closed : openQuote? chars = none
    · have others := takes.openQuote?_iff.1 closed
      rw [openQuote?_append closed, ih]
      simp [List.mem_cons, Ne.symm (others _)]
    · obtain ⟨span, rfl⟩ : ∃ span, i = .error (.unterminatedString span) := by
        simpa [takes.openQuote?_iff] using closed
      obtain ⟨rfl, -⟩ := takes
      rw [List.append_nil]
      exact iff_of_false closed fun none_ => none_ span List.mem_cons_self

theorem byteSize_le_start (h : Laid front cs items) :
    ∀ i ∈ items, Text.byteSize front ≤ i.span.start := by
  intro i mem
  obtain ⟨before, chars, after, -, stands, -⟩ := h.exists_place i mem
  rw [stands.start, Text.byteSize_append]
  exact Nat.le_add_right _ _

section First

variable {i : Item} {chars inner more rest : List Char} {t : Token}

theorem semicolon_first (stands : i.Stands front (inner ++ ';' :: more))
    (takes : i.Takes (inner ++ ';' :: more) rest)
    (h : Laid (front ++ (inner ++ ';' :: more)) rest items) :
    openQuote? inner = none ↔ ∃ t, .ok t ∈ i :: items ∧ t.kind = .semicolon ∧
      t.span.start = Text.byteSize (front ++ inner) := by
  have start := stands.start
  rw [takes.semicolon_iff]
  constructor
  · rintro ⟨rfl, semicolon⟩
    cases i with
    | error e => cases semicolon
    | ok t =>
      rw [List.append_nil]
      exact ⟨t, List.mem_cons_self, by simpa [Item.isSemicolon] using semicolon, start⟩
  · rintro ⟨t, mem, kind, place⟩
    rw [Text.byteSize_append] at place
    obtain rfl | mem := List.mem_cons.1 mem
    · refine ⟨?_, by simp [Item.isSemicolon, kind]⟩
      by_contra some_
      have inside := Text.byteSize_pos some_
      rw [Item.span] at start
      omega
    -- The other items start behind the semicolon.
    · have far := h.byteSize_le_start _ mem
      have size := Char.utf8Size_pos ';'
      simp only [Item.span, Text.byteSize_append, Text.byteSize] at far
      omega

theorem mem_of_start (stands : i.Stands front chars)
    (place : t.span.start = Text.byteSize (front ++ (chars ++ inner))) (mem : .ok t ∈ i :: items) :
    .ok t ∈ items := by
  refine (List.mem_cons.1 mem).resolve_left ?_
  rintro rfl
  have start := stands.start
  have size := Text.byteSize_pos stands.some_
  simp only [Item.span, Text.byteSize_append] at start place
  omega

end First

theorem semicolon_iff (h : Laid front cs items) (text : cs = before ++ ';' :: after) :
    openQuote? before = none ↔ ∃ t, .ok t ∈ items ∧ t.kind = .semicolon ∧
      t.span.start = Text.byteSize (front ++ before) := by
  have solid : Text.isBlank ';' = false := rfl
  induction h generalizing before with
  | nil blank =>
    rw [text, Text.allBlank, List.all_append, List.all_cons, solid] at blank
    simp at blank
  | @cons front gap chars rest i items blank stands takes laid ih =>
    obtain ⟨more, rfl⟩ | ⟨inner, rfl, behind⟩ := exists_of_append_eq_append_cons text
    · rw [Text.allBlank, List.all_append, List.all_cons, solid] at blank
      simp at blank
    · rw [openQuote?_append (openQuote?_of_allBlank blank), ← List.append_assoc]
      obtain ⟨more, rfl⟩ | ⟨inner, rfl, later⟩ := exists_of_append_eq_append_cons behind
      · exact laid.semicolon_first stands takes
      · have closed : openQuote? chars = none := by
          rw [takes.openQuote?_iff]
          rintro span rfl
          obtain ⟨rfl, -⟩ := takes
          simp at later
        rw [openQuote?_append closed]
        refine (ih later).trans (exists_congr fun t => ?_)
        rw [List.append_assoc _ chars]
        refine and_congr_left fun place => ⟨List.mem_cons_of_mem _, ?_⟩
        exact mem_of_start stands place.2

end Laid

section Scanning

variable {cs before after : List Char}

theorem endsOpen_iff : EndsOpen cs ↔ openQuote? cs ≠ none := by
  simp [EndsOpen, (laid_scanChars cs).openQuote?_iff]

instance (cs : List Char) : Decidable (EndsOpen cs) := decidable_of_iff' _ endsOpen_iff

/-- The scan takes a semicolon as one exactly where no string is open. -/
theorem exists_semicolon_iff :
    (∃ t, .ok t ∈ scanChars (before ++ ';' :: after) ∧ t.kind = .semicolon ∧
      t.span.start = Text.byteSize before) ↔ openQuote? before = none :=
  ((laid_scanChars _).semicolon_iff rfl).symm

end Scanning

end RowStore.Sql
