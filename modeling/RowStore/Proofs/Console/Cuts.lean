import RowStore.Proofs.Console.Chunks
import RowStore.Proofs.Sql.Quoting

namespace RowStore.Repl

def heard (buffer : List Char) : List (List Char) → List (List Char)
  | [] => []
  | line :: lines =>
    if Text.allBlank buffer = true ∧ Text.trim line = exitCommand then []
    else line :: heard (unfinished (buffer ++ line ++ ['\n'])) lines

/-- At the last semicolon of every line, `P` holds of all that stands before it: of `front`, the earlier
lines and the start of the line. -/
def AtCuts (P : List Char → Prop) (front : List Char) (lines : List (List Char)) : Prop :=
  ∀ former a b later, lines = former ++ (a ++ ';' :: b) :: later → ';' ∉ b →
    P (front ++ textOf former ++ a)

theorem heard_isPrefix (buffer : List Char) (lines : List (List Char)) :
    heard buffer lines <+: lines := by
  induction lines generalizing buffer with
  | nil => exact List.prefix_rfl
  | cons line lines ih =>
    rw [heard]
    split
    · exact List.nil_prefix
    · exact List.cons_prefix_cons.2 ⟨rfl, ih _⟩

theorem eq_of_last_semicolon {a b a' b' : List Char} (same : a ++ ';' :: b = a' ++ ';' :: b')
    (last : ';' ∉ b) (last' : ';' ∉ b') : a = a' := by
  have rests := congrArg unfinished same
  rw [unfinished_semicolon, unfinished_semicolon, unfinished_of_not_mem last,
    unfinished_of_not_mem last'] at rests
  subst rests
  exact List.append_cancel_right same

namespace AtCuts

variable {P : List Char → Prop} {front line a b : List Char} {lines : List (List Char)}

theorem nil : AtCuts P front [] := by
  intro former a b later split
  simp at split

theorem cons_iff : AtCuts P front (line :: lines) ↔
    (∀ a b, line = a ++ ';' :: b → ';' ∉ b → P (front ++ a)) ∧
      AtCuts P (front ++ line ++ ['\n']) lines := by
  constructor
  · intro h
    refine ⟨fun a b text last => ?_, fun former a b later split last => ?_⟩
    · simpa [textOf] using h [] a b lines (congrArg (· :: lines) text) last
    · simpa [textOf] using h (line :: former) a b later (congrArg (line :: ·) split) last
  · rintro ⟨here, behind⟩ former a b later split last
    cases former with
    | nil =>
      obtain ⟨text, -⟩ := List.cons.inj split
      simpa [textOf] using here a b text last
    | cons first former =>
      obtain ⟨rfl, others⟩ := List.cons.inj split
      simpa [textOf] using behind former a b later others last

theorem cons_open (h : ';' ∉ line) :
    AtCuts P front (line :: lines) ↔ AtCuts P (front ++ line ++ ['\n']) lines := by
  rw [cons_iff, and_iff_right]
  rintro a b rfl
  simp at h

theorem cons_semicolon (last : ';' ∉ b) : AtCuts P front ((a ++ ';' :: b) :: lines) ↔
    P (front ++ a) ∧ AtCuts P (front ++ (a ++ ';' :: b) ++ ['\n']) lines := by
  rw [cons_iff]
  refine and_congr_left' ⟨fun h => h a b rfl last, fun h a' b' same last' => ?_⟩
  rw [← eq_of_last_semicolon same last last']
  exact h

theorem closed_append {before : List Char} (h : Sql.openQuote? before = none) :
    AtCuts (Sql.openQuote? · = none) (before ++ front) lines ↔
      AtCuts (Sql.openQuote? · = none) front lines := by
  simp only [AtCuts, List.append_assoc, Sql.openQuote?_append h]

end AtCuts

section Turns

variable {buffer line before rest : List Char} {lines : List (Option (List Char))}

theorem chunks_of_leaves (h : Text.allBlank buffer = true ∧ Text.trim line = exitCommand) :
    chunks (turns buffer (some line :: lines)).1 = [] := by
  rw [turns, react, if_pos h]
  rfl

theorem chunks_of_open (stays : Text.allBlank buffer = true → Text.trim line ≠ exitCommand)
    (h : ';' ∉ buffer ++ line ++ ['\n']) : chunks (turns buffer (some line :: lines)).1
      = chunks (turns (buffer ++ line ++ ['\n']) lines).1 := by
  rw [turns, react_open stays h]
  rfl

theorem chunks_of_semicolon (stays : Text.allBlank buffer = true → Text.trim line ≠ exitCommand)
    (text : buffer ++ line ++ ['\n'] = before ++ ';' :: rest) (h : ';' ∉ rest) :
    chunks (turns buffer (some line :: lines)).1
      = (before ++ [';']) :: chunks (turns rest lines).1 := by
  rw [turns, react_semicolon stays text h]
  rfl

theorem mem_chunks_finish {sql : List Char} (h : sql ∈ chunks (finish buffer)) : sql = buffer := by
  rw [finish] at h
  split at h
  · cases h
  · exact List.mem_singleton.1 h

end Turns

theorem closed_chunks_iff {buffer : List Char} {lines : List (List Char)} (gathered : ';' ∉ buffer)
    (closed : Sql.openQuote? (buffer ++ textOf lines) = none) :
    (∀ sql ∈ chunks (turns buffer (lines.map some)).1, Sql.openQuote? sql = none) ↔
      AtCuts (Sql.openQuote? · = none) buffer (heard buffer lines) := by
  induction lines generalizing buffer with
  | nil =>
    rw [textOf, List.flatMap_nil, List.append_nil] at closed
    refine iff_of_true (fun sql mem => ?_) AtCuts.nil
    rw [mem_chunks_finish mem]
    exact closed
  | cons line lines ih =>
    rw [List.map_cons, heard]
    by_cases leaves : Text.allBlank buffer = true ∧ Text.trim line = exitCommand
    · rw [chunks_of_leaves leaves, if_pos leaves]
      exact iff_of_true (List.forall_mem_nil _) AtCuts.nil
    · have stays : Text.allBlank buffer = true → Text.trim line ≠ exitCommand :=
        fun blank exits => leaves ⟨blank, exits⟩
      rw [if_neg leaves]
      by_cases closes : ';' ∈ line
      · obtain ⟨a, b, rfl, last⟩ := exists_last_semicolon closes
        have text : buffer ++ (a ++ ';' :: b) ++ ['\n']
            = (buffer ++ a) ++ ';' :: (b ++ ['\n']) := by simp
        have apart : (buffer ++ a) ++ ';' :: (b ++ ['\n'])
            = (buffer ++ a ++ [';']) ++ (b ++ ['\n']) := by simp
        have whole : buffer ++ textOf ((a ++ ';' :: b) :: lines)
            = (buffer ++ a ++ [';']) ++ ((b ++ ['\n']) ++ textOf lines) := by simp [textOf]
        have rest : ';' ∉ b ++ ['\n'] := by simpa using last
        rw [chunks_of_semicolon stays text rest, List.forall_mem_cons,
          AtCuts.cons_semicolon last, text, unfinished_semicolon, unfinished_of_not_mem rest,
          Sql.openQuote?_semicolon]
        -- A cut outside of strings makes a fresh start.
        refine and_congr_right fun here => ?_
        have fresh : Sql.openQuote? (buffer ++ a ++ [';']) = none :=
          (Sql.openQuote?_semicolon _).trans here
        rw [whole, Sql.openQuote?_append fresh] at closed
        rw [apart, AtCuts.closed_append fresh]
        exact ih rest closed
      · have gathers : ';' ∉ buffer ++ line ++ ['\n'] := by simp [gathered, closes]
        have whole : buffer ++ textOf (line :: lines)
            = (buffer ++ line ++ ['\n']) ++ textOf lines := by simp [textOf]
        rw [whole] at closed
        rw [chunks_of_open stays gathers, AtCuts.cons_open closes, unfinished_of_not_mem gathers]
        exact ih gathers closed

/-- What is run of an input in which every string is closed leaves no string open, if and only if the
last semicolon of each line that the reader hears is a token of the whole text. -/
theorem closed_chunks_iff_tokens {input : Bytes} {lines : List (List Char)}
    (read : (Text.byteLines input).map Text.decode? = lines.map some)
    (closed : ¬Sql.EndsOpen (textOf lines)) :
    (∀ sql ∈ chunks (turnsOf input).1, ¬Sql.EndsOpen sql) ↔
      AtCuts (fun before => ∃ t, .ok t ∈ Sql.scanChars (textOf lines) ∧ t.kind = .semicolon ∧
        t.span.start = Text.byteSize before) [] (heard [] lines) := by
  have same : chunks (turnsOf input).1 = chunks (turns [] (lines.map some)).1 := by
    rw [← read]
    rfl
  obtain ⟨unheard, split⟩ := heard_isPrefix [] lines
  simp only [Sql.endsOpen_iff, not_not] at closed ⊢
  rw [same, closed_chunks_iff List.not_mem_nil closed]
  refine forall_congr' fun former => forall_congr' fun a => forall_congr' fun b =>
    forall_congr' fun later => imp_congr_right fun heard_ => imp_congr_right fun last => ?_
  have text : textOf lines = ([] ++ textOf former ++ a) ++ ';' :: (b ++ '\n' ::
      textOf (later ++ unheard)) := by
    rw [← split, heard_]
    simp [textOf]
  rw [text]
  exact Sql.exists_semicolon_iff.symm

section Strings

def stringsInput : Bytes :=
  Text.encode "USE d; INSERT INTO t VALUES ('a;b'); SELECT *\nFROM t WHERE a = \"c\n'd\";".toList

def stringsLines : List (List Char) :=
  ["USE d; INSERT INTO t VALUES ('a;b'); SELECT *".toList, "FROM t WHERE a = \"c".toList,
    "'d\";".toList]

theorem closed_chunks_iff_tokens_strings :
    (Text.byteLines stringsInput).map Text.decode? = stringsLines.map some ∧
      ¬Sql.EndsOpen (textOf stringsLines) ∧
      (∀ sql ∈ chunks (turnsOf stringsInput).1, ¬Sql.EndsOpen sql) ∧
      AtCuts (fun before => ∃ t, .ok t ∈ Sql.scanChars (textOf stringsLines) ∧
        t.kind = .semicolon ∧ t.span.start = Text.byteSize before) [] (heard [] stringsLines) := by
  have read : (Text.byteLines stringsInput).map Text.decode? = stringsLines.map some := by
    decide +kernel
  have closed : ¬Sql.EndsOpen (textOf stringsLines) := by decide +kernel
  have chunks_ : ∀ sql ∈ chunks (turnsOf stringsInput).1, ¬Sql.EndsOpen sql := by decide +kernel
  exact ⟨read, closed, chunks_, (closed_chunks_iff_tokens read closed).1 chunks_⟩

def cutInput : Bytes :=
  Text.encode ("CREATE DATABASE d; USE d; CREATE TABLE t (a varchar);\n".toList
    ++ "INSERT INTO t VALUES ('a;\nb');\nSELECT * FROM t;\n".toList)

def cutLines : List (List Char) :=
  ["CREATE DATABASE d; USE d; CREATE TABLE t (a varchar);".toList,
    "INSERT INTO t VALUES ('a;".toList, "b');".toList, "SELECT * FROM t;".toList]

/-- Every string of a text may be closed and one that is run is not. -/
theorem exists_open_chunk :
    (Text.byteLines cutInput).map Text.decode? = cutLines.map some ∧
      ¬Sql.EndsOpen (textOf cutLines) ∧
      "\nINSERT INTO t VALUES ('a;".toList ∈ chunks (turnsOf cutInput).1 ∧
      Sql.EndsOpen "\nINSERT INTO t VALUES ('a;".toList := by
  decide +kernel

end Strings

end RowStore.Repl
