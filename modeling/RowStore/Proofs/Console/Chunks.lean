import Mathlib.Data.List.DropRight
import RowStore.Console.Repl
import RowStore.Proofs.Engine.Places
import RowStore.Proofs.Sql.Semicolons

/-!
The interactive reader runs what its input says. It hands the text over in chunks, each up to the last
semicolon of the buffer; run one after another they do what the whole text does at once, however the
statements are laid out over lines.
-/

namespace RowStore.Repl

variable {δ : Type}

def Turn.chunk? : Turn → Option (List Char)
  | .prompt _ => none
  | .run sql => some sql

def chunks (ts : List Turn) : List (List Char) := ts.filterMap Turn.chunk?

def textOf (lines : List (List Char)) : List Char := lines.flatMap fun line => line ++ ['\n']

def unfinished (cs : List Char) : List Char := cs.rtakeWhile (· ≠ ';')

def replies (c : Catalog δ) (s : State δ) :
    List (List Char) → List (List Engine.Result) × State δ
  | [] => ([], s)
  | sql :: others =>
    let (rs, session, world) := Engine.run c s.session s.world (String.ofList sql)
    let (rss, s') := replies c ⟨session, world⟩ others
    (rs :: rss, s')

def transcript : List Turn → List (List Engine.Result) → String
  | .prompt continued :: ts, rss => promptText continued ++ transcript ts rss
  | .run _ :: ts, rs :: rss => Report.results rs ++ transcript ts rss
  | _, _ => ""

section Running

variable (c : Catalog δ)

theorem play_eq (s : State δ) (ts : List Turn) :
    play c s ts
      = (transcript ts (replies c s (chunks ts)).1, (replies c s (chunks ts)).2) := by
  induction ts generalizing s with
  | nil => rfl
  | cons t ts ih =>
    cases t with
    | prompt continued =>
      rw [play, ih]
      rfl
    | run sql =>
      simp only [play, ih]
      rfl

theorem replies_eq (s : State δ) (sqls : List (List Char)) :
    (replies c s sqls).1.flatten
        = (Engine.runAll c s.session s.world
            (sqls.flatMap fun sql => Sql.parse (String.ofList sql))).1 ∧
      ((replies c s sqls).2.session, (replies c s sqls).2.world)
        = (Engine.runAll c s.session s.world
            (sqls.flatMap fun sql => Sql.parse (String.ofList sql))).2 := by
  induction sqls generalizing s with
  | nil => exact ⟨rfl, rfl⟩
  | cons sql others ih =>
    obtain ⟨results, after⟩ :=
      ih ⟨(Engine.run c s.session s.world (String.ofList sql)).2.1,
        (Engine.run c s.session s.world (String.ofList sql)).2.2⟩
    rw [List.flatMap_cons, Engine.runAll_append]
    exact ⟨congrArg _ results, after⟩

end Running

section Buffer

variable {buffer line before rest : List Char}

theorem exists_last_semicolon {cs : List Char} (h : ';' ∈ cs) :
    ∃ before rest, cs = before ++ ';' :: rest ∧ ';' ∉ rest := by
  obtain ⟨tser, erofeb, text, last⟩ := List.eq_append_cons_of_mem (List.mem_reverse.2 h)
  refine ⟨erofeb.reverse, tser.reverse, ?_, by simpa using last⟩
  simpa using congrArg List.reverse text

theorem unfinished_of_not_mem {cs : List Char} (h : ';' ∉ cs) : unfinished cs = cs := by
  rw [unfinished, List.rtakeWhile_eq_self_iff]
  intro c mem
  simpa using ne_of_mem_of_not_mem mem h

@[simp] theorem unfinished_semicolon (before rest : List Char) :
    unfinished (before ++ ';' :: rest) = unfinished rest := by
  induction rest using List.reverseRecOn with
  | nil => exact List.rtakeWhile_concat_neg _ _ _ (by simp)
  | append_singleton rest c ih =>
    have text : before ++ ';' :: (rest ++ [c]) = (before ++ ';' :: rest) ++ [c] := by simp
    rw [text, unfinished, unfinished, List.rtakeWhile_concat, List.rtakeWhile_concat]
    exact ite_congr rfl (fun _ => congrArg (· ++ [c]) ih) fun _ => rfl

theorem cut?_of_not_mem (h : ';' ∉ buffer) : cut? buffer = none := if_neg h

theorem cut?_semicolon (h : ';' ∉ rest) :
    cut? (before ++ ';' :: rest) = some (before ++ [';'], rest) := by
  have behind : ((before ++ ';' :: rest).reverse.takeWhile (· ≠ ';')).reverse = rest :=
    (unfinished_semicolon before rest).trans (unfinished_of_not_mem h)
  have size : (before ++ ';' :: rest).length - rest.length = (before ++ [';']).length := by
    simp only [List.length_append, List.length_cons, List.length_nil]
    omega
  have text : before ++ ';' :: rest = (before ++ [';']) ++ rest := by simp
  simp only [cut?, behind]
  rw [if_pos (by simp), size, text, List.take_left]

theorem react_open (stays : Text.allBlank buffer = true → Text.trim line ≠ exitCommand)
    (h : ';' ∉ buffer ++ line ++ ['\n']) :
    react buffer line
      = some ([promptFor (buffer ++ line ++ ['\n'])], buffer ++ line ++ ['\n']) := by
  rw [react, if_neg fun leaves => stays leaves.1 leaves.2]
  simp only [cut?_of_not_mem h]

theorem react_semicolon (stays : Text.allBlank buffer = true → Text.trim line ≠ exitCommand)
    (text : buffer ++ line ++ ['\n'] = before ++ ';' :: rest) (h : ';' ∉ rest) :
    react buffer line = some ([.run (before ++ [';']), promptFor rest], rest) := by
  rw [react, if_neg fun leaves => stays leaves.1 leaves.2]
  simp only [text, cut?_semicolon h]

end Buffer

/-- The turns run a text: they lose none of it but blanks at its end, and what can be read in their
chunks is what can be read in it, at other places. -/
structure Covers (ts : List Turn) (complete : Bool) (text : List Char) : Prop where
  complete : complete = true
  whole : ∃ rest, Text.allBlank rest = true ∧ (chunks ts).flatten ++ rest = text
  parsed : ((chunks ts).flatMap fun sql => Sql.parse (String.ofList sql)).map Sql.Parsed.bare
    = (Sql.parse (String.ofList text)).map Sql.Parsed.bare

namespace Covers

variable {ts : List Turn} {complete : Bool}

theorem finish (buffer : List Char) : Covers (Repl.finish buffer) true buffer := by
  cases blank : Text.allBlank buffer with
  | true =>
    have nothing : Repl.finish buffer = [] := by simp [Repl.finish, blank]
    rw [nothing]
    refine ⟨rfl, ⟨buffer, blank, rfl⟩, ?_⟩
    rw [Sql.parse_of_allBlank blank]
    rfl
  | false =>
    have all : Repl.finish buffer = [.run buffer] := by simp [Repl.finish, blank]
    rw [all]
    exact ⟨rfl, ⟨[], rfl, by simp [chunks, Turn.chunk?]⟩, by simp [chunks, Turn.chunk?]⟩

theorem prompt {text : List Char} (h : Covers ts complete text) (t : Turn)
    (none_ : t.chunk? = none) : Covers (t :: ts) complete text := by
  have same : chunks (t :: ts) = chunks ts := List.filterMap_cons_none none_
  exact ⟨h.complete, same ▸ h.whole, same ▸ h.parsed⟩

theorem run {before after : List Char} (tokens : Sql.SemicolonTokens (before ++ ';' :: after))
    (h : Covers ts complete after) :
    Covers (.run (before ++ [';']) :: ts) complete (before ++ ';' :: after) := by
  have more : chunks (.run (before ++ [';']) :: ts) = (before ++ [';']) :: chunks ts := rfl
  obtain ⟨rest, blank, text⟩ := h.whole
  refine ⟨h.complete, ⟨rest, blank, ?_⟩, ?_⟩
  · rw [more, List.flatten_cons, List.append_assoc, text]
    simp
  · rw [more, List.flatMap_cons, List.map_append, h.parsed, tokens.parse_append]
    simp

theorem turns {buffer : List Char} {lines : List (List Char)} (gathered : ';' ∉ buffer)
    (stays : ∀ former line later, lines = former ++ line :: later →
      Text.allBlank (unfinished (buffer ++ textOf former)) = true → Text.trim line ≠ exitCommand)
    (tokens : Sql.SemicolonTokens (buffer ++ textOf lines)) :
    Covers (turns buffer (lines.map some)).1 (turns buffer (lines.map some)).2
      (buffer ++ textOf lines) := by
  induction lines generalizing buffer with
  | nil => simpa [Repl.turns, textOf] using finish buffer
  | cons line lines ih =>
    have text : buffer ++ textOf (line :: lines)
        = (buffer ++ line ++ ['\n']) ++ textOf lines := by simp [textOf]
    have here : Text.allBlank buffer = true → Text.trim line ≠ exitCommand := by
      intro blank
      apply stays [] line lines rfl
      simpa [textOf, unfinished_of_not_mem gathered] using blank
    have later : ∀ former line' later', lines = former ++ line' :: later' →
        Text.allBlank (unfinished ((buffer ++ line ++ ['\n']) ++ textOf former)) = true →
          Text.trim line' ≠ exitCommand := by
      rintro former line' later' rfl blank
      apply stays (line :: former) line' later' rfl
      simpa [textOf] using blank
    rw [text] at tokens ⊢
    rw [List.map_cons, Repl.turns]
    by_cases closes : ';' ∈ buffer ++ line ++ ['\n']
    · obtain ⟨before, rest, cut, last⟩ := exists_last_semicolon closes
      rw [cut] at tokens ⊢
      rw [List.append_assoc, List.cons_append] at tokens ⊢
      rw [react_semicolon here cut last]
      have others := ih last ?_ tokens.behind
      · exact run tokens (others.prompt (promptFor rest) rfl)
      · rintro former line' later' split blank
        apply later former line' later' split
        rw [cut, List.append_assoc, List.cons_append, unfinished_semicolon]
        exact blank
    · rw [react_open here closes]
      exact (ih closes later tokens).prompt (promptFor (buffer ++ line ++ ['\n'])) rfl

end Covers

/-- A whole input, none of whose lines leaves the reader, is run as its text. -/
theorem run_eq_run_text (c : Catalog δ) (w : World δ) {input : Bytes} {lines : List (List Char)}
    (read : (Text.byteLines input).map Text.decode? = lines.map some)
    (stays : ∀ former line later, lines = former ++ line :: later →
      Text.allBlank (unfinished (textOf former)) = true → Text.trim line ≠ exitCommand)
    (tokens : Sql.SemicolonTokens (textOf lines)) :
    let ts := (turnsOf input).1
    let given := replies c ⟨.fresh, w⟩ (chunks ts)
    let once := Engine.run c .fresh w (String.ofList (textOf lines))
    (∃ rest, Text.allBlank rest = true ∧ (chunks ts).flatten ++ rest = textOf lines) ∧
      given.1.flatten.map Engine.Result.bare = once.1.map Engine.Result.bare ∧
      given.2 = ⟨once.2.1, once.2.2⟩ ∧
      run c w input = (transcript ts given.1, true, once.2.2) := by
  have covers : Covers (turnsOf input).1 (turnsOf input).2 (textOf lines) := by
    have lines_ : Covers (turns [] (lines.map some)).1 (turns [] (lines.map some)).2
        ([] ++ textOf lines) := Covers.turns List.not_mem_nil stays tokens
    rw [← read] at lines_
    exact lines_.prompt (.prompt false) rfl
  obtain ⟨results, after⟩ := replies_eq c ⟨.fresh, w⟩ (chunks (turnsOf input).1)
  obtain ⟨same, ends⟩ := Engine.runAll_congr c .fresh w covers.parsed
  have final : (replies c ⟨.fresh, w⟩ (chunks (turnsOf input).1)).2
      = ⟨(Engine.run c .fresh w (String.ofList (textOf lines))).2.1,
        (Engine.run c .fresh w (String.ofList (textOf lines))).2.2⟩ := by
    obtain ⟨session, world⟩ := Prod.mk.inj (after.trans ends)
    exact congrArg₂ State.mk session world
  refine ⟨covers.whole, ?_, final, ?_⟩
  · rw [results]
    exact same
  · simp only [run, play_eq, covers.complete, final]

section Layout

def layoutInput : Bytes :=
  Text.encode ("CREATE DATABASE d; USE\r\n\n d ;CREATE TABLE t (a int);\n" ++
    "INSERT INTO t VALUES (7); SELECT a\n FROM t;@ 'é';\nSHOW TABLES").toList

def layoutLines : List (List Char) :=
  ["CREATE DATABASE d; USE".toList, [], " d ;CREATE TABLE t (a int);".toList,
    "INSERT INTO t VALUES (7); SELECT a".toList, " FROM t;@ 'é';".toList, "SHOW TABLES".toList]

def layoutCatalog : Catalog Unit := ⟨⟨"/r"⟩, Directory.onFiles⟩

def layoutWorld : World Unit := World.ofFiles ⟨.directory [("r", .directory [])], []⟩ ()

def layoutResults : List Engine.Result :=
  [.ok (.databaseCreated "d"), .ok (.databaseChanged "d"), .ok (.tableCreated "t"),
    .ok (.inserted "t" 1), .ok (.selected ⟨["a"], [[.int 7]]⟩),
    .error (.parse (.lexing (.unexpectedChar '@' 0))),
    .error (.parse (.unexpected (.kind .semicolon) none 0))]

theorem run_eq_run_text_layout :
    (Text.byteLines layoutInput).map Text.decode? = layoutLines.map some ∧
      (∀ line ∈ layoutLines, Text.trim line ≠ exitCommand) ∧
      Sql.SemicolonTokens (textOf layoutLines) ∧
      (replies layoutCatalog ⟨.fresh, layoutWorld⟩ (chunks (turnsOf layoutInput).1)).1.flatten.map
        Engine.Result.bare = layoutResults ∧
      (run layoutCatalog layoutWorld layoutInput).2
        = (true, (Engine.run layoutCatalog .fresh layoutWorld
            (String.ofList (textOf layoutLines))).2.2) := by
  have read : (Text.byteLines layoutInput).map Text.decode? = layoutLines.map some := by
    decide +kernel
  have stays : ∀ line ∈ layoutLines, Text.trim line ≠ exitCommand := by decide +kernel
  have tokens : Sql.SemicolonTokens (textOf layoutLines) := by decide +kernel
  have once : (Engine.run layoutCatalog .fresh layoutWorld
      (String.ofList (textOf layoutLines))).1.map Engine.Result.bare = layoutResults := by
    decide +kernel
  obtain ⟨-, given, -, printed⟩ := run_eq_run_text layoutCatalog layoutWorld read
    (fun former line later split _ => stays line (by simp [split])) tokens
  refine ⟨read, stays, tokens, given.trans once, ?_⟩
  rw [printed]

end Layout

end RowStore.Repl
