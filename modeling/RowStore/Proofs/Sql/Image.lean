import RowStore.Proofs.Sql.Names
import RowStore.Proofs.Sql.Written

namespace RowStore.Sql

open Grammar

section Tokens

variable {text : String} {t : Token}

theorem length_text_le (k : Keyword) : k.text.toList.length ≤ 9 := by
  cases k <;> decide

theorem exists_clip_cons (c : Char) (cs : List Char) :
    ∃ ds, Text.clip Text.clipLimit (c :: cs) = c :: ds ∧ ds <+: cs := by
  have size := c.utf8Size_le_four
  have fits : c.utf8Size ≤ Text.clipLimit := Nat.le_trans size (by decide)
  exact ⟨_, if_pos fits, Text.clip_isPrefix _ _⟩

theorem plainName_of_name {x : Identifier} (h : .ok t ∈ scan text) (name : Name t x) :
    PlainName x.name := by
  have plain : IsName x.name := isName_of_name h name
  have size := byteSize_of_word plain.word
  have fits : x.name.toList.length ≤ 63 := size ▸ plain.short
  cases name with
  | @mk short kind cut =>
    obtain rfl := cut_iff.1 cut
    obtain ⟨c, cs, chars, letter, free, -⟩ := text_of_identifier h kind
    rw [String.toList_ofList] at size fits
    refine ⟨?_, plain.word, by rwa [String.toList_ofList], ?_⟩
    · obtain ⟨ds, cut, -⟩ := exists_clip_cons c cs
      exact ⟨c, ds, by rw [String.toList_ofList, chars, cut], letter⟩
    · intro k spelt
      rw [String.toList_ofList] at spelt
      rcases Text.clip_eq_or_lt Text.clipLimit t.text.toList with whole | cut
      · rw [whole, chars] at spelt
        rw [Keyword.ofWord?, List.find?_eq_none] at free
        exact free k k.mem_all (beq_iff_eq.2 spelt.symm)
      -- A word that is cut stays longer than any keyword.
      · have length := congrArg List.length spelt
        have bound := length_text_le k
        rw [List.length_map] at length
        have limit : Text.clipLimit = 63 := rfl
        omega

theorem digit_or_point_of_mem_numberTail {cs : List Char} :
    (∀ d ∈ numberTail cs, d.isDigit = true ∨ d = '.') ∧ (numberTail cs).count '.' ≤ 1 := by
  have whole {ds : List Char} : (ds.takeWhile Char.isDigit).count '.' = 0 :=
    List.count_eq_zero.2 fun mem => by simpa using List.mem_takeWhile_imp mem
  rw [numberTail]
  split
  · refine ⟨?_, by simp [List.count_append, whole]⟩
    intro d mem
    simp only [List.mem_append, List.mem_cons] at mem
    rcases mem with digits | rfl | digits
    · exact .inl (List.mem_takeWhile_imp digits)
    · exact .inr rfl
    · exact .inl (List.mem_takeWhile_imp digits)
  · rw [List.append_nil]
    exact ⟨fun d mem => .inl (List.mem_takeWhile_imp mem), whole.symm ▸ Nat.zero_le 1⟩

theorem number_of_scan (h : .ok t ∈ scan text) (kind : t.kind = .number) :
    ∃ c cs, t.text.toList = c :: cs ∧ c.isDigit = true ∧
      (∀ d ∈ cs, d.isDigit = true ∨ d = '.') ∧ cs.count '.' ≤ 1 := by
  obtain ⟨pos, c, cs, -, eq⟩ := mem_scan h
  obtain ⟨sort, chars⟩ := itemAt_eq_ok eq.symm
  rw [kind, kindOf?] at sort
  split at sort
  · split at sort <;> cases sort
  · rename_i start
    rw [tailOf, start] at chars
    exact ⟨c, _, chars, isDigit_of_start start, digit_or_point_of_mem_numberTail⟩
  · cases word : Keyword.ofWord? (c :: tailOf c cs) <;> simp [word] at sort
  · exact absurd rfl (kind_of_symbol sort).2.1

theorem plainNumber_of_number {short : List Char} (h : .ok t ∈ scan text) (kind : t.kind = .number)
    (cut : Cut t.text.toList short) : PlainNumber (String.ofList short) := by
  obtain ⟨c, cs, chars, digit, digits, points⟩ := number_of_scan h kind
  have fits : Text.byteSize short ≤ 63 := cut.2.1
  obtain rfl := cut_iff.1 cut
  obtain ⟨ds, cut, within⟩ := exists_clip_cons c cs
  have other : c ≠ '.' := by
    rintro rfl
    cases digit
  rw [chars, cut] at fits ⊢
  refine ⟨⟨c, ds, String.toList_ofList, digit⟩, ?_, ?_, ?_⟩
  · rw [String.toList_ofList, List.forall_mem_cons]
    exact ⟨.inl digit, fun d mem => digits d (within.subset mem)⟩
  · rw [String.toList_ofList, List.count_cons_of_ne other]
    exact Nat.le_trans (within.sublist.count_le _) points
  · rwa [Text.utf8ByteSize_eq, String.toList_ofList]

theorem printable_of_value {l : Literal} (h : .ok t ∈ scan text) (value : Value t l) :
    l.Printable := by
  cases value with
  | number kind cut => exact plainNumber_of_number h kind cut
  | @string quote content short kind chars cut =>
    obtain ⟨quote', content', chars', absent, sort⟩ := string_of_scan h kind
    obtain ⟨rfl, same⟩ := List.cons.inj (chars.symm.trans chars')
    obtain rfl := List.append_cancel_right same
    have lacks : quote ∉ short := fun mem => absent (cut.1.subset mem)
    refine ⟨?_, ?_⟩
    · rw [String.toList_ofList]
      rcases sort with rfl | rfl
      · exact .inl lacks
      · exact .inr lacks
    · rw [Text.utf8ByteSize_eq, String.toList_ofList]
      exact cut.2.1

end Tokens

section Phrases

variable {α : Type} {text : String} {ts : List Token}

theorem forall_of_commas {P : Token → α → Prop} {Q : α → Prop} {as : List α}
    (h : Commas P ts as) (each : ∀ t ∈ ts, ∀ a, P t a → Q a) : as ≠ [] ∧ ∀ a ∈ as, Q a := by
  induction h with
  | one holds => exact ⟨List.cons_ne_nil _ _, by simpa using each _ List.mem_cons_self _ holds⟩
  | @more t comma a ts as holds _ _ ih =>
    have others := ih fun u mem => each u (List.mem_cons_of_mem _ (List.mem_cons_of_mem _ mem))
    refine ⟨List.cons_ne_nil _ _, List.forall_mem_cons.2 ⟨?_, others.2⟩⟩
    exact each t List.mem_cons_self a holds

theorem forall_of_many {P : List Token → α → Prop} {Q : α → Prop} {as : List α}
    (h : Many P ts as) (each : ∀ us a, us ⊆ ts → P us a → Q a) : ∀ a ∈ as, Q a := by
  induction h with
  | nil => nofun
  | @cons us rest a as holds _ ih =>
    have others := ih fun vs b within =>
      each vs b (List.Subset.trans within (List.subset_append_right _ _))
    exact List.forall_mem_cons.2 ⟨each us a (List.subset_append_left _ _) holds, others⟩

theorem printable_of_columnList {columns : Columns} (tokens : ∀ t ∈ ts, .ok t ∈ scan text)
    (h : ColumnList ts columns) : columns.Printable := by
  cases h with
  | all => trivial
  | named names =>
    exact forall_of_commas names fun t mem x name => plainName_of_name (tokens t mem) name

theorem printable_of_targets {columns : Option Columns} (tokens : ∀ t ∈ ts, .ok t ∈ scan text)
    (h : Targets ts columns) : ∀ c, columns = some c → c.Printable := by
  cases h with
  | absent => nofun
  | present _ list _ =>
    rintro c ⟨⟩
    exact printable_of_columnList (fun t mem => tokens t (by simp [mem])) list

theorem printable_of_test {c : Condition} (tokens : ∀ t ∈ ts, .ok t ∈ scan text)
    (h : Test ts c) : c.Printable := by
  cases h with
  | mk column _ literal =>
    exact ⟨plainName_of_name (tokens _ (by simp)) column,
      printable_of_value (tokens _ (by simp)) literal⟩

theorem printable_of_link {link : Connective × Condition} (tokens : ∀ t ∈ ts, .ok t ∈ scan text)
    (h : Link ts link) : link.2.Printable := by
  cases h with
  | mk _ test => exact printable_of_test (fun t mem => tokens t (List.mem_cons_of_mem _ mem)) test

theorem printable_of_where {filter : Option Filter} (tokens : ∀ t ∈ ts, .ok t ∈ scan text)
    (h : Where ts filter) : ∀ f, filter = some f → ∀ c ∈ f.conditions, c.Printable := by
  cases h with
  | absent => nofun
  | @present w us rest first links _ test many =>
    have own := printable_of_test (fun t mem => tokens t (by simp [mem])) test
    have others := forall_of_many (Q := fun l => l.2.Printable) many fun us l within link =>
      printable_of_link (fun t mem => tokens t (by simp [within mem])) link
    rintro f ⟨⟩
    simpa [Filter.conditions] using ⟨own, fun c op mem => others (op, c) mem⟩

theorem printable_of_phrase {s : Statement} (tokens : ∀ t ∈ ts, .ok t ∈ scan text)
    (h : Phrase ts s) : s.Printable := by
  cases h with
  | createDatabase _ _ name | dropDatabase _ _ name | dropTable _ _ name | useDatabase _ name =>
    exact plainName_of_name (tokens _ (by simp)) name
  | showDatabases | showTables => trivial
  | createTable _ _ name _ definitions some_ _ =>
    refine ⟨plainName_of_name (tokens _ (by simp)) name, some_, ?_⟩
    refine forall_of_many (Q := fun c => PlainName c.name.name) definitions ?_
    intro us c within definition
    cases definition with
    | plain name _ | comma name _ _ =>
      exact plainName_of_name (tokens _ (by simp [within List.mem_cons_self])) name
  | insert _ _ name targets _ _ values _ =>
    refine ⟨plainName_of_name (tokens _ (by simp)) name,
      printable_of_targets (fun t mem => tokens t (by simp [mem])) targets, ?_⟩
    exact forall_of_commas values fun t mem l value =>
      printable_of_value (tokens t (by simp [mem])) value
  | select _ list _ name filter =>
    exact ⟨printable_of_columnList (fun t mem => tokens t (by simp [mem])) list,
      plainName_of_name (tokens _ (by simp)) name,
      printable_of_where (fun t mem => tokens t (by simp [mem])) filter⟩

theorem printable_of_mem_parse {s : Statement} (h : .ok s ∈ parse text) : s.Printable := by
  obtain ⟨ts, tokens, sentence⟩ := exists_sentence h
  cases sentence with
  | mk phrase _ => exact printable_of_phrase (fun t mem => tokens t (by simp [mem])) phrase

theorem Statement.Printable.names {s : Statement} (h : s.Printable) :
    ∀ name ∈ s.names, PlainName name := by
  intro name mem
  cases s with
  | createDatabase x | dropDatabase x | dropTable x | useDatabase x =>
    cases List.mem_singleton.1 mem
    exact h
  | createTable x columns =>
    rcases List.mem_cons.1 mem with rfl | mem
    · exact h.1
    · obtain ⟨c, there, rfl⟩ := List.mem_map.1 mem
      exact h.2.2 c there
  | showNames target => cases mem
  | insert table columns values =>
    cases List.mem_singleton.1 mem
    exact h.1
  | select columns table filter =>
    cases List.mem_singleton.1 mem
    exact h.2.1

theorem PlainName.isName {name : String} (h : PlainName name) : IsName name where
  some_ := by
    obtain ⟨c, cs, letters, -⟩ := h.letter
    rw [letters]
    exact List.cons_ne_nil c cs
  word := h.word
  short := by
    rw [byteSize_of_word h.word]
    exact h.short

end Phrases

section Reading

variable {ts : List Token} {semicolon : Token}

theorem piece_of_kinds (h : ∀ t ∈ ts, t.kind ≠ .semicolon) :
    Piece ((ts ++ [semicolon]).map .ok) := by
  induction ts with
  | nil => exact .last
  | cons t ts ih =>
    rw [List.forall_mem_cons] at h
    exact .cons (by simpa [Item.isSemicolon] using h.1) (ih h.2)

theorem read_sentence {s : Statement} (size : Nat) (h : Sentence ts s) (rest : List Item) :
    Reader.read size .between (ts.map .ok ++ rest)
      = .ok s :: Reader.read size .between rest := by
  obtain @⟨ts, s, semicolon, phrase, kind⟩ := h
  obtain ⟨d, steps, closed⟩ := Draft.acceptAll_phrase phrase
  have others := kind_of_acceptAll steps
  have piece : Piece ((ts ++ [semicolon]).map .ok) := piece_of_kinds others
  have ended : Closed ((ts ++ [semicolon]).map .ok) := by
    intro i last
    obtain rfl : .ok semicolon = i := by simpa using last
    simp [Item.isSemicolon, kind]
  have more : ((ts ++ [semicolon]).map .ok).any (fun i => !Item.isSemicolon i) = true := by
    cases ts with
    | nil =>
      cases steps
      cases closed
    | cons t ts => simp [Item.isSemicolon, others t List.mem_cons_self]
  rw [Reader.read_between_append size size ended, Reader.read_between_run size piece more,
    (Reader.read_reading_eq_ok piece).2 ⟨ts, semicolon, d, rfl, kind, steps, closed⟩]
  rfl

theorem exists_read_marks {ss : List Statement} (size : Nat) (h : ∀ s ∈ ss, s.Printable)
    {ts : List Token} (marks : ts.map Token.mark = ss.flatMap fun s => s.marks ++ [.semicolon]) :
    ∃ ss' : List Statement, Reader.read size .between (ts.map .ok) = ss'.map .ok ∧
      ss'.map Statement.bare = ss.map Statement.bare := by
  induction ss generalizing ts with
  | nil =>
    obtain rfl : ts = [] := List.map_eq_nil_iff.1 marks
    exact ⟨[], rfl, rfl⟩
  | cons s ss ih =>
    rw [List.forall_mem_cons] at h
    obtain ⟨own, rest, rfl, first, others⟩ := List.map_eq_append_iff.1 marks
    obtain ⟨us, last, rfl, words, closing⟩ := List.map_eq_append_iff.1 first
    obtain ⟨semicolon, rfl, sign⟩ := exists_one closing
    obtain ⟨s', phrase, same⟩ := exists_phrase h.1 words
    obtain ⟨ss', read, sames⟩ := ih h.2 others
    refine ⟨s' :: ss', ?_, by rw [List.map_cons, same, sames]; rfl⟩
    rw [List.map_append, read_sentence size (.mk phrase (kind_of_mark sign)), read]
    rfl

theorem exists_parse_print {ss : List Statement} (h : ∀ s ∈ ss, s.Printable) :
    ∃ ss' : List Statement, parse (print ss) = ss'.map .ok ∧ ss'.map Statement.bare = ss.map Statement.bare := by
  have solid : ∀ m ∈ ss.flatMap fun s => s.marks ++ [.semicolon], m.Solid := by
    simp only [List.forall_mem_flatMap, List.forall_mem_append]
    exact fun s mem => ⟨(h s mem).solid, by simpa using solid_semicolon⟩
  obtain ⟨ts, scanned, marks⟩ := exists_scanFrom_spaced 0 solid
  rw [parse_eq_read, scan, scanChars, print, String.toList_ofList, scanned]
  exact exists_read_marks _ h marks

end Reading

section Results

variable {ε α : Type}

theorem allOrFirstError_map_ok (as : List α) :
    allOrFirstError (as.map (.ok : α → Except ε α)) = .ok as := by
  induction as with
  | nil => rfl
  | cons a as ih =>
    rw [List.map_cons, allOrFirstError, ih]
    rfl

theorem eq_map_ok_of_allOrFirstError {xs : List (Except ε α)} {as : List α}
    (h : allOrFirstError xs = .ok as) : xs = as.map .ok := by
  induction xs generalizing as with
  | nil =>
    cases h
    rfl
  | cons x xs ih =>
    cases x with
    | error e => cases h
    | ok a =>
      rw [allOrFirstError] at h
      cases others : allOrFirstError xs with
      | error e => simp [others, Except.map] at h
      | ok bs =>
        simp only [others, Except.map] at h
        cases h
        rw [ih others, List.map_cons]

end Results

theorem parseAll_print_of_printable {ss : List Statement} (h : ∀ s ∈ ss, s.Printable) :
    (parseAll (print ss)).map (List.map Statement.bare) = .ok (ss.map Statement.bare) := by
  obtain ⟨ss', read, same⟩ := exists_parse_print h
  rw [parseAll, read, allOrFirstError_map_ok, Except.map, same]

/-- What a text gives can be written, and what can be written is read back, names compared as words. -/
theorem parseAll_print :
    (∀ text ss, parseAll text = .ok ss → (∀ s ∈ ss, s.Printable) ∧
      (parseAll (print ss)).map (List.map Statement.bare) = .ok (ss.map Statement.bare)) ∧
    ∀ ss : List Statement, (∀ s ∈ ss, s.Printable) →
      (parseAll (print ss)).map (List.map Statement.bare) = .ok (ss.map Statement.bare) := by
  refine ⟨?_, fun ss => parseAll_print_of_printable⟩
  intro text ss parsed
  have results := eq_map_ok_of_allOrFirstError parsed
  have printable : ∀ s ∈ ss, s.Printable := by
    intro s mem
    have given : .ok s ∈ parse text := by
      rw [results]
      exact List.mem_map_of_mem mem
    exact printable_of_mem_parse given
  exact ⟨printable, parseAll_print_of_printable printable⟩

def cutText : String :=
  "use " ++ String.ofList (List.replicate 70 'q') ++ ";insert into t values (\"it's\", 12.);"

def cutStatements : List Statement :=
  [.useDatabase ⟨String.ofList (List.replicate 63 'q'), ⟨4, 73⟩⟩,
    .insert ⟨"t", ⟨87, 87⟩⟩ none [.string "it's", .number "12."]]

theorem parseAll_print_cutText :
    parseAll cutText = .ok cutStatements ∧ (∀ s ∈ cutStatements, s.Printable) ∧
      (parseAll (print cutStatements)).map (List.map Statement.bare)
        = .ok (cutStatements.map Statement.bare) := by
  have read : parseAll cutText = .ok cutStatements := by decide +kernel
  have printable := (parseAll_print.1 _ _ read).1
  exact ⟨read, printable, parseAll_print.2 _ printable⟩

end RowStore.Sql
