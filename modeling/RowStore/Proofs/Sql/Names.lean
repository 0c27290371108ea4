import RowStore.Proofs.Sql.Acceptance

namespace RowStore.Sql

structure IsName (name : String) : Prop where
  some_ : name.toList ≠ []
  word : ∀ c ∈ name.toList, isWordChar c = true
  short : Text.byteSize name.toList ≤ Text.clipLimit

namespace IsName

variable {name : String}

theorem not_mem (h : IsName name) {c : Char} (other : isWordChar c = false) : c ∉ name.toList := by
  intro mem
  rw [h.word c mem] at other
  cases other

end IsName

def Statement.names : Statement → List String
  | .createDatabase name | .dropDatabase name | .useDatabase name | .dropTable name => [name.name]
  | .createTable name columns => name.name :: columns.map fun c => c.name.name
  | .showNames _ => []
  | .insert table _ _ => [table.name]
  | .select _ table _ => [table.name]

structure Statement.WellNamed (s : Statement) : Prop where
  names : ∀ name ∈ s.names, IsName name
  columns : ∀ name columns, s = .createTable name columns → columns ≠ []

section Words

variable {text : String} {t : Token}

theorem text_of_identifier (h : .ok t ∈ scan text) (kind : t.kind = .identifier) :
    ∃ c cs, t.text.toList = c :: cs ∧ c.isAlpha = true ∧ Keyword.ofWord? (c :: cs) = none ∧
      ∀ d ∈ t.text.toList, isWordChar d = true := by
  obtain ⟨pos, c, cs, -, eq⟩ := mem_scan h
  obtain ⟨at_, chars⟩ := itemAt_eq_ok eq.symm
  rw [kind, kindOf?] at at_
  split at at_
  · split at at_ <;> cases at_
  · cases at_
  · rename_i start
    have letter := isAlpha_of_start start
    refine ⟨c, _, chars, letter, ?_, ?_⟩
    · cases word : Keyword.ofWord? (c :: tailOf c cs) with
      | none => rfl
      | some k => simp [word] at at_
    · intro d mem
      rw [chars, tailOf, start] at mem
      cases mem with
      | head => simp [isWordChar, Char.isAlphanum, letter]
      | tail _ mem => exact List.mem_takeWhile_imp mem
  · exact absurd rfl (kind_of_symbol at_).1

theorem isName_of_name {x : Identifier} (h : .ok t ∈ scan text) (name : Grammar.Name t x) :
    IsName x.name := by
  cases name with
  | @mk short kind cut =>
    obtain ⟨c, cs, chars, -, -, word⟩ := text_of_identifier h kind
    obtain ⟨within, fits, longest⟩ := cut
    have first : [c] <+: short := by
      apply longest
      · exact ⟨cs, chars.symm⟩
      · have size := c.utf8Size_le_four
        simp only [Text.byteSize]
        omega
    refine ⟨?_, ?_, ?_⟩
    · rw [String.toList_ofList]
      rintro rfl
      cases first.length_le
    · rw [String.toList_ofList]
      exact fun d mem => word d (within.subset mem)
    · rw [String.toList_ofList]
      exact fits

end Words

section Statements

variable {text : String} {s : Statement}

open Grammar

theorem isName_of_definitions {ts : List Token} {columns : List ColumnDefinition}
    (tokens : ∀ t ∈ ts, .ok t ∈ scan text) (h : Many Definition ts columns) :
    ∀ c ∈ columns, IsName c.name.name := by
  induction h with
  | nil => simp
  | @cons ts rest a as first _ ih =>
    have later := ih fun t mem => tokens t (List.mem_append_right _ mem)
    intro c mem
    cases mem with
    | tail _ mem => exact later c mem
    | head =>
      have head : ∀ t ∈ ts, .ok t ∈ scan text := fun t mem => tokens t (List.mem_append_left _ mem)
      cases first with
      | plain hx ht | comma hx ht hk => exact isName_of_name (head _ List.mem_cons_self) hx

theorem wellNamed_of_phrase {ts : List Token} (tokens : ∀ t ∈ ts, .ok t ∈ scan text)
    (h : Phrase ts s) : s.WellNamed := by
  cases h with
  | createDatabase hc hd hx | dropDatabase hc hd hx | dropTable hc hd hx =>
    refine ⟨?_, nofun⟩
    simpa [Statement.names] using isName_of_name (tokens _ (by simp)) hx
  | useDatabase hu hx =>
    refine ⟨?_, nofun⟩
    simpa [Statement.names] using isName_of_name (tokens _ (by simp)) hx
  | showDatabases | showTables => exact ⟨nofun, nofun⟩
  | createTable hc ht hx ho hd some_ hr =>
    have columns := isName_of_definitions (fun t mem => tokens t (by simp [mem])) hd
    have table := isName_of_name (tokens _ (by simp)) hx
    refine ⟨?_, ?_⟩
    · simpa [Statement.names] using ⟨table, columns⟩
    · rintro _ _ ⟨⟩
      exact some_
  | insert hi hn hx ht hv ho hl hr =>
    refine ⟨?_, nofun⟩
    simpa [Statement.names] using isName_of_name (tokens _ (by simp)) hx
  | select hs hc hf hx hw =>
    refine ⟨?_, nofun⟩
    simpa [Statement.names] using isName_of_name (tokens _ (by simp)) hx

theorem exists_sentence (h : .ok s ∈ parse text) :
    ∃ ts, (∀ t ∈ ts, .ok t ∈ scan text) ∧ Sentence ts s := by
  rw [parse_eq_read] at h
  obtain ⟨run, member, read⟩ := exists_run h
  obtain ⟨ts, rfl, sentence⟩ := (read_run_eq_ok member).1 read
  refine ⟨ts, ?_, sentence⟩
  intro t mem
  exact mem_of_mem_runs member (List.mem_map_of_mem mem)

theorem wellNamed_of_mem_parse (h : .ok s ∈ parse text) : s.WellNamed := by
  obtain ⟨ts, tokens, sentence⟩ := exists_sentence h
  cases sentence with
  | mk phrase _ => exact wellNamed_of_phrase (fun t mem => tokens t (by simp [mem])) phrase

end Statements

end RowStore.Sql
