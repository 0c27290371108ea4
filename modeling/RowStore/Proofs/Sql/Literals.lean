import RowStore.Proofs.Sql.Acceptance

namespace RowStore.Sql

def Statement.literals : Statement → List Literal
  | .insert _ _ values => values
  | .select _ _ (some filter) => filter.conditions.map Condition.literal
  | _ => []

def Token.uncut? (t : Token) : Option (List Char) :=
  match t.kind with
  | .number => some t.text.toList
  | .string => some (t.text.toList.drop 1).dropLast
  | _ => none

def uncut (ts : List Token) : List (List Char) := ts.filterMap Token.uncut?

theorem Token.map_text_literal? (t : Token) : t.literal?.map Literal.text
    = t.uncut?.map fun cs => String.ofList (Text.clip Text.clipLimit cs) := by
  rw [literal?, uncut?]
  cases t.kind <;> simp [Literal.text, Text.clipped, quoted]

theorem Token.literal?_of_kind {t : Token} {k : Kind} (kind : t.kind = k)
    (mute : k ∉ [Kind.number, .string]) : t.literal? = none := by
  subst kind
  rw [literal?]
  split
  · rename_i number
    exact absurd (number ▸ .head _) mute
  · rename_i string
    exact absurd (string ▸ .tail _ (.head _)) mute
  · rfl

section Phrases

open Grammar Token

theorem literal?_of_name {t : Token} {x : Identifier} (h : Name t x) : t.literal? = none :=
  literal?_of_kind h.kind (by decide)

theorem literal?_of_typeWord {t : Token} {type : DataType} (h : TypeWord t type) :
    t.literal? = none := by
  cases h <;> exact literal?_of_kind ‹_› (by decide)

theorem literal?_of_comparison {t : Token} {op : Comparator} (h : Comparison t op) :
    t.literal? = none := by
  cases h <;> exact literal?_of_kind ‹_› (by decide)

theorem literal?_of_joint {t : Token} {op : Connective} (h : Joint t op) : t.literal? = none := by
  cases h <;> exact literal?_of_kind ‹_› (by decide)

theorem literals_of_names {ts : List Token} {names : List Identifier} (h : Commas Name ts names) :
    ts.filterMap Token.literal? = [] := by
  induction h with
  | one hx => simp only [List.filterMap_cons, literal?_of_name hx, List.filterMap_nil]
  | more hx hk _ ih =>
    simp only [List.filterMap_cons, literal?_of_name hx, literal?_of_kind hk (by decide), ih]

theorem literals_of_list {ts : List Token} {columns : Columns} (h : ColumnList ts columns) :
    ts.filterMap Token.literal? = [] := by
  cases h with
  | all hk => simp only [List.filterMap_cons, literal?_of_kind hk (by decide), List.filterMap_nil]
  | named hx => exact literals_of_names hx

theorem literals_of_targets {ts : List Token} {columns : Option Columns} (h : Targets ts columns) :
    ts.filterMap Token.literal? = [] := by
  cases h with
  | absent => rfl
  | present ho hc hr =>
    simp only [List.filterMap_append, List.filterMap_cons, literal?_of_kind ho (by decide),
      literals_of_list hc, literal?_of_kind hr (by decide), List.filterMap_nil, List.append_nil]

theorem literals_of_definitions {ts : List Token} {columns : List ColumnDefinition}
    (h : Many Definition ts columns) : ts.filterMap Token.literal? = [] := by
  induction h with
  | nil => rfl
  | cons first _ ih =>
    cases first with
    | plain hx ht =>
      simp only [List.filterMap_append, List.filterMap_cons, literal?_of_name hx,
        literal?_of_typeWord ht, ih, List.filterMap_nil, List.append_nil]
    | comma hx ht hk =>
      simp only [List.filterMap_append, List.filterMap_cons, literal?_of_name hx,
        literal?_of_typeWord ht, literal?_of_kind hk (by decide), ih, List.filterMap_nil,
        List.append_nil]

theorem literals_of_values {ts : List Token} {values : List Literal} (h : Commas Value ts values) :
    ts.filterMap Token.literal? = values := by
  induction h with
  | one hv => simp only [List.filterMap_cons, literal?_of_value hv, List.filterMap_nil]
  | more hv hk _ ih =>
    simp only [List.filterMap_cons, literal?_of_value hv, literal?_of_kind hk (by decide), ih]

theorem literals_of_test {ts : List Token} {c : Condition} (h : Test ts c) :
    ts.filterMap Token.literal? = [c.literal] := by
  cases h with
  | mk hx ho hv =>
    simp only [List.filterMap_cons, literal?_of_name hx, literal?_of_comparison ho,
      literal?_of_value hv, List.filterMap_nil]

theorem literals_of_links {ts : List Token} {links : List (Connective × Condition)}
    (h : Many Link ts links) :
    ts.filterMap Token.literal? = links.map fun link => link.2.literal := by
  induction h with
  | nil => rfl
  | cons first _ ih =>
    cases first with
    | mk hj ht =>
      simp only [List.filterMap_append, List.filterMap_cons, literal?_of_joint hj,
        literals_of_test ht, ih, List.map_cons, List.singleton_append]

theorem literals_of_where {ts : List Token} {filter : Option Filter} (h : Where ts filter)
    (columns : Columns) (table : Identifier) :
    ts.filterMap Token.literal? = (Statement.select columns table filter).literals := by
  cases h with
  | absent => rfl
  | present hw ht hl =>
    simp only [List.filterMap_append, List.filterMap_cons, literal?_of_kind hw (by decide),
      literals_of_test ht, literals_of_links hl, Statement.literals, Filter.conditions, List.map_cons,
      List.map_map, List.singleton_append]
    rfl

theorem literals_of_phrase {ts : List Token} {s : Statement} (h : Phrase ts s) :
    ts.filterMap Token.literal? = s.literals := by
  cases h with
  | createDatabase hc hd hx | dropDatabase hc hd hx | dropTable hc hd hx =>
    simp only [List.filterMap_cons, literal?_of_kind hc (by decide),
      literal?_of_kind hd (by decide), literal?_of_name hx, List.filterMap_nil, Statement.literals]
  | useDatabase hu hx =>
    simp only [List.filterMap_cons, literal?_of_kind hu (by decide), literal?_of_name hx,
      List.filterMap_nil, Statement.literals]
  | showDatabases hs ht | showTables hs ht =>
    simp only [List.filterMap_cons, literal?_of_kind hs (by decide),
      literal?_of_kind ht (by decide), List.filterMap_nil, Statement.literals]
  | createTable hc ht hx ho hd _ hr =>
    simp only [List.filterMap_append, List.filterMap_cons, literal?_of_kind hc (by decide),
      literal?_of_kind ht (by decide), literal?_of_name hx, literal?_of_kind ho (by decide),
      literals_of_definitions hd, literal?_of_kind hr (by decide), List.filterMap_nil,
      List.append_nil, Statement.literals]
  | insert hi hn hx hc hv ho hl hr =>
    simp only [List.filterMap_append, List.filterMap_cons, literal?_of_kind hi (by decide),
      literal?_of_kind hn (by decide), literal?_of_name hx, literals_of_targets hc,
      literal?_of_kind hv (by decide), literal?_of_kind ho (by decide), literals_of_values hl,
      literal?_of_kind hr (by decide), List.filterMap_nil, List.append_nil, List.nil_append,
      Statement.literals]
  | select hs hc hf hx hw =>
    simp only [List.filterMap_append, List.filterMap_cons, literal?_of_kind hs (by decide),
      literals_of_list hc, literal?_of_kind hf (by decide), literal?_of_name hx, List.nil_append]
    exact literals_of_where hw _ _

theorem literals_of_sentence {ts : List Token} {s : Statement} (h : Sentence ts s) :
    ts.filterMap Token.literal? = s.literals := by
  cases h with
  | mk phrase semicolon =>
    simp only [List.filterMap_append, List.filterMap_cons, literals_of_phrase phrase,
      literal?_of_kind semicolon (by decide), List.filterMap_nil, List.append_nil]

theorem map_text_literals {ts : List Token} {s : Statement} (h : Sentence ts s) :
    s.literals.map Literal.text
      = (uncut ts).map fun cs => String.ofList (Text.clip Text.clipLimit cs) := by
  rw [← literals_of_sentence h, uncut, List.map_filterMap, List.map_filterMap]
  exact congrArg (List.filterMap · ts) (funext Token.map_text_literal?)

end Phrases

/-- The statement stands in a text, as these tokens. -/
structure Says (text : String) (ts : List Token) (s : Statement) : Prop where
  run : ts.map .ok ∈ runs (scan text)
  sentence : Grammar.Sentence ts s

namespace Says

variable {text : String} {ts : List Token} {s : Statement}

theorem of_read (run : ts.map .ok ∈ runs (scan text))
    (read : Reader.read text.utf8ByteSize .between (ts.map .ok) = [.ok s]) : Says text ts s := by
  obtain ⟨ts', eq, sentence⟩ := (read_run_eq_ok run).1 read
  cases (List.map_inj_right fun _ _ => Except.ok.inj).1 eq
  exact ⟨run, sentence⟩

theorem mem_parse (h : Says text ts s) : .ok s ∈ parse text := by
  rw [parse_eq_read, Reader.read_between_pieces]
  refine List.mem_flatMap.2 ⟨_, (List.mem_filter.1 h.run).1, ?_⟩
  rw [(read_run_eq_ok h.run).2 ⟨ts, rfl, h.sentence⟩]
  exact List.mem_singleton_self _

theorem exists_literal {i : Nat} {cs : List Char} (h : Says text ts s)
    (written : (uncut ts)[i]? = some cs) : ∃ l, s.literals[i]? = some l ∧
      l.text = String.ofList (Text.clip Text.clipLimit cs) := by
  have kept := congrArg (fun texts => texts[i]?) (map_text_literals h.sentence)
  simpa only [List.getElem?_map, written, Option.map_some, Option.map_eq_some_iff] using kept

end Says

end RowStore.Sql
