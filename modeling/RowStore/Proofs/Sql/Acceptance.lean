import RowStore.Proofs.Sql.Descent
import RowStore.Proofs.Sql.Prefix
import RowStore.Proofs.Sql.Runs
import RowStore.Proofs.Sql.Scan

namespace RowStore.Sql

open Grammar

namespace Draft

def acceptAll (d : Draft) : List Token → Option Draft
  | [] => some d
  | t :: ts => match d.accept t with
    | some d' => d'.acceptAll ts
    | none => none

theorem acceptAll_cons {d d' : Draft} {t : Token} (h : d.accept t = some d') (ts : List Token) :
    d.acceptAll (t :: ts) = d'.acceptAll ts := by
  simp only [acceptAll, h]

theorem acceptAll_append {d d' : Draft} {ts : List Token} (h : d.acceptAll ts = some d')
    (us : List Token) : d.acceptAll (ts ++ us) = d'.acceptAll us := by
  induction ts generalizing d with
  | nil =>
    cases h
    rfl
  | cons t ts ih =>
    cases accepted : d.accept t with
    | none => simp [acceptAll, accepted] at h
    | some e =>
      rw [acceptAll_cons accepted] at h
      rw [List.cons_append, acceptAll_cons accepted, ih h]

theorem reads_acceptAll {pre ts : List Token} {d d' : Draft} (h : Reads pre d)
    (quotes : ∀ t ∈ ts, t.WellQuoted) (steps : d.acceptAll ts = some d') : Reads (pre ++ ts) d' := by
  induction ts generalizing pre d with
  | nil =>
    cases steps
    simpa using h
  | cons t ts ih =>
    cases step : d.accept t with
    | none => simp [acceptAll, step] at steps
    | some e =>
      rw [acceptAll_cons step] at steps
      have reads := h.accept (quotes t List.mem_cons_self) step
      simpa using ih reads (fun u hu => quotes u (List.mem_cons_of_mem _ hu)) steps

theorem acceptAll_names {ts : List Token} {u : ListUse} {names : List Identifier}
    (former : List Identifier) (rest : List Token) (h : Commas Name ts names) :
    (listName u former).acceptAll (ts ++ rest)
      = (afterListName u (former ++ names)).acceptAll rest := by
  induction h generalizing former with
  | one hx => simp [acceptAll, accept, Token.identifier?_eq_some.2 hx]
  | more hx hk _ ih => simp [acceptAll, accept, Token.identifier?_eq_some.2 hx, hk, ih]

theorem closing_ne_comma (u : ListUse) : u.closing ≠ .comma := by cases u <;> simp [ListUse.closing]

theorem acceptAll_list {cs : List Token} {r : Token} {u : ListUse} {columns : Columns}
    (rest : List Token) (h : ColumnList cs columns) (hr : r.kind = u.closing) :
    (list u).acceptAll (cs ++ r :: rest) = (u.next columns).acceptAll rest := by
  cases h with
  | all ha => simp [acceptAll, accept, ha, Token.goesOn, hr]
  | named ns => cases ns with
    | one hx =>
      simp [acceptAll, accept, hx.kind, Token.identifier?_eq_some.2 hx, closing_ne_comma, Token.goesOn, hr]
    | more hx hk ns =>
      simp [acceptAll, accept, hx.kind, Token.identifier?_eq_some.2 hx, hk,
        acceptAll_names [_] (r :: rest) ns, closing_ne_comma, Token.goesOn, hr]

theorem acceptAll_values {ls : List Token} {i : Insertion} {values : List Literal}
    (former : List Literal) (rest : List Token) (h : Commas Value ls values) :
    (value i former).acceptAll (ls ++ rest)
      = (afterValue i (former ++ values)).acceptAll rest := by
  induction h generalizing former with
  | one hl => simp [acceptAll, accept, Token.literal?_of_value hl]
  | more hl hk _ ih => simp [acceptAll, accept, Token.literal?_of_value hl, hk, ih]

theorem acceptAll_definitions {ds : List Token} {r : Token} (name : Identifier)
    {columns : List ColumnDefinition} (former : List ColumnDefinition) (rest : List Token)
    (h : Many Definition ds columns) (hr : r.kind = .rightParen) :
    (afterColumn name former).acceptAll (ds ++ r :: rest)
        = (whole (.createTable name (former ++ columns))).acceptAll rest ∧
      (afterColumnComma name former).acceptAll (ds ++ r :: rest)
        = (whole (.createTable name (former ++ columns))).acceptAll rest := by
  induction h generalizing former with
  | nil => simp [acceptAll, accept, hr]
  | cons hd _ ih =>
    cases hd with
    | @plain x d column type hx ht =>
      have next := (ih (former ++ [⟨column, type⟩])).1
      simp [acceptAll, accept, hx.kind, Token.identifier?_eq_some.2 hx,
        Token.dataType?_eq_some.2 ht, next]
    | @comma x d comma column type hx ht hk =>
      have next := (ih (former ++ [⟨column, type⟩])).2
      simp [acceptAll, accept, hx.kind, Token.identifier?_eq_some.2 hx,
        Token.dataType?_eq_some.2 ht, hk, next]

theorem acceptAll_firstColumn {ds : List Token} {r : Token} (name : Identifier)
    {columns : List ColumnDefinition} (rest : List Token) (h : Many Definition ds columns)
    (some_ : columns ≠ []) (hr : r.kind = .rightParen) :
    (firstColumn name).acceptAll (ds ++ r :: rest)
      = (whole (.createTable name columns)).acceptAll rest := by
  cases h with
  | nil => exact absurd rfl some_
  | cons hd others => cases hd with
    | @plain x d column type hx ht =>
      have next := (acceptAll_definitions name [⟨column, type⟩] rest others hr).1
      simp [acceptAll, accept, Token.identifier?_eq_some.2 hx, Token.dataType?_eq_some.2 ht, next]
    | @comma x d comma column type hx ht hk =>
      have next := (acceptAll_definitions name [⟨column, type⟩] rest others hr).2
      simp [acceptAll, accept, Token.identifier?_eq_some.2 hx, Token.dataType?_eq_some.2 ht, hk,
        next]

theorem acceptAll_test {ts : List Token} {s : Selection} {c : Condition} (j : Junction)
    (rest : List Token) (h : Test ts c) :
    (condition s j).acceptAll (ts ++ rest)
      = (afterCondition s (Junction.add c j)).acceptAll rest := by
  cases h with
  | mk hx ho hl =>
    simp [acceptAll, accept, Token.identifier?_eq_some.2 hx, Token.comparator?_eq_some.2 ho,
      Token.literal?_of_value hl]

theorem acceptAll_links {ts : List Token} {s : Selection} {links : List (Connective × Condition)}
    (f : Filter) (rest : List Token) (h : Many Link ts links) :
    (afterCondition s f).acceptAll (ts ++ rest)
      = (afterCondition s ⟨f.first, f.rest ++ links⟩).acceptAll rest := by
  induction h generalizing f with
  | nil => simp
  | cons hl _ ih => cases hl with
    | mk hj ht =>
      simp [acceptAll, accept, Token.connective?_eq_some.2 hj, acceptAll_test _ _ ht, ih,
        Junction.add]

theorem acceptAll_where {ws : List Token} {s : Selection} {filter : Option Filter}
    (h : Where ws filter) :
    ∃ d, (afterTable s).acceptAll ws = some d ∧
      d.closed? = some (.select s.columns s.table filter) := by
  cases h with
  | absent => exact ⟨_, rfl, rfl⟩
  | @present w ts rest first links hw ht hl =>
    refine ⟨.afterCondition s ⟨first, links⟩, ?_, rfl⟩
    have tests := acceptAll_test (s := s) none rest ht
    have others := acceptAll_links (s := s) ⟨first, []⟩ [] hl
    simp only [List.append_nil, List.nil_append] at others
    simp [acceptAll, accept, Token.goesOn, hw, tests, Junction.add, others]

theorem acceptAll_targets {cs : List Token} {v : Token} (table : Identifier)
    {columns : Option Columns} (rest : List Token) (h : Targets cs columns)
    (hv : v.kind = .keyword .VALUES) :
    (afterInsertTable table).acceptAll (cs ++ v :: rest)
      = (valuesOpen ⟨table, columns⟩).acceptAll rest := by
  cases h with
  | absent => simp [acceptAll, accept, hv]
  | present ho hc hr =>
    have list := acceptAll_list (u := .insert table) (v :: rest) hc hr
    simp [acceptAll, accept, ho, list, ListUse.next, Token.goesOn, hv]

theorem acceptAll_phrase {ts : List Token} {s : Statement} (h : Phrase ts s) :
    ∃ d, start.acceptAll ts = some d ∧ d.closed? = some s := by
  cases h with
  | createDatabase hc hd hx =>
    exact ⟨.whole _, by simp [acceptAll, accept, hc, hd, Token.identifier?_eq_some.2 hx]; rfl, rfl⟩
  | dropDatabase hp hd hx =>
    exact ⟨.whole _, by simp [acceptAll, accept, hp, hd, Token.identifier?_eq_some.2 hx]; rfl, rfl⟩
  | dropTable hp ht hx =>
    exact ⟨.whole _, by simp [acceptAll, accept, hp, ht, Token.identifier?_eq_some.2 hx]; rfl, rfl⟩
  | useDatabase hu hx =>
    exact ⟨.whole _, by simp [acceptAll, accept, hu, Token.identifier?_eq_some.2 hx]; rfl, rfl⟩
  | showDatabases hs hd => exact ⟨.whole _, by simp [acceptAll, accept, hs, hd], rfl⟩
  | showTables hs ht => exact ⟨.whole _, by simp [acceptAll, accept, hs, ht], rfl⟩
  | @createTable c t x o r ts name columns hc ht hx ho hd some_ hr =>
    have definitions := acceptAll_firstColumn name [] hd some_ hr
    refine ⟨.whole _, ?_, rfl⟩
    simp [acceptAll, accept, hc, ht, Token.identifier?_eq_some.2 hx, Token.goesOn, ho, definitions]
  | @insert i n x v o r cs ls table columns values hi hn hx ht hv ho hl hr =>
    have targets := acceptAll_targets table (o :: (ls ++ [r])) ht hv
    have literals := acceptAll_values (i := ⟨table, columns⟩) [] [r] hl
    refine ⟨.whole _, ?_, rfl⟩
    simp [acceptAll, accept, hi, Token.goesOn, hn, Token.identifier?_eq_some.2 hx, targets, ho,
      literals, hr]
  | @select s f x cs ws columns table filter hs hc hf hx hw =>
    have list := acceptAll_list (u := .select) (x :: ws) hc hf
    obtain ⟨d, steps, closed⟩ := acceptAll_where (s := ⟨columns, table⟩) hw
    refine ⟨d, ?_, closed⟩
    simp [acceptAll, accept, hs, list, ListUse.next, Token.identifier?_eq_some.2 hx, steps]

theorem phrase_iff {ts : List Token} {s : Statement} (quotes : ∀ t ∈ ts, t.WellQuoted) :
    Phrase ts s ↔ ∃ d, start.acceptAll ts = some d ∧ d.closed? = some s := by
  constructor
  · exact acceptAll_phrase
  · rintro ⟨d, steps, closed⟩
    have reads : Reads ([] ++ ts) d := reads_acceptAll .start quotes steps
    exact reads.phrase closed

end Draft

theorem kind_of_acceptAll {ts : List Token} {d d' : Draft} (h : d.acceptAll ts = some d') :
    ∀ t ∈ ts, t.kind ≠ .semicolon := by
  induction ts generalizing d with
  | nil => nofun
  | cons t ts ih =>
    cases accepted : d.accept t with
    | none => simp [Draft.acceptAll, accepted] at h
    | some e =>
      rw [Draft.acceptAll_cons accepted] at h
      refine List.forall_mem_cons.2 ⟨?_, ih h⟩
      intro kind
      simp [d.accept_semicolon kind] at accepted

namespace Reader

theorem read_reading_eq_ok {size : Nat} {d : Draft} {p : List Item} {s : Statement} (h : Piece p) :
    read size (.reading d) p = [.ok s] ↔ ∃ ts semicolon d', p = (ts ++ [semicolon]).map .ok ∧
      semicolon.kind = .semicolon ∧ d.acceptAll ts = some d' ∧ d'.closed? = some s := by
  -- Only the last item of a piece can be the semicolon that closes the statement.
  induction h generalizing d with
  | @last i =>
    constructor
    · intro h
      cases i with
      | error e => simp [read, step, advance] at h
      | ok t =>
        simp only [read, step, advance] at h
        split at h
        · rename_i kind
          split at h
          · rename_i closed
            cases h
            exact ⟨[], t, d, rfl, kind, rfl, closed⟩
          · cases h
        · split at h <;> cases h
    · rintro ⟨ts, semicolon, d', eq, kind, steps, closed⟩
      cases ts with
      | cons t ts => simp at eq
      | nil =>
        cases eq
        cases steps
        simp [read, step, advance, kind, closed, finish]
  | @cons i p hi hp ih =>
    cases i with
    | error e =>
      constructor
      · intro h
        simp [read, step, advance] at h
      · rintro ⟨ts, semicolon, d', eq, -⟩
        cases ts <;> simp at eq
    | ok t =>
      have kind : t.kind ≠ .semicolon := by simpa [Item.isSemicolon] using hi
      simp only [read, step, advance, if_neg kind]
      constructor
      · intro h
        cases accepted : d.accept t with
        | none => simp [accepted] at h
        | some e =>
          simp only [accepted] at h
          obtain ⟨ts, semicolon, d', rfl, semi, steps, closed⟩ := ih.1 h
          exact ⟨t :: ts, semicolon, d', rfl, semi, by rw [Draft.acceptAll_cons accepted, steps],
            closed⟩
      · rintro ⟨ts, semicolon, d', eq, semi, steps, closed⟩
        cases ts with
        | nil =>
          cases eq
          exact absurd semi kind
        | cons u us =>
          cases eq
          cases accepted : d.accept t with
          | none => simp [Draft.acceptAll, accepted] at steps
          | some e =>
            rw [Draft.acceptAll_cons accepted] at steps
            exact ih.2 ⟨us, semicolon, d', rfl, semi, steps, closed⟩

end Reader

theorem read_run_eq_ok {text : String} {run : List Item} {s : Statement}
    (h : run ∈ runs (scan text)) :
    Reader.read text.utf8ByteSize .between run = [.ok s] ↔
      ∃ ts, run = ts.map .ok ∧ Sentence ts s := by
  obtain ⟨piece, opened⟩ := read_run text.utf8ByteSize h
  have quotes {ts : List Token} (eq : run = ts.map .ok) : ∀ t ∈ ts, t.WellQuoted := by
    intro t ht
    apply text_of_string
    apply mem_of_mem_runs h
    rw [eq]
    exact List.mem_map_of_mem ht
  rw [opened, Reader.read_reading_eq_ok piece]
  constructor
  · rintro ⟨ts, semicolon, d, eq, kind, steps, closed⟩
    have inner : ∀ t ∈ ts, t.WellQuoted := fun t ht => quotes eq t (List.mem_append_left _ ht)
    exact ⟨_, eq, .mk ((Draft.phrase_iff inner).2 ⟨d, steps, closed⟩) kind⟩
  · rintro ⟨_, eq, @⟨ts, _, semicolon, phrase, kind⟩⟩
    obtain ⟨d, steps, closed⟩ := Draft.acceptAll_phrase phrase
    exact ⟨ts, semicolon, d, eq, kind, steps, closed⟩

theorem forall₂_runs (text : String) :
    List.Forall₂ (fun run result => run ∈ runs (scan text) ∧
      Reader.read text.utf8ByteSize .between run = [result]) (runs (scan text)) (parse text) := by
  rw [parse_eq_read]
  exact (List.forall₂_and_left _ _).2
    ⟨fun _ member => member, forall₂_runs_read text.utf8ByteSize (scan text)⟩

/-- Each run of a text settles one result, and the result is a statement exactly when the run is a
sentence for it. -/
theorem forall₂_runs_parse (text : String) :
    (pieces (scan text)).flatten = scan text ∧
      List.Forall₂ (fun run result => ∀ s, result = .ok s ↔ ∃ ts, run = ts.map .ok ∧ Sentence ts s)
        (runs (scan text)) (parse text) := by
  refine ⟨flatten_pieces _, (forall₂_runs text).imp ?_⟩
  rintro run result ⟨member, read⟩ s
  rw [← read_run_eq_ok member, read]
  simp

end RowStore.Sql
