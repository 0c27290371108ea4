import RowStore.Proofs.Sql.Grammar

namespace RowStore.Sql

open Grammar

namespace Token

def WellQuoted (t : Token) : Prop :=
  t.kind = .string → ∃ quote content, t.text.toList = quote :: (content ++ [quote])

theorem quoted_eq {t : Token} {quote : Char} {content : List Char}
    (h : t.text.toList = quote :: (content ++ [quote])) :
    t.quoted = String.ofList (Text.clip Text.clipLimit content) := by
  simp [quoted, Text.clipped, h]

theorem identifier?_eq_some {t : Token} {x : Identifier} : t.identifier? = some x ↔ Name t x := by
  constructor
  · intro h
    rw [identifier?] at h
    split at h
    · rename_i kind
      cases h
      exact .mk kind (cut_clip _)
    · cases h
  · rintro ⟨kind, cut⟩
    rw [cut_iff.1 cut, identifier?, if_pos kind]
    rfl

theorem literal?_of_value {t : Token} {l : Literal} (h : Value t l) : t.literal? = some l := by
  cases h with
  | number kind cut =>
    simp only [literal?, kind, cut_iff.1 cut]
    rfl
  | string kind text cut => simp only [literal?, kind, quoted_eq text, cut_iff.1 cut]

theorem value_of_literal? {t : Token} {l : Literal} (quotes : t.WellQuoted)
    (h : t.literal? = some l) : Value t l := by
  rw [literal?] at h
  split at h
  · rename_i kind
    cases h
    exact .number kind (cut_clip _)
  · rename_i kind
    obtain ⟨quote, content, text⟩ := quotes kind
    cases h
    rw [quoted_eq text]
    exact .string kind text (cut_clip _)
  · cases h

theorem dataType?_eq_some {t : Token} {d : DataType} : t.dataType? = some d ↔ TypeWord t d := by
  constructor
  · intro h
    rw [dataType?] at h
    split at h <;> cases h <;> constructor <;> assumption
  · intro h
    cases h <;> simp only [dataType?, *]

theorem comparator?_eq_some {t : Token} {op : Comparator} :
    t.comparator? = some op ↔ Comparison t op := by
  constructor
  · intro h
    rw [comparator?] at h
    split at h <;> cases h <;> constructor <;> assumption
  · intro h
    cases h <;> simp only [comparator?, *]

theorem connective?_eq_some {t : Token} {op : Connective} : t.connective? = some op ↔ Joint t op := by
  constructor
  · intro h
    rw [connective?] at h
    split at h <;> cases h <;> constructor <;> assumption
  · intro h
    cases h <;> simp only [connective?, *]

theorem goesOn_eq_some {t : Token} {k : Kind} {d d' : Draft} :
    t.goesOn k d = some d' ↔ t.kind = k ∧ d = d' := by
  simp [goesOn]

end Token

namespace Grammar

inductive NameLead : List Token → NameUse → Prop
  | createDatabase {c d : Token} : c.kind = .keyword .CREATE → d.kind = .keyword .DATABASE →
      NameLead [c, d] .createDatabase
  | dropDatabase {p d : Token} : p.kind = .keyword .DROP → d.kind = .keyword .DATABASE →
      NameLead [p, d] .dropDatabase
  | dropTable {p t : Token} : p.kind = .keyword .DROP → t.kind = .keyword .TABLE →
      NameLead [p, t] .dropTable
  | useDatabase {u : Token} : u.kind = .keyword .USE → NameLead [u] .useDatabase

inductive TableLead : List Token → Identifier → Prop
  | mk {c t x o : Token} {name : Identifier} : c.kind = .keyword .CREATE →
      t.kind = .keyword .TABLE → Name x name → o.kind = .leftParen → TableLead [c, t, x, o] name

inductive ListLead : List Token → ListUse → Prop
  | insert {i n x o : Token} {table : Identifier} : i.kind = .keyword .INSERT →
      n.kind = .keyword .INTO → Name x table → o.kind = .leftParen →
      ListLead [i, n, x, o] (.insert table)
  | select {s : Token} : s.kind = .keyword .SELECT → ListLead [s] .select

inductive InsertLead : List Token → Insertion → Prop
  | mk {i n x : Token} {cs : List Token} {table : Identifier} {columns : Option Columns} :
      i.kind = .keyword .INSERT → n.kind = .keyword .INTO → Name x table → Targets cs columns →
      InsertLead (i :: n :: x :: cs) ⟨table, columns⟩

inductive ValuesLead : List Token → Insertion → Prop
  | mk {ts : List Token} {v o : Token} {i : Insertion} : InsertLead ts i →
      v.kind = .keyword .VALUES → o.kind = .leftParen → ValuesLead (ts ++ [v, o]) i

inductive SelectLead : List Token → Selection → Prop
  | mk {s f x : Token} {cs : List Token} {columns : Columns} {table : Identifier} :
      s.kind = .keyword .SELECT → ColumnList cs columns → f.kind = .keyword .FROM →
      Name x table → SelectLead (s :: (cs ++ [f, x])) ⟨columns, table⟩

inductive Tests : List Token → Filter → Prop
  | mk {ts rest : List Token} {first : Condition} {links : List (Connective × Condition)} :
      Test ts first → Many Link rest links → Tests (ts ++ rest) ⟨first, links⟩

inductive TestsBefore : List Token → Junction → Prop
  | first : TestsBefore [] none
  | joined {ts : List Token} {j : Token} {f : Filter} {op : Connective} : Tests ts f → Joint j op →
      TestsBefore (ts ++ [j]) (some (f, op))

inductive WhereLead : List Token → Selection → Junction → Prop
  | mk {ts rest : List Token} {w : Token} {s : Selection} {j : Junction} : SelectLead ts s →
      w.kind = .keyword .WHERE → TestsBefore rest j → WhereLead (ts ++ w :: rest) s j

/-- The tokens that lead to a draft. -/
inductive Reads : List Token → Draft → Prop
  | start : Reads [] .start
  | whole {ts : List Token} {s : Statement} : Phrase ts s → Reads ts (.whole s)
  | create {c : Token} : c.kind = .keyword .CREATE → Reads [c] .create
  | drop {p : Token} : p.kind = .keyword .DROP → Reads [p] .drop
  | naming {ts : List Token} {u : NameUse} : NameLead ts u → Reads ts (.naming u)
  | tableName {c t : Token} : c.kind = .keyword .CREATE → t.kind = .keyword .TABLE →
      Reads [c, t] .tableName
  | tableOpen {c t x : Token} {name : Identifier} : c.kind = .keyword .CREATE →
      t.kind = .keyword .TABLE → Name x name → Reads [c, t, x] (.tableOpen name)
  | firstColumn {ts : List Token} {name : Identifier} : TableLead ts name →
      Reads ts (.firstColumn name)
  | columnType {ts ds : List Token} {x : Token} {name column : Identifier}
      {columns : List ColumnDefinition} : TableLead ts name → Many Definition ds columns →
      Name x column → Reads (ts ++ (ds ++ [x])) (.columnType name columns column)
  | afterColumn {ts ds : List Token} {x d : Token} {name column : Identifier} {type : DataType}
      {columns : List ColumnDefinition} : TableLead ts name → Many Definition ds columns →
      Name x column → TypeWord d type →
      Reads (ts ++ (ds ++ [x, d])) (.afterColumn name (columns ++ [⟨column, type⟩]))
  | afterColumnComma {ts ds : List Token} {name : Identifier} {columns : List ColumnDefinition} :
      TableLead ts name → Many Definition ds columns → columns ≠ [] →
      Reads (ts ++ ds) (.afterColumnComma name columns)
  | showTarget {s : Token} : s.kind = .keyword .SHOW → Reads [s] .showTarget
  | insert {i : Token} : i.kind = .keyword .INSERT → Reads [i] .insert
  | insertTable {i n : Token} : i.kind = .keyword .INSERT → n.kind = .keyword .INTO →
      Reads [i, n] .insertTable
  | afterInsertTable {i n x : Token} {table : Identifier} : i.kind = .keyword .INSERT →
      n.kind = .keyword .INTO → Name x table → Reads [i, n, x] (.afterInsertTable table)
  | valuesWord {ts : List Token} {i : Insertion} : InsertLead ts i → Reads ts (.valuesWord i)
  | valuesOpen {ts : List Token} {v : Token} {i : Insertion} : InsertLead ts i →
      v.kind = .keyword .VALUES → Reads (ts ++ [v]) (.valuesOpen i)
  | firstValue {ts : List Token} {i : Insertion} : ValuesLead ts i → Reads ts (.value i [])
  | value {ts ls : List Token} {comma : Token} {i : Insertion} {values : List Literal} :
      ValuesLead ts i → Commas Value ls values → comma.kind = .comma →
      Reads (ts ++ (ls ++ [comma])) (.value i values)
  | afterValue {ts ls : List Token} {i : Insertion} {values : List Literal} : ValuesLead ts i →
      Commas Value ls values → Reads (ts ++ ls) (.afterValue i values)
  | list {ts : List Token} {u : ListUse} : ListLead ts u → Reads ts (.list u)
  | afterAll {ts : List Token} {a : Token} {u : ListUse} : ListLead ts u → a.kind = .asterisk →
      Reads (ts ++ [a]) (.afterAll u)
  | listName {ts ns : List Token} {comma : Token} {u : ListUse} {names : List Identifier} :
      ListLead ts u → Commas Name ns names → comma.kind = .comma →
      Reads (ts ++ (ns ++ [comma])) (.listName u names)
  | afterListName {ts ns : List Token} {u : ListUse} {names : List Identifier} : ListLead ts u →
      Commas Name ns names → Reads (ts ++ ns) (.afterListName u names)
  | fromTable {s f : Token} {cs : List Token} {columns : Columns} : s.kind = .keyword .SELECT →
      ColumnList cs columns → f.kind = .keyword .FROM → Reads (s :: (cs ++ [f])) (.fromTable columns)
  | afterTable {ts : List Token} {s : Selection} : SelectLead ts s → Reads ts (.afterTable s)
  | condition {ts : List Token} {s : Selection} {j : Junction} : WhereLead ts s j →
      Reads ts (.condition s j)
  | comparator {ts : List Token} {x : Token} {s : Selection} {j : Junction} {column : Identifier} :
      WhereLead ts s j → Name x column → Reads (ts ++ [x]) (.comparator s j column)
  | comparand {ts : List Token} {x o : Token} {s : Selection} {j : Junction} {column : Identifier}
      {op : Comparator} : WhereLead ts s j → Name x column → Comparison o op →
      Reads (ts ++ [x, o]) (.comparand s j column op)
  | afterCondition {ts rest : List Token} {w : Token} {s : Selection} {f : Filter} :
      SelectLead ts s → w.kind = .keyword .WHERE → Tests rest f →
      Reads (ts ++ w :: rest) (.afterCondition s f)

theorem NameLead.phrase {ts : List Token} {u : NameUse} {x : Token} {name : Identifier}
    (h : NameLead ts u) (hx : Name x name) : Phrase (ts ++ [x]) (u.statement name) := by
  cases h with
  | createDatabase hc hd => exact .createDatabase hc hd hx
  | dropDatabase hp hd => exact .dropDatabase hp hd hx
  | dropTable hp ht => exact .dropTable hp ht hx
  | useDatabase hu => exact .useDatabase hu hx

theorem TableLead.phrase {ts ds : List Token} {r : Token} {name : Identifier}
    {columns : List ColumnDefinition} (h : TableLead ts name) (hd : Many Definition ds columns)
    (some_ : columns ≠ []) (hr : r.kind = .rightParen) :
    Phrase (ts ++ (ds ++ [r])) (.createTable name columns) := by
  cases h with
  | mk hc ht hx ho => exact .createTable hc ht hx ho hd some_ hr

theorem ValuesLead.phrase {ts ls : List Token} {r : Token} {i : Insertion} {values : List Literal}
    (h : ValuesLead ts i) (hl : Commas Value ls values) (hr : r.kind = .rightParen) :
    Phrase (ts ++ (ls ++ [r])) (.insert i.table i.columns values) := by
  cases h with
  | mk lead hv ho => cases lead with
    | mk hi hn hx hc => simpa using Phrase.insert hi hn hx hc hv ho hl hr

theorem SelectLead.phrase {ts ws : List Token} {s : Selection} {filter : Option Filter}
    (h : SelectLead ts s) (hw : Where ws filter) :
    Phrase (ts ++ ws) (.select s.columns s.table filter) := by
  cases h with
  | mk hs hc hf hx => simpa using Phrase.select hs hc hf hx hw

theorem ListLead.next {ts cs : List Token} {r : Token} {u : ListUse} {columns : Columns}
    (h : ListLead ts u) (hc : ColumnList cs columns) (hr : r.kind = u.closing) :
    Reads (ts ++ (cs ++ [r])) (u.next columns) := by
  cases h with
  | insert hi hn hx ho => exact .valuesWord (.mk hi hn hx (.present ho hc hr))
  | select hs => exact .fromTable hs hc hr

theorem TestsBefore.add {ts last : List Token} {j : Junction} {c : Condition}
    (h : TestsBefore ts j) (hc : Test last c) : Tests (ts ++ last) (Junction.add c j) := by
  cases h with
  | first => simpa [Junction.add] using Tests.mk hc .nil
  | joined tests joint => cases tests with
    | mk first links => simpa [Junction.add] using Tests.mk first (links.snoc (.mk joint hc))

theorem WhereLead.add {ts last : List Token} {s : Selection} {j : Junction} {c : Condition}
    (h : WhereLead ts s j) (hc : Test last c) :
    Reads (ts ++ last) (.afterCondition s (Junction.add c j)) := by
  cases h with
  | mk lead word before => simpa using Reads.afterCondition lead word (before.add hc)

theorem Reads.accept {ts : List Token} {t : Token} {d d' : Draft} (h : Reads ts d)
    (quotes : t.WellQuoted) (step : d.accept t = some d') : Reads (ts ++ [t]) d' := by
  cases h with
  | start =>
    rw [Draft.accept] at step
    split at step <;> cases step
    · exact .create ‹_›
    · exact .drop ‹_›
    · exact .naming (.useDatabase ‹_›)
    · exact .showTarget ‹_›
    · exact .insert ‹_›
    · exact .list (.select ‹_›)
  | whole => cases step
  | create hc =>
    rw [Draft.accept] at step
    split at step <;> cases step
    · exact .naming (.createDatabase hc ‹_›)
    · exact .tableName hc ‹_›
  | drop hp =>
    rw [Draft.accept] at step
    split at step <;> cases step
    · exact .naming (.dropDatabase hp ‹_›)
    · exact .naming (.dropTable hp ‹_›)
  | naming lead =>
    obtain ⟨name, hx, rfl⟩ := Option.map_eq_some_iff.1 step
    exact .whole (lead.phrase (Token.identifier?_eq_some.1 hx))
  | tableName hc ht =>
    obtain ⟨name, hx, rfl⟩ := Option.map_eq_some_iff.1 step
    exact .tableOpen hc ht (Token.identifier?_eq_some.1 hx)
  | tableOpen hc ht hx =>
    obtain ⟨ho, rfl⟩ := Token.goesOn_eq_some.1 step
    exact .firstColumn (.mk hc ht hx ho)
  | firstColumn lead =>
    obtain ⟨column, hx, rfl⟩ := Option.map_eq_some_iff.1 step
    exact .columnType lead .nil (Token.identifier?_eq_some.1 hx)
  | columnType lead ds hx =>
    obtain ⟨type, hd, rfl⟩ := Option.map_eq_some_iff.1 step
    simpa using Reads.afterColumn lead ds hx (Token.dataType?_eq_some.1 hd)
  | afterColumn lead ds hx hd =>
    rw [Draft.accept] at step
    split at step
    · cases step
      simpa using Reads.afterColumnComma lead (ds.snoc (.comma hx hd ‹_›)) (by simp)
    · cases step
      simpa using Reads.whole (lead.phrase (ds.snoc (.plain hx hd)) (by simp) ‹_›)
    · obtain ⟨column, hy, rfl⟩ := Option.map_eq_some_iff.1 step
      simpa using Reads.columnType lead (ds.snoc (.plain hx hd)) (Token.identifier?_eq_some.1 hy)
  | afterColumnComma lead ds some_ =>
    rw [Draft.accept] at step
    split at step
    · cases step
      simpa using Reads.whole (lead.phrase ds some_ ‹_›)
    · obtain ⟨column, hx, rfl⟩ := Option.map_eq_some_iff.1 step
      simpa using Reads.columnType lead ds (Token.identifier?_eq_some.1 hx)
  | showTarget hs =>
    rw [Draft.accept] at step
    split at step <;> cases step
    · exact .whole (.showDatabases hs ‹_›)
    · exact .whole (.showTables hs ‹_›)
  | insert hi =>
    obtain ⟨hn, rfl⟩ := Token.goesOn_eq_some.1 step
    exact .insertTable hi hn
  | insertTable hi hn =>
    obtain ⟨table, hx, rfl⟩ := Option.map_eq_some_iff.1 step
    exact .afterInsertTable hi hn (Token.identifier?_eq_some.1 hx)
  | afterInsertTable hi hn hx =>
    rw [Draft.accept] at step
    split at step <;> cases step
    · exact .list (.insert hi hn hx ‹_›)
    · exact .valuesOpen (.mk hi hn hx .absent) ‹_›
  | valuesWord lead =>
    obtain ⟨hv, rfl⟩ := Token.goesOn_eq_some.1 step
    exact .valuesOpen lead hv
  | valuesOpen lead hv =>
    obtain ⟨ho, rfl⟩ := Token.goesOn_eq_some.1 step
    simpa using Reads.firstValue (.mk lead hv ho)
  | firstValue lead =>
    obtain ⟨l, hl, rfl⟩ := Option.map_eq_some_iff.1 step
    exact .afterValue lead (.one (Token.value_of_literal? quotes hl))
  | value lead ls hk =>
    obtain ⟨l, hl, rfl⟩ := Option.map_eq_some_iff.1 step
    simpa using Reads.afterValue lead (ls.snoc hk (Token.value_of_literal? quotes hl))
  | afterValue lead ls =>
    rw [Draft.accept] at step
    split at step <;> cases step
    · simpa using Reads.value lead ls ‹_›
    · simpa using Reads.whole (lead.phrase ls ‹_›)
  | list lead =>
    rw [Draft.accept] at step
    split at step
    · cases step
      exact .afterAll lead ‹_›
    · obtain ⟨x, hx, rfl⟩ := Option.map_eq_some_iff.1 step
      exact .afterListName lead (.one (Token.identifier?_eq_some.1 hx))
  | afterAll lead ha =>
    obtain ⟨hr, rfl⟩ := Token.goesOn_eq_some.1 step
    simpa using lead.next (.all ha) hr
  | listName lead ns hk =>
    obtain ⟨x, hx, rfl⟩ := Option.map_eq_some_iff.1 step
    simpa using Reads.afterListName lead (ns.snoc hk (Token.identifier?_eq_some.1 hx))
  | afterListName lead ns =>
    rw [Draft.accept] at step
    split at step
    · cases step
      simpa using Reads.listName lead ns ‹_›
    · obtain ⟨hr, rfl⟩ := Token.goesOn_eq_some.1 step
      simpa using lead.next (.named ns) hr
  | fromTable hs hc hf =>
    obtain ⟨table, hx, rfl⟩ := Option.map_eq_some_iff.1 step
    simpa using Reads.afterTable (.mk hs hc hf (Token.identifier?_eq_some.1 hx))
  | afterTable lead =>
    obtain ⟨hw, rfl⟩ := Token.goesOn_eq_some.1 step
    exact .condition (.mk lead hw .first)
  | condition lead =>
    obtain ⟨column, hx, rfl⟩ := Option.map_eq_some_iff.1 step
    exact .comparator lead (Token.identifier?_eq_some.1 hx)
  | comparator lead hx =>
    obtain ⟨op, ho, rfl⟩ := Option.map_eq_some_iff.1 step
    simpa using Reads.comparand lead hx (Token.comparator?_eq_some.1 ho)
  | comparand lead hx ho =>
    obtain ⟨l, hl, rfl⟩ := Option.map_eq_some_iff.1 step
    simpa using lead.add (.mk hx ho (Token.value_of_literal? quotes hl))
  | afterCondition lead hw tests =>
    obtain ⟨op, hj, rfl⟩ := Option.map_eq_some_iff.1 step
    simpa using Reads.condition (.mk lead hw (.joined tests (Token.connective?_eq_some.1 hj)))

theorem Reads.phrase {ts : List Token} {d : Draft} {s : Statement} (h : Reads ts d)
    (closed : d.closed? = some s) : Phrase ts s := by
  cases h with
  | whole phrase =>
    cases closed
    exact phrase
  | afterTable lead =>
    cases closed
    simpa using lead.phrase .absent
  | afterCondition lead word tests =>
    cases closed
    cases tests with
    | mk first links => exact lead.phrase (.present word first links)
  | _ => cases closed

end Grammar

end RowStore.Sql
