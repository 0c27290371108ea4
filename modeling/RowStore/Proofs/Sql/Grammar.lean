import RowStore.Proofs.Text.Clip
import RowStore.Proofs.Sql.Draft

/-!
The grammar of statements on tokens, apart from any way of reading them. A phrase is a row of tokens
with what it stands for, and a sentence is the phrase of a statement with its semicolon.
-/

namespace RowStore.Sql.Grammar

def Cut (text short : List Char) : Prop :=
  short <+: text ∧ Text.byteSize short ≤ 63 ∧
    ∀ part, part <+: text → Text.byteSize part ≤ 63 → part <+: short

inductive Name : Token → Identifier → Prop
  | mk {t : Token} {short : List Char} : t.kind = .identifier → Cut t.text.toList short →
      Name t ⟨String.ofList short, t.span⟩

inductive Value : Token → Literal → Prop
  | number {t : Token} {short : List Char} : t.kind = .number → Cut t.text.toList short →
      Value t (.number (String.ofList short))
  | string {t : Token} {quote : Char} {content short : List Char} : t.kind = .string →
      t.text.toList = quote :: (content ++ [quote]) → Cut content short →
      Value t (.string (String.ofList short))

inductive TypeWord : Token → DataType → Prop
  | int {t : Token} : t.kind = .keyword .INT → TypeWord t .int
  | varchar {t : Token} : t.kind = .keyword .VARCHAR → TypeWord t .varchar
  | double {t : Token} : t.kind = .keyword .DOUBLE → TypeWord t .double
  | date {t : Token} : t.kind = .keyword .DATE → TypeWord t .date

inductive Comparison : Token → Comparator → Prop
  | equal {t : Token} : t.kind = .equal → Comparison t .equal
  | greater {t : Token} : t.kind = .greater → Comparison t .greater
  | less {t : Token} : t.kind = .less → Comparison t .less
  | greaterEqual {t : Token} : t.kind = .greaterEqual → Comparison t .greaterEqual
  | lessEqual {t : Token} : t.kind = .lessEqual → Comparison t .lessEqual

inductive Joint : Token → Connective → Prop
  | and {t : Token} : t.kind = .keyword .AND → Joint t .and
  | or {t : Token} : t.kind = .keyword .OR → Joint t .or

section Lists

variable {α : Type}

inductive Commas (P : Token → α → Prop) : List Token → List α → Prop
  | one {t : Token} {a : α} : P t a → Commas P [t] [a]
  | more {t comma : Token} {a : α} {ts : List Token} {as : List α} : P t a → comma.kind = .comma →
      Commas P ts as → Commas P (t :: comma :: ts) (a :: as)

inductive Many (P : List Token → α → Prop) : List Token → List α → Prop
  | nil : Many P [] []
  | cons {ts rest : List Token} {a : α} {as : List α} : P ts a → Many P rest as →
      Many P (ts ++ rest) (a :: as)

end Lists

inductive ColumnList : List Token → Columns → Prop
  | all {t : Token} : t.kind = .asterisk → ColumnList [t] .all
  | named {ts : List Token} {names : List Identifier} : Commas Name ts names →
      ColumnList ts (.named names)

inductive Definition : List Token → ColumnDefinition → Prop
  | plain {x d : Token} {name : Identifier} {type : DataType} : Name x name → TypeWord d type →
      Definition [x, d] ⟨name, type⟩
  | comma {x d comma : Token} {name : Identifier} {type : DataType} : Name x name →
      TypeWord d type → comma.kind = .comma → Definition [x, d, comma] ⟨name, type⟩

inductive Test : List Token → Condition → Prop
  | mk {x o v : Token} {column : Identifier} {op : Comparator} {literal : Literal} :
      Name x column → Comparison o op → Value v literal → Test [x, o, v] ⟨column, op, literal⟩

inductive Link : List Token → Connective × Condition → Prop
  | mk {j : Token} {op : Connective} {ts : List Token} {c : Condition} : Joint j op → Test ts c →
      Link (j :: ts) (op, c)

inductive Where : List Token → Option Filter → Prop
  | absent : Where [] none
  | present {w : Token} {ts rest : List Token} {first : Condition}
      {links : List (Connective × Condition)} : w.kind = .keyword .WHERE → Test ts first →
      Many Link rest links → Where (w :: ts ++ rest) (some ⟨first, links⟩)

inductive Targets : List Token → Option Columns → Prop
  | absent : Targets [] none
  | present {o r : Token} {ts : List Token} {columns : Columns} : o.kind = .leftParen →
      ColumnList ts columns → r.kind = .rightParen → Targets (o :: ts ++ [r]) (some columns)

inductive Phrase : List Token → Statement → Prop
  | createDatabase {c d x : Token} {name : Identifier} : c.kind = .keyword .CREATE →
      d.kind = .keyword .DATABASE → Name x name → Phrase [c, d, x] (.createDatabase name)
  | createTable {c t x o r : Token} {ts : List Token} {name : Identifier}
      {columns : List ColumnDefinition} : c.kind = .keyword .CREATE → t.kind = .keyword .TABLE →
      Name x name → o.kind = .leftParen → Many Definition ts columns → columns ≠ [] →
      r.kind = .rightParen → Phrase (c :: t :: x :: o :: (ts ++ [r])) (.createTable name columns)
  | dropDatabase {p d x : Token} {name : Identifier} : p.kind = .keyword .DROP →
      d.kind = .keyword .DATABASE → Name x name → Phrase [p, d, x] (.dropDatabase name)
  | dropTable {p t x : Token} {name : Identifier} : p.kind = .keyword .DROP →
      t.kind = .keyword .TABLE → Name x name → Phrase [p, t, x] (.dropTable name)
  | useDatabase {u x : Token} {name : Identifier} : u.kind = .keyword .USE → Name x name →
      Phrase [u, x] (.useDatabase name)
  | showDatabases {s d : Token} : s.kind = .keyword .SHOW → d.kind = .keyword .DATABASES →
      Phrase [s, d] (.showNames .databases)
  | showTables {s t : Token} : s.kind = .keyword .SHOW → t.kind = .keyword .TABLES →
      Phrase [s, t] (.showNames .tables)
  | insert {i n x v o r : Token} {cs ls : List Token} {table : Identifier}
      {columns : Option Columns} {values : List Literal} : i.kind = .keyword .INSERT →
      n.kind = .keyword .INTO → Name x table → Targets cs columns → v.kind = .keyword .VALUES →
      o.kind = .leftParen → Commas Value ls values → r.kind = .rightParen →
      Phrase (i :: n :: x :: (cs ++ v :: o :: (ls ++ [r]))) (.insert table columns values)
  | select {s f x : Token} {cs ws : List Token} {columns : Columns} {table : Identifier}
      {filter : Option Filter} : s.kind = .keyword .SELECT → ColumnList cs columns →
      f.kind = .keyword .FROM → Name x table → Where ws filter →
      Phrase (s :: (cs ++ f :: x :: ws)) (.select columns table filter)

inductive Sentence : List Token → Statement → Prop
  | mk {ts : List Token} {s : Statement} {semicolon : Token} : Phrase ts s →
      semicolon.kind = .semicolon → Sentence (ts ++ [semicolon]) s

theorem Name.kind {t : Token} {x : Identifier} (h : Name t x) : t.kind = .identifier := by
  cases h with
  | mk kind _ => exact kind

theorem Commas.snoc {α : Type} {P : Token → α → Prop} {ts : List Token} {as : List α}
    {comma t : Token} {a : α} (h : Commas P ts as) (hc : comma.kind = .comma) (ht : P t a) :
    Commas P (ts ++ [comma, t]) (as ++ [a]) := by
  induction h with
  | one hb => exact .more hb hc (.one ht)
  | more hb hk _ ih => exact .more hb hk ih

theorem Many.snoc {α : Type} {P : List Token → α → Prop} {ts last : List Token} {as : List α}
    {a : α} (h : Many P ts as) (ht : P last a) : Many P (ts ++ last) (as ++ [a]) := by
  induction h with
  | nil => simpa using Many.cons ht .nil
  | cons hb _ ih =>
    rw [List.append_assoc]
    exact .cons hb ih

theorem cut_iff {text short : List Char} :
    Cut text short ↔ short = Text.clip Text.clipLimit text :=
  Text.eq_clip_iff.symm

theorem cut_clip (text : List Char) : Cut text (Text.clip Text.clipLimit text) := cut_iff.2 rfl

end RowStore.Sql.Grammar
