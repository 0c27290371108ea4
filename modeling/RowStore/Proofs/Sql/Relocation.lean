import RowStore.Proofs.Sql.Reader

namespace RowStore.Sql

section Relocation

variable (f : Span → Span)

def Token.relocate (t : Token) : Token := { t with span := f t.span }

def Identifier.relocate (x : Identifier) : Identifier := ⟨x.name, f x.span⟩

def Columns.relocate : Columns → Columns
  | .all => .all
  | .named names => .named (names.map (Identifier.relocate f))

def Condition.relocate (c : Condition) : Condition := { c with column := c.column.relocate f }

def Filter.relocate (w : Filter) : Filter :=
  ⟨w.first.relocate f, w.rest.map fun link => (link.1, link.2.relocate f)⟩

def ColumnDefinition.relocate (c : ColumnDefinition) : ColumnDefinition :=
  { c with name := c.name.relocate f }

def Statement.relocate : Statement → Statement
  | .createDatabase name => .createDatabase (name.relocate f)
  | .createTable name columns =>
    .createTable (name.relocate f) (columns.map (ColumnDefinition.relocate f))
  | .dropDatabase name => .dropDatabase (name.relocate f)
  | .dropTable name => .dropTable (name.relocate f)
  | .useDatabase name => .useDatabase (name.relocate f)
  | .showNames target => .showNames target
  | .insert table columns values =>
    .insert (table.relocate f) (columns.map (Columns.relocate f)) values
  | .select columns table filter =>
    .select (columns.relocate f) (table.relocate f) (filter.map (Filter.relocate f))

def ListUse.relocate : ListUse → ListUse
  | .insert table => .insert (table.relocate f)
  | .select => .select

def Insertion.relocate (i : Insertion) : Insertion :=
  ⟨i.table.relocate f, i.columns.map (Columns.relocate f)⟩

def Selection.relocate (s : Selection) : Selection := ⟨s.columns.relocate f, s.table.relocate f⟩

def Junction.relocate (j : Junction) : Junction := j.map fun link => (link.1.relocate f, link.2)

def Draft.relocate : Draft → Draft
  | .start => .start
  | .whole s => .whole (s.relocate f)
  | .create => .create
  | .drop => .drop
  | .naming u => .naming u
  | .tableName => .tableName
  | .tableOpen name => .tableOpen (name.relocate f)
  | .firstColumn name => .firstColumn (name.relocate f)
  | .columnType name columns column =>
    .columnType (name.relocate f) (columns.map (ColumnDefinition.relocate f)) (column.relocate f)
  | .afterColumn name columns =>
    .afterColumn (name.relocate f) (columns.map (ColumnDefinition.relocate f))
  | .afterColumnComma name columns =>
    .afterColumnComma (name.relocate f) (columns.map (ColumnDefinition.relocate f))
  | .showTarget => .showTarget
  | .insert => .insert
  | .insertTable => .insertTable
  | .afterInsertTable table => .afterInsertTable (table.relocate f)
  | .valuesWord i => .valuesWord (i.relocate f)
  | .valuesOpen i => .valuesOpen (i.relocate f)
  | .value i values => .value (i.relocate f) values
  | .afterValue i values => .afterValue (i.relocate f) values
  | .list u => .list (u.relocate f)
  | .afterAll u => .afterAll (u.relocate f)
  | .listName u names => .listName (u.relocate f) (names.map (Identifier.relocate f))
  | .afterListName u names => .afterListName (u.relocate f) (names.map (Identifier.relocate f))
  | .fromTable columns => .fromTable (columns.relocate f)
  | .afterTable s => .afterTable (s.relocate f)
  | .condition s j => .condition (s.relocate f) (Junction.relocate f j)
  | .comparator s j column =>
    .comparator (s.relocate f) (Junction.relocate f j) (column.relocate f)
  | .comparand s j column op =>
    .comparand (s.relocate f) (Junction.relocate f j) (column.relocate f) op
  | .afterCondition s w => .afterCondition (s.relocate f) (w.relocate f)

namespace Token

variable (t : Token)

@[simp] theorem kind_relocate : (t.relocate f).kind = t.kind := rfl

@[simp] theorem text_relocate : (t.relocate f).text = t.text := rfl

@[simp] theorem literal?_relocate : (t.relocate f).literal? = t.literal? := rfl

@[simp] theorem dataType?_relocate : (t.relocate f).dataType? = t.dataType? := rfl

@[simp] theorem comparator?_relocate : (t.relocate f).comparator? = t.comparator? := rfl

@[simp] theorem connective?_relocate : (t.relocate f).connective? = t.connective? := rfl

@[simp] theorem identifier?_relocate :
    (t.relocate f).identifier? = t.identifier?.map (Identifier.relocate f) := by
  by_cases kind : t.kind = .identifier
  · simp [identifier?, kind, identifier, Identifier.relocate, Token.relocate]
  · simp [identifier?, kind]

@[simp] theorem goesOn_relocate (k : Kind) (d : Draft) :
    (t.relocate f).goesOn k (d.relocate f) = (t.goesOn k d).map (Draft.relocate f) := by
  by_cases kind : t.kind = k <;> simp [goesOn, kind]

end Token

@[simp] theorem ListUse.closing_relocate (u : ListUse) : (u.relocate f).closing = u.closing := by
  cases u <;> rfl

@[simp] theorem ListUse.next_relocate (u : ListUse) (columns : Columns) :
    (u.relocate f).next (columns.relocate f) = (u.next columns).relocate f := by
  cases u <;> rfl

@[simp] theorem NameUse.statement_relocate (u : NameUse) (x : Identifier) :
    u.statement (x.relocate f) = (u.statement x).relocate f := by
  cases u <;> rfl

@[simp] theorem Junction.add_relocate (c : Condition) (j : Junction) :
    Junction.add (c.relocate f) (Junction.relocate f j) = (Junction.add c j).relocate f := by
  cases j with
  | none => rfl
  | some link => simp [Junction.add, Junction.relocate, Filter.relocate]

namespace Draft

variable (d : Draft)

@[simp] theorem expected_relocate : (d.relocate f).expected = d.expected := by
  cases d <;> simp [relocate, expected]

@[simp] theorem closed?_relocate :
    (d.relocate f).closed? = d.closed?.map (Statement.relocate f) := by
  cases d <;> rfl

theorem accept_relocate (t : Token) :
    (d.relocate f).accept (t.relocate f) = (d.accept t).map (Draft.relocate f) := by
  cases d with
  | whole s => rfl
  -- One token of a fixed kind.
  | tableOpen name => exact t.goesOn_relocate f _ (.firstColumn name)
  | insert => exact t.goesOn_relocate f _ .insertTable
  | valuesWord i => exact t.goesOn_relocate f _ (.valuesOpen i)
  | valuesOpen i => exact t.goesOn_relocate f _ (.value i [])
  | afterTable s => exact t.goesOn_relocate f _ (.condition s none)
  | afterAll u =>
    have next := u.next_relocate f .all
    simp only [relocate, accept, ListUse.closing_relocate]
    rw [← Token.goesOn_relocate, ← next, Columns.relocate]
  -- One token of a sort.
  | naming | tableName | firstColumn | columnType | insertTable | value | listName | fromTable
  | condition | comparator | afterCondition =>
    simp [relocate, accept, Function.comp_def, ColumnDefinition.relocate, Selection.relocate,
      Junction.relocate]
  | comparand s j column op =>
    simp [relocate, accept, Function.comp_def, ← Junction.add_relocate, Condition.relocate]
  -- A choice by the kind of the token.
  | start | create | drop | showTarget | afterInsertTable | afterValue =>
    simp only [relocate, accept, Token.kind_relocate]
    split <;> rfl
  | afterColumn | afterColumnComma | list =>
    simp only [relocate, accept, Token.kind_relocate]
    split <;> simp [relocate, Statement.relocate, Function.comp_def]
  | afterListName u names =>
    have next := u.next_relocate f (.named names)
    simp only [relocate, accept, Token.kind_relocate, ListUse.closing_relocate]
    split
    · rfl
    · rw [← Token.goesOn_relocate, ← next, Columns.relocate]

end Draft

end Relocation

section Shift

def Span.shift (n : Nat) (s : Span) : Span := ⟨s.start + n, s.last + n⟩

def LexError.shift (n : Nat) : LexError → LexError
  | .unterminatedString span => .unterminatedString (span.shift n)
  | .unexpectedChar c position => .unexpectedChar c (position + n)

def Item.shift (n : Nat) : Item → Item
  | .ok t => .ok (t.relocate (Span.shift n))
  | .error e => .error (e.shift n)

def ParseError.shift (n : Nat) : ParseError → ParseError
  | .unexpected expected found position => .unexpected expected found (position + n)
  | .lexing e => .lexing (e.shift n)

/-- What is read from a text behind `n` more bytes: every span and every position is `n` greater. -/
def Parsed.shift (n : Nat) : Parsed → Parsed
  | .ok s => .ok (s.relocate (Span.shift n))
  | .error e => .error (e.shift n)

namespace Reader

def shift (n : Nat) : Reader → Reader
  | .between => .between
  | .reading d => .reading (d.relocate (Span.shift n))
  | .skipping => .skipping

variable (n : Nat)

@[simp] theorem isSemicolon_shift (i : Item) : (Item.shift n i).isSemicolon = i.isSemicolon := by
  cases i <;> rfl

theorem advance_shift (d : Draft) (i : Item) :
    advance (d.relocate (Span.shift n)) (Item.shift n i)
      = ((advance d i).1.map (Parsed.shift n), (advance d i).2.shift n) := by
  cases i with
  | error e => rfl
  | ok t =>
    have blame : unexpected (d.relocate (Span.shift n)) (t.relocate (Span.shift n))
        = (unexpected d t).shift n := by
      simp [unexpected, ParseError.shift, Token.relocate, Span.shift]
    simp only [Item.shift, advance, Token.kind_relocate, Draft.closed?_relocate,
      Draft.accept_relocate, blame]
    split
    · cases d.closed? <;> rfl
    · cases d.accept t <;> rfl

theorem step_shift (r : Reader) (i : Item) :
    (r.shift n).step (Item.shift n i)
      = ((r.step i).1.map (Parsed.shift n), (r.step i).2.shift n) := by
  cases r with
  | between =>
    simp only [shift, step, isSemicolon_shift]
    split
    · rfl
    · exact advance_shift n .start i
  | reading d => exact advance_shift n d i
  | skipping =>
    simp only [shift, step, isSemicolon_shift]
    split <;> rfl

theorem finish_shift (r : Reader) (size : Nat) :
    (r.shift n).finish (size + n) = (r.finish size).map (Parsed.shift n) := by
  cases r <;> simp [shift, finish, Parsed.shift, ParseError.shift]

theorem read_shift (r : Reader) (size : Nat) (items : List Item) :
    read (size + n) (r.shift n) (items.map (Item.shift n))
      = (read size r items).map (Parsed.shift n) := by
  induction items generalizing r with
  | nil => cases h : r.finish size <;> simp [read, finish_shift, h]
  | cons i rest ih =>
    rw [List.map_cons, read, step_shift, ih, read, List.map_append]
    cases (r.step i).1 <;> rfl

end Reader

end Shift

section Bare

def Span.forget (_ : Span) : Span := ⟨0, 0⟩

def Statement.bare (s : Statement) : Statement := s.relocate Span.forget

def LexError.bare : LexError → LexError
  | .unterminatedString span => .unterminatedString span.forget
  | .unexpectedChar c _ => .unexpectedChar c 0

def ParseError.bare : ParseError → ParseError
  | .unexpected expected found _ => .unexpected expected found 0
  | .lexing e => .lexing e.bare

def Parsed.bare : Parsed → Parsed
  | .ok s => .ok s.bare
  | .error e => .error e.bare

theorem Identifier.relocate_relocate (f g : Span → Span) (x : Identifier) :
    (x.relocate f).relocate g = x.relocate (g ∘ f) := rfl

theorem Columns.relocate_relocate (f g : Span → Span) (columns : Columns) :
    (columns.relocate f).relocate g = columns.relocate (g ∘ f) := by
  cases columns <;> simp [relocate, Function.comp_def, Identifier.relocate_relocate]

theorem Filter.relocate_relocate (f g : Span → Span) (w : Filter) :
    (w.relocate f).relocate g = w.relocate (g ∘ f) := by
  simp [relocate, Condition.relocate, Function.comp_def, Identifier.relocate_relocate]

theorem Statement.relocate_relocate (f g : Span → Span) (s : Statement) :
    (s.relocate f).relocate g = s.relocate (g ∘ f) := by
  cases s with
  | createDatabase | dropDatabase | dropTable | useDatabase | showNames => rfl
  | createTable name columns =>
    simp [relocate, ColumnDefinition.relocate, Function.comp_def, Identifier.relocate_relocate]
  | insert table columns values =>
    simp [relocate, Function.comp_def, Identifier.relocate_relocate, Columns.relocate_relocate]
  | select columns table filter =>
    simp [relocate, Function.comp_def, Identifier.relocate_relocate, Columns.relocate_relocate,
      Filter.relocate_relocate]

@[simp] theorem Parsed.bare_shift (n : Nat) (p : Parsed) : (p.shift n).bare = p.bare := by
  cases p with
  | ok s => exact congrArg Except.ok (s.relocate_relocate _ _)
  | error e =>
    cases e with
    | unexpected => rfl
    | lexing e => cases e <;> rfl

end Bare

end RowStore.Sql
