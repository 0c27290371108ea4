import RowStore.Proofs.Sql.Relocation

namespace RowStore.Sql

structure Mark where
  kind : Kind
  text : List Char
  deriving DecidableEq, Repr

namespace Mark

def word (k : Keyword) : Mark := ⟨.keyword k, k.text.toList⟩

def name (x : Identifier) : Mark := ⟨.identifier, x.name.toList⟩

def asterisk : Mark := ⟨.asterisk, ['*']⟩

def comma : Mark := ⟨.comma, [',']⟩

def semicolon : Mark := ⟨.semicolon, [';']⟩

def leftParen : Mark := ⟨.leftParen, ['(']⟩

def rightParen : Mark := ⟨.rightParen, [')']⟩

def quoteFor (content : List Char) : Char := if '\'' ∈ content then '"' else '\''

def quoted (content : List Char) : Mark :=
  ⟨.string, quoteFor content :: (content ++ [quoteFor content])⟩

end Mark

def Literal.mark : Literal → Mark
  | .number s => ⟨.number, s.toList⟩
  | .string s => .quoted s.toList

def Comparator.mark : Comparator → Mark
  | .equal => ⟨.equal, ['=']⟩
  | .greater => ⟨.greater, ['>']⟩
  | .less => ⟨.less, ['<']⟩
  | .greaterEqual => ⟨.greaterEqual, ['>', '=']⟩
  | .lessEqual => ⟨.lessEqual, ['<', '=']⟩

def Connective.mark : Connective → Mark
  | .and => .word .AND
  | .or => .word .OR

def typeMark : DataType → Mark
  | .int => .word .INT
  | .varchar => .word .VARCHAR
  | .double => .word .DOUBLE
  | .date => .word .DATE

def separated : List (List Mark) → List Mark
  | [] => []
  | [ms] => ms
  | ms :: others => ms ++ .comma :: separated others

def Columns.marks : Columns → List Mark
  | .all => [.asterisk]
  | .named names => separated (names.map fun x => [.name x])

def Condition.marks (c : Condition) : List Mark :=
  [.name c.column, c.comparator.mark, c.literal.mark]

def linkMarks (link : Connective × Condition) : List Mark := link.1.mark :: link.2.marks

def Filter.marks (f : Filter) : List Mark :=
  .word .WHERE :: f.first.marks ++ f.rest.flatMap linkMarks

def ColumnDefinition.marks (c : ColumnDefinition) : List Mark := [.name c.name, typeMark c.type]

def targetMarks : Option Columns → List Mark
  | none => []
  | some columns => .leftParen :: columns.marks ++ [.rightParen]

def whereMarks : Option Filter → List Mark
  | none => []
  | some f => f.marks

def Statement.marks : Statement → List Mark
  | .createDatabase name => [.word .CREATE, .word .DATABASE, .name name]
  | .createTable name columns =>
    .word .CREATE :: .word .TABLE :: .name name :: .leftParen
      :: (separated (columns.map ColumnDefinition.marks) ++ [.rightParen])
  | .dropDatabase name => [.word .DROP, .word .DATABASE, .name name]
  | .dropTable name => [.word .DROP, .word .TABLE, .name name]
  | .useDatabase name => [.word .USE, .name name]
  | .showNames .databases => [.word .SHOW, .word .DATABASES]
  | .showNames .tables => [.word .SHOW, .word .TABLES]
  | .insert table columns values =>
    .word .INSERT :: .word .INTO :: .name table
      :: (targetMarks columns ++ .word .VALUES :: .leftParen
        :: (separated (values.map fun l => [l.mark]) ++ [.rightParen]))
  | .select columns table filter =>
    .word .SELECT :: (columns.marks ++ .word .FROM :: .name table :: whereMarks filter)

def spaced (ms : List Mark) : List Char := ms.flatMap fun m => m.text ++ [' ']

def print (ss : List Statement) : String :=
  String.ofList (spaced (ss.flatMap fun s => s.marks ++ [.semicolon]))

example : print [.select (.named [⟨"a", ⟨0, 0⟩⟩, ⟨"b", ⟨0, 0⟩⟩]) ⟨"t", ⟨0, 0⟩⟩
    (some ⟨⟨⟨"a", ⟨0, 0⟩⟩, .less, .string "it's"⟩, []⟩)]
    = "SELECT a , b FROM t WHERE a < \"it's\" ; " := by
  decide +kernel

section Printable

/-- A word of letters, digits and underscores that starts with a letter, has 1 to 63 characters and
spells no keyword in any letter case. -/
structure PlainName (name : String) : Prop where
  letter : ∃ c cs, name.toList = c :: cs ∧ c.isAlpha = true
  word : ∀ c ∈ name.toList, isWordChar c = true
  short : name.toList.length ≤ 63
  free : ∀ k : Keyword, name.toList.map Char.toUpper ≠ k.text.toList

structure PlainNumber (text : String) : Prop where
  digit : ∃ c cs, text.toList = c :: cs ∧ c.isDigit = true
  digits : ∀ c ∈ text.toList, c.isDigit = true ∨ c = '.'
  point : text.toList.count '.' ≤ 1
  short : text.utf8ByteSize ≤ 63

structure Quotable (text : String) : Prop where
  lacks : '\'' ∉ text.toList ∨ '"' ∉ text.toList
  short : text.utf8ByteSize ≤ 63

def Literal.Printable : Literal → Prop
  | .number s => PlainNumber s
  | .string s => Quotable s

def Columns.Printable : Columns → Prop
  | .all => True
  | .named names => names ≠ [] ∧ ∀ x ∈ names, PlainName x.name

def Condition.Printable (c : Condition) : Prop := PlainName c.column.name ∧ c.literal.Printable

def Statement.Printable : Statement → Prop
  | .createDatabase x | .dropDatabase x | .dropTable x | .useDatabase x => PlainName x.name
  | .createTable x columns =>
    PlainName x.name ∧ columns ≠ [] ∧ ∀ c ∈ columns, PlainName c.name.name
  | .showNames _ => True
  | .insert table columns values =>
    PlainName table.name ∧ (∀ c, columns = some c → c.Printable) ∧ values ≠ [] ∧
      ∀ l ∈ values, l.Printable
  | .select columns table filter =>
    columns.Printable ∧ PlainName table.name ∧
      ∀ f, filter = some f → ∀ c ∈ f.conditions, c.Printable

end Printable

end RowStore.Sql
