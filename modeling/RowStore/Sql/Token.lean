import RowStore.Text.Clip

namespace RowStore.Sql

inductive Keyword
  | AND | CREATE | DATABASE | DATABASES | DATE | DOUBLE | DROP | FROM | INSERT | INT | INTO | OR
  | SELECT | SHOW | TABLE | TABLES | USE | VALUES | VARCHAR | WHERE
  deriving DecidableEq, Repr

namespace Keyword

def text : Keyword → String
  | .AND => "AND"
  | .CREATE => "CREATE"
  | .DATABASE => "DATABASE"
  | .DATABASES => "DATABASES"
  | .DATE => "DATE"
  | .DOUBLE => "DOUBLE"
  | .DROP => "DROP"
  | .FROM => "FROM"
  | .INSERT => "INSERT"
  | .INT => "INT"
  | .INTO => "INTO"
  | .OR => "OR"
  | .SELECT => "SELECT"
  | .SHOW => "SHOW"
  | .TABLE => "TABLE"
  | .TABLES => "TABLES"
  | .USE => "USE"
  | .VALUES => "VALUES"
  | .VARCHAR => "VARCHAR"
  | .WHERE => "WHERE"

def all : List Keyword :=
  [.AND, .CREATE, .DATABASE, .DATABASES, .DATE, .DOUBLE, .DROP, .FROM, .INSERT, .INT, .INTO, .OR,
    .SELECT, .SHOW, .TABLE, .TABLES, .USE, .VALUES, .VARCHAR, .WHERE]

def ofWord? (cs : List Char) : Option Keyword :=
  all.find? fun k => k.text.toList == cs.map Char.toUpper

theorem mem_all (k : Keyword) : k ∈ all := by cases k <;> decide

end Keyword

inductive Kind
  | keyword (k : Keyword)
  | identifier
  | number
  | string
  | asterisk
  | comma
  | semicolon
  | leftParen
  | rightParen
  | equal
  | greater
  | greaterEqual
  | less
  | lessEqual
  deriving DecidableEq, Repr

def Kind.text : Kind → String
  | .keyword k => k.text
  | .identifier => "identifier"
  | .number => "number"
  | .string => "string"
  | .asterisk => "`*`"
  | .comma => "`,`"
  | .semicolon => "`;`"
  | .leftParen => "`(`"
  | .rightParen => "`)`"
  | .equal => "`=`"
  | .greater => "`>`"
  | .greaterEqual => "`>=`"
  | .less => "`<`"
  | .lessEqual => "`<=`"

/-- The bytes from `start` to `last`, both included. -/
structure Span where
  start : Nat
  last : Nat
  deriving DecidableEq, Repr

structure Token where
  kind : Kind
  text : String
  span : Span
  deriving DecidableEq, Repr

inductive LexError
  /-- A quote without its partner; the span runs to the end of the text. -/
  | unterminatedString (span : Span)
  | unexpectedChar (c : Char) (position : Nat)
  deriving DecidableEq, Repr

def LexError.message : LexError → String
  | .unterminatedString span => s!"no closing quote for string starting at position {span.start}"
  | .unexpectedChar c position => s!"unexpected char `{c}` at position {position}"

abbrev Item := Except LexError Token

def Item.hasKind (k : Kind) : Item → Bool
  | .ok t => t.kind == k
  | .error _ => false

def Item.isSemicolon : Item → Bool
  | .ok t => t.kind == .semicolon
  | .error _ => false

end RowStore.Sql
