import RowStore.Schema
import RowStore.Sql.Token

namespace RowStore.Sql

/-- A name, cut to `Text.clipLimit` bytes; the span is not cut. -/
structure Identifier where
  name : String
  span : Span
  deriving DecidableEq, Repr

/-- A literal keeps its text; what it means depends on the column. -/
inductive Literal
  | number (text : String)
  | string (text : String)
  deriving DecidableEq, Repr

def Literal.text : Literal → String
  | .number s => s
  | .string s => s

inductive Columns
  | all
  | named (names : List Identifier)
  deriving DecidableEq, Repr

inductive Comparator
  | equal
  | greater
  | less
  | greaterEqual
  | lessEqual
  deriving DecidableEq, Repr

inductive Connective
  | and
  | or
  deriving DecidableEq, Repr

structure Condition where
  column : Identifier
  comparator : Comparator
  literal : Literal
  deriving DecidableEq, Repr

/-- Conditions joined from left to right; both connectives bind equally. -/
structure Filter where
  first : Condition
  rest : List (Connective × Condition)
  deriving DecidableEq, Repr

def Filter.conditions (f : Filter) : List Condition := f.first :: f.rest.map Prod.snd

structure ColumnDefinition where
  name : Identifier
  type : DataType
  deriving DecidableEq, Repr

inductive ShowTarget
  | databases
  | tables
  deriving DecidableEq, Repr

inductive Statement
  | createDatabase (name : Identifier)
  | createTable (name : Identifier) (columns : List ColumnDefinition)
  | dropDatabase (name : Identifier)
  | dropTable (name : Identifier)
  | useDatabase (name : Identifier)
  | showNames (target : ShowTarget)
  | insert (table : Identifier) (columns : Option Columns) (values : List Literal)
  | select (columns : Columns) (table : Identifier) (filter : Option Filter)
  deriving DecidableEq, Repr

end RowStore.Sql
