import RowStore.Engine.Outcome
import RowStore.Table.File

namespace RowStore

/-- Equality compares the whole texts, the orders compare the integers that the texts start with. -/
def compareTexts (text : String) (op : Sql.Comparator) (literal : String) : Bool :=
  let a := Text.leadingInt text.toList
  let b := Text.leadingInt literal.toList
  match op with
  | .equal => text == literal
  | .greater => decide (b < a)
  | .less => decide (a < b)
  | .greaterEqual => decide (b ≤ a)
  | .lessEqual => decide (a ≤ b)

structure BoundCondition where
  column : Nat
  comparator : Sql.Comparator
  literal : String
  deriving DecidableEq, Repr

namespace BoundCondition

def ofCondition (s : TableSchema) (c : Sql.Condition) : Except EngineError BoundCondition :=
  match s.columnIndex? c.column.name with
  | some i => .ok ⟨i, c.comparator, c.literal.text⟩
  | none => .error (.noSuchColumn c.column.name s.name)

def holds (c : BoundCondition) (v : Value) : Bool := compareTexts v.text c.comparator c.literal

def evaluate (c : BoundCondition) (t : TableFile) (rest : Content) : Except TableError Bool :=
  (t.firstColumn c.column rest).map c.holds

end BoundCondition

structure Predicate where
  first : BoundCondition
  rest : List (Sql.Connective × BoundCondition)
  deriving DecidableEq, Repr

namespace Predicate

def ofLinks (s : TableSchema) :
    List (Sql.Connective × Sql.Condition) →
      Except EngineError (List (Sql.Connective × BoundCondition))
  | [] => .ok []
  | (op, c) :: rest => do
    let b ← BoundCondition.ofCondition s c
    let bs ← ofLinks s rest
    return (op, b) :: bs

def ofFilter (s : TableSchema) (f : Sql.Filter) : Except EngineError Predicate := do
  let first ← BoundCondition.ofCondition s f.first
  let rest ← ofLinks s f.rest
  return ⟨first, rest⟩

def evaluateLinks (t : TableFile) (rest : Content) (acc : Bool) :
    List (Sql.Connective × BoundCondition) → Except TableError Bool
  | [] => .ok acc
  | (op, c) :: links =>
    if acc = (op == .or) then evaluateLinks t rest acc links
    else match c.evaluate t rest with
      | .ok b => evaluateLinks t rest b links
      | .error e => .error e

/-- Once the result so far decides a connective, its right side is not read. -/
def evaluate (p : Predicate) (t : TableFile) (rest : Content) : Except TableError Bool :=
  match p.first.evaluate t rest with
  | .ok b => evaluateLinks t rest b p.rest
  | .error e => .error e

end Predicate

end RowStore
