import RowStore.Schema
import RowStore.Number.Binary64

namespace RowStore

inductive Value
  | int (n : Int32)
  | varchar (s : String)
  | double (x : Binary64)
  | date (n : Int32)
  deriving DecidableEq, Repr

namespace Value

def type : Value → DataType
  | .int _ => .int
  | .varchar _ => .varchar
  | .double _ => .double
  | .date _ => .date

def text : Value → String
  | .int n => toString n.toInt
  | .varchar s => s
  | .double x => x.text
  | .date n => toString n.toInt

/-- The value of type `t` that a literal writes. A varchar takes any text, cut to its slot. -/
def ofLiteral? (t : DataType) (literal : String) : Option Value :=
  match t with
  | .int => (Text.parseInt32? literal.toList).map .int
  | .date => (Text.parseInt32? literal.toList).map .date
  | .double => (Binary64.parse? literal.toList).map .double
  | .varchar => some (.varchar (Text.clipped literal))

theorem type_of_ofLiteral? {t : DataType} {literal : String} {v : Value}
    (h : ofLiteral? t literal = some v) : v.type = t := by
  cases t with
  | int | date | double =>
    obtain ⟨n, -, rfl⟩ := Option.map_eq_some_iff.1 h
    rfl
  | varchar =>
    cases h
    rfl

end Value

end RowStore
