import RowStore.Schema
import RowStore.Disk.Fault
import RowStore.Disk.Path

namespace RowStore

inductive TableError
  | io (path : Path) (fault : Fault)
  | malformedRow (fault : Fault)
  | invalidLiteral (literal : String) (type : DataType)
  | arityMismatch (expected got : Nat)
  | typeMismatch (index : Nat) (expected got : DataType)
  | rowOutOfRange (index rowCount : Nat)
  | columnOutOfRange (index columns : Nat)
  deriving DecidableEq, Repr

def TableError.message : TableError → String
  | .io path fault => s!"failed to access {path.text}: {fault.message}"
  | .malformedRow fault => s!"malformed row: {fault.message}"
  | .invalidLiteral literal type => s!"`{literal}` is not a valid {type.name} value"
  | .arityMismatch expected got => s!"expected {expected} values, got {got}"
  | .typeMismatch index expected got => s!"value {index} is {got.name}, column is {expected.name}"
  | .rowOutOfRange index rowCount =>
    s!"row {index} is out of range, the table has {rowCount} rows"
  | .columnOutOfRange index columns =>
    s!"column {index} is out of range, the table has {columns} columns"

end RowStore
