import RowStore.Console.Grid
import RowStore.Engine.Outcome

namespace RowStore.Report

def rowCount (n : Nat) : String := s!"{n} row(s) selected"

def grid (g : Grid) : String := g.render ++ "\n" ++ rowCount g.rows.length

def outcome : Outcome → String
  | .databaseCreated name => s!"Database '{name}' created"
  | .tableCreated name => s!"Table '{name}' created"
  | .databaseChanged name => s!"Using database '{name}'"
  | .databaseDropped name => s!"Database '{name}' dropped"
  | .tableDropped name => s!"Table '{name}' dropped"
  | .listing title names => grid ⟨[title], names.map fun n => [n]⟩
  | .inserted table rows =>
    if rows = 1 then s!"1 row inserted into '{table}'" else s!"{rows} rows inserted into '{table}'"
  | .selected result => grid ⟨result.columns, result.rows.map fun row => row.map Value.text⟩

def result : Except EngineError Outcome → String
  | .ok o => outcome o ++ "\n"
  | .error e => "Error: " ++ e.message ++ "\n"

def results (rs : List (Except EngineError Outcome)) : String := String.join (rs.map result)

end RowStore.Report
