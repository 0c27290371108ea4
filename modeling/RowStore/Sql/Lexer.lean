import RowStore.Lookahead
import RowStore.Sql.Scan

namespace RowStore.Sql

/-- The characters that are not taken yet, and how many bytes were before them. -/
structure Lexer where
  position : Nat
  rest : List Char

namespace Lexer

def ofText (s : String) : Lexer := ⟨0, s.toList⟩

def nextFrom : Nat → List Char → Option Item × Lexer
  | pos, [] => (none, ⟨pos, []⟩)
  | pos, c :: cs =>
    if Text.isBlank c then nextFrom (pos + c.utf8Size) cs
    else
      let tail := tailOf c cs
      (some (itemAt pos c cs), ⟨pos + Text.byteSize (c :: tail), cs.drop tail.length⟩)

def source : Source Lexer Item := ⟨fun l => nextFrom l.position l.rest, fun _ => (0, none)⟩

end Lexer

end RowStore.Sql
