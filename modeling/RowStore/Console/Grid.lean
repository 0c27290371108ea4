import RowStore.Text.Width

namespace RowStore

structure Grid where
  header : List String
  rows : List (List String)
  deriving DecidableEq, Repr

namespace Grid

def cellLines : List Char → List (List Char)
  | [] => [[]]
  | c :: cs =>
    if c = '\n' then [] :: cellLines cs
    else match cellLines cs with
      | [] => [[c]]
      | l :: ls => (c :: l) :: ls

def columnCount (g : Grid) : Nat := ((g.header :: g.rows).map List.length).foldl max 0

def cellAt (row : List String) (i : Nat) : List (List Char) :=
  cellLines (row[i]?.getD "").toList

def cells (n : Nat) (row : List String) : List (List (List Char)) :=
  (List.range n).map (cellAt row)

def widths (g : Grid) : List Nat :=
  (List.range g.columnCount).map fun i =>
    ((g.header :: g.rows).flatMap fun row => (cellAt row i).map Text.width).foldl max 1

def rule (edge fill cross : Char) (ws : List Nat) : List Char :=
  edge :: List.intercalate [cross] (ws.map fun w => List.replicate (w + 2) fill) ++ [edge]

def pad (w : Nat) (line : List Char) : List Char :=
  ' ' :: line ++ List.replicate (w - Text.width line) ' ' ++ [' ']

def rowLines (ws : List Nat) (row : List String) : List (List Char) :=
  let cs := cells ws.length row
  let height := (cs.map List.length).foldl max 0
  (List.range height).map fun k =>
    '|' :: List.intercalate ['|'] ((ws.zip cs).map fun (w, cell) => pad w (cell[k]?.getD [])) ++ ['|']

def lines (g : Grid) : List (List Char) :=
  let ws := g.widths
  let between := rule '|' '-' '+' ws
  [rule '+' '-' '+' ws] ++ rowLines ws g.header ++ [rule '+' '=' '=' ws] ++
    List.intercalate [between] (g.rows.map (rowLines ws)) ++ [rule '+' '-' '+' ws]

def render (g : Grid) : String := String.ofList (List.intercalate ['\n'] g.lines)

end Grid

end RowStore
