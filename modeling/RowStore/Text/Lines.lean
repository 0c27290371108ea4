namespace RowStore.Text

def lines {α : Type} [DecidableEq α] (lf cr : α) : List α → List (List α)
  | [] => []
  | c :: cs =>
    if c = lf then [] :: lines lf cr cs
    else if c = cr ∧ cs.head? = some lf then lines lf cr cs
    else match lines lf cr cs with
      | [] => [[c]]
      | l :: ls => (c :: l) :: ls

def textLines (cs : List Char) : List (List Char) := lines '\n' '\r' cs

def byteLines (bs : List UInt8) : List (List UInt8) := lines 10 13 bs

theorem lines_lf {α : Type} [DecidableEq α] (lf cr : α) (cs : List α) :
    lines lf cr (lf :: cs) = [] :: lines lf cr cs := by simp [lines]

end RowStore.Text
