import RowStore.Text.Blank

namespace RowStore.Text

def digitValue (c : Char) : Nat := c.toNat - '0'.toNat

def ofDigits (cs : List Char) : Nat := cs.foldl (fun n c => n * 10 + digitValue c) 0

def parseNat? (cs : List Char) : Option Nat :=
  if cs ≠ [] ∧ cs.all Char.isDigit then some (ofDigits cs) else none

def parseInt? : List Char → Option Int
  | '-' :: cs => (parseNat? cs).map fun n => -(n : Int)
  | '+' :: cs => (parseNat? cs).map Int.ofNat
  | cs => (parseNat? cs).map Int.ofNat

def parseInt32? (cs : List Char) : Option Int32 :=
  match parseInt? cs with
  | some n => if -0x80000000 ≤ n ∧ n < 0x80000000 then some (Int32.ofInt n) else none
  | none => none

def int64Max : Nat := 0x7FFFFFFFFFFFFFFF

def pushDigit (n : Nat) (c : Char) : Nat :=
  min (min (n * 10) int64Max + digitValue c) int64Max

def leadingNat (cs : List Char) : Nat := (cs.takeWhile Char.isDigit).foldl pushDigit 0

/-- The integer a text starts with: blanks, an optional sign, then the digits that follow. Without
digits it is 0. -/
def leadingInt (cs : List Char) : Int :=
  match trimStart cs with
  | '-' :: ds => -(leadingNat ds : Int)
  | '+' :: ds => leadingNat ds
  | ds => leadingNat ds

end RowStore.Text
