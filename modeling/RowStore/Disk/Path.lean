/-!
Paths as text. A path is joined from pieces; its steps are the pieces between slashes. A file name may
end in an extension, which starts at its last dot unless the name has no other dot-free start.
-/

namespace RowStore

structure Path where
  text : String
  deriving DecidableEq, Repr

namespace Path

def isAbsolute (p : Path) : Bool := p.text.toList.head? == some '/'

def lead (p : Path) : String := if p.isAbsolute then "/" else ""

/-- One path below another. An absolute piece replaces the path, and a slash is put between them
unless one stands there or the path is empty. -/
def join (p : Path) (piece : String) : Path :=
  if isAbsolute ⟨piece⟩ then ⟨piece⟩
  else if p.text.toList = [] ∨ p.text.toList.getLast? = some '/' then ⟨p.text ++ piece⟩
  else ⟨p.text ++ "/" ++ piece⟩

def pieces : List Char → List (List Char)
  | [] => [[]]
  | c :: cs =>
    if c = '/' then [] :: pieces cs
    else match pieces cs with
      | [] => [[c]]
      | p :: ps => (c :: p) :: ps

def steps (p : Path) : List String :=
  ((pieces p.text.toList).filter (· ≠ [])).map String.ofList

def namesDirectory (p : Path) : Bool := p.text.toList.getLast? == some '/'

/-- A file name cut at its last dot: what stands before it, and what after. A dot that nothing
precedes cuts nothing. -/
def cutName (name : List Char) : List Char × Option (List Char) :=
  let after := (name.reverse.takeWhile (· ≠ '.')).reverse
  let before := name.take (name.length - after.length - 1)
  if '.' ∉ name ∨ before = [] then (name, none) else (before, some after)

def stem? (ext name : String) : Option String :=
  let (before, after) := cutName name.toList
  if after = some ext.toList then some (String.ofList before) else none

theorem pieces_ne_nil (cs : List Char) : pieces cs ≠ [] := by
  cases cs with
  | nil => simp [pieces]
  | cons c cs =>
    simp only [pieces]
    split
    · simp
    · split <;> simp

end Path

end RowStore
