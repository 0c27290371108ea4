import RowStore.Sql.Token
import RowStore.Text.Blank

/-!
Scanning SQL text into items. Blanks separate items, each item takes as many characters as it can, and
the scan goes on after an error.
-/

namespace RowStore.Sql

inductive Start
  | quoted
  | number
  | word
  | symbol
  deriving DecidableEq, Repr

def Start.ofChar (c : Char) : Start :=
  if c = '\'' ∨ c = '"' then .quoted
  else if c.isDigit then .number
  else if c.isAlpha then .word
  else .symbol

def isWordChar (c : Char) : Bool := c.isAlphanum || c == '_'

def quotedTail (quote : Char) (cs : List Char) : List Char :=
  if quote ∈ cs then cs.takeWhile (· ≠ quote) ++ [quote] else cs

def numberTail (cs : List Char) : List Char :=
  cs.takeWhile Char.isDigit ++
    match cs.dropWhile Char.isDigit with
    | '.' :: r => '.' :: r.takeWhile Char.isDigit
    | _ => []

def symbolTail (c : Char) (cs : List Char) : List Char :=
  if (c = '>' ∨ c = '<') ∧ cs.head? = some '=' then ['='] else []

/-- The characters after `c` that belong to the item that starts at `c`. -/
def tailOf (c : Char) (cs : List Char) : List Char :=
  match Start.ofChar c with
  | .quoted => quotedTail c cs
  | .number => numberTail cs
  | .word => cs.takeWhile isWordChar
  | .symbol => symbolTail c cs

def symbolKind? : List Char → Option Kind
  | ['*'] => some .asterisk
  | [','] => some .comma
  | [';'] => some .semicolon
  | ['='] => some .equal
  | ['('] => some .leftParen
  | [')'] => some .rightParen
  | ['>'] => some .greater
  | ['<'] => some .less
  | ['>', '='] => some .greaterEqual
  | ['<', '='] => some .lessEqual
  | _ => none

def kindOf? (c : Char) (cs : List Char) : Option Kind :=
  match Start.ofChar c with
  | .quoted => if c ∈ cs then some .string else none
  | .number => some .number
  | .word => some (((Keyword.ofWord? (c :: tailOf c cs)).map Kind.keyword).getD .identifier)
  | .symbol => symbolKind? (c :: tailOf c cs)

def itemAt (pos : Nat) (c : Char) (cs : List Char) : Item :=
  let chars := c :: tailOf c cs
  let span : Span := ⟨pos, pos + Text.byteSize chars - 1⟩
  match kindOf? c cs with
  | some k => .ok ⟨k, String.ofList chars, span⟩
  | none =>
    if Start.ofChar c = .quoted then .error (.unterminatedString span)
    else .error (.unexpectedChar c pos)

/-- The items of a text that starts at byte `pos`, after `skip` characters that are already taken. -/
def scanFrom : Nat → Nat → List Char → List Item
  | _, _, [] => []
  | pos, skip + 1, c :: cs => scanFrom (pos + c.utf8Size) skip cs
  | pos, 0, c :: cs =>
    if Text.isBlank c then scanFrom (pos + c.utf8Size) 0 cs
    else itemAt pos c cs :: scanFrom (pos + c.utf8Size) (tailOf c cs).length cs

def scanChars (cs : List Char) : List Item := scanFrom 0 0 cs

def scan (s : String) : List Item := scanChars s.toList

end RowStore.Sql
