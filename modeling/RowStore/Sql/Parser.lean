import RowStore.Sql.Lexer
import RowStore.Sql.ParseError

/-!
A parser of SQL text: it takes items from the front, looks at most two items ahead, and remembers
whether the last item that it took ended a statement.
-/

namespace RowStore.Sql

namespace Token

def identifier (t : Token) : Identifier := ⟨Text.clipped t.text, t.span⟩

def quoted (t : Token) : String := Text.clipped (String.ofList (t.text.toList.drop 1).dropLast)

def literal? (t : Token) : Option Literal :=
  match t.kind with
  | .number => some (.number (Text.clipped t.text))
  | .string => some (.string t.quoted)
  | _ => none

def dataType? (t : Token) : Option DataType :=
  match t.kind with
  | .keyword .INT => some .int
  | .keyword .VARCHAR => some .varchar
  | .keyword .DOUBLE => some .double
  | .keyword .DATE => some .date
  | _ => none

def comparator? (t : Token) : Option Comparator :=
  match t.kind with
  | .equal => some .equal
  | .greater => some .greater
  | .less => some .less
  | .greaterEqual => some .greaterEqual
  | .lessEqual => some .lessEqual
  | _ => none

def connective? (t : Token) : Option Connective :=
  match t.kind with
  | .keyword .AND => some .and
  | .keyword .OR => some .or
  | _ => none

def identifier? (t : Token) : Option Identifier :=
  if t.kind = .identifier then some t.identifier else none

end Token

structure Parser where
  size : Nat
  items : Lookahead Lexer.source 2
  atBoundary : Bool

/-- Work of a parser. The items that it takes before it fails stay taken. -/
abbrev Parsing (α : Type) : Type := ExceptT ParseError (StateM Parser) α

namespace Parser

variable {α : Type}

def ofText (s : String) : Parser := ⟨s.utf8ByteSize, .ofState (.ofText s), true⟩

def take (p : Parser) : Option Item × Parser :=
  let (item, items) := p.items.next
  (item, { p with items := items, atBoundary := item.any Item.isSemicolon })

def takeIf (test : Item → Bool) (p : Parser) : Option Item × Parser :=
  let (item, items) := p.items.nextIf test
  (item, { p with items := items })

def skipSemicolons : Nat → Parser → Parser
  | 0, p => p
  | n + 1, p => match p.takeIf Item.isSemicolon with
    | (some _, p') => skipSemicolons n p'
    | (none, p') => p'

def recover : Nat → Parser → Parser
  | 0, p => p
  | n + 1, p =>
    if p.atBoundary then p
    else match p.take with
      | (some _, p') => recover n p'
      | (none, p') => p'

end Parser

namespace Parsing

variable {α β : Type}

def advance : Parsing (Option Item) := fun p =>
  let (item, p') := p.take
  (.ok item, p')

def peekKind (n : Nat) : Parsing (Option Kind) := fun p =>
  let (item, items) := p.items.peekNth n
  (.ok (item.bind fun i => i.toOption.map Token.kind), { p with items := items })

/-- Takes the next item. It has to be a token of which `f` makes something. -/
def matchToken (expected : Expected) (f : Token → Option α) : Parsing α := do
  match ← advance with
  | some (.ok t) => match f t with
    | some a => return a
    | none => throw (.unexpected expected (some (Text.clipped t.text)) t.span.start)
  | some (.error e) => throw (.lexing e)
  | none => throw (.unexpected expected none (← get).size)

def mustMatch (k : Kind) : Parsing Unit :=
  matchToken (.kind k) fun t => if t.kind = k then some () else none

def tryMatch (k : Kind) : Parsing Bool := fun p =>
  let (item, p') := p.takeIf (Item.hasKind k)
  (.ok item.isSome, p')

def identifier : Parsing Identifier := matchToken (.kind .identifier) Token.identifier?

def literal : Parsing Literal := matchToken .literal Token.literal?

def dataType : Parsing DataType := matchToken .dataType Token.dataType?

def gather (x : Parsing (Option α)) : Nat → Parsing (List α)
  | 0 => return []
  | n + 1 => do
    match ← x with
    | some a => return a :: (← gather x n)
    | none => return []

/-- More rounds than a text has bytes are more than it has items. -/
def rounds : Parsing Nat := return (← get).size + 1

def many (x : Parsing (Option α)) : Parsing (List α) := do gather x (← rounds)

def commaSeparated (x : Parsing α) : Parsing (List α) := do
  let first ← x
  let rest ← many do
    if ← tryMatch .comma then return some (← x)
    else return none
  return first :: rest

end Parsing

end RowStore.Sql
