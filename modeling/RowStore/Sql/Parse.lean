import RowStore.Sql.Parser

namespace RowStore.Sql

namespace Parsing

def createDatabase : Parsing Statement := do
  mustMatch (.keyword .CREATE)
  mustMatch (.keyword .DATABASE)
  let name ← identifier
  mustMatch .semicolon
  return .createDatabase name

def columnDefinition : Parsing ColumnDefinition := do
  let name ← identifier
  return ⟨name, ← dataType⟩

/-- Column definitions may be separated by commas or just blanks, and a comma may follow the last. -/
def columnDefinitions : Nat → Parsing (List ColumnDefinition)
  | 0 => return []
  | n + 1 => do
    let column ← columnDefinition
    let _ ← tryMatch .comma
    if ← tryMatch .rightParen then return [column]
    else return column :: (← columnDefinitions n)

def createTable : Parsing Statement := do
  mustMatch (.keyword .CREATE)
  mustMatch (.keyword .TABLE)
  let name ← identifier
  mustMatch .leftParen
  let columns ← columnDefinitions (← rounds)
  mustMatch .semicolon
  return .createTable name columns

def dropped? (t : Token) : Option (Identifier → Statement) :=
  match t.kind with
  | .keyword .DATABASE => some .dropDatabase
  | .keyword .TABLE => some .dropTable
  | _ => none

def drop : Parsing Statement := do
  mustMatch (.keyword .DROP)
  let statement ← matchToken .databaseOrTable dropped?
  let name ← identifier
  mustMatch .semicolon
  return statement name

def useDatabase : Parsing Statement := do
  mustMatch (.keyword .USE)
  let name ← identifier
  mustMatch .semicolon
  return .useDatabase name

def shown? (t : Token) : Option ShowTarget :=
  match t.kind with
  | .keyword .DATABASES => some .databases
  | .keyword .TABLES => some .tables
  | _ => none

def showNames : Parsing Statement := do
  mustMatch (.keyword .SHOW)
  let target ← matchToken .databasesOrTables shown?
  mustMatch .semicolon
  return .showNames target

def columnList : Parsing Columns := do
  if ← tryMatch .asterisk then return .all
  else return .named (← commaSeparated identifier)

def insertColumns : Parsing (Option Columns) := do
  if ← tryMatch .leftParen then
    let columns ← columnList
    mustMatch .rightParen
    return some columns
  else return none

def insert : Parsing Statement := do
  mustMatch (.keyword .INSERT)
  mustMatch (.keyword .INTO)
  let table ← identifier
  let columns ← insertColumns
  mustMatch (.keyword .VALUES)
  mustMatch .leftParen
  let values ← commaSeparated literal
  mustMatch .rightParen
  mustMatch .semicolon
  return .insert table columns values

def condition : Parsing Condition := do
  let column ← identifier
  let comparator ← matchToken .comparison Token.comparator?
  return ⟨column, comparator, ← literal⟩

def connective : Parsing (Option Connective) := do
  if ← tryMatch (.keyword .AND) then return some .and
  else if ← tryMatch (.keyword .OR) then return some .or
  else return none

def filter : Parsing (Option Filter) := do
  if ← tryMatch (.keyword .WHERE) then
    let first ← condition
    let rest ← many do
      match ← connective with
      | some op => return some (op, ← condition)
      | none => return none
    return some ⟨first, rest⟩
  else return none

def select : Parsing Statement := do
  mustMatch (.keyword .SELECT)
  let columns ← columnList
  mustMatch (.keyword .FROM)
  let table ← identifier
  let f ← filter
  mustMatch .semicolon
  return .select columns table f

/-- CREATE is the only word that does not tell which statement it starts. -/
def create : Option Kind → Parsing Statement
  | some (.keyword .DATABASE) => createDatabase
  | some (.keyword .TABLE) => createTable
  | _ => do
    let _ ← advance
    matchToken .databaseOrTable fun _ => none

def statement : Parsing Statement := do
  match ← peekKind 0 with
  | some (.keyword .CREATE) => create (← peekKind 1)
  | some (.keyword .DROP) => drop
  | some (.keyword .USE) => useDatabase
  | some (.keyword .SHOW) => showNames
  | some (.keyword .INSERT) => insert
  | some (.keyword .SELECT) => select
  | _ => matchToken .statement fun _ => none

end Parsing

namespace Parser

def next (p : Parser) : Option Parsed × Parser :=
  let p := skipSemicolons p.size p
  match p.items.peek with
  | (none, items) => (none, { p with items := items })
  | (some _, items) => match Parsing.statement { p with items := items } with
    | (.ok s, p') => (some (.ok s), p')
    | (.error e, p') => (some (.error e), recover p'.size p')

def results : Nat → Parser → List Parsed
  | 0, _ => []
  | n + 1, p => match p.next with
    | (some r, p') => r :: results n p'
    | (none, _) => []

end Parser

def parse (s : String) : List Parsed := Parser.results s.utf8ByteSize (.ofText s)

def allOrFirstError {ε α : Type} : List (Except ε α) → Except ε (List α)
  | [] => .ok []
  | .error e :: _ => .error e
  | .ok a :: rest => (allOrFirstError rest).map (a :: ·)

def parseAll (s : String) : Except ParseError (List Statement) := allOrFirstError (parse s)

end RowStore.Sql
