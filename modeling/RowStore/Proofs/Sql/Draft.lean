import RowStore.Sql.Parser

namespace RowStore.Sql

inductive NameUse
  | createDatabase
  | dropDatabase
  | dropTable
  | useDatabase
  deriving DecidableEq, Repr

def NameUse.statement (name : Identifier) : NameUse → Statement
  | .createDatabase => .createDatabase name
  | .dropDatabase => .dropDatabase name
  | .dropTable => .dropTable name
  | .useDatabase => .useDatabase name

inductive ListUse
  | insert (table : Identifier)
  | select
  deriving DecidableEq, Repr

def ListUse.closing : ListUse → Kind
  | .insert _ => .rightParen
  | .select => .keyword .FROM

structure Insertion where
  table : Identifier
  columns : Option Columns
  deriving DecidableEq, Repr

structure Selection where
  columns : Columns
  table : Identifier
  deriving DecidableEq, Repr

/-- The filter before a condition and the connective that joins them; none before the first. -/
abbrev Junction := Option (Filter × Connective)

def Junction.add (c : Condition) : Junction → Filter
  | none => ⟨c, []⟩
  | some (f, op) => { f with rest := f.rest ++ [(op, c)] }

inductive Draft
  | start
  | whole (s : Statement)
  | create
  | drop
  | naming (u : NameUse)
  | tableName
  | tableOpen (name : Identifier)
  | firstColumn (name : Identifier)
  | columnType (name : Identifier) (columns : List ColumnDefinition) (column : Identifier)
  | afterColumn (name : Identifier) (columns : List ColumnDefinition)
  | afterColumnComma (name : Identifier) (columns : List ColumnDefinition)
  | showTarget
  | insert
  | insertTable
  | afterInsertTable (table : Identifier)
  | valuesWord (i : Insertion)
  | valuesOpen (i : Insertion)
  | value (i : Insertion) (values : List Literal)
  | afterValue (i : Insertion) (values : List Literal)
  | list (u : ListUse)
  | afterAll (u : ListUse)
  | listName (u : ListUse) (names : List Identifier)
  | afterListName (u : ListUse) (names : List Identifier)
  | fromTable (columns : Columns)
  | afterTable (s : Selection)
  | condition (s : Selection) (j : Junction)
  | comparator (s : Selection) (j : Junction) (column : Identifier)
  | comparand (s : Selection) (j : Junction) (column : Identifier) (comparator : Comparator)
  | afterCondition (s : Selection) (f : Filter)
  deriving DecidableEq, Repr

def ListUse.next (columns : Columns) : ListUse → Draft
  | .insert table => .valuesWord ⟨table, some columns⟩
  | .select => .fromTable columns

def Token.goesOn (t : Token) (k : Kind) (d : Draft) : Option Draft :=
  if t.kind = k then some d else none

namespace Draft

def expected : Draft → Expected
  | .start => .statement
  | .whole _ => .kind .semicolon
  | .create => .databaseOrTable
  | .drop => .databaseOrTable
  | .naming _ => .kind .identifier
  | .tableName => .kind .identifier
  | .tableOpen _ => .kind .leftParen
  | .firstColumn _ => .kind .identifier
  | .columnType _ _ _ => .dataType
  | .afterColumn _ _ => .kind .identifier
  | .afterColumnComma _ _ => .kind .identifier
  | .showTarget => .databasesOrTables
  | .insert => .kind (.keyword .INTO)
  | .insertTable => .kind .identifier
  | .afterInsertTable _ => .kind (.keyword .VALUES)
  | .valuesWord _ => .kind (.keyword .VALUES)
  | .valuesOpen _ => .kind .leftParen
  | .value _ _ => .literal
  | .afterValue _ _ => .kind .rightParen
  | .list _ => .kind .identifier
  | .afterAll u => .kind u.closing
  | .listName _ _ => .kind .identifier
  | .afterListName u _ => .kind u.closing
  | .fromTable _ => .kind .identifier
  | .afterTable _ => .kind .semicolon
  | .condition _ _ => .kind .identifier
  | .comparator _ _ _ => .comparison
  | .comparand _ _ _ _ => .literal
  | .afterCondition _ _ => .kind .semicolon

/-- The draft after a token that is no semicolon, if the statement may go on with it. -/
def accept (t : Token) : Draft → Option Draft
  | .start => match t.kind with
    | .keyword .CREATE => some .create
    | .keyword .DROP => some .drop
    | .keyword .USE => some (.naming .useDatabase)
    | .keyword .SHOW => some .showTarget
    | .keyword .INSERT => some .insert
    | .keyword .SELECT => some (.list .select)
    | _ => none
  | .whole _ => none
  | .create => match t.kind with
    | .keyword .DATABASE => some (.naming .createDatabase)
    | .keyword .TABLE => some .tableName
    | _ => none
  | .drop => match t.kind with
    | .keyword .DATABASE => some (.naming .dropDatabase)
    | .keyword .TABLE => some (.naming .dropTable)
    | _ => none
  | .naming u => t.identifier?.map fun x => .whole (u.statement x)
  | .tableName => t.identifier?.map .tableOpen
  | .tableOpen name => t.goesOn .leftParen (.firstColumn name)
  | .firstColumn name => t.identifier?.map (.columnType name [])
  | .columnType name columns column =>
    t.dataType?.map fun type => .afterColumn name (columns ++ [⟨column, type⟩])
  | .afterColumn name columns => match t.kind with
    | .comma => some (.afterColumnComma name columns)
    | .rightParen => some (.whole (.createTable name columns))
    | _ => t.identifier?.map (.columnType name columns)
  | .afterColumnComma name columns => match t.kind with
    | .rightParen => some (.whole (.createTable name columns))
    | _ => t.identifier?.map (.columnType name columns)
  | .showTarget => match t.kind with
    | .keyword .DATABASES => some (.whole (.showNames .databases))
    | .keyword .TABLES => some (.whole (.showNames .tables))
    | _ => none
  | .insert => t.goesOn (.keyword .INTO) .insertTable
  | .insertTable => t.identifier?.map .afterInsertTable
  | .afterInsertTable table => match t.kind with
    | .leftParen => some (.list (.insert table))
    | .keyword .VALUES => some (.valuesOpen ⟨table, none⟩)
    | _ => none
  | .valuesWord i => t.goesOn (.keyword .VALUES) (.valuesOpen i)
  | .valuesOpen i => t.goesOn .leftParen (.value i [])
  | .value i values => t.literal?.map fun l => .afterValue i (values ++ [l])
  | .afterValue i values => match t.kind with
    | .comma => some (.value i values)
    | .rightParen => some (.whole (.insert i.table i.columns values))
    | _ => none
  | .list u => match t.kind with
    | .asterisk => some (.afterAll u)
    | _ => t.identifier?.map fun x => .afterListName u [x]
  | .afterAll u => t.goesOn u.closing (u.next .all)
  | .listName u names => t.identifier?.map fun x => .afterListName u (names ++ [x])
  | .afterListName u names =>
    if t.kind = .comma then some (.listName u names)
    else t.goesOn u.closing (u.next (.named names))
  | .fromTable columns => t.identifier?.map fun x => .afterTable ⟨columns, x⟩
  | .afterTable s => t.goesOn (.keyword .WHERE) (.condition s none)
  | .condition s j => t.identifier?.map (.comparator s j)
  | .comparator s j column => t.comparator?.map (.comparand s j column)
  | .comparand s j column op =>
    t.literal?.map fun l => .afterCondition s (Junction.add ⟨column, op, l⟩ j)
  | .afterCondition s f => t.connective?.map fun op => .condition s (some (f, op))

def closed? : Draft → Option Statement
  | .whole s => some s
  | .afterTable s => some (.select s.columns s.table none)
  | .afterCondition s f => some (.select s.columns s.table (some f))
  | _ => none

theorem accept_semicolon (d : Draft) {t : Token} (h : t.kind = .semicolon) :
    d.accept t = none := by
  cases d with
  | afterAll u | afterListName u => cases u <;> simp [accept, Token.goesOn, ListUse.closing, h]
  | _ =>
    simp [accept, Token.identifier?, Token.goesOn, Token.dataType?, Token.literal?,
      Token.comparator?, Token.connective?, h]

end Draft

end RowStore.Sql
