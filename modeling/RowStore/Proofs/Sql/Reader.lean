import RowStore.Proofs.Sql.Draft

/-!
Reading items as statements, one item at a time. A statement ends at its semicolon; one that cannot be
read is reported once, at the item where it fails, and reading goes on after its semicolon.
-/

namespace RowStore.Sql

inductive Reader
  | between
  | reading (d : Draft)
  | skipping
  deriving DecidableEq, Repr

namespace Reader

def unexpected (d : Draft) (t : Token) : ParseError :=
  .unexpected d.expected (some (Text.clipped t.text)) t.span.start

/-- A draft and the next item of its statement: what that settles, and where reading goes on. -/
def advance (d : Draft) : Item → Option Parsed × Reader
  | .error e => (some (.error (.lexing e)), .skipping)
  | .ok t =>
    if t.kind = .semicolon then
      match d.closed? with
      | some s => (some (.ok s), .between)
      | none => (some (.error (unexpected d t)), .between)
    else
      match d.accept t with
      | some d' => (none, .reading d')
      | none => (some (.error (unexpected d t)), .skipping)

def step (r : Reader) (i : Item) : Option Parsed × Reader :=
  match r with
  | .between => if i.isSemicolon then (none, .between) else advance .start i
  | .reading d => advance d i
  | .skipping => (none, if i.isSemicolon then .between else .skipping)

def finish (size : Nat) : Reader → Option Parsed
  | .reading d => some (.error (.unexpected d.expected none size))
  | _ => none

/-- Everything that items settle up to the end of a text of `size` bytes. -/
def read (size : Nat) : Reader → List Item → List Parsed
  | r, [] => (r.finish size).toList
  | r, i :: rest => (r.step i).1.toList ++ read size (r.step i).2 rest

end Reader

end RowStore.Sql
