import RowStore.Console.Report
import RowStore.Engine
import RowStore.Text.Lines

/-!
The interactive reader. Lines gather in a buffer; once a semicolon stands in it, everything up to the
last one is run and the rest waits for more. What is run depends on the lines alone.
-/

namespace RowStore.Repl

inductive Turn
  | prompt (continued : Bool)
  | run (sql : List Char)
  deriving DecidableEq, Repr

def promptText : Bool → String
  | false => "branchdb > "
  | true => "       ... "

def exitCommand : List Char := ".exit".toList

/-- The text up to the last semicolon, and the rest; nothing when there is no semicolon. -/
def cut? (buffer : List Char) : Option (List Char × List Char) :=
  let rest := (buffer.reverse.takeWhile (· ≠ ';')).reverse
  if ';' ∈ buffer then some (buffer.take (buffer.length - rest.length), rest) else none

def promptFor (buffer : List Char) : Turn := .prompt (!Text.allBlank buffer)

def react (buffer line : List Char) : Option (List Turn × List Char) :=
  if Text.allBlank buffer ∧ Text.trim line = exitCommand then none
  else
    let buffer := buffer ++ line ++ ['\n']
    match cut? buffer with
    | some (sql, rest) => some ([.run sql, promptFor rest], rest)
    | none => some ([promptFor buffer], buffer)

/-- What the end of input leads to: an open statement is run as it is. -/
def finish (buffer : List Char) : List Turn := if Text.allBlank buffer then [] else [.run buffer]

/-- The turns after the first prompt, and whether the input could be read to its end. A line that is
not text ends the reading. -/
def turns (buffer : List Char) : List (Option (List Char)) → List Turn × Bool
  | [] => (finish buffer, true)
  | none :: _ => ([], false)
  | some line :: lines => match react buffer line with
    | none => ([], true)
    | some (ts, buffer') => (ts ++ (turns buffer' lines).1, (turns buffer' lines).2)

structure State (δ : Type) where
  session : Session
  world : World δ

variable {δ : Type}

def play (c : Catalog δ) (s : State δ) : List Turn → String × State δ
  | [] => ("", s)
  | .prompt continued :: ts =>
    let (text, s') := play c s ts
    (promptText continued ++ text, s')
  | .run sql :: ts =>
    let (rs, session, world) := Engine.run c s.session s.world (String.ofList sql)
    let (text, s') := play c ⟨session, world⟩ ts
    (Report.results rs ++ text, s')

def turnsOf (input : Bytes) : List Turn × Bool :=
  let (ts, complete) := turns [] ((Text.byteLines input).map Text.decode?)
  (.prompt false :: ts, complete)

def run (c : Catalog δ) (w : World δ) (input : Bytes) : String × Bool × World δ :=
  let (ts, complete) := turnsOf input
  let (text, s) := play c ⟨.fresh, w⟩ ts
  (text, complete, s.world)

end RowStore.Repl
