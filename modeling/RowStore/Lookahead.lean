/-!
Looking ahead in a source of items without losing any: a buffer of at most `capacity` items stands in
front of the source, and the source is asked no more once it has answered that nothing is left.
-/

namespace RowStore

/-- Something that hands out items one by one. It may answer `none` and go on later; `remaining`
estimates from below and from above how many items are left. -/
structure Source (σ α : Type) where
  next : σ → Option α × σ
  remaining : σ → Nat × Option Nat

def Source.maxCount : Nat := 0xFFFFFFFFFFFFFFFF

/-- The items taken from a source and not yet handed out, and in `live` the source's state until it
answers `none` for the first time. -/
structure Lookahead {σ α : Type} (source : Source σ α) (capacity : Nat) where
  live : Option σ
  buffer : List α

namespace Lookahead

variable {σ α : Type} {source : Source σ α} {capacity : Nat}

def ofState (s : σ) : Lookahead source capacity := ⟨some s, []⟩

def draw (l : Lookahead source capacity) : Option α × Lookahead source capacity :=
  match l.live with
  | none => (none, l)
  | some s => match source.next s with
    | (some a, s') => (some a, { l with live := some s' })
    | (none, _) => (none, { l with live := none })

def fill : Nat → Lookahead source capacity → Lookahead source capacity
  | 0, l => l
  | n + 1, l => match l.draw with
    | (some a, l') => fill n { l' with buffer := l'.buffer ++ [a] }
    | (none, l') => l'

def peekNth (n : Nat) (l : Lookahead source capacity) : Option α × Lookahead source capacity :=
  if capacity ≤ n then (none, l)
  else
    let l' := fill (n + 1 - l.buffer.length) l
    (l'.buffer[n]?, l')

def peek (l : Lookahead source capacity) : Option α × Lookahead source capacity := l.peekNth 0

def next (l : Lookahead source capacity) : Option α × Lookahead source capacity :=
  match l.buffer with
  | a :: rest => (some a, { l with buffer := rest })
  | [] => l.draw

def nextIf (test : α → Bool) (l : Lookahead source capacity) :
    Option α × Lookahead source capacity :=
  match l.peek with
  | (some a, l') => if test a then l'.next else (none, l')
  | (none, l') => (none, l')

def remaining (l : Lookahead source capacity) : Nat × Option Nat :=
  let estimate := match l.live with
    | some s => source.remaining s
    | none => (0, some 0)
  (min (estimate.1 + l.buffer.length) Source.maxCount,
    estimate.2.bind fun high =>
      if high + l.buffer.length ≤ Source.maxCount then some (high + l.buffer.length) else none)

def take : Nat → Lookahead source capacity → List α × Lookahead source capacity
  | 0, l => ([], l)
  | n + 1, l => match l.next with
    | (some a, l') => (a :: (take n l').1, (take n l').2)
    | (none, l') => ([], l')

end Lookahead

end RowStore
