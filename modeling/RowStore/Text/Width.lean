import RowStore.Text.Emoji
import RowStore.Text.Wide
import RowStore.Text.ZeroWidth

/-!
The columns that a text takes on a screen. Most characters take one or two each, whatever stands around
them. Some are drawn as one with what follows: the parts of an emoji, and letters of several scripts.
So a text is measured from its end, and each character is told what stands after it.
-/

namespace RowStore.Text

/-- Letters that certain characters before them are written together with. -/
inductive Ligature
  | lamed
  | ya
  | vowelYa
  | consonant
  | joinedConsonant
  | tone
  | orkhonI
  | subscript
  | vowelE
  | vowelAi
  deriving DecidableEq, Repr

inductive Start
  | plain
  | modifier
  | picture
  | joinedPicture
  | alef
  | letter (l : Ligature) (joined : Bool)
  deriving DecidableEq, Repr

/-- A text as the character before it sees it: what it starts with, and whether U+FE0F comes first. -/
structure Following where
  start : Start
  styled : Bool
  deriving DecidableEq, Repr

def alefRuns : Runs :=
  [(0x0622, 0x0623), (0x0625, 0x0625), (0x0627, 0x0627), (0x0671, 0x0673), (0x0675, 0x0675),
   (0x0773, 0x0774), (0x0870, 0x0882)]

def lamRuns : Runs :=
  [(0x0644, 0x0644), (0x06B5, 0x06B8), (0x076A, 0x076A), (0x08A6, 0x08A6), (0x08C7, 0x08C7)]

def consonantRuns : Runs := [(0x2D31, 0x2D65), (0x2D6F, 0x2D6F)]

def consonantJoiner : Nat := 0x2D7F

def subscriptRuns : Runs :=
  [(0x1780, 0x1782), (0x1784, 0x1787), (0x1789, 0x178C), (0x178E, 0x1793), (0x1795, 0x1798),
   (0x179B, 0x179D), (0x17A0, 0x17A0), (0x17A2, 0x17A2), (0x17A7, 0x17A7), (0x17AB, 0x17AC),
   (0x17AF, 0x17AF)]

namespace Start

def ofCode (n : Nat) : Start :=
  if n = 0x05DC then .letter .lamed false
  else if n = 0x1A10 then .letter .ya false
  else if n = 0xA4FC ∨ n = 0xA4FD then .letter .tone false
  else if n = 0x10C03 then .letter .orkhonI false
  else if n = 0x16D67 then .letter .vowelE false
  else if n = 0x16D68 then .letter .vowelAi false
  else if alefRuns.has n then .alef
  else if consonantRuns.has n then .letter .consonant false
  else if subscriptRuns.has n then .letter .subscript false
  else if isModifier n then .modifier
  else if isPicture n then .picture
  else .plain

def behindStyle : Start → Start
  | .letter l joined => .letter l joined
  | .alef => .alef
  | _ => .plain

end Start

/-- The columns that a character adds, and what it starts, when it is written together with the letter
after it. -/
def Ligature.join? (n : Nat) (joined : Bool) : Ligature → Option (Int × Start)
  | .lamed => if joined ∧ n = 0x05D0 then some (0, .plain) else none
  | .ya => if joined ∧ n = 0x1A17 then some (0, .letter .vowelYa true) else none
  | .vowelYa => if n = 0x1A15 then some (0, .plain) else none
  | .consonant =>
    if n = consonantJoiner then some (1, .letter .joinedConsonant false)
    else if joined ∧ consonantRuns.has n then some (0, .plain)
    else none
  | .joinedConsonant => if consonantRuns.has n then some (-1, .plain) else none
  | .tone => if 0xA4F8 ≤ n ∧ n ≤ 0xA4FB then some (0, .plain) else none
  | .orkhonI => if joined ∧ n = 0x10C32 then some (0, .plain) else none
  | .subscript => if n = 0x17D2 then some (-1, .plain) else none
  | .vowelE =>
    if n = 0x16D63 ∨ n = 0x16D69 then some (0, .plain)
    else if n = 0x16D67 then some (0, .letter .vowelAi false)
    else if n = 0x16D68 then some (1, .letter .vowelE false)
    else none
  | .vowelAi => if n = 0x16D63 then some (0, .plain) else none

def Start.join? (n : Nat) : Start → Option (Int × Start)
  | .plain => none
  | .modifier =>
    if isModifierBase n then some (0, .picture)
    else if n = joiner then some (0, .joinedPicture)
    else none
  | .picture => if n = joiner then some (0, .joinedPicture) else none
  | .joinedPicture =>
    if isModifier n then some (0, .modifier)
    else if isPicture n then some (0, .picture)
    else none
  | .alef =>
    if lamRuns.has n then some (0, .plain)
    else if isZeroWidth n ∧ n ≠ joiner ∧ n ≠ nonJoiner then some (0, .alef)
    else none
  | .letter l joined =>
    if n = joiner then some (0, .letter l true)
    else if isIgnorableMark n then some (0, .letter l joined)
    else l.join? n joined

def aloneWidth (n : Nat) : Int :=
  if n = 0x17D8 then 3
  else if n = 0x115F ∨ n = 0x17A4 then 2
  else if isZeroWidth n then 0
  else if isWide n then 2
  else 1

namespace Following

def nothing : Following := ⟨.plain, false⟩

def push (n : Nat) (f : Following) : Int × Following :=
  if f.styled ∧ hasPicture n then (if f.start = .joinedPicture then 0 else 2, ⟨.picture, false⟩)
  else
    let start := if f.styled then f.start.behindStyle else f.start
    if n ≤ 0xA0 then (1, nothing)
    else if n = pictureStyle then
      (0, ⟨if start = .joinedPicture then start else start.behindStyle, true⟩)
    else match start.join? n with
      | some (w, start') => (w, ⟨start', false⟩)
      | none => (aloneWidth n, ⟨Start.ofCode n, false⟩)

end Following

def measure (cs : List Char) : Int × Following :=
  cs.foldr (fun c m => let (w, f) := m.2.push c.toNat; (m.1 + w, f)) (0, .nothing)

def width (cs : List Char) : Nat := (measure cs).1.toNat

end RowStore.Text
