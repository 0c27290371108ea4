import RowStore.Text.Integer

namespace RowStore

structure Binary64 where
  bits : UInt64
  deriving DecidableEq, Repr

namespace Binary64

def roundQuotient (n d : Nat) : Nat :=
  let q := n / d
  let r := n % d
  if 2 * r < d then q else if d < 2 * r then q + 1 else q + q % 2

def scaledQuotient (n d : Nat) (q : Int) : Nat :=
  if 0 ≤ q then roundQuotient n (d <<< q.toNat) else roundQuotient (n <<< (-q).toNat) d

def infinityBits : Nat := 0x7FF0000000000000

def nanBits : Nat := 0x7FF8000000000000

def signBit : Nat := 0x8000000000000000

def exponentUnit : Nat := 0x10000000000000

def exponentOf (n d : Nat) : Int :=
  let e : Int := (n.log2 : Int) - d.log2
  let reached := if 0 ≤ e then d <<< e.toNat ≤ n else d ≤ n <<< (-e).toNat
  if reached then e else e - 1

/-- The bits of the double nearest to `n / d`. Below the normal range the spacing stays `2 ^ (-1074)`,
and a carry out of the significand lands in the exponent, where it belongs. -/
def ofRatio (n d : Nat) : Nat :=
  if n = 0 then 0
  else
    let q := max (exponentOf n d - 52) (-1074)
    min ((q + 1074).toNat * exponentUnit + scaledQuotient n d q) infinityBits

/-- The bits of the double nearest to the number with the digits `ds` and the exponent `e` of ten.
Beyond three hundred and some places the answer no longer depends on the digits. -/
def ofDecimal (ds : List Char) (e : Int) : Nat :=
  let ds := ds.dropWhile (· == '0')
  let places : Int := ds.length + e
  if ds = [] then 0
  else if 310 < places then infinityBits
  else if places < -330 then 0
  else if 0 ≤ e then ofRatio (Text.ofDigits ds * Nat.pow 10 e.toNat) 1
  else ofRatio (Text.ofDigits ds) (Nat.pow 10 (-e).toNat)

def parseExponent? : List Char → Option Int
  | [] => some 0
  | c :: cs => if c = 'e' ∨ c = 'E' then Text.parseInt? cs else none

def parseMagnitude? (cs : List Char) : Option Nat :=
  let whole := cs.takeWhile Char.isDigit
  let rest := cs.dropWhile Char.isDigit
  let (fraction, rest) := match rest with
    | '.' :: r => (r.takeWhile Char.isDigit, r.dropWhile Char.isDigit)
    | r => ([], r)
  let word := String.ofList (cs.map Char.toLower)
  if whole ++ fraction ≠ [] then
    (parseExponent? rest).map fun e => ofDecimal (whole ++ fraction) (e - fraction.length)
  else if word = "inf" ∨ word = "infinity" then some infinityBits
  else if word = "nan" then some nanBits
  else none

def parse? : List Char → Option Binary64
  | '-' :: cs => (parseMagnitude? cs).map fun m => ⟨UInt64.ofNat (signBit + m)⟩
  | '+' :: cs => (parseMagnitude? cs).map fun m => ⟨UInt64.ofNat m⟩
  | cs => (parseMagnitude? cs).map fun m => ⟨UInt64.ofNat m⟩

def isNegative (x : Binary64) : Bool := signBit ≤ x.bits.toNat

def magnitude (x : Binary64) : Nat := x.bits.toNat % signBit

def isNaN (x : Binary64) : Bool := infinityBits < x.magnitude

def hundredths (m : Nat) : Nat :=
  let exponent := m / exponentUnit
  let fraction := m % exponentUnit
  let significand := if exponent = 0 then fraction else exponentUnit + fraction
  scaledQuotient (significand * 100) 1 (1075 - (max exponent 1 : Nat))

/-- Two fractional digits of the exact value, the sign kept also before a zero, never an exponent. -/
def text (x : Binary64) : String :=
  if x.isNaN then "NaN"
  else
    let sign := if x.isNegative then "-" else ""
    if x.magnitude = infinityBits then sign ++ "inf"
    else
      let n := hundredths x.magnitude
      sign ++ toString (n / 100) ++ "." ++ toString (n % 100 / 10) ++ toString (n % 10)

end Binary64

end RowStore
