import RowStore.Bytes

/-!
UTF-8: writing characters as bytes, the strict reading that refuses any other bytes, and the lenient
reading that puts U+FFFD for each longest run of bytes that starts a character and is then broken off.
-/

namespace RowStore.Text

def encode (cs : List Char) : Bytes := cs.flatMap String.utf8EncodeChar

/-- For each byte that may start a character, the ranges of the bytes that have to follow it. -/
def followers (b : UInt8) : Option (List (UInt8 × UInt8)) :=
  if b ≤ 0x7F then some []
  else if b < 0xC2 then none
  else if b ≤ 0xDF then some [(0x80, 0xBF)]
  else if b = 0xE0 then some [(0xA0, 0xBF), (0x80, 0xBF)]
  else if b = 0xED then some [(0x80, 0x9F), (0x80, 0xBF)]
  else if b ≤ 0xEF then some [(0x80, 0xBF), (0x80, 0xBF)]
  else if b = 0xF0 then some [(0x90, 0xBF), (0x80, 0xBF), (0x80, 0xBF)]
  else if b ≤ 0xF3 then some [(0x80, 0xBF), (0x80, 0xBF), (0x80, 0xBF)]
  else if b = 0xF4 then some [(0x80, 0x8F), (0x80, 0xBF), (0x80, 0xBF)]
  else none

def agreeing : List (UInt8 × UInt8) → Bytes → Nat
  | (low, high) :: rs, b :: bs => if low ≤ b ∧ b ≤ high then agreeing rs bs + 1 else 0
  | _, _ => 0

def payload (b : UInt8) : Nat → Nat
  | 0 => b.toNat
  | 1 => b.toNat % 32
  | 2 => b.toNat % 16
  | _ => b.toNat % 8

/-- What bytes start with: a character and how many bytes follow its first one, or no character and
how many bytes after the first belong to the broken one. -/
def readChar (b : UInt8) (bs : Bytes) : Option Char × Nat :=
  match followers b with
  | none => (none, 0)
  | some rs =>
    let k := agreeing rs bs
    if k = rs.length then
      (some (Char.ofNat ((bs.take k).foldl (fun n x => n * 64 + x.toNat % 64) (payload b k))), k)
    else (none, k)

def decodeLossyFrom : Nat → Bytes → List Char
  | _, [] => []
  | skip + 1, _ :: bs => decodeLossyFrom skip bs
  | 0, b :: bs =>
    let r := readChar b bs
    r.1.getD '\uFFFD' :: decodeLossyFrom r.2 bs

def decodeLossy (bs : Bytes) : List Char := decodeLossyFrom 0 bs

def decodeFrom? : Nat → Bytes → Option (List Char)
  | _, [] => some []
  | skip + 1, _ :: bs => decodeFrom? skip bs
  | 0, b :: bs =>
    match readChar b bs with
    | (some c, k) => (decodeFrom? k bs).map (c :: ·)
    | (none, _) => none

def decode? (bs : Bytes) : Option (List Char) := decodeFrom? 0 bs

end RowStore.Text
