import RowStore.Value
import RowStore.Text.Utf8
import RowStore.Table.Error

namespace RowStore

namespace Value

def varcharBytes (s : String) : Bytes :=
  let text := Text.encode (Text.clip Text.clipLimit s.toList)
  text ++ List.replicate (DataType.varcharWidth - text.length) 0

def encode : Value → Bytes
  | .int n => Bytes.ofInt32 n
  | .date n => Bytes.ofInt32 n
  | .double x => Bytes.ofUInt64 x.bits
  | .varchar s => varcharBytes s

/-- The value in a slot. A varchar ends before its first NUL, and bytes that are not UTF-8 do no harm. -/
def ofSlot (slot : Bytes) : DataType → Value
  | .int => .int (Bytes.toInt32 slot)
  | .date => .date (Bytes.toInt32 slot)
  | .double => .double ⟨Bytes.toUInt64 slot⟩
  | .varchar => .varchar (String.ofList (Text.decodeLossy (slot.takeWhile (· ≠ 0))))

def decode (t : DataType) (bs : Bytes) : Except TableError Value :=
  match Bytes.slice? 0 t.width bs with
  | some slot => .ok (ofSlot slot t)
  | none => .error (.malformedRow .endOfFile)

end Value

/-- The bytes of a row, and where the next value is written. -/
structure RowBuffer where
  bytes : Bytes
  position : Nat
  deriving DecidableEq, Repr

namespace RowBuffer

def ofWidth (n : Nat) : RowBuffer := ⟨List.replicate n 0, 0⟩

def write (part : Bytes) (b : RowBuffer) : Except Fault RowBuffer :=
  let behind := b.position + part.length
  if behind ≤ b.bytes.length then
    .ok ⟨b.bytes.take b.position ++ part ++ b.bytes.drop behind, behind⟩
  else .error .bufferFull

end RowBuffer

structure RowCodec where
  types : List DataType
  deriving DecidableEq, Repr

namespace RowCodec

def ofSchema (s : TableSchema) : RowCodec := ⟨s.types⟩

def width (c : RowCodec) : Nat := DataType.totalWidth c.types

def offset (c : RowCodec) (i : Nat) : Nat := DataType.totalWidth (c.types.take i)

def column (c : RowCodec) (i : Nat) : Except TableError DataType :=
  match c.types[i]? with
  | some t => .ok t
  | none => .error (.columnOutOfRange i c.types.length)

def columnOffset (c : RowCodec) (i : Nat) : Except TableError Nat :=
  (c.column i).map fun _ => c.offset i

def parseValues : List DataType → List String → Except TableError (List Value)
  | t :: ts, l :: ls => match Value.ofLiteral? t l with
    | some v => (parseValues ts ls).map (v :: ·)
    | none => .error (.invalidLiteral l t)
  | _, _ => .ok []

def parseRow (c : RowCodec) (literals : List String) : Except TableError (List Value) :=
  if literals.length = c.types.length then parseValues c.types literals
  else .error (.arityMismatch c.types.length literals.length)

def writeFrom (i : Nat) : List DataType → List Value → RowBuffer → Except TableError RowBuffer
  | t :: ts, v :: vs, b =>
    if v.type = t then do
      let b ← (b.write v.encode).mapError .malformedRow
      writeFrom (i + 1) ts vs b
    else .error (.typeMismatch i t v.type)
  | _, _, b => .ok b

def encode (c : RowCodec) (values : List Value) : Except TableError Bytes :=
  if values.length = c.types.length then
    (writeFrom 0 c.types values (.ofWidth c.width)).map RowBuffer.bytes
  else .error (.arityMismatch c.types.length values.length)

def decodeFrom : List DataType → Bytes → Except TableError (List Value)
  | [], _ => .ok []
  | t :: ts, bs => do
    let v ← Value.decode t bs
    let vs ← decodeFrom ts (bs.drop t.width)
    return v :: vs

/-- The values of a row. Bytes after it do not matter. -/
def decode (c : RowCodec) (bs : Bytes) : Except TableError (List Value) := decodeFrom c.types bs

def decodeColumn (c : RowCodec) (i : Nat) (bs : Bytes) : Except TableError Value := do
  Value.decode (← c.column i) bs

end RowCodec

end RowStore
