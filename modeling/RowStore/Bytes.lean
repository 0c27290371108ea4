namespace RowStore

abbrev Bytes := List UInt8

namespace Bytes

def ofNat : Nat → Nat → Bytes
  | 0, _ => []
  | k + 1, n => UInt8.ofNat n :: ofNat k (n / 256)

def toNat : Bytes → Nat
  | [] => 0
  | b :: bs => b.toNat + 256 * toNat bs

def ofUInt32 (w : UInt32) : Bytes := ofNat 4 w.toNat

def toUInt32 (bs : Bytes) : UInt32 := UInt32.ofNat (toNat bs)

def ofInt32 (v : Int32) : Bytes := ofUInt32 v.toUInt32

def toInt32 (bs : Bytes) : Int32 := (toUInt32 bs).toInt32

def ofUInt64 (w : UInt64) : Bytes := ofNat 8 w.toNat

def toUInt64 (bs : Bytes) : UInt64 := UInt64.ofNat (toNat bs)

def slice? (start len : Nat) (bs : Bytes) : Option Bytes :=
  let part := (bs.drop start).take len
  if part.length = len then some part else none

/-- Writing `part` at `start`: a gap before it becomes zero bytes, all other bytes stay. Writing
nothing changes nothing. -/
def overwrite (start : Nat) (part bs : Bytes) : Bytes :=
  if part = [] then bs
  else bs.take start ++ List.replicate (start - bs.length) 0 ++ part ++ bs.drop (start + part.length)

@[simp] theorem length_ofNat (k n : Nat) : (ofNat k n).length = k := by
  induction k generalizing n with
  | zero => rfl
  | succ k ih => simp [ofNat, ih]

theorem toNat_ofNat {k n : Nat} (h : n < Nat.pow 256 k) : toNat (ofNat k n) = n := by
  induction k generalizing n with
  | zero => exact (Nat.lt_one_iff.1 h).symm
  | succ k ih =>
    have high : n / 256 < Nat.pow 256 k := Nat.div_lt_of_lt_mul (Nat.mul_comm _ _ ▸ h)
    simp only [ofNat, toNat, ih high, UInt8.toNat_ofNat']
    exact Nat.mod_add_div n 256

theorem toNat_lt (bs : Bytes) : toNat bs < Nat.pow 256 bs.length := by
  induction bs with
  | nil => exact Nat.one_pos
  | cons b bs ih =>
    have low := b.toNat_lt
    rw [toNat, List.length_cons, Nat.pow_eq, Nat.pow_succ, ← Nat.pow_eq]
    omega

@[simp] theorem toUInt32_ofUInt32 (w : UInt32) : toUInt32 (ofUInt32 w) = w := by
  rw [toUInt32, ofUInt32, toNat_ofNat w.toNat_lt, UInt32.ofNat_toNat]

@[simp] theorem toUInt64_ofUInt64 (w : UInt64) : toUInt64 (ofUInt64 w) = w := by
  rw [toUInt64, ofUInt64, toNat_ofNat w.toNat_lt, UInt64.ofNat_toNat]

@[simp] theorem toInt32_ofInt32 (v : Int32) : toInt32 (ofInt32 v) = v := by
  simp [toInt32, ofInt32]

end Bytes

end RowStore
