import RowStore.Bytes

namespace RowStore

inductive Stretch
  | hole (length : Nat)
  | data (bs : Bytes)
  deriving DecidableEq, Repr

abbrev Content := List Stretch

namespace Content

def ofBytes (bs : Bytes) : Content := [.data bs]

def bytes : Content → Bytes
  | [] => []
  | .hole k :: c => List.replicate k 0 ++ bytes c
  | .data bs :: c => bs ++ bytes c

def behind (n : Nat) : Content → Content
  | [] => []
  | .hole k :: c => if n < k then .hole (k - n) :: c else behind (n - k) c
  | .data bs :: c => match bs.drop n with
    | [] => behind (n - bs.length) c
    | b :: rest => .data (b :: rest) :: c

def first (n : Nat) : Content → Bytes
  | [] => []
  | .hole k :: c => if n ≤ k then List.replicate n 0 else List.replicate k 0 ++ first (n - k) c
  | .data bs :: c => match bs.drop n with
    | [] => bs ++ first (n - bs.length) c
    | _ :: _ => bs.take n

def upTo : Nat → Content → Content
  | 0, _ => []
  | n, [] => [.hole n]
  | n, .hole k :: c => if n ≤ k then [.hole n] else .hole k :: upTo (n - k) c
  | n, .data bs :: c => match bs.drop n with
    | [] => .data bs :: upTo (n - bs.length) c
    | _ :: _ => [.data (bs.take n)]

def slice? (start len : Nat) (c : Content) : Option Bytes :=
  let part := first len (behind start c)
  if part.length = len then some part else none

/-- Writing `part` at `start`: a gap before it becomes a hole, all other bytes stay. Writing nothing
changes nothing. -/
def overwrite (start : Nat) (part : Bytes) (c : Content) : Content :=
  if part = [] then c else upTo start c ++ .data part :: behind (start + part.length) c

theorem lt_length_of_drop {n : Nat} {b : UInt8} {bs rest : Bytes} (h : bs.drop n = b :: rest) :
    n < bs.length := by
  have some_left := congrArg List.length h
  simp only [List.length_drop, List.length_cons] at some_left
  omega

@[simp] theorem bytes_ofBytes (bs : Bytes) : (ofBytes bs).bytes = bs := List.append_nil bs

@[simp] theorem bytes_append (c d : Content) : bytes (c ++ d) = c.bytes ++ d.bytes := by
  induction c with
  | nil => rfl
  | cons s c ih => cases s <;> simp [bytes, ih]

theorem bytes_behind (n : Nat) (c : Content) : (behind n c).bytes = c.bytes.drop n := by
  induction c generalizing n with
  | nil => simp [behind, bytes]
  | cons s c ih =>
    cases s with
    | hole k =>
      simp only [behind, bytes, List.drop_append, List.drop_replicate, List.length_replicate]
      split
      · rename_i h
        simp [bytes, Nat.sub_eq_zero_of_le (Nat.le_of_lt h)]
      · rename_i h
        simp [ih, Nat.sub_eq_zero_of_le (Nat.le_of_not_lt h)]
    | data bs =>
      simp only [behind, bytes, List.drop_append]
      split
      · rename_i h
        simp [ih, h]
      · rename_i b rest h
        have short : n < bs.length := lt_length_of_drop h
        simp [bytes, h, Nat.sub_eq_zero_of_le (Nat.le_of_lt short)]

theorem first_eq (n : Nat) (c : Content) : first n c = c.bytes.take n := by
  induction c generalizing n with
  | nil => simp [first, bytes]
  | cons s c ih =>
    cases s with
    | hole k =>
      simp only [first, bytes, List.take_append, List.take_replicate, List.length_replicate]
      split
      · rename_i h
        simp [Nat.min_eq_left h, Nat.sub_eq_zero_of_le h]
      · rename_i h
        simp [ih, Nat.min_eq_right (Nat.le_of_not_le h)]
    | data bs =>
      simp only [first, bytes, List.take_append]
      split
      · rename_i h
        simp [ih, List.take_of_length_le (List.drop_eq_nil_iff.1 h)]
      · rename_i b rest h
        have short : n < bs.length := lt_length_of_drop h
        simp [Nat.sub_eq_zero_of_le (Nat.le_of_lt short)]

theorem bytes_upTo (n : Nat) (c : Content) :
    (upTo n c).bytes = c.bytes.take n ++ List.replicate (n - c.bytes.length) 0 := by
  fun_induction upTo n c with
  | case1 => simp [bytes]
  | case2 => simp [bytes]
  | case3 n k c _ h =>
    simp [bytes, List.take_append, Nat.min_eq_left h, Nat.sub_eq_zero_of_le h,
      Nat.sub_eq_zero_of_le (Nat.le_trans h (Nat.le_add_right k _))]
  | case4 n k c _ h ih =>
    simp [bytes, ih, List.take_append, Nat.min_eq_right (Nat.le_of_not_le h), Nat.sub_sub]
  | case5 n bs c _ h ih =>
    simp [bytes, ih, List.take_append, List.take_of_length_le (List.drop_eq_nil_iff.1 h),
      Nat.sub_sub]
  | case6 n bs c _ b rest h =>
    have short := lt_length_of_drop h
    simp [bytes, List.take_append, Nat.sub_eq_zero_of_le (Nat.le_of_lt short),
      Nat.sub_eq_zero_of_le (Nat.le_trans (Nat.le_of_lt short) (Nat.le_add_right _ _))]

theorem slice?_eq (start len : Nat) (c : Content) :
    slice? start len c = Bytes.slice? start len c.bytes := by
  simp only [slice?, Bytes.slice?, first_eq, bytes_behind]

theorem bytes_overwrite (start : Nat) (part : Bytes) (c : Content) :
    (overwrite start part c).bytes = Bytes.overwrite start part c.bytes := by
  simp only [overwrite, Bytes.overwrite]
  split
  · rfl
  · simp [bytes, bytes_upTo, bytes_behind]

end Content

end RowStore
