import RowStore.Lookahead

/-!
The items still to come are those in the buffer and then those of the source before its first `none`.
Every call hands out a beginning of them, and a peek leaves them as they are.
-/

namespace RowStore

variable {σ α : Type}

namespace Source

variable (source : Source σ α)

def pull : Option σ → Option (α × σ)
  | none => none
  | some s => match source.next s with
    | (some a, s') => some (a, s')
    | (none, _) => none

def after : Nat → Option σ → Option σ
  | 0, live => live
  | n + 1, live => after n ((source.pull live).map Prod.snd)

def item? (n : Nat) (live : Option σ) : Option α := (source.pull (source.after n live)).map Prod.fst

@[simp] theorem after_none (n : Nat) : source.after n none = none := by
  induction n with
  | zero => rfl
  | succ n ih => exact ih

theorem after_add (m n : Nat) (live : Option σ) :
    source.after (m + n) live = source.after n (source.after m live) := by
  induction m generalizing live with
  | zero => rw [Nat.zero_add, after]
  | succ m ih => rw [Nat.succ_add, after, after, ih]

theorem item?_succ (n : Nat) (live : Option σ) :
    source.item? (n + 1) live = source.item? n ((source.pull live).map Prod.snd) := rfl

@[simp] theorem item?_none (n : Nat) : source.item? n none = none := by
  rw [item?, after_none]
  rfl

theorem item?_add (m n : Nat) (live : Option σ) :
    source.item? (m + n) live = source.item? n (source.after m live) := by
  rw [item?, after_add, item?]

theorem item?_eq_none {m n : Nat} {live : Option σ} (none_m : source.item? m live = none)
    (m_le : m ≤ n) : source.item? n live = none := by
  obtain ⟨i, rfl⟩ := Nat.exists_eq_add_of_le m_le
  cases i with
  | zero => exact none_m
  | succ i =>
    rw [item?, Option.map_eq_none_iff] at none_m
    rw [item?_add, item?_succ, none_m, Option.map_none, item?_none]

def estimate : Option σ → Nat × Option Nat
  | some s => source.remaining s
  | none => (0, some 0)

end Source

namespace Lookahead

variable {source : Source σ α} {capacity : Nat}

/-- The items still to come, by their position. -/
def coming (l : Lookahead source capacity) (n : Nat) : Option α :=
  if n < l.buffer.length then l.buffer[n]? else source.item? (n - l.buffer.length) l.live

theorem remaining_eq (l : Lookahead source capacity) : l.remaining =
    (min ((source.estimate l.live).1 + l.buffer.length) Source.maxCount,
      (source.estimate l.live).2.bind fun high => if high + l.buffer.length ≤ Source.maxCount
        then some (high + l.buffer.length) else none) := by
  cases live : l.live <;> simp only [remaining, live, Source.estimate]

theorem coming_buffered {l : Lookahead source capacity} {n : Nat} (n_lt : n < l.buffer.length) :
    l.coming n = l.buffer[n]? := if_pos n_lt

theorem coming_live {l : Lookahead source capacity} (n : Nat) :
    l.coming (l.buffer.length + n) = source.item? n l.live := by
  rw [coming, if_neg (by omega), Nat.add_sub_cancel_left]

theorem coming_eq_none {l : Lookahead source capacity} {m n : Nat} (none_m : l.coming m = none)
    (m_le : m ≤ n) : l.coming n = none := by
  have behind : l.buffer.length ≤ m := by
    rcases Nat.lt_or_ge m l.buffer.length with m_lt | le
    · rwa [coming_buffered m_lt, List.getElem?_eq_none_iff] at none_m
    · exact le
  obtain ⟨i, rfl⟩ := Nat.exists_eq_add_of_le behind
  obtain ⟨j, rfl⟩ := Nat.exists_eq_add_of_le m_le
  rw [coming_live] at none_m
  rw [Nat.add_assoc, coming_live, source.item?_eq_none none_m (Nat.le_add_right i j)]

/-- From one buffer to another, with `taken` handed out on the way: these items were the next ones,
and what came behind them is still to come. -/
structure Passes (taken : List α) (l l' : Lookahead source capacity) : Prop where
  taken_eq : ∀ n < taken.length, l.coming n = taken[n]?
  coming_eq : ∀ n, l'.coming n = l.coming (taken.length + n)
  live_eq : ∃ m, l'.live = source.after m l.live

theorem passes_nil {l l' : Lookahead source capacity} (coming_eq : l'.coming = l.coming) (m : Nat)
    (live_eq : l'.live = source.after m l.live) : Passes [] l l' where
  taken_eq n n_lt := absurd n_lt (Nat.not_lt_zero n)
  coming_eq n := by rw [coming_eq, List.length_nil, Nat.zero_add]
  live_eq := ⟨m, live_eq⟩

namespace Passes

variable {l l' l'' : Lookahead source capacity} {taken taken' : List α}

theorem refl (l : Lookahead source capacity) : Passes [] l l := passes_nil rfl 0 rfl

theorem coming_of_nil (passes : Passes [] l l') : l'.coming = l.coming :=
  funext fun n => (passes.coming_eq n).trans (by rw [List.length_nil, Nat.zero_add])

theorem trans (first : Passes taken l l') (second : Passes taken' l' l'') :
    Passes (taken ++ taken') l l'' where
  taken_eq n n_lt := by
    rcases Nat.lt_or_ge n taken.length with left | right
    · rw [first.taken_eq n left, List.getElem?_append_left left]
    · obtain ⟨i, rfl⟩ := Nat.exists_eq_add_of_le right
      rw [List.length_append] at n_lt
      rw [← first.coming_eq, second.taken_eq i (by omega), List.getElem?_append_right right,
        Nat.add_sub_cancel_left]
  coming_eq n := by
    rw [second.coming_eq, first.coming_eq, List.length_append, Nat.add_assoc]
  live_eq := by
    obtain ⟨m, live_m⟩ := first.live_eq
    obtain ⟨n, live_n⟩ := second.live_eq
    exact ⟨m + n, by rw [live_n, live_m, source.after_add]⟩

end Passes

section Draw

variable (l : Lookahead source capacity)

theorem draw_eq :
    l.draw = (source.item? 0 l.live, { l with live := source.after 1 l.live }) := by
  obtain ⟨live, buffer⟩ := l
  cases live with
  | none => rfl
  | some s =>
    simp only [draw, Source.item?, Source.after, Source.pull]
    split <;> simp [*]

theorem passes_of_item_some {a : α} (item : source.item? 0 l.live = some a) :
    Passes [] l ⟨source.after 1 l.live, l.buffer ++ [a]⟩ := by
  refine passes_nil (funext fun n => ?_) 1 rfl
  obtain n_lt | rfl | le_n := Nat.lt_trichotomy n l.buffer.length
  · rw [coming_buffered n_lt, coming_buffered (by simp; omega), List.getElem?_append_left n_lt]
  · rw [coming_buffered (by simp), List.getElem?_concat_length, ← item, ← coming_live,
      Nat.add_zero]
  · obtain ⟨i, rfl⟩ := Nat.exists_eq_add_of_le (Nat.succ_le_of_lt le_n)
    have position : l.buffer.length.succ + i = (l.buffer ++ [a]).length + i := by simp
    rw [position, coming_live, ← position, Nat.succ_add, ← Nat.add_succ, coming_live]
    rfl

theorem passes_of_item_none (item : source.item? 0 l.live = none) :
    Passes [] l { l with live := source.after 1 l.live } := by
  refine passes_nil (funext fun n => ?_) 1 rfl
  rcases Nat.lt_or_ge n l.buffer.length with n_lt | le_n
  · rw [coming_buffered n_lt]
    exact coming_buffered n_lt
  · rw [coming_eq_none ((coming_live 0).trans item) le_n]
    obtain ⟨i, rfl⟩ := Nat.exists_eq_add_of_le le_n
    refine (coming_live i).trans ?_
    rw [← source.item?_add, source.item?_eq_none item (Nat.zero_le _)]

end Draw

theorem passes_fill (n : Nat) (l : Lookahead source capacity) : Passes [] l (fill n l) := by
  induction n generalizing l with
  | zero => exact .refl l
  | succ n ih =>
    rw [fill, draw_eq]
    cases item : source.item? 0 l.live with
    | none => exact l.passes_of_item_none item
    | some a => exact (l.passes_of_item_some item).trans (ih _)

theorem length_fill_le (n : Nat) (l : Lookahead source capacity) :
    (fill n l).buffer.length ≤ l.buffer.length + n := by
  induction n generalizing l with
  | zero => exact Nat.le_refl _
  | succ n ih =>
    rw [fill, draw_eq]
    cases item : source.item? 0 l.live with
    | none => exact Nat.le_add_right _ _
    | some a =>
      refine Nat.le_trans (ih _) ?_
      simp only [List.length_append, List.length_singleton]
      omega

theorem getElem?_fill {n k : Nat} {l : Lookahead source capacity}
    (k_lt : k < l.buffer.length + n) : (fill n l).buffer[k]? = l.coming k := by
  induction n generalizing l with
  | zero => exact (coming_buffered k_lt).symm
  | succ n ih =>
    rw [fill, draw_eq]
    cases item : source.item? 0 l.live with
    | none =>
      show l.buffer[k]? = _
      rcases Nat.lt_or_ge k l.buffer.length with k_lt | le_k
      · exact (coming_buffered k_lt).symm
      · rw [List.getElem?_eq_none le_k]
        exact (coming_eq_none ((coming_live 0).trans item) le_k).symm
    | some a =>
      refine (ih ?_).trans (congrFun (l.passes_of_item_some item).coming_of_nil k)
      simp only [List.length_append, List.length_singleton]
      omega

section Requests

variable (l : Lookahead source capacity)

theorem peekNth_fst (n : Nat) :
    (l.peekNth n).1 = if n < capacity then l.coming n else none := by
  rw [peekNth]
  split
  · rw [if_neg (by omega)]
  · rw [if_pos (by omega)]
    exact getElem?_fill (by omega)

theorem passes_peekNth (n : Nat) : Passes [] l (l.peekNth n).2 := by
  rw [peekNth]
  split
  · exact .refl l
  · exact passes_fill _ l

theorem next_fst : l.next.1 = l.coming 0 := by
  obtain ⟨live, buffer⟩ := l
  cases buffer with
  | nil => exact congrArg Prod.fst (draw_eq _)
  | cons a rest => rfl

theorem coming_cons (live : Option σ) (a : α) (rest : List α) (n : Nat) :
    (⟨live, a :: rest⟩ : Lookahead source capacity).coming (n + 1) =
      (⟨live, rest⟩ : Lookahead source capacity).coming n := by
  simp only [coming, List.length_cons, Nat.add_lt_add_iff_right, List.getElem?_cons_succ,
    Nat.add_sub_add_right]

theorem coming_next (n : Nat) : l.next.2.coming n = l.coming (n + 1) := by
  obtain ⟨live, buffer⟩ := l
  cases buffer with
  | nil =>
    rw [show next (⟨live, []⟩ : Lookahead source capacity) = _ from draw_eq _]
    rfl
  | cons a rest => exact (coming_cons live a rest n).symm

theorem live_next : ∃ m, l.next.2.live = source.after m l.live := by
  rw [next]
  split
  · exact ⟨0, rfl⟩
  · exact ⟨1, by rw [draw_eq]⟩

theorem passes_next : Passes l.next.1.toList l l.next.2 where
  taken_eq n n_lt := by
    cases item : l.next.1 with
    | none => simp [item] at n_lt
    | some a =>
      obtain rfl : n = 0 := by simpa [item] using n_lt
      rw [← next_fst, item]
      rfl
  coming_eq n := by
    rw [coming_next]
    cases item : l.next.1 with
    | none =>
      -- behind the end both sides are `none`
      have ended : l.coming 0 = none := by rw [← next_fst, item]
      rw [coming_eq_none ended (Nat.zero_le _), coming_eq_none ended (Nat.zero_le _)]
    | some a => rw [Option.toList_some, List.length_singleton, Nat.add_comm]
  live_eq := l.live_next

theorem nextIf_eq (test : α → Bool) :
    l.nextIf test = if 0 < capacity ∧ (l.coming 0).any test then l.peek.2.next
      else (none, l.peek.2) := by
  have head : l.peek.1 = if 0 < capacity then l.coming 0 else none := l.peekNth_fst 0
  rw [nextIf]
  split <;> rename_i peek <;> rw [peek] at head ⊢ <;> grind

theorem nextIf_fst (test : α → Bool) :
    (l.nextIf test).1 = if 0 < capacity then (l.coming 0).filter test else none := by
  have next : l.peek.2.next.1 = l.coming 0 := by
    rw [next_fst, peek, (l.passes_peekNth 0).coming_of_nil]
  rw [nextIf_eq]
  by_cases positive : 0 < capacity
  · cases head : l.coming 0 with
    | none => simp
    | some a => cases accepted : test a <;> simp [positive, Option.filter, accepted, next, head]
  · simp [positive]

theorem passes_nextIf (test : α → Bool) :
    Passes (l.nextIf test).1.toList l (l.nextIf test).2 := by
  rw [nextIf_eq]
  split
  · exact (l.passes_peekNth 0).trans l.peek.2.passes_next
  · exact l.passes_peekNth 0

end Requests

section Bounded

variable {l : Lookahead source capacity}

theorem length_peekNth_le (bounded : l.buffer.length ≤ capacity) (n : Nat) :
    (l.peekNth n).2.buffer.length ≤ capacity := by
  rw [peekNth]
  split
  · exact bounded
  · exact Nat.le_trans (length_fill_le _ l) (by omega)

theorem length_next_le : l.next.2.buffer.length ≤ l.buffer.length := by
  rw [next]
  split
  · rename_i buffer
    simp [buffer]
  · have same : l.draw.2.buffer = l.buffer := by rw [draw_eq]
    exact Nat.le_of_eq (congrArg List.length same)

theorem length_nextIf_le (bounded : l.buffer.length ≤ capacity) (test : α → Bool) :
    (l.nextIf test).2.buffer.length ≤ capacity := by
  have peek : l.peek.2.buffer.length ≤ capacity := length_peekNth_le bounded 0
  rw [nextIf_eq]
  split
  · exact Nat.le_trans length_next_le peek
  · exact peek

end Bounded

end Lookahead

end RowStore
