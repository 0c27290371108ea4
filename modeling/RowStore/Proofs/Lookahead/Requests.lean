import RowStore.Proofs.Lookahead.Coming

namespace RowStore

variable {σ α : Type}

def Estimates (coming : Nat → Option α) (low : Nat) (high : Option Nat) : Prop :=
  (∀ n < low, coming n ≠ none) ∧ ∀ n, high = some n → coming n = none

/-- What the source estimates is right in every state that it comes to. -/
def Source.Honest (source : Source σ α) (s : σ) : Prop :=
  ∀ n s', source.after n (some s) = some s' →
    Estimates (fun k => source.item? k (some s')) (source.remaining s').1 (source.remaining s').2

namespace Lookahead

inductive Request (α : Type)
  | next
  | peek
  | peekNth (n : Nat)
  | nextIf (test : α → Bool)
  | remaining

inductive Reply (α : Type)
  | item (a : Option α)
  | estimate (low : Nat) (high : Option Nat)
  deriving DecidableEq

def Reply.item? : Reply α → Option α
  | .item a => a
  | .estimate .. => none

namespace Request

def Peeks : Request α → Prop
  | .peek | .peekNth _ => True
  | _ => False

def handed : Request α → Reply α → List α
  | .next, a | .nextIf _, a => a.item?.toList
  | _, _ => []

def Accepts (capacity : Nat) (honest : Prop) (coming : Nat → Option α) : Request α → Reply α → Prop
  | .next, .item a => a = coming 0
  | .peek, .item a => a = if 0 < capacity then coming 0 else none
  | .peekNth n, .item a => a = if n < capacity then coming n else none
  | .nextIf test, .item a => a = if 0 < capacity then (coming 0).filter test else none
  | .remaining, .estimate low high => honest → Estimates coming low high
  | _, _ => False

end Request

/-- The right replies to requests one after another. An item that is handed out is not coming any
more. -/
inductive Replies (capacity : Nat) (honest : Prop) :
    (Nat → Option α) → List (Request α) → List (Reply α) → Prop
  | nil {coming : Nat → Option α} : Replies capacity honest coming [] []
  | cons {coming : Nat → Option α} {r : Request α} {a : Reply α} {rs : List (Request α)}
      {as : List (Reply α)} : r.Accepts capacity honest coming a →
      Replies capacity honest (fun n => coming ((r.handed a).length + n)) rs as →
      Replies capacity honest coming (r :: rs) (a :: as)

variable {source : Source σ α} {capacity : Nat}

def serve (l : Lookahead source capacity) : Request α → Reply α × Lookahead source capacity
  | .next => (.item l.next.1, l.next.2)
  | .peek => (.item l.peek.1, l.peek.2)
  | .peekNth n => (.item (l.peekNth n).1, (l.peekNth n).2)
  | .nextIf test => (.item (l.nextIf test).1, (l.nextIf test).2)
  | .remaining => (.estimate l.remaining.1 l.remaining.2, l)

def serveAll (l : Lookahead source capacity) :
    List (Request α) → List (Reply α) × Lookahead source capacity
  | [] => ([], l)
  | r :: rs => ((l.serve r).1 :: ((l.serve r).2.serveAll rs).1, ((l.serve r).2.serveAll rs).2)

structure Started (s : σ) (l : Lookahead source capacity) : Prop where
  length_le : l.buffer.length ≤ capacity
  live_eq : ∃ m, l.live = source.after m (some s)

theorem started_ofState (s : σ) : Started s (ofState s : Lookahead source capacity) :=
  ⟨Nat.zero_le _, 0, rfl⟩

section Service

variable {s : σ} {l l' : Lookahead source capacity}

theorem Started.estimates (started : Started s l) (honest : source.Honest s) :
    Estimates l.coming l.remaining.1 l.remaining.2 := by
  -- The estimate counts the items in the buffer, so it is right whenever that of the source is.
  obtain ⟨low, high⟩ : Estimates (fun k => source.item? k l.live) (source.estimate l.live).1
      (source.estimate l.live).2 := by
    obtain ⟨m, live⟩ := started.live_eq
    cases state : l.live with
    | none => exact ⟨fun n n_lt => absurd n_lt (Nat.not_lt_zero n), fun n _ => source.item?_none n⟩
    | some s' => exact honest m s' (live ▸ state)
  rw [remaining_eq]
  constructor
  · intro n n_lt
    rcases Nat.lt_or_ge n l.buffer.length with buffered | behind
    · rw [coming_buffered buffered]
      simp [buffered]
    · obtain ⟨i, rfl⟩ := Nat.exists_eq_add_of_le behind
      rw [coming_live]
      exact low i (by omega)
  · intro n bound
    obtain ⟨h, source_bound, fits⟩ := Option.bind_eq_some_iff.mp bound
    split at fits
    · obtain rfl : h + l.buffer.length = n := by simpa using fits
      rw [Nat.add_comm, coming_live]
      exact high h source_bound
    · nomatch fits

theorem passes_serve (l : Lookahead source capacity) (r : Request α) :
    Passes (r.handed (l.serve r).1) l (l.serve r).2 := by
  cases r with
  | next => exact l.passes_next
  | peek => exact l.passes_peekNth 0
  | peekNth n => exact l.passes_peekNth n
  | nextIf test => exact l.passes_nextIf test
  | remaining => exact .refl l

theorem started_serve (started : Started s l) (r : Request α) : Started s (l.serve r).2 where
  length_le := by
    have bounded := started.length_le
    cases r with
    | next => exact Nat.le_trans length_next_le bounded
    | peek => exact length_peekNth_le bounded 0
    | peekNth n => exact length_peekNth_le bounded n
    | nextIf test => exact length_nextIf_le bounded test
    | remaining => exact bounded
  live_eq := by
    obtain ⟨m, live_m⟩ := started.live_eq
    obtain ⟨n, live_n⟩ := (passes_serve l r).live_eq
    exact ⟨m + n, by rw [live_n, live_m, source.after_add]⟩

theorem accepts_serve (started : Started s l) (r : Request α) :
    r.Accepts capacity (source.Honest s) l.coming (l.serve r).1 := by
  cases r with
  | next => exact l.next_fst
  | peek => exact l.peekNth_fst 0
  | peekNth n => exact l.peekNth_fst n
  | nextIf test => exact l.nextIf_fst test
  | remaining => exact started.estimates

end Service

section Runs

variable {s : σ}

theorem started_serveAll {l : Lookahead source capacity} (started : Started s l)
    (requests : List (Request α)) : Started s (l.serveAll requests).2 := by
  induction requests generalizing l with
  | nil => exact started
  | cons r rs ih => exact ih (started_serve started r)

theorem replies_serveAll {l : Lookahead source capacity} (started : Started s l)
    (requests : List (Request α)) :
    Replies capacity (source.Honest s) l.coming requests (l.serveAll requests).1 := by
  induction requests generalizing l with
  | nil => exact .nil
  | cons r rs ih =>
    refine .cons (accepts_serve started r) ?_
    rw [← funext (passes_serve l r).coming_eq]
    exact ih (started_serve started r)

def handedOut (requests : List (Request α)) (replies : List (Reply α)) : List α :=
  (List.zipWith Request.handed requests replies).flatten

theorem passes_serveAll (l : Lookahead source capacity) (requests : List (Request α)) :
    Passes (handedOut requests (l.serveAll requests).1) l (l.serveAll requests).2 := by
  induction requests generalizing l with
  | nil => exact .refl l
  | cons r rs ih => exact (passes_serve l r).trans (ih (l.serve r).2)

end Runs

section Peeks

variable {l l' : Lookahead source capacity}

theorem item?_serve (same : l.coming = l'.coming) (r : Request α) :
    (l.serve r).1.item? = (l'.serve r).1.item? := by
  cases r with
  | next => exact l.next_fst.trans (same ▸ l'.next_fst.symm)
  | peek => exact (l.peekNth_fst 0).trans (same ▸ (l'.peekNth_fst 0).symm)
  | peekNth n => exact (l.peekNth_fst n).trans (same ▸ (l'.peekNth_fst n).symm)
  | nextIf test => exact (l.nextIf_fst test).trans (same ▸ (l'.nextIf_fst test).symm)
  | remaining => rfl

theorem coming_serve (same : l.coming = l'.coming) (r : Request α) :
    (l.serve r).2.coming = (l'.serve r).2.coming := by
  have handed : r.handed (l.serve r).1 = r.handed (l'.serve r).1 := by
    cases r <;> simp only [Request.handed, item?_serve same]
  funext n
  rw [(passes_serve l r).coming_eq, (passes_serve l' r).coming_eq, handed, same]

theorem items_serveAll (same : l.coming = l'.coming) (requests : List (Request α)) :
    (l.serveAll requests).1.map Reply.item? = (l'.serveAll requests).1.map Reply.item? := by
  induction requests generalizing l l' with
  | nil => rfl
  | cons r rs ih =>
    rw [serveAll, serveAll, List.map_cons, List.map_cons, item?_serve same r,
      ih (coming_serve same r)]

theorem coming_serve_of_peeks {p : Request α} (peeks : p.Peeks) : (l.serve p).2.coming = l.coming :=
  match p, peeks with
  | .peek, _ => (l.passes_peekNth 0).coming_of_nil
  | .peekNth n, _ => (l.passes_peekNth n).coming_of_nil

theorem serveAll_append (l : Lookahead source capacity) (before behind : List (Request α)) :
    (l.serveAll (before ++ behind)).1 =
      (l.serveAll before).1 ++ ((l.serveAll before).2.serveAll behind).1 := by
  induction before generalizing l with
  | nil => rfl
  | cons r rs ih => exact congrArg (List.cons _) (ih _)

theorem length_serveAll (l : Lookahead source capacity) (requests : List (Request α)) :
    (l.serveAll requests).1.length = requests.length := by
  induction requests generalizing l with
  | nil => rfl
  | cons r rs ih => exact congrArg Nat.succ (ih _)

theorem items_eraseIdx_peek {p : Request α} (peeks : p.Peeks) (l : Lookahead source capacity)
    (before behind : List (Request α)) :
    ((l.serveAll (before ++ p :: behind)).1.eraseIdx before.length).map Reply.item? =
      (l.serveAll (before ++ behind)).1.map Reply.item? := by
  have reach : (l.serveAll before).1.length ≤ before.length  :=
    Nat.le_of_eq (length_serveAll l before)
  rw [serveAll_append, serveAll_append, List.eraseIdx_append_of_length_le reach, length_serveAll,
    Nat.sub_self, serveAll, List.eraseIdx_cons_zero, List.map_append, List.map_append,
    items_serveAll (coming_serve_of_peeks peeks)]

end Peeks

/-- A run of requests is answered from the items of the source before its first `none`: what is
handed out is a beginning of them and what is left is still to come, the buffer keeps to its
capacity, and leaving out a peek changes no other item. -/
theorem transparent (source : Source σ α) (capacity : Nat) (s : σ) (requests : List (Request α)) :
    let l : Lookahead source capacity := ofState s
    let out := handedOut requests (l.serveAll requests).1
    Replies capacity (source.Honest s) (fun n => source.item? n (some s)) requests
        (l.serveAll requests).1 ∧
      (∀ n < out.length, source.item? n (some s) = out[n]?) ∧
      (∀ n, (l.serveAll requests).2.coming n = source.item? (out.length + n) (some s)) ∧
      (l.serveAll requests).2.buffer.length ≤ capacity ∧
      ∀ before p behind, requests = before ++ p :: behind → p.Peeks →
        ((l.serveAll requests).1.eraseIdx before.length).map Reply.item? =
          (l.serveAll (before ++ behind)).1.map Reply.item? := by
  intro l out
  have started : Started s l := started_ofState s
  have passes := passes_serveAll l requests
  refine ⟨replies_serveAll started requests, passes.taken_eq, passes.coming_eq,
    (started_serveAll started requests).length_le, ?_⟩
  rintro before p behind rfl peeks
  exact items_eraseIdx_peek peeks l before behind

def unsized : Source (List α) α where
  next
    | [] => (none, [])
    | a :: rest => (some a, rest)
  remaining _ := (0, none)

/-- A peek may sharpen the estimate: the item in the buffer is known to come. -/
theorem peek_sharpens_estimate :
    (unsized (α := Nat)).Honest [1] ∧
      ((ofState [1] : Lookahead unsized 1).serveAll [.remaining, .peek, .remaining]).1.eraseIdx 1 ≠
        ((ofState [1] : Lookahead unsized 1).serveAll [.remaining, .remaining]).1 :=
  ⟨fun _ _ _ => ⟨fun _ n_lt => absurd n_lt (Nat.not_lt_zero _), fun _ bound => nomatch bound⟩,
    by decide⟩

end Lookahead

end RowStore
