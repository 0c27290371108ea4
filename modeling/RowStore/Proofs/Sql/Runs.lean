import Mathlib.Data.List.Forall2
import RowStore.Proofs.Sql.Reader

namespace RowStore.Sql

def pieces : List Item → List (List Item)
  | [] => []
  | i :: rest =>
    if i.isSemicolon then [i] :: pieces rest
    else match pieces rest with
      | [] => [[i]]
      | p :: ps => (i :: p) :: ps

def runs (items : List Item) : List (List Item) :=
  (pieces items).filter fun p => p.any fun i => !i.isSemicolon

inductive Piece : List Item → Prop
  | last {i : Item} : Piece [i]
  | cons {i : Item} {p : List Item} : i.isSemicolon = false → Piece p → Piece (i :: p)

theorem piece_of_mem_pieces {items p : List Item} (h : p ∈ pieces items) : Piece p := by
  induction items generalizing p with
  | nil => cases h
  | cons i rest ih =>
    rw [pieces] at h
    split at h
    · cases h with
      | head => exact .last
      | tail _ h => exact ih h
    · rename_i open_
      have other : i.isSemicolon = false := by simpa using open_
      split at h
      · rw [List.mem_singleton.1 h]
        exact .last
      · rename_i q qs eq
        cases h with
        | head => exact .cons other (ih (eq ▸ List.mem_cons_self))
        | tail _ h => exact ih (eq ▸ List.mem_cons_of_mem _ h)

theorem flatten_pieces (items : List Item) : (pieces items).flatten = items := by
  induction items with
  | nil => rfl
  | cons i rest ih =>
    rw [pieces]
    split
    · rw [List.flatten_cons, ih]
      rfl
    · split
      · rename_i eq
        rw [eq] at ih
        rw [← ih]
        rfl
      · rename_i eq
        rw [eq] at ih
        rw [← ih]
        rfl

namespace Reader

theorem step_semicolon (r : Reader) {i : Item} (h : i.isSemicolon = true) :
    (r.step i).2 = .between := by
  cases r with
  | between => simp [step, h]
  | skipping => simp [step, h]
  | reading d =>
    cases i with
    | error e => cases h
    | ok t =>
      have kind : t.kind = .semicolon := by simpa [Item.isSemicolon] using h
      simp only [step, advance, if_pos kind]
      split <;> rfl

theorem read_pieces (size : Nat) (r : Reader) (items : List Item) :
    read size r items = match pieces items with
      | [] => (r.finish size).toList
      | p :: ps => read size r p ++ ps.flatMap (read size .between) := by
  induction items generalizing r with
  | nil => rfl
  | cons i rest ih =>
    by_cases semicolon : i.isSemicolon = true
    · rw [pieces, if_pos semicolon]
      simp only [read, step_semicolon r semicolon, finish, Option.toList_none, List.append_nil]
      rw [ih]
      cases pieces rest <;> rfl
    · rw [pieces, if_neg semicolon, read, ih]
      cases pieces rest with
      | nil => simp only [read, List.flatMap_nil, List.append_nil]
      | cons p ps => simp only [read, List.append_assoc]

theorem read_between_pieces (size : Nat) (items : List Item) :
    read size .between items = (pieces items).flatMap (read size .between) := by
  rw [read_pieces]
  cases pieces items <;> rfl

theorem read_skipping (size : Nat) {p : List Item} (h : Piece p) : read size .skipping p = [] := by
  induction h with
  | @last i => cases hi : i.isSemicolon <;> simp [read, step, finish, hi]
  | cons hi _ ih => simp [read, step, hi, ih]

theorem exists_read_reading (size : Nat) (d : Draft) {p : List Item} (h : Piece p) :
    ∃ x, read size (.reading d) p = [x] := by
  induction h generalizing d with
  | @last i =>
    cases i with
    | error e => exact ⟨_, rfl⟩
    | ok t =>
      simp only [read, step, advance]
      split
      · split <;> exact ⟨_, rfl⟩
      · split <;> exact ⟨_, rfl⟩
  | @cons i p hi hp ih =>
    cases i with
    | error e => exact ⟨_, by rw [read, step, advance, read_skipping size hp]; rfl⟩
    | ok t =>
      have kind : t.kind ≠ .semicolon := by simpa [Item.isSemicolon] using hi
      simp only [read, step, advance, if_neg kind]
      cases d.accept t with
      | none => exact ⟨_, by rw [read_skipping size hp]; rfl⟩
      | some d' => exact ih d'

theorem read_between_run (size : Nat) {p : List Item} (h : Piece p)
    (more : (p.any fun i => !i.isSemicolon) = true) :
    read size .between p = read size (.reading .start) p := by
  cases h with
  | @last i =>
    have other : i.isSemicolon = false := by simpa using more
    simp [read, step, other]
  | cons hi _ => simp [read, step, hi]

theorem read_between_lone (size : Nat) {p : List Item} (h : Piece p)
    (lone : (p.any fun i => !i.isSemicolon) = false) : read size .between p = [] := by
  cases h with
  | @last i =>
    have semicolon : i.isSemicolon = true := by simpa using lone
    simp [read, step, semicolon, finish]
  | cons hi _ => simp [hi] at lone

end Reader

theorem mem_of_mem_runs {items p : List Item} {i : Item} (h : p ∈ runs items) (hi : i ∈ p) :
    i ∈ items := by
  rw [← flatten_pieces items]
  exact List.mem_flatten_of_mem (List.mem_filter.1 h).1 hi

theorem read_run (size : Nat) {items p : List Item} (h : p ∈ runs items) :
    Piece p ∧ Reader.read size .between p = Reader.read size (.reading .start) p := by
  obtain ⟨member, more⟩ := List.mem_filter.1 h
  have piece : Piece p := piece_of_mem_pieces member
  exact ⟨piece, Reader.read_between_run size piece more⟩

theorem forall₂_runs_read (size : Nat) (items : List Item) :
    List.Forall₂ (fun run x => Reader.read size .between run = [x]) (runs items)
      (Reader.read size .between items) := by
  rw [Reader.read_between_pieces, runs]
  have sorts : ∀ p ∈ pieces items, Piece p := fun p => piece_of_mem_pieces
  revert sorts
  induction pieces items with
  | nil => exact fun _ => .nil
  | cons p ps ih =>
    intro sorts
    have piece : Piece p := sorts p List.mem_cons_self
    have others := ih fun q hq => sorts q (List.mem_cons_of_mem _ hq)
    rw [List.flatMap_cons, List.filter_cons]
    split
    · rename_i more
      obtain ⟨x, hx⟩ := Reader.exists_read_reading size .start piece
      rw [Reader.read_between_run size piece more, hx]
      exact .cons ((Reader.read_between_run size piece more).trans hx) others
    -- A lone semicolon is no run and gives no result.
    · rename_i lone
      rw [Reader.read_between_lone size piece (by simpa using lone)]
      exact others

theorem exists_run {size : Nat} {items : List Item} {x : Parsed}
    (h : x ∈ Reader.read size .between items) :
    ∃ run ∈ runs items, Reader.read size .between run = [x] := by
  have settled := forall₂_runs_read size items
  generalize Reader.read size .between items = results at h settled
  generalize runs items = rs at settled ⊢
  induction settled with
  | nil => cases h
  | cons first _ ih =>
    cases h with
    | head => exact ⟨_, List.mem_cons_self, first⟩
    | tail _ h =>
      obtain ⟨run, member, read⟩ := ih h
      exact ⟨run, List.mem_cons_of_mem _ member, read⟩

end RowStore.Sql
