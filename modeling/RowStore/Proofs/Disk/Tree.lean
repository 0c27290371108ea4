import RowStore.Disk.Tree

namespace RowStore

namespace Entries

variable {α : Type} {name other : String} {a b : α} {es : List (String × α)}

@[simp] theorem put_put (name : String) (a b : α) (es : List (String × α)) :
    put name b (put name a es) = put name b es := by
  induction es with
  | nil => simp [put]
  | cons e es ih => by_cases h : e.1 = name <;> simp [put, h, ih]

theorem put_of_get? (h : get? name es = some a) : put name a es = es := by
  induction es with
  | nil => cases h
  | cons e es ih =>
    by_cases here : e.1 = name
    · rw [get?, if_pos here] at h
      cases h
      cases here
      rw [put, if_pos rfl]
    · rw [get?, if_neg here] at h
      rw [put, if_neg here, ih h]

@[simp] theorem erase_put (name : String) (a : α) (es : List (String × α)) :
    erase name (put name a es) = erase name es := by
  induction es with
  | nil => simp [put, erase]
  | cons e es ih => by_cases h : e.1 = name <;> simp [put, erase, h, ih]

theorem get?_eq_none : get? name es = none ↔ name ∉ es.map Prod.fst := by
  induction es with
  | nil => simp [get?]
  | cons e es ih =>
    by_cases h : e.1 = name
    · simp [get?, h]
    · simp [get?, h, ih, Ne.symm h]

theorem erase_of_get? (h : get? name es = none) : erase name es = es := by
  induction es with
  | nil => rfl
  | cons e es ih =>
    by_cases here : e.1 = name
    · simp [get?, here] at h
    · rw [get?, if_neg here] at h
      rw [erase, if_neg here, ih h]

theorem erase_put_of_ne (ne : other ≠ name) (a : α) (es : List (String × α)) :
    erase other (put name a es) = put name a (erase other es) := by
  induction es with
  | nil => simp [put, erase, Ne.symm ne]
  | cons e es ih =>
    by_cases here : e.1 = name
    · simp [put, erase, here, Ne.symm ne]
    · by_cases there : e.1 = other
      · simp [put, erase, there, ne, ih]
      · simp [put, erase, here, there, ih]

theorem mem_of_get? (h : get? name es = some a) : (name, a) ∈ es := by
  induction es with
  | nil => cases h
  | cons e es ih =>
    by_cases here : e.1 = name
    · rw [get?, if_pos here] at h
      cases h
      cases here
      exact List.mem_cons_self
    · rw [get?, if_neg here] at h
      exact List.mem_cons_of_mem _ (ih h)

theorem mem_map_fst_iff : name ∈ es.map Prod.fst ↔ ∃ a, get? name es = some a := by
  cases found : get? name es with
  | none => simpa using get?_eq_none.1 found
  | some a => simpa using ⟨a, mem_of_get? found⟩

theorem get?_of_mem (nodup : (es.map Prod.fst).Nodup) (h : (name, a) ∈ es) :
    get? name es = some a := by
  induction es with
  | nil => cases h
  | cons e es ih =>
    rw [List.map_cons, List.nodup_cons] at nodup
    cases h with
    | head => rw [get?, if_pos rfl]
    | tail _ h =>
      have away : e.1 ≠ name := fun eq => nodup.1 (eq ▸ List.mem_map_of_mem h)
      rw [get?, if_neg away, ih nodup.2 h]

theorem mem_map_fst_put :
    other ∈ (put name a es).map Prod.fst ↔ other = name ∨ other ∈ es.map Prod.fst := by
  by_cases h : other = name
  · simp [mem_map_fst_iff, h]
  · simp [mem_map_fst_iff, h, get?_put_of_ne h]

theorem map_fst_put (h : get? name es = some b) :
    (put name a es).map Prod.fst = es.map Prod.fst := by
  induction es with
  | nil => cases h
  | cons e es ih =>
    by_cases here : e.1 = name
    · rw [put, if_pos here, List.map_cons, List.map_cons, here]
    · rw [get?, if_neg here] at h
      rw [put, if_neg here, List.map_cons, List.map_cons, ih h]

theorem ext_get? {fs : List (String × α)} (names : fs.map Prod.fst = es.map Prod.fst)
    (nodup : (es.map Prod.fst).Nodup) (h : ∀ name, get? name fs = get? name es) : fs = es := by
  induction es generalizing fs with
  | nil => exact List.map_eq_nil_iff.1 names
  | cons e es ih =>
    cases fs with
    | nil => cases names
    | cons f fs =>
      obtain ⟨first, rest⟩ := List.cons.inj names
      rw [List.map_cons, List.nodup_cons] at nodup
      have same : f.2 = e.2 := by
        have at_ := h e.1
        rw [get?, if_pos first, get?, if_pos rfl] at at_
        exact Option.some.inj at_
      have others : ∀ name, get? name fs = get? name es := by
        intro name
        by_cases eq : e.1 = name
        · rw [get?_eq_none.2 (eq ▸ rest ▸ nodup.1), get?_eq_none.2 (eq ▸ nodup.1)]
        · have at_ := h name
          rwa [get?, if_neg (first ▸ eq), get?, if_neg eq] at at_
      rw [ih rest nodup.2 others, Prod.ext first same]

theorem mem_map_fst_erase :
    other ∈ (erase name es).map Prod.fst ↔ other ≠ name ∧ other ∈ es.map Prod.fst := by
  by_cases h : other = name
  · simp [mem_map_fst_iff, h]
  · simp [mem_map_fst_iff, h, get?_erase_of_ne h]

theorem nodup_put (h : (es.map Prod.fst).Nodup) : ((put name a es).map Prod.fst).Nodup := by
  induction es with
  | nil => simp [put]
  | cons e es ih =>
    rw [List.map_cons, List.nodup_cons] at h
    rw [put]
    split
    · rename_i here
      cases here
      rw [List.map_cons, List.nodup_cons]
      exact h
    · rename_i away
      rw [List.map_cons, List.nodup_cons, mem_map_fst_put]
      exact ⟨not_or.2 ⟨away, h.1⟩, ih h.2⟩

theorem nodup_erase (h : (es.map Prod.fst).Nodup) : ((erase name es).map Prod.fst).Nodup := by
  induction es with
  | nil => exact h
  | cons e es ih =>
    rw [List.map_cons, List.nodup_cons] at h
    rw [erase]
    split
    · exact ih h.2
    · rw [List.map_cons, List.nodup_cons, mem_map_fst_erase]
      exact ⟨fun mem => h.1 mem.2, ih h.2⟩

end Entries

namespace Tree

variable {t u new : Tree} {l a b : Location} {es : List (String × Tree)}

theorem at?_append (t : Tree) (a b : Location) :
    t.at? (a ++ b) = (t.at? a).bind fun u => u.at? b := by
  induction a generalizing t with
  | nil => rfl
  | cons name a ih =>
    cases t with
    | file content => rfl
    | directory es =>
      simp only [List.cons_append, at?]
      cases Entries.get? name es with
      | none => rfl
      | some t => exact ih t

theorem exists_of_at?_cons {name : String} (h : t.at? (name :: l) = some u) :
    ∃ es t', t = .directory es ∧ Entries.get? name es = some t' ∧ t'.at? l = some u := by
  cases t with
  | file content => cases h
  | directory es =>
    rw [at?] at h
    cases entry : Entries.get? name es with
    | none => simp [entry] at h
    | some t' =>
      rw [entry] at h
      exact ⟨es, t', rfl, entry, h⟩

theorem at?_singleton (name : String) (es : List (String × Tree)) :
    (directory es).at? [name] = Entries.get? name es := by
  rw [at?]
  cases Entries.get? name es with
  | none => rfl
  | some t => cases t <;> rfl

theorem putAt_cons {name : String} {t : Tree} (l : Location) (new : Tree)
    (h : Entries.get? name es = some t) :
    (directory es).putAt (name :: l) new = directory (Entries.put name (t.putAt l new) es) := by
  cases l with
  | nil => rfl
  | cons other l => simp only [putAt, h]

theorem at?_putAt_self (new : Tree) (h : t.at? l = some u) :
    (t.putAt l new).at? l = some new := by
  induction l generalizing t with
  | nil => rfl
  | cons name l ih =>
    obtain ⟨es, t', rfl, entry, below⟩ := exists_of_at?_cons h
    rw [putAt_cons _ _ entry]
    simp only [at?, Entries.get?_put_self]
    exact ih below

theorem putAt_putAt_self (new newer : Tree) (h : t.at? l = some u) :
    (t.putAt l new).putAt l newer = t.putAt l newer := by
  induction l generalizing t with
  | nil => rfl
  | cons name l ih =>
    obtain ⟨es, t', rfl, entry, below⟩ := exists_of_at?_cons h
    rw [putAt_cons _ _ entry, putAt_cons _ _ entry,
      putAt_cons _ _ (Entries.get?_put_self name _ es), Entries.put_put, ih below]

theorem putAt_self (h : t.at? l = some u) : t.putAt l u = t := by
  induction l generalizing t with
  | nil =>
    cases h
    rfl
  | cons name l ih =>
    obtain ⟨es, t', rfl, entry, below⟩ := exists_of_at?_cons h
    rw [putAt_cons _ _ entry, ih below, Entries.put_of_get? entry]

theorem putAt_append (b : Location) (new : Tree) (h : t.at? a = some u) :
    t.putAt (a ++ b) new = t.putAt a (u.putAt b new) := by
  induction a generalizing t with
  | nil =>
    cases h
    rfl
  | cons name a ih =>
    obtain ⟨es, t', rfl, entry, below⟩ := exists_of_at?_cons h
    rw [List.cons_append, putAt_cons _ _ entry, putAt_cons _ _ entry, ih below]

theorem eraseAt_append (h : t.at? a = some u) (some_ : b ≠ []) :
    t.eraseAt (a ++ b) = t.putAt a (u.eraseAt b) := by
  induction a generalizing t with
  | nil =>
    cases h
    rfl
  | cons name a ih =>
    obtain ⟨es, t', rfl, entry, below⟩ := exists_of_at?_cons h
    obtain ⟨x, xs, rest⟩ : ∃ x xs, a ++ b = x :: xs := by
      cases eq : a ++ b with
      | nil => exact absurd (List.append_eq_nil_iff.1 eq).2 some_
      | cons x xs => exact ⟨x, xs, rfl⟩
    rw [List.cons_append, putAt_cons _ _ entry, ← ih below, rest]
    simp only [eraseAt, entry]

theorem walk_append (t : Tree) (here : Location) (a b : List String) :
    t.walk here (a ++ b) = (t.walk here a).bind fun l => t.walk l b := by
  induction a generalizing here with
  | nil => rfl
  | cons step a ih =>
    simp only [List.cons_append, walk]
    cases t.at? here with
    | none => rfl
    | some u =>
      cases u with
      | file content => rfl
      | directory es =>
        simp only [ih]
        split
        · rfl
        · split
          · rfl
          · split <;> rfl

/-- Where a directory stands in the one tree, one stands in the other. -/
def DirectoriesStay (t u : Tree) : Prop :=
  ∀ l ds, t.at? l = some (.directory ds) → ∃ ds', u.at? l = some (.directory ds')

theorem DirectoriesStay.of_nil (es : List (String × Tree)) :
    DirectoriesStay (.directory []) (.directory es) := by
  intro l ds h
  cases l with
  | nil => exact ⟨es, rfl⟩
  | cons name l => cases h

theorem DirectoriesStay.of_file (content : Content) (u : Tree) :
    DirectoriesStay (.file content) u := by
  intro l ds h
  cases l <;> cases h

theorem DirectoriesStay.of_put {name : String}
    (h : ∀ ds, Entries.get? name es ≠ some (.directory ds)) (new : Tree) :
    DirectoriesStay (.directory es) (.directory (Entries.put name new es)) := by
  intro l ds at_
  cases l with
  | nil => exact ⟨_, rfl⟩
  | cons other l =>
    by_cases same : other = name
    · cases same
      obtain ⟨_, u, eq, entry, below⟩ := exists_of_at?_cons at_
      cases eq
      cases u with
      | file content => cases l <;> cases below
      | directory inner => exact absurd entry (h inner)
    · rw [at?] at at_ ⊢
      rw [Entries.get?_put_of_ne same]
      exact ⟨ds, at_⟩

theorem DirectoriesStay.putAt (h : t.at? l = some u) (stay : DirectoriesStay u new) :
    DirectoriesStay t (t.putAt l new) := by
  induction l generalizing t with
  | nil =>
    cases h
    exact stay
  | cons name l ih =>
    obtain ⟨bs, t', rfl, entry, below⟩ := exists_of_at?_cons h
    rw [putAt_cons _ _ entry]
    intro a ds at_
    -- The place is above the changed one, on the way to it, or off the way.
    cases a with
    | nil => exact ⟨_, rfl⟩
    | cons other a =>
      by_cases same : other = name
      · cases same
        rw [at?, entry] at at_
        simp only [at?, Entries.get?_put_self]
        exact ih below a ds at_
      · simp only [at?, Entries.get?_put_of_ne same] at at_ ⊢
        exact ⟨ds, at_⟩

theorem walk_of_stay {here last : Location} {steps : List String} (stay : DirectoriesStay t u)
    (h : t.walk here steps = .ok last) : u.walk here steps = .ok last := by
  induction steps generalizing here with
  | nil => exact h
  | cons step steps ih =>
    rw [walk] at h ⊢
    cases stand : t.at? here with
    | none => simp [stand] at h
    | some top =>
      cases top with
      | file content => simp [stand] at h
      | directory ds =>
        obtain ⟨ds', still⟩ := stay here ds stand
        simp only [stand, still] at h ⊢
        by_cases dot : step = "."
        · rw [if_pos dot] at h ⊢
          exact ih h
        · rw [if_neg dot] at h ⊢
          by_cases dots : step = ".."
          · rw [if_pos dots] at h ⊢
            exact ih h
          · rw [if_neg dots] at h ⊢
            by_cases long : nameLimit < step.utf8ByteSize
            · rw [if_pos long] at h
              cases h
            · rw [if_neg long] at h ⊢
              exact ih h

end Tree

end RowStore
