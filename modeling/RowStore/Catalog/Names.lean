namespace RowStore.Names

def insert (name : String) : List String → List String
  | [] => [name]
  | n :: ns => if n < name then n :: insert name ns else name :: n :: ns

def sort (ns : List String) : List String := ns.foldr insert []

theorem insert_perm (name : String) (ns : List String) : (insert name ns).Perm (name :: ns) := by
  induction ns with
  | nil => exact .refl _
  | cons n ns ih =>
    simp only [insert]
    split
    · exact (ih.cons n).trans (.swap name n ns)
    · exact .refl _

theorem sort_perm (ns : List String) : (sort ns).Perm ns := by
  induction ns with
  | nil => exact .refl _
  | cons n ns ih => exact (insert_perm n _).trans (ih.cons n)

end RowStore.Names
