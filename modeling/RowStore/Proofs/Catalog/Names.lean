import Mathlib.Data.Finset.Sort
import Mathlib.Data.String.Basic
import RowStore.Catalog.Names

namespace RowStore.Names

theorem pairwise_insert {name : String} {ns : List String} (h : ns.Pairwise (· ≤ ·)) :
    (insert name ns).Pairwise (· ≤ ·) := by
  induction ns with
  | nil => exact List.pairwise_singleton _ _
  | cons n ns ih =>
    obtain ⟨first, rest⟩ := List.pairwise_cons.1 h
    rw [insert]
    split
    · rename_i less
      refine List.pairwise_cons.2 ⟨?_, ih rest⟩
      intro m mem
      rcases List.mem_cons.1 ((insert_perm name ns).mem_iff.1 mem) with rfl | mem
      · exact le_of_lt less
      · exact first m mem
    · rename_i more
      have le : name ≤ n := not_lt.1 more
      refine List.pairwise_cons.2 ⟨?_, h⟩
      intro m mem
      rcases List.mem_cons.1 mem with rfl | mem
      · exact le
      · exact le.trans (first m mem)

theorem pairwise_sort (ns : List String) : (sort ns).Pairwise (· ≤ ·) := by
  induction ns with
  | nil => exact .nil
  | cons n ns ih => exact pairwise_insert ih

theorem sort_eq_of_perm {ns ms : List String} (h : ns.Perm ms) : sort ns = sort ms :=
  (((sort_perm ns).trans h).trans (sort_perm ms).symm).eq_of_pairwise
    (fun _ _ _ _ => le_antisymm) (pairwise_sort ns) (pairwise_sort ms)

theorem sort_eq {ns : List String} {s : Finset String} (nodup : ns.Nodup)
    (h : ∀ n, n ∈ ns ↔ n ∈ s) : sort ns = s.sort := by
  have perm : (sort ns).Perm s.sort := by
    apply (sort_perm ns).trans
    rw [List.perm_ext_iff_of_nodup nodup (s.sort_nodup _)]
    intro n
    rw [h, Finset.mem_sort]
  exact perm.eq_of_pairwise (fun _ _ _ _ => le_antisymm) (pairwise_sort ns) (s.pairwise_sort _)

end RowStore.Names
