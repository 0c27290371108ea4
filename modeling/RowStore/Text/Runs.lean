namespace RowStore.Text

abbrev Runs := List (Nat × Nat)

def Runs.has (n : Nat) (rs : Runs) : Bool := rs.any fun r => r.1 ≤ n && n ≤ r.2

end RowStore.Text
