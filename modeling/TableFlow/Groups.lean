namespace TableFlow

/-- Consecutive groups of `k + 1` elements, the last one possibly shorter. -/
def groups {α : Type} (k : Nat) : List α → List (List α)
  | [] => []
  | x :: xs => (x :: xs.take k) :: groups k (xs.drop k)
  termination_by xs => xs.length
  decreasing_by
    simp only [List.length_cons, List.length_drop]
    omega

theorem flatten_groups {α : Type} (k : Nat) (xs : List α) : (groups k xs).flatten = xs := by
  fun_induction groups k xs with
  | case1 => rfl
  | case2 x xs ih => simp [ih]

theorem mem_of_mem_groups {α : Type} {k : Nat} {xs g : List α} (hg : g ∈ groups k xs) {x : α}
    (hx : x ∈ g) : x ∈ xs := by
  rw [← flatten_groups k xs]
  exact List.mem_flatten_of_mem hg hx

end TableFlow
