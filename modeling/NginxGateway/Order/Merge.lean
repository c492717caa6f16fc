import NginxGateway.Order.StableSort

/-!
# Stable merging

The standard library's `List.merge` with the comparator `atMost lt` takes from the left run on
ties. On sorted runs it is the stable sort of their concatenation, and it splits into two merges
wherever the runs can be cut so that each front piece precedes the other side's back piece. That
split is what Go's `symMerge_func` computes by binary search.
-/

namespace NginxGateway

variable {α : Type*} {lt : α → α → Bool}

/-- A block that is less than everything on the other side is merged first. -/
theorem merge_append_left {X Y₁ Y₂ : List α} (first : ∀ y ∈ Y₁, ∀ x ∈ X, lt y x = true) :
    X.merge (Y₁ ++ Y₂) (atMost lt) = Y₁ ++ X.merge Y₂ (atMost lt) := by
  induction Y₁ with
  | nil => rfl
  | cons y Y₁ ih =>
      cases X with
      | nil => simp
      | cons x X =>
          have yx : lt y x = true := first y (List.mem_cons_self y Y₁) x (List.mem_cons_self x X)
          rw [List.cons_append, List.cons_merge_cons, if_neg (by simp [atMost, yx]),
            ih fun y' hy' => first y' (List.mem_cons_of_mem y hy')]
          rfl

/-- A block that nothing on the other side is less than is merged first. -/
theorem merge_append_right {X₁ X₂ Y : List α} (first : ∀ x ∈ X₁, ∀ y ∈ Y, lt y x = false) :
    (X₁ ++ X₂).merge Y (atMost lt) = X₁ ++ X₂.merge Y (atMost lt) := by
  induction X₁ with
  | nil => rfl
  | cons x X₁ ih =>
      cases Y with
      | nil => simp
      | cons y Y =>
          have yx : lt y x = false := first x (List.mem_cons_self x X₁) y (List.mem_cons_self y Y)
          rw [List.cons_append, List.cons_merge_cons, if_pos (by simp [atMost, yx]),
            ih fun x' hx' => first x' (List.mem_cons_of_mem x hx')]
          rfl

/-- Merging splits into two merges at cuts where each front piece precedes the other back piece. -/
theorem merge_append_append {X₁ X₂ Y₁ Y₂ : List α}
    (before : ∀ x ∈ X₁, ∀ y ∈ Y₂, lt y x = false) (after : ∀ y ∈ Y₁, ∀ x ∈ X₂, lt y x = true) :
    (X₁ ++ X₂).merge (Y₁ ++ Y₂) (atMost lt) =
      X₁.merge Y₁ (atMost lt) ++ X₂.merge Y₂ (atMost lt) := by
  induction X₁ generalizing Y₁ with
  | nil => simpa using merge_append_left after
  | cons x X₁ ihX =>
      induction Y₁ with
      | nil => simpa using merge_append_right before
      | cons y Y₁ ihY =>
          rw [List.cons_append, List.cons_append, List.cons_merge_cons, List.cons_merge_cons]
          split
          · rw [← List.cons_append,
              ihX (fun x' hx' => before x' (List.mem_cons_of_mem x hx')) after]
            rfl
          · rw [← List.cons_append, ihY fun y' hy' => after y' (List.mem_cons_of_mem y hy')]
            rfl

section StrictWeakOrder

variable [IsStrictWeakOrder α fun a b => lt a b]

/-- Merging keeps each class of ties in the order left run, then right run. -/
theorem filter_merge {xs ys : List α} (sorted : IsSorted lt xs) (z : α) :
    (xs.merge ys (atMost lt)).filter (Tied lt z) =
      xs.filter (Tied lt z) ++ ys.filter (Tied lt z) := by
  induction xs generalizing ys with
  | nil => simp
  | cons x xs ihX =>
      induction ys with
      | nil => simp
      | cons y ys ihY =>
          rw [List.cons_merge_cons]
          by_cases yx : lt y x
          · rw [if_neg (by simp [atMost, yx]), List.filter_cons, ihY]
            by_cases zy : Tied lt z y
            · have none_tied : (x :: xs).filter (Tied lt z) = [] := by
                refine List.filter_eq_nil_iff.mpr fun w hw zw => ?_
                have yw : lt y w = true :=
                  (less_or_less_of_less yx w).resolve_right (by simp [sorted.lt_head_eq_false hw])
                have tied := tied_trans (by rwa [tied_comm] : Tied lt y z) zw
                simp [yw] at tied
              simp [zy, none_tied]
            · simp [zy, List.filter_cons]
          · rw [if_pos (by simpa [atMost] using yx), List.filter_cons,
              ihX (isSorted_cons.mp sorted).2]
            by_cases zx : Tied lt z x <;> simp [zx, List.filter_cons]

/-- On sorted runs, merging is the stable sort of their concatenation. -/
theorem merge_eq_stableSort {xs ys : List α} (hxs : IsSorted lt xs) (hys : IsSorted lt ys) :
    xs.merge ys (atMost lt) = stableSort lt (xs ++ ys) :=
  (isStableSort_of_keepsTies
    (isSorted_of_pairwise_atMost
      (List.sorted_merge atMost_trans atMost_total _ _ hxs.pairwise_atMost hys.pairwise_atMost))
    fun z => by rw [filter_merge hxs, List.filter_append]).eq_stableSort

theorem merge_stableSort (l₁ l₂ : List α) :
    (stableSort lt l₁).merge (stableSort lt l₂) (atMost lt) = stableSort lt (l₁ ++ l₂) := by
  rw [merge_eq_stableSort (isSorted_stableSort l₁) (isSorted_stableSort l₂)]
  exact stableSort_eq_of_keepsTies
    ((isStableSort_stableSort l₁).keepsTies.append (isStableSort_stableSort l₂).keepsTies)

end StrictWeakOrder

end NginxGateway
