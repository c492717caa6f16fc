import NginxGateway.GoSort.Slice
import NginxGateway.Order.StableSort

/-!
# `insertionSort_func`

Go's stable sort first runs insertion sort on blocks of twenty elements. The inner loop carries
one element to the left while it is less than its neighbour; on a sorted prefix that is the
stable insertion, so the whole loop sorts its range stably.
-/

namespace NginxGateway
namespace GoSort

variable {α : Type*} [Inhabited α] (lt : α → α → Bool)

/-- The inner loop of `insertionSort_func`:
`for j := i; j > a && data.Less(j, j-1); j-- { data.Swap(j, j-1) }`. -/
def insertLoop (data : List α) (a : Nat) : Nat → List α
  | 0 => data
  | j + 1 =>
      if a < j + 1 && less lt data (j + 1) j then insertLoop (swap data (j + 1) j) a j else data

/-- `insertionSort_func(data, a, b)`: run the inner loop for `i := a + 1; i < b; i++`. -/
def insertionSort (data : List α) (a b : Nat) : List α :=
  (List.range' (a + 1) (b - (a + 1))).foldl (fun data i => insertLoop lt data a i) data

variable {lt}

/-- Whatever the comparator, the inner loop only exchanges elements inside the slice. -/
theorem insertLoop_perm (data : List α) (a j : Nat) (hj : j < data.length) :
    (insertLoop lt data a j).Perm data := by
  induction j generalizing data with
  | zero => exact .refl data
  | succ j ih =>
      rw [insertLoop]
      exact ite_perm fun _ => (ih _ (by simp; omega)).trans (swap_perm data hj (by omega))

theorem insertionSort_perm (data : List α) (a b : Nat) (hb : b ≤ data.length) :
    (insertionSort lt data a b).Perm data := by
  have run : ∀ (l : List Nat) (d : List α), (∀ i ∈ l, i < d.length) →
      (l.foldl (fun data i => insertLoop lt data a i) d).Perm d := by
    intro l
    induction l with
    | nil => exact fun d _ => .refl d
    | cons i l ih =>
        intro d inside
        have step : (insertLoop lt d a i).Perm d :=
          insertLoop_perm d a i (inside i (List.mem_cons_self i l))
        exact (ih _ fun k hk => step.length_eq ▸ inside k (List.mem_cons_of_mem i hk)).trans step
  exact run _ data fun i hi => by simp [List.mem_range'] at hi; omega

variable [IsStrictWeakOrder α fun a b => lt a b]

/-- One pass of the inner loop inserts the element after a sorted block stably into it. -/
theorem insertLoop_inserts (data : List α) (a j : Nat) (pre s post : List α) (x : α)
    (hdata : data = pre ++ s ++ x :: post) (ha : a = pre.length)
    (hj : j = pre.length + s.length) (sorted : IsSorted lt s) :
    insertLoop lt data a j = pre ++ stableSort lt (s ++ [x]) ++ post := by
  induction s using List.reverseRecOn generalizing data j post with
  | nil =>
      cases j with
      | zero => simp [insertLoop, hdata]
      | succ j =>
          rw [insertLoop, if_neg (by simp at hj; simp [ha, hj])]
          simp [hdata]
  | append_singleton s y ih =>
      obtain ⟨s_sorted, -, y_last⟩ := isSorted_append.mp sorted
      have y_at : data.getD (pre.length + s.length) default = y :=
        getD_eq_of_eq_append (pre ++ s) (x :: post) y (by simp [hdata]) (by simp)
      have x_at : data.getD (pre.length + s.length + 1) default = x :=
        getD_eq_of_eq_append (pre ++ s ++ [y]) post x (by simp [hdata]) (by simp [Nat.add_assoc])
      rw [hj, List.length_append, List.length_singleton, ← Nat.add_assoc, insertLoop]
      by_cases xy : lt x y
      · have swapped := swap_middle data (pre.length + s.length) (pre.length + s.length + 1)
          (pre ++ s) [] post y x (by simp [hdata]) (by simp) (by simp)
        rw [if_pos (by rw [less, x_at, y_at, xy, ha]; simp only [Bool.and_true, decide_eq_true_eq]; omega),
          swap_comm, swapped,
          ih _ _ (y :: post) (by simp) (by simp) s_sorted]
        have moved : stableSort lt (s ++ [y, x]) = stableSort lt (s ++ [x]) ++ [y] := by
          rw [stableSort_eq_of_keepsTies (keepsTies_swap (show Tied lt x y = false by simp [Tied, xy]) s []),
            show s ++ [x, y] = s ++ [x] ++ [y] by simp, stableSort_append_singleton]
          intro z hz
          rcases List.mem_append.mp hz with hz | hz
          · exact y_last z hz y (List.mem_singleton_self y)
          · simpa [List.mem_singleton.mp hz] using less_asymm xy
        simp [moved]
      · rw [if_neg (by rw [less, x_at, y_at]; simp [xy])]
        rw [stableSort_eq_self (isSorted_append.mpr ⟨sorted, List.pairwise_singleton _ x, ?_⟩)]
        · simp [hdata]
        · intro z hz w hw
          rw [List.mem_singleton.mp hw]
          rcases List.mem_append.mp hz with hz | hz
          · exact less_false_trans (by simpa using xy) (y_last z hz y (List.mem_singleton_self y))
          · simpa [List.mem_singleton.mp hz] using xy

/-- `insertionSort_func(data, a, b)` stably sorts `data[a:b]` and leaves the rest alone. -/
theorem insertionSort_sorts (data : List α) (a b : Nat) (pre seg post : List α)
    (hdata : data = pre ++ seg ++ post) (ha : a = pre.length)
    (hb : b = pre.length + seg.length) :
    insertionSort lt data a b = pre ++ stableSort lt seg ++ post := by
  cases seg with
  | nil => simp [insertionSort, hdata, hb, ha]
  | cons x seg =>
      have prefix_sorted : ∀ k ≤ seg.length,
          (List.range' (a + 1) k).foldl (fun data i => insertLoop lt data a i) data =
            pre ++ stableSort lt ((x :: seg).take (k + 1)) ++ (x :: seg).drop (k + 1) ++ post := by
        intro k
        induction k with
        | zero => simp [hdata]
        | succ k ih =>
            intro hk
            rw [List.range'_concat, Nat.one_mul, List.foldl_append, ih (by omega), List.foldl_cons,
              List.foldl_nil]
            have next : (x :: seg).drop (k + 1) = seg[k] :: (x :: seg).drop (k + 2) := by
              rw [List.drop_succ_cons, List.drop_succ_cons, List.drop_eq_getElem_cons]
            have step := insertLoop_inserts
              (pre ++ stableSort lt ((x :: seg).take (k + 1)) ++ seg[k] :: (x :: seg).drop (k + 2) ++
                post) a (a + 1 + k) pre (stableSort lt ((x :: seg).take (k + 1)))
              ((x :: seg).drop (k + 2) ++ post) seg[k] (by simp only [List.append_assoc, List.cons_append])
              ha (by simp [ha]; omega)
              (isSorted_stableSort _)
            have grown : (x :: seg).take (k + 2) = (x :: seg).take (k + 1) ++ [seg[k]] := by
              rw [List.take_succ_cons, List.take_succ_cons, List.take_succ,
                List.getElem?_eq_getElem (show k < seg.length by omega)]
              simp
            rw [next, step, grown, stableSort_eq_of_keepsTies
              ((isStableSort_stableSort _).keepsTies.append (KeepsTies.refl [seg[k]]))]
            simp
      rw [insertionSort, show b - (a + 1) = seg.length by simp [hb, ha]; omega,
        prefix_sorted seg.length le_rfl]
      simp

end GoSort
end NginxGateway
