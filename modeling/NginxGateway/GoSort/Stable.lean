import NginxGateway.GoSort.Insertion
import NginxGateway.GoSort.SymMerge

/-!
# `sort.SliceStable`

`stable_func` insertion-sorts blocks of twenty elements and then merges neighbouring blocks with
`symMerge_func`, doubling the block size until one block holds the slice. After every pass the
slice is its input with each block stably sorted (`sortChunks`), so at the end it is the stable
sort of the input: for every strict weak order, `sort.SliceStable` is the standard library's
`List.mergeSort`.
-/

namespace NginxGateway
namespace GoSort

variable {α : Type*} [Inhabited α] (lt : α → α → Bool)

/-- `blockSize := 20` in `stable_func`. -/
def blockSize : Nat := 20

/-- The first loop of `stable_func`: `for b <= n { insertionSort_func(data, a, b); a = b; b += blockSize }`
with `b = a + blockSize`, then `insertionSort_func(data, a, n)`. -/
def insertionSortBlocks (data : List α) (a n : Nat) : List α :=
  if a + blockSize ≤ n then insertionSortBlocks (insertionSort lt data a (a + blockSize)) (a + blockSize) n
  else insertionSort lt data a n
termination_by n - a
decreasing_by simp_wf; simp only [blockSize] at *; omega

/-- The inner loop of the second phase of `stable_func`, with `b = a + 2*blockSize`:
`for b <= n { symMerge_func(data, a, a+blockSize, b); a = b; b += 2*blockSize }`, then
`if m := a + blockSize; m < n { symMerge_func(data, a, m, n) }`. -/
def mergeBlocks (data : List α) (size a n : Nat) (pos : 0 < size) : List α :=
  if a + 2 * size ≤ n then
    mergeBlocks (symMerge lt data a (a + size) (a + 2 * size)) size (a + 2 * size) n pos
  else if a + size < n then symMerge lt data a (a + size) n
  else data
termination_by n - a

/-- The outer loop of the second phase of `stable_func`: `for blockSize < n { …; blockSize *= 2 }`. -/
def mergePasses (data : List α) (size n : Nat) (pos : 0 < size) : List α :=
  if size < n then mergePasses (mergeBlocks lt data size 0 n pos) (2 * size) n (by omega)
  else data
termination_by n - size

/-- `stable_func(data, n)`. -/
def stable (data : List α) (n : Nat) : List α :=
  mergePasses lt (insertionSortBlocks lt data 0 n) blockSize n (by decide)

/-- `sort.SliceStable(x, less)`: `stable_func` over the whole slice. -/
def sliceStable (x : List α) : List α := stable lt x x.length

variable {lt}

/-! ## A permutation for every comparator

Every step of `stable_func` exchanges elements at indices inside the slice, whatever `less`
answers, so the result is a permutation of the input even for a comparator that is not a strict
weak order. -/

theorem insertionSortBlocks_perm (data : List α) (a n : Nat) (hn : n ≤ data.length) :
    (insertionSortBlocks lt data a n).Perm data := by
  induction data, a, n using insertionSortBlocks.induct lt with
  | case1 data a n fits ih =>
      have sorted : (insertionSort lt data a (a + blockSize)).Perm data :=
        insertionSort_perm data a (a + blockSize) (by omega)
      rw [insertionSortBlocks, if_pos fits]
      exact (ih (by rw [sorted.length_eq]; exact hn)).trans sorted
  | case2 data a n short =>
      rw [insertionSortBlocks, if_neg short]
      exact insertionSort_perm data a n hn

theorem mergeBlocks_perm (data : List α) (size a n : Nat) (pos : 0 < size) (hn : n ≤ data.length) :
    (mergeBlocks lt data size a n pos).Perm data := by
  induction data, size, a, n, pos using mergeBlocks.induct lt with
  | case1 data size a n pos fits ih =>
      have merged : (symMerge lt data a (a + size) (a + 2 * size)).Perm data :=
        symMerge_perm data a (a + size) (a + 2 * size) (by omega) (by omega) (by omega)
      rw [mergeBlocks, if_pos fits]
      exact (ih (by rw [merged.length_eq]; exact hn)).trans merged
  | case2 data size a n pos short fits =>
      rw [mergeBlocks, if_neg short, if_pos fits]
      exact symMerge_perm data a (a + size) n (by omega) (by omega) hn
  | case3 data size a n pos short fits =>
      rw [mergeBlocks, if_neg short, if_neg fits]

theorem mergePasses_perm (data : List α) (size n : Nat) (pos : 0 < size) (hn : n ≤ data.length) :
    (mergePasses lt data size n pos).Perm data := by
  induction data, size, n, pos using mergePasses.induct lt with
  | case1 data size n pos more ih =>
      have merged : (mergeBlocks lt data size 0 n pos).Perm data := mergeBlocks_perm data size 0 n pos hn
      rw [mergePasses, if_pos more]
      exact (ih (by rw [merged.length_eq]; exact hn)).trans merged
  | case2 data size n pos done =>
      rw [mergePasses, if_neg done]

/-- For every comparator, `sort.SliceStable` returns a permutation of its input. -/
theorem sliceStable_perm (x : List α) : (sliceStable lt x).Perm x :=
  have blocks : (insertionSortBlocks lt x 0 x.length).Perm x := insertionSortBlocks_perm x 0 x.length le_rfl
  (mergePasses_perm _ _ _ _ (by rw [blocks.length_eq])).trans blocks

variable [IsStrictWeakOrder α fun a b => lt a b]

/-- The first phase sorts every block of twenty. -/
theorem insertionSortBlocks_eq (data : List α) (a n : Nat) (pre rest : List α)
    (hdata : data = pre ++ rest) (ha : a = pre.length) (hn : n = data.length) :
    insertionSortBlocks lt data a n = pre ++ sortChunks lt blockSize rest := by
  induction data, a, n using insertionSortBlocks.induct lt generalizing pre rest with
  | case1 data a n fits ih =>
      have long : blockSize ≤ rest.length := by simp [hdata, hn, ha] at fits; omega
      have sorted : insertionSort lt data a (a + blockSize) =
          pre ++ stableSort lt (rest.take blockSize) ++ rest.drop blockSize :=
        insertionSort_sorts data a _ pre _ _ (by simp [hdata]) ha (by simp [ha]; omega)
      rw [insertionSortBlocks, if_pos fits, ih _ (rest.drop blockSize) sorted (by simp [ha]; omega)
        (by rw [sorted]; simp [hn, hdata]; omega)]
      conv_rhs => rw [← List.take_append_drop blockSize rest]
      rw [sortChunks_append (by decide) (by simp; omega)]
      simp
  | case2 data a n short =>
      rw [insertionSortBlocks, if_neg short, insertionSort_sorts data a n pre rest []
        (by simp [hdata]) ha (by simp [hn, hdata]),
        sortChunks_of_length_le (by simp [hdata, hn, ha] at short; omega)]
      simp

/-- A pass merges neighbouring blocks: sorted blocks of `size` become sorted blocks of
`2 * size`. -/
theorem mergeBlocks_eq (data : List α) (size a n : Nat) (pos : 0 < size) (pre rest : List α)
    (hdata : data = pre ++ sortChunks lt size rest) (ha : a = pre.length)
    (hn : n = data.length) :
    mergeBlocks lt data size a n pos = pre ++ sortChunks lt (2 * size) rest := by
  induction data, size, a, n, pos using mergeBlocks.induct lt generalizing pre rest with
  | case1 data size a n pos fits ih =>
      have long : 2 * size ≤ rest.length := by simp [hdata, hn, ha] at fits; omega
      have split : rest = rest.take size ++ (rest.drop size).take size ++ rest.drop (2 * size) := by
        simp [List.drop_drop, Nat.two_mul]
      have chunks : sortChunks lt size rest = stableSort lt (rest.take size) ++
          stableSort lt ((rest.drop size).take size) ++ sortChunks lt size (rest.drop (2 * size)) := by
        conv_lhs => rw [split]
        rw [List.append_assoc, sortChunks_append pos (by simp; omega),
          sortChunks_append pos (by simp; omega), List.append_assoc]
      have merged : symMerge lt data a (a + size) (a + 2 * size) =
          pre ++ stableSort lt (rest.take size ++ (rest.drop size).take size) ++
            sortChunks lt size (rest.drop (2 * size)) := by
        rw [symMerge_merges data a _ _ pre (stableSort lt (rest.take size))
          (stableSort lt ((rest.drop size).take size)) (sortChunks lt size (rest.drop (2 * size)))
          (by rw [hdata, chunks]; simp) ha (by simp [ha]; omega) (by simp [ha]; omega)
          (isSorted_stableSort _) (isSorted_stableSort _) (List.ne_nil_of_length_pos (by simp; omega))
          (List.ne_nil_of_length_pos (by simp; omega)), merge_stableSort]
      rw [mergeBlocks, if_pos fits, ih _ (rest.drop (2 * size)) merged (by simp [ha]; omega)
        (by rw [merged, hn, hdata]; simp; omega)]
      conv_rhs => rw [split]
      rw [sortChunks_append (by omega) (by simp; omega)]
      simp
  | case2 data size a n pos short fits =>
      have two : size < rest.length ∧ rest.length < 2 * size := by
        simp [hdata, hn, ha] at short fits; omega
      have chunks : sortChunks lt size rest =
          stableSort lt (rest.take size) ++ stableSort lt (rest.drop size) := by
        conv_lhs => rw [← List.take_append_drop size rest]
        rw [sortChunks_append pos (by simp; omega), sortChunks_of_length_le (by simp; omega)]
      rw [mergeBlocks, if_neg short, if_pos fits, symMerge_merges data a _ _ pre
        (stableSort lt (rest.take size)) (stableSort lt (rest.drop size)) [] (by simp [hdata, chunks])
        ha (by simp [ha]; omega) (by simp [hn, hdata]; omega) (isSorted_stableSort _)
        (isSorted_stableSort _) (List.ne_nil_of_length_pos (by simp; omega))
        (List.ne_nil_of_length_pos (by simp; omega)), merge_stableSort,
        List.take_append_drop, sortChunks_of_length_le (by omega)]
      simp
  | case3 data size a n pos short fits =>
      have one : rest.length ≤ size := by simp [hdata, hn, ha] at fits; omega
      rw [mergeBlocks, if_neg short, if_neg fits, hdata, sortChunks_of_length_le one,
        sortChunks_of_length_le (by omega)]

/-- The passes double the block size until one block holds the whole slice. -/
theorem mergePasses_eq (data : List α) (size n : Nat) (pos : 0 < size) (l : List α)
    (hdata : data = sortChunks lt size l) (hn : n = l.length) :
    mergePasses lt data size n pos = stableSort lt l := by
  induction data, size, n, pos using mergePasses.induct lt with
  | case1 data size n pos more ih =>
      rw [mergePasses, if_pos more, ih (mergeBlocks_eq data size 0 n pos [] l (by simp [hdata]) rfl
        (by simp [hdata, hn])) hn]
  | case2 data size n pos done =>
      rw [mergePasses, if_neg done, hdata, sortChunks_of_length_le (by omega)]

/-- `stable_func` over a whole slice is the stable sort. -/
theorem stable_eq_stableSort (data : List α) :
    stable lt data data.length = stableSort lt data :=
  mergePasses_eq _ _ _ _ data (by simpa using insertionSortBlocks_eq data 0 _ [] data rfl rfl rfl)
    rfl

/-- For every strict weak order, `sort.SliceStable` returns the standard library's stable sort. -/
theorem sliceStable_eq_stableSort (x : List α) : sliceStable lt x = stableSort lt x :=
  stable_eq_stableSort x

theorem sliceStable_eq_stableSort_nat :
    IsStrictWeakOrder Nat (fun a b => decide (a < b)) ∧
      sliceStable (fun a b => decide (a < b)) [3, 1, 2] = stableSort (fun a b => decide (a < b)) [3, 1, 2] :=
  have order : IsStrictWeakOrder Nat fun a b => decide (a < b) := isStrictWeakOrder_decide_lt
  ⟨order, sliceStable_eq_stableSort _⟩

end GoSort
end NginxGateway
