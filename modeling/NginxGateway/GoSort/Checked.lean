import NginxGateway.GoSort.Stable

/-!
# Go's stable sort never indexes out of its slice

In Go, `Less(i, j)` and `Swap(i, j)` panic on an index out of range; the model of the other
modules reads a default value there instead. This module is the sort once more with Go's
behaviour: each access returns `none` out of range, and `none` ends the sort as the panic would.
For every comparator, consistent or not, the checked sort returns `some` of the model's result
(`sliceStable_eq_some`): `sort.SliceStable` never indexes outside its slice, and the default
values of the model are never read.
-/

namespace NginxGateway
namespace GoSort
namespace Checked

variable {α : Type} [Inhabited α] (lt : α → α → Bool)

/-- `data.Less(i, j)`, `none` where Go panics. -/
def less (data : List α) (i j : Nat) : Option Bool := do
  let x ← data[i]?
  let y ← data[j]?
  pure (lt x y)

/-- `data.Swap(i, j)`, `none` where Go panics. -/
def swap (data : List α) (i j : Nat) : Option (List α) := do
  let x ← data[i]?
  let y ← data[j]?
  pure ((data.set i y).set j x)

/-- `swapRange_func(data, a, b, n)`. -/
def swapRange (data : List α) (a b : Nat) : Nat → Option (List α)
  | 0 => some data
  | n + 1 => do swapRange (← swap data a b) (a + 1) (b + 1) n

/-- The loop of `rotate_func`. -/
def rotateLoop (data : List α) (m i j : Nat) (hi : 0 < i) (hj : 0 < j) : Option (List α) :=
  if equal : i = j then swapRange data (m - i) m i
  else if hij : i > j then do
    rotateLoop (← swapRange data (m - i) m j) m (i - j) j (by omega) hj
  else do
    rotateLoop (← swapRange data (m - i) (m + j - i) i) m i (j - i) hi (by omega)
termination_by i + j

/-- `rotate_func(data, a, m, b)`. -/
def rotate (data : List α) (a m b : Nat) (am : a < m) (mb : m < b) : Option (List α) :=
  rotateLoop data m (m - a) (b - m) (by omega) (by omega)

/-- `for k := a; k < i-1; k++ { data.Swap(k, k+1) }`, started at `k` and run `n` times. -/
def swapForward (data : List α) (k : Nat) : Nat → Option (List α)
  | 0 => some data
  | n + 1 => do swapForward (← swap data k (k + 1)) (k + 1) n

/-- `for k := m; k > i; k-- { data.Swap(k, k-1) }`, started at `k` and run `n` times. -/
def swapBackward (data : List α) (k : Nat) : Nat → Option (List α)
  | 0 => some data
  | n + 1 => do swapBackward (← swap data k (k - 1)) (k - 1) n

/-- The binary search loop of `symMerge_func`, with a condition that may panic. -/
def search (cond : Nat → Option Bool) (i j : Nat) : Option Nat :=
  if i < j then do
    if (← cond ((i + j) / 2)) then search cond ((i + j) / 2 + 1) j else search cond i ((i + j) / 2)
  else some i
termination_by j - i

/-- The inner loop of `insertionSort_func`; `Less` runs only when `j > a`. -/
def insertLoop (data : List α) (a : Nat) : Nat → Option (List α)
  | 0 => some data
  | j + 1 =>
      if a < j + 1 then do
        if (← less lt data (j + 1) j) then insertLoop (← swap data (j + 1) j) a j else some data
      else some data

/-- `insertionSort_func(data, a, b)`. -/
def insertionSort (data : List α) (a b : Nat) : Option (List α) :=
  (List.range' (a + 1) (b - (a + 1))).foldlM (fun data i => insertLoop lt data a i) data

/-- The symmetric binary search of `symMerge_func`. -/
def symMergeCut (data : List α) (a m b : Nat) : Option Nat :=
  let mid := (a + b) / 2
  let n := mid + m
  search (fun c => (!·) <$> less lt data (n - 1 - c) c) (if m > mid then n - b else a)
    (if m > mid then mid else m)

/-- `symMerge_func(data, a, m, b)`. -/
def symMerge (data : List α) (a m b : Nat) : Option (List α) :=
  if m - a = 1 then do
    swapForward data a ((← search (fun h => less lt data h a) m b) - 1 - a)
  else if b - m = 1 then do
    swapBackward data m (m - (← search (fun h => (!·) <$> less lt data m h) a m))
  else
    let mid := (a + b) / 2
    symMergeCut lt data a m b >>= fun start =>
    let stop := mid + m - start
    (if h : start < m ∧ m < stop then rotate data start m stop h.1 h.2 else some data) >>= fun data =>
    (if a < start ∧ start < mid then symMerge data a start mid else some data) >>= fun data =>
    if mid < stop ∧ stop < b then symMerge data mid stop b else some data
termination_by b - a
decreasing_by all_goals simp_wf; omega

/-- The first loop of `stable_func`. -/
def insertionSortBlocks (data : List α) (a n : Nat) : Option (List α) :=
  if a + blockSize ≤ n then do
    insertionSortBlocks (← insertionSort lt data a (a + blockSize)) (a + blockSize) n
  else insertionSort lt data a n
termination_by n - a
decreasing_by simp_wf; simp only [blockSize] at *; omega

/-- The inner loop of the second phase of `stable_func`. -/
def mergeBlocks (data : List α) (size a n : Nat) (pos : 0 < size) : Option (List α) :=
  if a + 2 * size ≤ n then do
    mergeBlocks (← symMerge lt data a (a + size) (a + 2 * size)) size (a + 2 * size) n pos
  else if a + size < n then symMerge lt data a (a + size) n
  else some data
termination_by n - a

/-- The outer loop of the second phase of `stable_func`. -/
def mergePasses (data : List α) (size n : Nat) (pos : 0 < size) : Option (List α) :=
  if size < n then do mergePasses (← mergeBlocks lt data size 0 n pos) (2 * size) n (by omega)
  else some data
termination_by n - size

/-- `stable_func(data, n)`. -/
def stable (data : List α) (n : Nat) : Option (List α) := do
  mergePasses lt (← insertionSortBlocks lt data 0 n) blockSize n (by decide)

/-- `sort.SliceStable(x, less)`, `none` where Go panics. -/
def sliceStable (x : List α) : Option (List α) := stable lt x x.length

/-! ## Inside the slice the checked sort is the model

One lemma per function: under the bounds its Go loop keeps, it returns `some` of the model. The
bounds come from the permutation lemmas, which also carry the lengths of the intermediate slices. -/

variable {lt}

theorem less_eq_some {data : List α} {i j : Nat} (hi : i < data.length) (hj : j < data.length) :
    less lt data i j = some (GoSort.less lt data i j) := by
  simp [less, GoSort.less, List.getElem?_eq_getElem hi, List.getElem?_eq_getElem hj,
    List.getD_eq_getElem]

theorem swap_eq_some {data : List α} {i j : Nat} (hi : i < data.length) (hj : j < data.length) :
    swap data i j = some (GoSort.swap data i j) := by
  simp [swap, GoSort.swap, List.getElem?_eq_getElem hi, List.getElem?_eq_getElem hj,
    List.getD_eq_getElem]

theorem swapRange_eq_some (data : List α) (a b n : Nat) (ha : a + n ≤ data.length)
    (hb : b + n ≤ data.length) : swapRange data a b n = some (GoSort.swapRange data a b n) := by
  induction n generalizing data a b with
  | zero => rfl
  | succ n ih =>
      rw [swapRange, GoSort.swapRange, swap_eq_some (by omega) (by omega)]
      exact ih _ _ _ (by simp; omega) (by simp; omega)

theorem rotateLoop_eq_some (data : List α) (m i j : Nat) (hi : 0 < i) (hj : 0 < j) :
    i ≤ m → m + j ≤ data.length →
      rotateLoop data m i j hi hj = some (GoSort.rotateLoop data m i j hi hj) := by
  induction data, m, i, j, hi, hj using GoSort.rotateLoop.induct with
  | case1 data m j =>
      intro im mj
      rw [rotateLoop, GoSort.rotateLoop, dif_pos rfl, dif_pos rfl]
      exact swapRange_eq_some data _ _ _ (by omega) (by omega)
  | case2 data m i j hi hj unequal longer ih =>
      intro im mj
      have swapped := swapRange_perm data (m - i) m j (by omega) (by omega)
      rw [rotateLoop, GoSort.rotateLoop, dif_neg unequal, dif_pos longer, dif_neg unequal,
        dif_pos longer, swapRange_eq_some data _ _ _ (by omega) (by omega)]
      exact ih (by omega) (by rw [swapped.length_eq]; omega)
  | case3 data m i j hi hj unequal shorter ih =>
      intro im mj
      have swapped := swapRange_perm data (m - i) (m + j - i) i (by omega) (by omega)
      rw [rotateLoop, GoSort.rotateLoop, dif_neg unequal, dif_neg shorter, dif_neg unequal,
        dif_neg shorter, swapRange_eq_some data _ _ _ (by omega) (by omega)]
      exact ih (by omega) (by rw [swapped.length_eq]; omega)

theorem rotate_eq_some (data : List α) (a m b : Nat) (am : a < m) (mb : m < b)
    (hb : b ≤ data.length) : rotate data a m b am mb = some (GoSort.rotate data a m b am mb) :=
  rotateLoop_eq_some data m _ _ _ _ (by omega) (by omega)

theorem swapForward_eq_some (data : List α) (k n : Nat) (hk : k + n < data.length) :
    swapForward data k n = some (GoSort.swapForward data k n) := by
  induction n generalizing data k with
  | zero => rfl
  | succ n ih =>
      rw [swapForward, GoSort.swapForward, swap_eq_some (by omega) (by omega)]
      exact ih _ _ (by simp; omega)

theorem swapBackward_eq_some (data : List α) (k n : Nat) (hk : k < data.length) (hn : n ≤ k) :
    swapBackward data k n = some (GoSort.swapBackward data k n) := by
  induction n generalizing data k with
  | zero => rfl
  | succ n ih =>
      rw [swapBackward, GoSort.swapBackward, swap_eq_some hk (by omega)]
      exact ih _ _ (by simp; omega) (by omega)

/-- A search whose condition does not panic inside its range does not panic. -/
theorem search_eq_some (cond : Nat → Option Bool) (total : Nat → Bool) {i j : Nat}
    (agree : ∀ k, i ≤ k → k < j → cond k = some (total k)) :
    search cond i j = some (GoSort.search total i j) := by
  induction i, j using GoSort.search.induct total with
  | case1 i j inside holds ih =>
      rw [search, GoSort.search, if_pos inside, if_pos inside, if_pos holds,
        agree _ (by omega) (by omega)]
      simpa [holds] using ih fun k low high => agree k (by omega) high
  | case2 i j inside fails ih =>
      rw [search, GoSort.search, if_pos inside, if_pos inside, if_neg fails,
        agree _ (by omega) (by omega)]
      simpa [fails] using ih fun k low high => agree k low (by omega)
  | case3 i j done =>
      rw [search, GoSort.search, if_neg done, if_neg done]

theorem insertLoop_eq_some (data : List α) (a j : Nat) (hj : j < data.length) :
    insertLoop lt data a j = some (GoSort.insertLoop lt data a j) := by
  induction j generalizing data with
  | zero => rfl
  | succ j ih =>
      rw [insertLoop, GoSort.insertLoop]
      by_cases inside : a < j + 1
      · rw [if_pos inside, less_eq_some hj (by omega)]
        cases less : GoSort.less lt data (j + 1) j
        · simp [less]
        · have swapped : swap data (j + 1) j = some (GoSort.swap data (j + 1) j) :=
            swap_eq_some hj (by omega)
          simpa [inside, less, swapped] using ih (GoSort.swap data (j + 1) j) (by simp; omega)
      · simp [inside]

theorem insertionSort_eq_some (data : List α) (a b : Nat) (hb : b ≤ data.length) :
    insertionSort lt data a b = some (GoSort.insertionSort lt data a b) := by
  have run : ∀ (l : List Nat) (d : List α), (∀ i ∈ l, i < d.length) →
      l.foldlM (fun data i => insertLoop lt data a i) d =
        some (l.foldl (fun data i => GoSort.insertLoop lt data a i) d) := by
    intro l
    induction l with
    | nil => exact fun d _ => rfl
    | cons i l ih =>
        intro d inside
        have step : (GoSort.insertLoop lt d a i).Perm d :=
          insertLoop_perm d a i (inside i (List.mem_cons_self i l))
        rw [List.foldlM_cons, insertLoop_eq_some d a i (inside i (List.mem_cons_self i l))]
        exact ih _ fun k hk => step.length_eq ▸ inside k (List.mem_cons_of_mem i hk)
  exact run _ data fun i hi => by simp [List.mem_range'] at hi; omega

theorem symMergeCut_eq_some (data : List α) {a m b : Nat} (ham : a ≤ m) (hmb : m ≤ b)
    (hb : b ≤ data.length) : symMergeCut lt data a m b = some (GoSort.symMergeCut lt data a m b) := by
  simp only [symMergeCut, GoSort.symMergeCut]
  refine search_eq_some _ _ fun k low high => ?_
  rw [less_eq_some (by split_ifs at low high <;> omega) (by split_ifs at low high <;> omega)]
  rfl

omit [Inhabited α] in
theorem ite_eq_some {β : Type} {c : Prop} [Decidable c] {x y : β} {f : Option β}
    (h : c → f = some y) : (if c then f else some x) = some (if c then y else x) := by
  split_ifs with hc
  exacts [h hc, rfl]

omit [Inhabited α] in
theorem dite_eq_some {β : Type} {c : Prop} [Decidable c] {x : β} {f : c → Option β} {g : c → β}
    (h : ∀ hc, f hc = some (g hc)) :
    (if hc : c then f hc else some x) = some (if hc : c then g hc else x) := by
  split_ifs with hc
  exacts [h hc, rfl]

theorem symMerge_eq_some (data : List α) (a m b : Nat) (ham : a ≤ m) (hmb : m ≤ b)
    (hb : b ≤ data.length) : symMerge lt data a m b = some (GoSort.symMerge lt data a m b) := by
  obtain ⟨size, hsize⟩ : ∃ size, b - a = size := ⟨_, rfl⟩
  induction size using Nat.strong_induction_on generalizing data a m b with
  | _ size ih =>
  rw [symMerge, GoSort.symMerge]
  split_ifs with single_x single_y
  · obtain ⟨low, high⟩ := GoSort.search_bounds (fun h => GoSort.less lt data h a) hmb
    rw [search_eq_some _ (fun h => GoSort.less lt data h a)
      fun k low high => less_eq_some (by omega) (by omega)]
    exact swapForward_eq_some data a _ (by omega)
  · obtain ⟨low, high⟩ := GoSort.search_bounds (fun h => !GoSort.less lt data m h) ham
    rw [search_eq_some _ (fun h => !GoSort.less lt data m h)
      fun k low high => by rw [less_eq_some (by omega) (by omega)]; rfl]
    exact swapBackward_eq_some data m _ (by omega) (by omega)
  · obtain ⟨low, high, cut_mid, cut_b⟩ := GoSort.symMergeCut_bounds lt data ham hmb
    rw [symMergeCut_eq_some data ham hmb hb]
    dsimp only [Option.bind_eq_bind, Option.some_bind]
    set start := GoSort.symMergeCut lt data a m b
    set mid := (a + b) / 2
    have rotated := dite_perm (x := data) fun h : start < m ∧ m < mid + m - start =>
      rotate_perm data start m (mid + m - start) h.1 h.2 (by omega)
    have first := (ite_perm fun h : a < start ∧ start < mid =>
      (GoSort.symMerge_perm _ a start mid (by omega) (by omega) (by rw [rotated.length_eq]; omega) :
        (GoSort.symMerge lt _ a start mid).Perm _)).trans rotated
    rw [dite_eq_some fun h => rotate_eq_some data start m _ h.1 h.2 (by omega)]
    dsimp only [Option.bind_eq_bind, Option.some_bind]
    rw [ite_eq_some fun h => ih (mid - a) (by omega) _ a start mid (by omega) (by omega)
      (by rw [rotated.length_eq]; omega) rfl]
    dsimp only [Option.bind_eq_bind, Option.some_bind]
    exact ite_eq_some fun h => ih (b - mid) (by omega) _ mid _ b (by omega) (by omega)
      (by rw [first.length_eq]; omega) rfl

theorem insertionSortBlocks_eq_some (data : List α) (a n : Nat) (hn : n ≤ data.length) :
    insertionSortBlocks lt data a n = some (GoSort.insertionSortBlocks lt data a n) := by
  induction data, a, n using GoSort.insertionSortBlocks.induct lt with
  | case1 data a n fits ih =>
      have sorted : (GoSort.insertionSort lt data a (a + blockSize)).Perm data :=
        insertionSort_perm data a (a + blockSize) (by omega)
      rw [insertionSortBlocks, GoSort.insertionSortBlocks, if_pos fits, if_pos fits,
        insertionSort_eq_some data a _ (by omega)]
      exact ih (by rw [sorted.length_eq]; exact hn)
  | case2 data a n short =>
      rw [insertionSortBlocks, GoSort.insertionSortBlocks, if_neg short, if_neg short]
      exact insertionSort_eq_some data a n hn

theorem mergeBlocks_eq_some (data : List α) (size a n : Nat) (pos : 0 < size)
    (hn : n ≤ data.length) :
    mergeBlocks lt data size a n pos = some (GoSort.mergeBlocks lt data size a n pos) := by
  induction data, size, a, n, pos using GoSort.mergeBlocks.induct lt with
  | case1 data size a n pos fits ih =>
      have merged : (GoSort.symMerge lt data a (a + size) (a + 2 * size)).Perm data :=
        symMerge_perm data a (a + size) (a + 2 * size) (by omega) (by omega) (by omega)
      rw [mergeBlocks, GoSort.mergeBlocks, if_pos fits, if_pos fits,
        symMerge_eq_some data a _ _ (by omega) (by omega) (by omega)]
      exact ih (by rw [merged.length_eq]; exact hn)
  | case2 data size a n pos short fits =>
      rw [mergeBlocks, GoSort.mergeBlocks, if_neg short, if_neg short, if_pos fits, if_pos fits]
      exact symMerge_eq_some data a (a + size) n (by omega) (by omega) hn
  | case3 data size a n pos short fits =>
      rw [mergeBlocks, GoSort.mergeBlocks, if_neg short, if_neg short, if_neg fits, if_neg fits]

theorem mergePasses_eq_some (data : List α) (size n : Nat) (pos : 0 < size)
    (hn : n ≤ data.length) :
    mergePasses lt data size n pos = some (GoSort.mergePasses lt data size n pos) := by
  induction data, size, n, pos using GoSort.mergePasses.induct lt with
  | case1 data size n pos more ih =>
      have merged : (GoSort.mergeBlocks lt data size 0 n pos).Perm data :=
        mergeBlocks_perm data size 0 n pos hn
      rw [mergePasses, GoSort.mergePasses, if_pos more, if_pos more,
        mergeBlocks_eq_some data size 0 n pos hn]
      exact ih (by rw [merged.length_eq]; exact hn)
  | case2 data size n pos done =>
      rw [mergePasses, GoSort.mergePasses, if_neg done, if_neg done]

/-- For every comparator, consistent or not, `sort.SliceStable` never calls `Less` or `Swap` with an
index outside the slice, so it never panics, and it returns what the model computes. -/
theorem sliceStable_eq_some (x : List α) : sliceStable lt x = some (GoSort.sliceStable lt x) := by
  have blocks : (GoSort.insertionSortBlocks lt x 0 x.length).Perm x :=
    insertionSortBlocks_perm x 0 x.length le_rfl
  rw [sliceStable, stable, insertionSortBlocks_eq_some x 0 x.length le_rfl]
  exact mergePasses_eq_some _ _ _ _ (by rw [blocks.length_eq])

end Checked
end GoSort
end NginxGateway
