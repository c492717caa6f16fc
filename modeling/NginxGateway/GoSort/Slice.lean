import Mathlib.Data.List.Basic
import Mathlib.Data.List.GetD

/-!
# The slice primitives of Go's stable sort

`sort.SliceStable` reaches the slice only through `Less(i, j)` and `Swap(i, j)`. A slice is a
`List`; reading out of range, which Go turns into a panic and the sort never does, reads the
default value here. The loops below are `swapRange_func`, `rotate_func`, the two element-moving
loops of `symMerge_func` and its binary search, each with one lemma saying what it does to a slice
cut into named pieces.
-/

namespace NginxGateway
namespace GoSort

variable {α : Type*} [Inhabited α]

/-- `data.Less(i, j)` for the comparator `lt` on elements. -/
def less (lt : α → α → Bool) (data : List α) (i j : Nat) : Bool :=
  lt (data.getD i default) (data.getD j default)

/-- `data.Swap(i, j)`. -/
def swap (data : List α) (i j : Nat) : List α :=
  (data.set i (data.getD j default)).set j (data.getD i default)

/-- `swapRange_func(data, a, b, n)`: swap `data[a+k]` and `data[b+k]` for `k = 0, …, n-1`. -/
def swapRange (data : List α) (a b : Nat) : Nat → List α
  | 0 => data
  | n + 1 => swapRange (swap data a b) (a + 1) (b + 1) n

/-- The loop of `rotate_func`: `i` and `j` are the lengths of the blocks before and after `m`. -/
def rotateLoop (data : List α) (m i j : Nat) (hi : 0 < i) (hj : 0 < j) : List α :=
  if equal : i = j then swapRange data (m - i) m i
  else if hij : i > j then rotateLoop (swapRange data (m - i) m j) m (i - j) j (by omega) hj
  else rotateLoop (swapRange data (m - i) (m + j - i) i) m i (j - i) hi (by omega)
termination_by i + j

/-- `rotate_func(data, a, m, b)`, which assumes `a < m < b`: exchange the blocks `data[a:m]` and
`data[m:b]`. -/
def rotate (data : List α) (a m b : Nat) (am : a < m) (mb : m < b) : List α :=
  rotateLoop data m (m - a) (b - m) (by omega) (by omega)

/-- `for k := a; k < i-1; k++ { data.Swap(k, k+1) }`, started at `k` and run `n` times. -/
def swapForward (data : List α) (k : Nat) : Nat → List α
  | 0 => data
  | n + 1 => swapForward (swap data k (k + 1)) (k + 1) n

/-- `for k := m; k > i; k-- { data.Swap(k, k-1) }`, started at `k` and run `n` times. -/
def swapBackward (data : List α) (k : Nat) : Nat → List α
  | 0 => data
  | n + 1 => swapBackward (swap data k (k - 1)) (k - 1) n

/-- The binary search loop of `symMerge_func`:
`for i < j { h := int(uint(i+j) >> 1); if cond(h) { i = h + 1 } else { j = h } }`. -/
def search (cond : Nat → Bool) (i j : Nat) : Nat :=
  if i < j then
    if cond ((i + j) / 2) then search cond ((i + j) / 2 + 1) j else search cond i ((i + j) / 2)
  else i
termination_by j - i

/-! ## Swaps -/

@[simp]
theorem getD_append_cons (pre post : List α) (x : α) :
    (pre ++ x :: post).getD pre.length default = x := by
  rw [List.getD_eq_getElem?_getD, List.getElem?_append_right (Nat.le_refl _)]
  simp

theorem getD_eq_of_eq_append {data : List α} {i : Nat} (pre post : List α) (x : α)
    (hdata : data = pre ++ x :: post) (hi : i = pre.length) : data.getD i default = x := by
  rw [hdata, hi, getD_append_cons]

theorem getD_of_eq_append_append {data : List α} (pre l post : List α)
    (hdata : data = pre ++ l ++ post) {i k : Nat} (hi : i = pre.length + k)
    (hk : k < l.length) : data.getD i default = l.getD k default := by
  rw [hdata, hi, List.append_assoc, List.getD_append_right _ _ _ _ (by omega),
    Nat.add_sub_cancel_left, List.getD_append _ _ _ _ hk]

theorem swap_comm (data : List α) (i j : Nat) : swap data i j = swap data j i := by
  by_cases h : i = j
  · rw [h]
  · exact List.set_comm _ _ _ h

theorem swap_middle (data : List α) (i j : Nat) (pre mid post : List α) (x y : α)
    (hdata : data = pre ++ x :: mid ++ y :: post) (hi : i = pre.length)
    (hj : j = pre.length + 1 + mid.length) :
    swap data i j = pre ++ y :: mid ++ x :: post := by
  have split : pre ++ x :: mid ++ y :: post = pre ++ x :: (mid ++ y :: post) := by simp
  have position : pre.length + 1 + mid.length = (pre ++ x :: mid).length := by simp; omega
  rw [hdata, hi, hj, swap, position, getD_append_cons, split, getD_append_cons]
  simp [List.set_append_right]

/-- `swapRange` exchanges two blocks of equal length. -/
theorem swapRange_blocks (data : List α) (a b : Nat) (pre u mid v post : List α)
    (hdata : data = pre ++ u ++ mid ++ v ++ post) (ha : a = pre.length)
    (hb : b = pre.length + u.length + mid.length) (length_eq : u.length = v.length) :
    swapRange data a b u.length = pre ++ v ++ mid ++ u ++ post := by
  induction u generalizing data a b pre mid v with
  | nil =>
      obtain rfl : v = [] := List.eq_nil_of_length_eq_zero length_eq.symm
      simp [swapRange, hdata]
  | cons x u ih =>
      obtain ⟨y, v, rfl⟩ : ∃ y w, v = y :: w :=
        List.exists_cons_of_length_pos (by simp at length_eq; omega)
      rw [List.length_cons, swapRange]
      refine (ih _ _ _ (pre ++ [y]) (mid ++ [x]) v ?_ (by simp [ha]) (by simp [hb]; omega)
        (by simpa using length_eq)).trans (by simp)
      exact swap_middle _ _ _ pre (u ++ mid) (v ++ post) x y (by simp [hdata]) ha
        (by simp [hb]; omega) |>.trans (by simp)

/-- `rotateLoop` exchanges the blocks on both sides of `m`. -/
theorem rotateLoop_blocks (data : List α) (m i j : Nat) (hi : 0 < i) (hj : 0 < j) :
    ∀ pre u v post : List α, data = pre ++ u ++ v ++ post → u.length = i → v.length = j →
      m = pre.length + i → rotateLoop data m i j hi hj = pre ++ v ++ u ++ post := by
  induction data, m, i, j, hi, hj using rotateLoop.induct with
  | case1 data m j =>
      intro pre u v post hdata hu hv hm
      rw [rotateLoop, dif_pos rfl, ← hu]
      simpa using swapRange_blocks _ _ _ pre u [] v post (by simp [hdata]) (by omega) (by simp [hm, hu])
        (by omega)
  | case2 data m i j hi hj unequal longer ih =>
      intro pre u v post hdata hu hv hm
      rw [rotateLoop, dif_neg unequal, dif_pos longer]
      obtain ⟨u₁, u₂, rfl, length_u₁⟩ : ∃ u₁ u₂, u = u₁ ++ u₂ ∧ u₁.length = j :=
        ⟨u.take j, u.drop j, (List.take_append_drop _ _).symm, by simp; omega⟩
      have swapped := swapRange_blocks data (m - i) m pre u₁ u₂ v post (by simp [hdata]) (by omega)
        (by simp at hu ⊢; omega) (by omega)
      rw [length_u₁] at swapped
      simpa using ih (pre ++ v) u₂ u₁ post (by simp [swapped]) (by simp at hu; omega) length_u₁
        (by simp at hu ⊢; omega)
  | case3 data m i j hi hj unequal shorter ih =>
      intro pre u v post hdata hu hv hm
      rw [rotateLoop, dif_neg unequal, dif_neg shorter]
      obtain ⟨v₁, v₂, rfl, length_v₂⟩ : ∃ v₁ v₂, v = v₁ ++ v₂ ∧ v₂.length = i :=
        ⟨v.take (j - i), v.drop (j - i), (List.take_append_drop _ _).symm, by simp; omega⟩
      have swapped := swapRange_blocks data (m - i) (m + j - i) pre u v₁ v₂ post
        (by simp [hdata]) (by omega) (by simp at hv ⊢; omega) (by omega)
      rw [hu] at swapped
      simpa using ih pre v₂ v₁ (u ++ post) (by simp [swapped]) length_v₂ (by simp at hv; omega) hm

/-- `rotate_func` as `symMerge_func` calls it, only when both blocks are nonempty: it exchanges
the blocks. -/
theorem rotate_blocks (data : List α) (a m b : Nat) (pre u v post : List α)
    (hdata : data = pre ++ u ++ v ++ post) (ha : a = pre.length)
    (hm : m = pre.length + u.length) (hb : b = pre.length + u.length + v.length) :
    (if h : a < m ∧ m < b then rotate data a m b h.1 h.2 else data) = pre ++ v ++ u ++ post := by
  split_ifs with h
  · exact rotateLoop_blocks data m _ _ _ _ pre u v post hdata (by omega) (by omega) (by omega)
  · rcases (show u.length = 0 ∨ v.length = 0 by omega) with empty | empty <;>
      simp [List.eq_nil_of_length_eq_zero empty, hdata]

/-- `swapForward` carries one element over the block after it. -/
theorem swapForward_moves (data : List α) (k : Nat) (pre mid post : List α) (x : α)
    (hdata : data = pre ++ x :: mid ++ post) (hk : k = pre.length) :
    swapForward data k mid.length = pre ++ mid ++ x :: post := by
  induction mid generalizing data k pre with
  | nil => simp [swapForward, hdata]
  | cons y mid ih =>
      rw [List.length_cons, swapForward]
      refine (ih _ _ (pre ++ [y]) ?_ (by simp [hk])).trans (by simp)
      exact (swap_middle _ _ _ pre [] (mid ++ post) x y (by simp [hdata]) hk (by simp [hk])).trans
        (by simp)

/-- `swapBackward` carries one element back over the block before it. -/
theorem swapBackward_moves (data : List α) (k : Nat) (pre mid post : List α) (y : α)
    (hdata : data = pre ++ mid ++ y :: post) (hk : k = pre.length + mid.length) :
    swapBackward data k mid.length = pre ++ y :: mid ++ post := by
  induction mid using List.reverseRecOn generalizing data k post with
  | nil => simp [swapBackward, hdata]
  | append_singleton mid z ih =>
      rw [List.length_append, List.length_singleton, swapBackward, swap_comm]
      refine (ih _ _ (z :: post) ?_ (by simp [hk])).trans (by simp)
      exact (swap_middle _ _ _ (pre ++ mid) [] post z y (by simp [hdata]) (by simp [hk])
        (by simp [hk]; omega)).trans (by simp)

/-! ## Permutations

Whatever the comparator says, every move of the sort is an exchange of two elements inside the
slice, so the slice stays a permutation of its input. Each lemma carries the bounds under which
its loop stays inside the slice. -/

@[simp]
theorem length_swap (data : List α) (i j : Nat) : (swap data i j).length = data.length := by
  simp [swap]

omit [Inhabited α] in
/-- Two positions `i < j` of a slice cut it into the pieces around them. -/
theorem exists_split_two {data : List α} {i j : Nat} (hij : i < j) (hj : j < data.length) :
    ∃ pre x mid y post, data = pre ++ x :: mid ++ y :: post ∧ pre.length = i ∧
      pre.length + 1 + mid.length = j := by
  refine ⟨data.take i, data[i], (data.drop (i + 1)).take (j - i - 1), data[j], data.drop (j + 1),
    ?_, by simp; omega, by simp; omega⟩
  have at_i : data.drop i = data[i] :: data.drop (i + 1) := (List.getElem_cons_drop _ _ _).symm
  have at_j : (data.drop (i + 1)).drop (j - i - 1) = data[j] :: data.drop (j + 1) := by
    rw [List.drop_drop, show i + 1 + (j - i - 1) = j by omega]
    exact (List.getElem_cons_drop _ _ _).symm
  have rest : data.drop (i + 1) =
      (data.drop (i + 1)).take (j - i - 1) ++ data[j] :: data.drop (j + 1) := by
    rw [← at_j, List.take_append_drop]
  calc data = data.take i ++ data.drop i := (List.take_append_drop i data).symm
    _ = _ := by
      rw [at_i]
      nth_rewrite 1 [rest]
      simp

/-- `data.Swap(i, j)` inside the slice exchanges two elements. -/
theorem swap_perm (data : List α) {i j : Nat} (hi : i < data.length) (hj : j < data.length) :
    (swap data i j).Perm data := by
  have of_lt : ∀ {i j}, i < j → j < data.length → (swap data i j).Perm data := by
    intro i j hij hj
    obtain ⟨pre, x, mid, y, post, hdata, rfl, hj'⟩ := exists_split_two hij hj
    rw [swap_middle data _ j pre mid post x y hdata rfl hj'.symm, hdata]
    simp only [List.append_assoc, List.cons_append]
    exact List.Perm.append_left pre ((List.perm_middle.cons y).trans
      ((List.Perm.swap x y _).trans (List.perm_middle.symm.cons x)))
  rcases lt_trichotomy i j with hij | rfl | hij
  · exact of_lt hij hj
  · have unchanged : data.set i data[i] = data := List.ext_getElem (by simp) fun n _ _ => by
      rw [List.getElem_set]
      split_ifs with same <;> simp [same]
    rw [swap, List.getD_eq_getElem _ _ hi, List.set_set, unchanged]
  · exact swap_comm data i j ▸ of_lt hij hi

omit [Inhabited α] in
/-- A step taken only under a guard permutes the slice when it does so under the guard. -/
theorem ite_perm {c : Prop} [Decidable c] {x y : List α} (h : c → y.Perm x) :
    (if c then y else x).Perm x := by
  split_ifs with hc
  exacts [h hc, .refl x]

omit [Inhabited α] in
theorem dite_perm {c : Prop} [Decidable c] {x : List α} {f : c → List α} (h : ∀ hc, (f hc).Perm x) :
    (if hc : c then f hc else x).Perm x := by
  split_ifs with hc
  exacts [h hc, .refl x]

theorem swapRange_perm (data : List α) (a b n : Nat) (ha : a + n ≤ data.length)
    (hb : b + n ≤ data.length) : (swapRange data a b n).Perm data := by
  induction n generalizing data a b with
  | zero => exact .refl data
  | succ n ih =>
      exact (ih _ _ _ (by simp; omega) (by simp; omega)).trans (swap_perm data (by omega) (by omega))

theorem rotateLoop_perm (data : List α) (m i j : Nat) (hi : 0 < i) (hj : 0 < j) :
    i ≤ m → m + j ≤ data.length → (rotateLoop data m i j hi hj).Perm data := by
  induction data, m, i, j, hi, hj using rotateLoop.induct with
  | case1 data m j =>
      intro im mj
      rw [rotateLoop, dif_pos rfl]
      exact swapRange_perm data _ _ _ (by omega) (by omega)
  | case2 data m i j hi hj unequal longer ih =>
      intro im mj
      rw [rotateLoop, dif_neg unequal, dif_pos longer]
      have swapped := swapRange_perm data (m - i) m j (by omega) (by omega)
      exact (ih (by omega) (by rw [swapped.length_eq]; omega)).trans swapped
  | case3 data m i j hi hj unequal shorter ih =>
      intro im mj
      rw [rotateLoop, dif_neg unequal, dif_neg shorter]
      have swapped := swapRange_perm data (m - i) (m + j - i) i (by omega) (by omega)
      exact (ih (by omega) (by rw [swapped.length_eq]; omega)).trans swapped

theorem rotate_perm (data : List α) (a m b : Nat) (am : a < m) (mb : m < b)
    (hb : b ≤ data.length) : (rotate data a m b am mb).Perm data :=
  rotateLoop_perm data m _ _ _ _ (by omega) (by omega)

theorem swapForward_perm (data : List α) (k n : Nat) (hk : k + n < data.length) :
    (swapForward data k n).Perm data := by
  induction n generalizing data k with
  | zero => exact .refl data
  | succ n ih =>
      exact (ih _ _ (by simp; omega)).trans (swap_perm data (by omega) (by omega))

theorem swapBackward_perm (data : List α) (k n : Nat) (hk : k < data.length) (hn : n ≤ k) :
    (swapBackward data k n).Perm data := by
  induction n generalizing data k with
  | zero => exact .refl data
  | succ n ih =>
      exact (ih _ _ (by simp; omega) (by omega)).trans (swap_perm data hk (by omega))

/-! ## Binary search -/

/-- On a range where `cond` holds on an initial segment, `search` returns the end of that
segment. -/
theorem search_spec (cond : Nat → Bool) {i j : Nat} (hij : i ≤ j)
    (mono : ∀ k l, i ≤ k → k ≤ l → l < j → cond l = true → cond k = true) :
    i ≤ search cond i j ∧ search cond i j ≤ j ∧
      (∀ k, i ≤ k → k < search cond i j → cond k = true) ∧
      (∀ k, search cond i j ≤ k → k < j → cond k = false) := by
  induction i, j using search.induct cond with
  | case1 i j lt holds ih =>
      rw [search, if_pos lt, if_pos holds]
      obtain ⟨low, high, below, above⟩ :=
        ih (by omega) fun k l hk hkl hl => mono k l (by omega) hkl hl
      refine ⟨by omega, high, fun k hk hkr => ?_, above⟩
      by_cases middle : k ≤ (i + j) / 2
      · exact mono k _ hk middle (by omega) holds
      · exact below k (by omega) hkr
  | case2 i j lt fails ih =>
      rw [search, if_pos lt, if_neg fails]
      obtain ⟨low, high, below, above⟩ :=
        ih (by omega) fun k l hk hkl hl => mono k l hk hkl (by omega)
      refine ⟨low, by omega, below, fun k hk hkj => ?_⟩
      by_cases middle : k < (i + j) / 2
      · exact above k hk middle
      · cases hc : cond k
        · rfl
        · exact absurd (mono _ k (by omega) (by omega) hkj hc) fails
  | case3 i j ge =>
      rw [search, if_neg ge]
      exact ⟨le_rfl, hij, fun k hk hki => by omega, fun k hk hkj => by omega⟩

/-- Whatever the condition, the search ends inside its range. -/
theorem search_bounds (cond : Nat → Bool) {i j : Nat} (hij : i ≤ j) :
    i ≤ search cond i j ∧ search cond i j ≤ j := by
  induction i, j using search.induct cond with
  | case1 i j lt holds ih =>
      rw [search, if_pos lt, if_pos holds]
      have := ih (by omega)
      omega
  | case2 i j lt fails ih =>
      rw [search, if_pos lt, if_neg fails]
      have := ih (by omega)
      omega
  | case3 i j ge =>
      rw [search, if_neg ge]
      omega

end GoSort
end NginxGateway
