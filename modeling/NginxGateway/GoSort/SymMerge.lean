import NginxGateway.GoSort.Slice
import NginxGateway.Order.Merge

/-!
# `symMerge_func`

The merge step of Go's stable sort merges the sorted runs `data[a:m]` and `data[m:b]` in place. A
run of one element is inserted into the other by binary search. Otherwise a symmetric binary
search cuts both runs, a rotation brings the two front pieces together, and the two halves are
merged recursively. On sorted runs the result is the standard library's stable merge.
-/

namespace NginxGateway
namespace GoSort

variable {α : Type*} [Inhabited α] (lt : α → α → Bool)

/-- The symmetric binary search of `symMerge_func`: with `mid := (a+b)/2` and `n := mid + m`, the
cut `start` in `data[a:m]` pairs `data[c]` with `data[n-1-c]`. -/
def symMergeCut (data : List α) (a m b : Nat) : Nat :=
  let mid := (a + b) / 2
  let n := mid + m
  search (fun c => !less lt data (n - 1 - c) c) (if m > mid then n - b else a)
    (if m > mid then mid else m)

/-- `symMerge_func(data, a, m, b)`: merge the sorted runs `data[a:m]` and `data[m:b]`. -/
def symMerge (data : List α) (a m b : Nat) : List α :=
  if m - a = 1 then
    swapForward data a (search (fun h => less lt data h a) m b - 1 - a)
  else if b - m = 1 then
    swapBackward data m (m - search (fun h => !less lt data m h) a m)
  else
    let mid := (a + b) / 2
    let start := symMergeCut lt data a m b
    let stop := mid + m - start
    let data := if h : start < m ∧ m < stop then rotate data start m stop h.1 h.2 else data
    let data := if a < start ∧ start < mid then symMerge data a start mid else data
    if mid < stop ∧ stop < b then symMerge data mid stop b else data
termination_by b - a
decreasing_by all_goals simp_wf; omega

/-- Whatever the comparator, the symmetric search cuts inside both runs. -/
theorem symMergeCut_bounds (data : List α) {a m b : Nat} (ham : a ≤ m) (hmb : m ≤ b) :
    a ≤ symMergeCut lt data a m b ∧ symMergeCut lt data a m b ≤ m ∧
      symMergeCut lt data a m b ≤ (a + b) / 2 ∧
      (a + b) / 2 + m ≤ symMergeCut lt data a m b + b := by
  obtain ⟨low, high⟩ := search_bounds (fun c => !less lt data ((a + b) / 2 + m - 1 - c) c)
    (i := if m > (a + b) / 2 then (a + b) / 2 + m - b else a)
    (j := if m > (a + b) / 2 then (a + b) / 2 else m) (by split_ifs <;> omega)
  simp only [symMergeCut]
  split_ifs at low high ⊢ <;> omega

variable {lt}

/-- Whatever the comparator, `symMerge_func` only exchanges elements inside `data[a:b]`. -/
theorem symMerge_perm (data : List α) (a m b : Nat) (ham : a ≤ m) (hmb : m ≤ b)
    (hb : b ≤ data.length) : (symMerge lt data a m b).Perm data := by
  obtain ⟨size, hsize⟩ : ∃ size, b - a = size := ⟨_, rfl⟩
  induction size using Nat.strong_induction_on generalizing data a m b with
  | _ size ih =>
  rw [symMerge]
  split_ifs with single_x single_y
  · obtain ⟨low, high⟩ := search_bounds (fun h => less lt data h a) hmb
    exact swapForward_perm data a _ (by omega)
  · obtain ⟨low, high⟩ := search_bounds (fun h => !less lt data m h) ham
    exact swapBackward_perm data m _ (by omega) (by omega)
  · obtain ⟨low, high, cut_mid, cut_b⟩ := symMergeCut_bounds lt data ham hmb
    dsimp only
    set start := symMergeCut lt data a m b
    set mid := (a + b) / 2
    have rotated := dite_perm (x := data) fun h : start < m ∧ m < mid + m - start =>
      rotate_perm data start m (mid + m - start) h.1 h.2 (by omega)
    have first := (ite_perm fun h : a < start ∧ start < mid => ih (mid - a) (by omega) _ a start mid
      (by omega) (by omega) (by rw [rotated.length_eq]; omega) rfl).trans rotated
    exact (ite_perm fun h : mid < mid + m - start ∧ mid + m - start < b =>
      ih (b - mid) (by omega) _ mid _ b (by omega) (by omega) (by rw [first.length_eq]; omega)
        rfl).trans first

variable [IsStrictWeakOrder α fun a b => lt a b]

/-- A left run of one element is inserted into the right run by binary search. -/
theorem symMerge_single_left (data : List α) (a m b : Nat) (pre ys post : List α) (x : α)
    (hdata : data = pre ++ [x] ++ ys ++ post) (ha : a = pre.length) (hm : m = pre.length + 1)
    (hb : b = pre.length + 1 + ys.length) (hys : IsSorted lt ys) :
    symMerge lt data a m b = pre ++ [x].merge ys (atMost lt) ++ post := by
  have x_at : data.getD a default = x :=
    getD_eq_of_eq_append pre (ys ++ post) x (by simp [hdata]) ha
  have reads : ∀ k (hk : k < ys.length), less lt data (m + k) a = lt ys[k] x := fun k hk => by
    rw [less, x_at, getD_of_eq_append_append (pre ++ [x]) ys post hdata (by simp [hm]) hk,
      List.getD_eq_getElem]
  obtain ⟨low, high, below, above⟩ := search_spec (fun h => less lt data h a) (i := m) (j := b)
    (by omega) fun k l mk kl lb holds => by
      obtain ⟨k, rfl⟩ : ∃ k', k = m + k' := ⟨k - m, by omega⟩
      obtain ⟨l, rfl⟩ : ∃ l', l = m + l' := ⟨l - m, by omega⟩
      dsimp only at holds ⊢
      rw [reads k (by omega)]
      rw [reads l (by omega)] at holds
      exact (less_or_less_of_less holds _).resolve_left
        (by simp [hys.getElem_lt_eq_false (show k ≤ l by omega)])
  set i := search (fun h => less lt data h a) m b
  have first : ∀ y ∈ ys.take (i - m), lt y x = true := forall_mem_take fun k hk hki => by
    simpa [reads k hk] using below (m + k) (by omega) (by omega)
  have last : ∀ y ∈ ys.drop (i - m), lt y x = false := forall_mem_drop fun k hk hki => by
    simpa [reads k hk] using above (m + k) (by omega) (by omega)
  rw [symMerge, if_pos (by omega)]
  have moved := swapForward_moves data a pre (ys.take (i - m)) (ys.drop (i - m) ++ post) x
    (by simp [hdata]) ha
  rw [List.length_take, min_eq_left (by omega)] at moved
  rw [show i - 1 - a = i - m by omega, moved, ← List.take_append_drop (i - m) ys, merge_append_left fun y hy x' hx' => by
      simpa [List.mem_singleton.mp hx'] using first y hy,
    ← List.append_nil [x], merge_append_right fun x' hx' y hy => by
      simpa [List.mem_singleton.mp hx'] using last y hy]
  simp

/-- A right run of one element is inserted into the left run by binary search. -/
theorem symMerge_single_right (data : List α) (a m b : Nat) (pre xs post : List α) (y : α)
    (hdata : data = pre ++ xs ++ [y] ++ post) (ha : a = pre.length)
    (hm : m = pre.length + xs.length) (hb : b = pre.length + xs.length + 1)
    (not_single : xs.length ≠ 1) (hxs : IsSorted lt xs) :
    symMerge lt data a m b = pre ++ xs.merge [y] (atMost lt) ++ post := by
  have y_at : data.getD m default = y :=
    getD_eq_of_eq_append (pre ++ xs) post y (by simp [hdata]) (by simp [hm])
  have reads : ∀ k (hk : k < xs.length), less lt data m (a + k) = lt y xs[k] := fun k hk => by
    rw [less, y_at, getD_of_eq_append_append pre xs ([y] ++ post) (hdata.trans (by simp))
      (by rw [ha]) hk, List.getD_eq_getElem]
  obtain ⟨low, high, below, above⟩ := search_spec (fun h => !less lt data m h) (i := a) (j := m)
    (by omega) fun k l ak kl lm holds => by
      obtain ⟨k, rfl⟩ : ∃ k', k = a + k' := ⟨k - a, by omega⟩
      obtain ⟨l, rfl⟩ : ∃ l', l = a + l' := ⟨l - a, by omega⟩
      dsimp only at holds ⊢
      rw [reads l (by omega)] at holds
      simpa [reads k (by omega)] using less_false_trans (by simpa using holds)
        (hxs.getElem_lt_eq_false (show k ≤ l by omega) _)
  set i := search (fun h => !less lt data m h) a m
  have first : ∀ x ∈ xs.take (i - a), lt y x = false := forall_mem_take fun k hk hki => by
    simpa [reads k hk] using below (a + k) (by omega) (by omega)
  have last : ∀ x ∈ xs.drop (i - a), lt y x = true := forall_mem_drop fun k hk hki => by
    simpa [reads k hk] using above (a + k) (by omega) (by omega)
  rw [symMerge, if_neg (by omega), if_pos (by omega)]
  have moved := swapBackward_moves data m (pre ++ xs.take (i - a)) (xs.drop (i - a)) post y
    (by simp [hdata]) (by simp [hm]; omega)
  rw [show m - i = (xs.drop (i - a)).length by simp; omega, moved,
    ← List.take_append_drop (i - a) xs, merge_append_right fun x hx y' hy' => by
      simpa [List.mem_singleton.mp hy'] using first x hx,
    ← List.append_nil [y], merge_append_left fun y' hy' x hx => by
      simpa [List.mem_singleton.mp hy'] using last x hx]
  simp

/-- The symmetric search cuts both runs so that each front piece precedes the other run's back
piece: with `mid := (a+b)/2`, `xs` is cut after `start - a` elements and `ys` after `mid - start`. -/
theorem symMergeCut_spec (data : List α) (a m b : Nat) (pre xs ys post : List α)
    (hdata : data = pre ++ xs ++ ys ++ post) (ha : a = pre.length)
    (hm : m = pre.length + xs.length) (hb : b = pre.length + xs.length + ys.length)
    (hxs : IsSorted lt xs) (hys : IsSorted lt ys) {start : Nat}
    (hstart : symMergeCut lt data a m b = start) :
    a ≤ start ∧ start ≤ m ∧ start ≤ (a + b) / 2 ∧ (a + b) / 2 + m ≤ start + b ∧
      (∀ x ∈ xs.take (start - a), ∀ y ∈ ys.drop ((a + b) / 2 - start), lt y x = false) ∧
      (∀ y ∈ ys.take ((a + b) / 2 - start), ∀ x ∈ xs.drop (start - a), lt y x = true) := by
  simp only [symMergeCut] at hstart
  set mid := (a + b) / 2
  have reads : ∀ c, a ≤ c → c < m → mid + m - b ≤ c → c < mid →
      less lt data (mid + m - 1 - c) c =
        lt (ys.getD (mid - 1 - c) default) (xs.getD (c - a) default) := fun c ac cm bc cmid => by
    rw [less, getD_of_eq_append_append pre xs (ys ++ post) (hdata.trans (by simp))
        (show c = pre.length + (c - a) by omega) (show c - a < xs.length by omega),
      getD_of_eq_append_append (pre ++ xs) ys post hdata
        (show mid + m - 1 - c = (pre ++ xs).length + (mid - 1 - c) by simp; omega)
        (show mid - 1 - c < ys.length by omega)]
  have bounds : a ≤ (if m > mid then mid + m - b else a) ∧ mid + m - b ≤ (if m > mid then mid + m - b else a) ∧
      (if m > mid then mid else m) ≤ m ∧ (if m > mid then mid else m) ≤ mid := by
    split_ifs <;> omega
  obtain ⟨low, high, below, above⟩ := search_spec (fun c => !less lt data (mid + m - 1 - c) c)
    (i := if m > mid then mid + m - b else a) (j := if m > mid then mid else m) (by split_ifs <;> omega)
    fun k l lk kl lj holds => by
      dsimp only at holds ⊢
      rw [reads l (by omega) (by omega) (by omega) (by omega)] at holds
      rw [reads k (by omega) (by omega) (by omega) (by omega)]
      have ys_order := hys.getD_lt_eq_false (show mid - 1 - l ≤ mid - 1 - k by omega)
        (by omega) default
      have xs_order := hxs.getD_lt_eq_false (show k - a ≤ l - a by omega) (by omega) default
      simpa using less_false_trans (less_false_trans ys_order (by simpa using holds)) xs_order
  simp only [hstart] at low high below above
  refine ⟨by omega, by omega, by omega, by omega, ?_, ?_⟩
  · refine forall_mem_take fun i hi hia => forall_mem_drop fun j hj hjm => ?_
    rw [← List.getD_eq_getElem ys default hj, ← List.getD_eq_getElem xs default hi]
    have boundary := below (start - 1) (by split_ifs at low ⊢ <;> omega) (by omega)
    rw [reads (start - 1) (by omega) (by omega) (by omega) (by omega)] at boundary
    have ys_order := hys.getD_lt_eq_false (show mid - 1 - (start - 1) ≤ j by omega) hj default
    have xs_order := hxs.getD_lt_eq_false (show i ≤ start - 1 - a by omega) (by omega) default
    exact less_false_trans (less_false_trans ys_order (by simpa only [Bool.not_eq_true'] using boundary))
      xs_order
  · refine forall_mem_take fun j hj hjm => forall_mem_drop fun i hi hia => ?_
    rw [← List.getD_eq_getElem ys default hj, ← List.getD_eq_getElem xs default hi]
    have boundary := above start le_rfl (by split_ifs at high ⊢ <;> omega)
    rw [reads start (by omega) (by omega) (by omega) (by omega)] at boundary
    have ys_order := hys.getD_lt_eq_false (show j ≤ mid - 1 - start by omega) (by omega) default
    have xs_order := hxs.getD_lt_eq_false (show start - a ≤ i by omega) hi default
    have y_first := (less_or_less_of_less (by simpa only [Bool.not_eq_false'] using boundary)
      (ys.getD j default)).resolve_left
      (ne_true_of_eq_false ys_order)
    exact (less_or_less_of_less y_first (xs.getD i default)).resolve_right
      (ne_true_of_eq_false xs_order)

/-- `symMerge_func` under the guard `a < m ∧ m < b` that its recursive calls carry computes the
stable merge of two sorted runs, either of which may be empty. -/
theorem symMerge_guarded (data : List α) (a m b : Nat) (pre xs ys post : List α)
    (hdata : data = pre ++ xs ++ ys ++ post) (ha : a = pre.length)
    (hm : m = pre.length + xs.length) (hb : b = pre.length + xs.length + ys.length)
    (hxs : IsSorted lt xs) (hys : IsSorted lt ys) :
    (if a < m ∧ m < b then symMerge lt data a m b else data) =
      pre ++ xs.merge ys (atMost lt) ++ post := by
  obtain ⟨size, hsize⟩ : ∃ size, xs.length + ys.length = size := ⟨_, rfl⟩
  induction size using Nat.strong_induction_on generalizing data a m b pre xs ys post with
  | _ size ih =>
  split_ifs with guard
  swap
  · rcases (show xs.length = 0 ∨ ys.length = 0 by omega) with empty | empty <;>
      simp [List.eq_nil_of_length_eq_zero empty, hdata]
  by_cases single_x : xs.length = 1
  · obtain ⟨x, rfl⟩ := List.length_eq_one.mp single_x
    exact symMerge_single_left data a m b pre ys post x hdata ha (by simp [hm])
      (by simp [hb]) hys
  by_cases single_y : ys.length = 1
  · obtain ⟨y, rfl⟩ := List.length_eq_one.mp single_y
    exact symMerge_single_right data a m b pre xs post y hdata ha hm (by simp [hb]) single_x hxs
  obtain ⟨low, high, cut_mid, cut_b, before, after⟩ :=
    symMergeCut_spec data a m b pre xs ys post hdata ha hm hb hxs hys rfl
  rw [symMerge, if_neg (by omega), if_neg (by omega)]
  dsimp only
  set start := symMergeCut lt data a m b
  set mid := (a + b) / 2
  rw [rotate_blocks data start m _ (pre ++ xs.take (start - a)) (xs.drop (start - a))
      (ys.take (mid - start)) (ys.drop (mid - start) ++ post) (by simp [hdata]) (by simp; omega)
      (by simp; omega) (by simp; omega),
    ih ((xs.take (start - a)).length + (ys.take (mid - start)).length) (by simp; omega)
      (pre ++ xs.take (start - a) ++ ys.take (mid - start) ++ xs.drop (start - a) ++
        (ys.drop (mid - start) ++ post)) a start mid pre (xs.take (start - a)) (ys.take (mid - start))
      (xs.drop (start - a) ++ ys.drop (mid - start) ++ post) (by simp) ha (by simp; omega)
      (by simp; omega) (hxs.sublist (List.take_sublist _ _)) (hys.sublist (List.take_sublist _ _))
      rfl,
    ih ((xs.drop (start - a)).length + (ys.drop (mid - start)).length) (by simp; omega) _ mid _ b
      (pre ++ (xs.take (start - a)).merge (ys.take (mid - start)) (atMost lt))
      (xs.drop (start - a)) (ys.drop (mid - start)) post (by simp) (by simp; omega)
      (by simp; omega) (by simp; omega) (hxs.sublist (List.drop_sublist _ _))
      (hys.sublist (List.drop_sublist _ _)) rfl,
    ← List.take_append_drop (start - a) xs, ← List.take_append_drop (mid - start) ys,
    merge_append_append before after]
  simp

/-- `symMerge_func` computes the stable merge of two nonempty sorted runs. -/
theorem symMerge_merges (data : List α) (a m b : Nat) (pre xs ys post : List α)
    (hdata : data = pre ++ xs ++ ys ++ post) (ha : a = pre.length)
    (hm : m = pre.length + xs.length) (hb : b = pre.length + xs.length + ys.length)
    (hxs : IsSorted lt xs) (hys : IsSorted lt ys) (xs_ne : xs ≠ []) (ys_ne : ys ≠ []) :
    symMerge lt data a m b = pre ++ xs.merge ys (atMost lt) ++ post := by
  have nonempty := List.length_pos.mpr xs_ne
  have := List.length_pos.mpr ys_ne
  rw [← symMerge_guarded data a m b pre xs ys post hdata ha hm hb hxs hys, if_pos (by omega)]

end GoSort
end NginxGateway
