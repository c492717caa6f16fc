import Mathlib.Order.Lattice
import Mathlib.Data.List.Perm.Basic
import Mathlib.Data.List.Count
import Mathlib.Data.List.GetD

/-!
# Stable sorting under a strict weak order

Go's `sort.SliceStable` asks of its `less` function what Mathlib calls `IsStrictWeakOrder`. This
file states what a stable sort under such a comparator returns and proves that the answer is
unique: a sorted list that lists every class of tied elements in input order is determined by its
input. The reference sort is the standard library's `List.mergeSort`.
-/

namespace NginxGateway

variable {α : Type*} (lt : α → α → Bool)

/-- `a` may stay before `b`: `b` is not less than `a`. -/
def atMost (a b : α) : Bool := !lt b a

/-- Neither element is less than the other. -/
def Tied (a b : α) : Bool := !lt a b && !lt b a

/-- No later element of the list is less than an earlier one. -/
def IsSorted (l : List α) : Prop := l.Pairwise fun p q => lt q p = false

/-- For every element, `output` lists the elements tied with it in the order of `input`. -/
def KeepsTies (input output : List α) : Prop :=
  ∀ x, output.filter (Tied lt x) = input.filter (Tied lt x)

/-- `output` is a stable sort of `input`. -/
structure IsStableSort (input output : List α) : Prop where
  /-- No element is lost or duplicated. -/
  perm : output.Perm input
  /-- No later element is less than an earlier one. -/
  sorted : IsSorted lt output
  /-- Tied elements keep their input order. -/
  keepsTies : KeepsTies lt input output

/-- The reference stable sort: the standard library's merge sort. -/
def stableSort (l : List α) : List α := l.mergeSort (atMost lt)

/-- The list with each block of `size` elements stably sorted. -/
def sortChunks (size : Nat) (l : List α) : List α :=
  if 0 < size ∧ size < l.length then stableSort lt (l.take size) ++ sortChunks size (l.drop size)
  else stableSort lt l
termination_by l.length

variable {lt}

@[simp]
theorem atMost_eq_true {a b : α} : atMost lt a b = true ↔ lt b a = false := by
  simp [atMost]

@[simp]
theorem tied_eq_true {a b : α} : Tied lt a b = true ↔ lt a b = false ∧ lt b a = false := by
  simp [Tied]

theorem tied_comm (a b : α) : Tied lt a b = Tied lt b a := by
  simp [Tied, Bool.and_comm]

/-- A comparator is a strict weak order once it is irreflexive and transitive and its ties are
transitive. -/
theorem isStrictWeakOrder_of_tied (irrefl : ∀ a, lt a a = false)
    (trans : ∀ a b c, lt a b → lt b c → lt a c)
    (tied : ∀ a b c, Tied lt a b → Tied lt b c → Tied lt a c) :
    IsStrictWeakOrder α fun a b => lt a b where
  irrefl a := by simp [irrefl a]
  trans := trans
  incomp_trans a b c hab hbc := by
    simpa using tied a b c (by simpa using hab) (by simpa using hbc)

/-- The strict order of a linear order, as a comparator. -/
theorem isStrictWeakOrder_decide_lt {β : Type*} [LinearOrder β] :
    IsStrictWeakOrder β fun a b => decide (a < b) :=
  isStrictWeakOrder_of_tied (fun a => by simp) (fun a b c hab hbc => by
    simp only [decide_eq_true_eq] at *
    exact hab.trans hbc)
    (fun a b c hab hbc => by
      simp only [tied_eq_true, decide_eq_false_iff_not, not_lt] at *
      exact ⟨hbc.1.trans hab.1, hab.2.trans hbc.2⟩)

theorem isSorted_cons {a : α} {l : List α} :
    IsSorted lt (a :: l) ↔ (∀ b ∈ l, lt b a = false) ∧ IsSorted lt l :=
  List.pairwise_cons

theorem isSorted_append {l₁ l₂ : List α} :
    IsSorted lt (l₁ ++ l₂) ↔
      IsSorted lt l₁ ∧ IsSorted lt l₂ ∧ ∀ a ∈ l₁, ∀ b ∈ l₂, lt b a = false :=
  List.pairwise_append

theorem IsSorted.sublist {l₁ l₂ : List α} (sub : l₁.Sublist l₂) (sorted : IsSorted lt l₂) :
    IsSorted lt l₁ :=
  List.Pairwise.sublist sub sorted

theorem KeepsTies.refl (l : List α) : KeepsTies lt l l := fun _ => rfl

theorem KeepsTies.trans {l₁ l₂ l₃ : List α} (h₁₂ : KeepsTies lt l₁ l₂)
    (h₂₃ : KeepsTies lt l₂ l₃) : KeepsTies lt l₁ l₃ :=
  fun x => (h₂₃ x).trans (h₁₂ x)

theorem KeepsTies.append {l₁ l₂ s₁ s₂ : List α} (h₁ : KeepsTies lt l₁ s₁)
    (h₂ : KeepsTies lt l₂ s₂) : KeepsTies lt (l₁ ++ l₂) (s₁ ++ s₂) := by
  intro x
  simp only [List.filter_append, h₁ x, h₂ x]

theorem sortChunks_of_length_le {size : Nat} {l : List α} (short : l.length ≤ size) :
    sortChunks lt size l = stableSort lt l := by
  rw [sortChunks, if_neg (by omega)]

@[simp]
theorem length_stableSort (l : List α) : (stableSort lt l).length = l.length :=
  List.length_mergeSort l

@[simp]
theorem length_sortChunks (size : Nat) (l : List α) :
    (sortChunks lt size l).length = l.length := by
  induction l using sortChunks.induct lt size with
  | case1 l more ih =>
      rw [sortChunks, if_pos more, List.length_append, ih, length_stableSort, List.length_take,
        List.length_drop]
      omega
  | case2 l short => rw [sortChunks, if_neg short, length_stableSort]

theorem isSorted_of_pairwise_atMost {l : List α}
    (h : l.Pairwise fun a b => atMost lt a b = true) : IsSorted lt l :=
  h.imp atMost_eq_true.mp

theorem IsSorted.pairwise_atMost {l : List α} (h : IsSorted lt l) :
    l.Pairwise fun a b => atMost lt a b = true :=
  List.Pairwise.imp atMost_eq_true.mpr h

@[simp]
theorem take_append_drop_append (n : Nat) (l rest : List α) :
    l.take n ++ (l.drop n ++ rest) = l ++ rest := by
  rw [← List.append_assoc, List.take_append_drop]

theorem forall_mem_take {l : List α} {n : Nat} {P : α → Prop}
    (h : ∀ k (hk : k < l.length), k < n → P l[k]) : ∀ y ∈ l.take n, P y := by
  intro y hy
  obtain ⟨i, hi, rfl⟩ := List.mem_iff_getElem.mp hy
  simp only [List.length_take] at hi
  simpa using h i (by omega) (by omega)

theorem forall_mem_drop {l : List α} {n : Nat} {P : α → Prop}
    (h : ∀ k (hk : k < l.length), n ≤ k → P l[k]) : ∀ y ∈ l.drop n, P y := by
  intro y hy
  obtain ⟨i, hi, rfl⟩ := List.mem_iff_getElem.mp hy
  simp only [List.length_drop] at hi
  simpa using h (n + i) (by omega) (by omega)

section StrictWeakOrder

variable [IsStrictWeakOrder α fun a b => lt a b]

@[simp]
theorem less_irrefl (a : α) : lt a a = false := by
  simpa using irrefl (r := fun a b => lt a b = true) a

theorem less_trans {a b c : α} (hab : lt a b) (hbc : lt b c) : lt a c :=
  IsTrans.trans (r := fun a b => lt a b = true) a b c hab hbc

theorem less_asymm {a b : α} (hab : lt a b) : lt b a = false := by
  cases hba : lt b a
  · rfl
  · simpa using less_trans hab hba

/-- Go's documented requirement on `less`: if `a < b` and `b < c` both fail, so does `a < c`. -/
theorem less_false_trans {a b c : α} (hab : lt a b = false) (hbc : lt b c = false) :
    lt a c = false := by
  cases hac : lt a c
  · rfl
  have hba : lt b a = false := by
    cases hba : lt b a
    · rfl
    · simpa [hbc] using less_trans hba hac
  have hcb : lt c b = false := by
    cases hcb : lt c b
    · rfl
    · simpa [hab] using less_trans hac hcb
  have incomparable := @IsStrictWeakOrder.incomp_trans α (fun a b => lt a b = true) _ a b c
    ⟨by simp [hab], by simp [hba]⟩ ⟨by simp [hbc], by simp [hcb]⟩
  simpa [hac] using incomparable.1

/-- A strict inequality separates every third element from one of its ends. -/
theorem less_or_less_of_less {a c : α} (hac : lt a c) (b : α) : lt a b ∨ lt b c := by
  cases hab : lt a b
  · cases hbc : lt b c
    · simp [less_false_trans hab hbc] at hac
    · exact .inr rfl
  · exact .inl rfl

@[simp]
theorem tied_self (a : α) : Tied lt a a = true := by simp

theorem tied_trans {a b c : α} (hab : Tied lt a b) (hbc : Tied lt b c) : Tied lt a c := by
  simp only [tied_eq_true] at *
  exact ⟨less_false_trans hab.1 hbc.1, less_false_trans hbc.2 hab.2⟩

theorem atMost_trans (a b c : α) (hab : atMost lt a b) (hbc : atMost lt b c) :
    atMost lt a c := by
  simp only [atMost_eq_true] at *
  exact less_false_trans hbc hab

theorem atMost_total (a b : α) : (atMost lt a b || atMost lt b a) = true := by
  cases hba : lt b a <;> simp [atMost, hba, less_asymm]

/-- In a sorted list nothing is less than the head. -/
theorem IsSorted.lt_head_eq_false {a x : α} {l : List α} (sorted : IsSorted lt (a :: l))
    (mem : x ∈ a :: l) : lt x a = false := by
  rcases List.mem_cons.mp mem with rfl | mem
  · exact less_irrefl x
  · exact (isSorted_cons.mp sorted).1 x mem

/-- In a sorted list no element is less than one at an earlier or the same position. -/
theorem IsSorted.getElem_lt_eq_false {l : List α} (sorted : IsSorted lt l) {i j : Nat}
    (hij : i ≤ j) (hj : j < l.length) : lt l[j] l[i] = false := by
  rcases Nat.eq_or_lt_of_le hij with rfl | hij
  · exact less_irrefl _
  · exact List.pairwise_iff_getElem.mp sorted i j (by omega) hj hij

theorem IsSorted.getD_lt_eq_false {l : List α} (sorted : IsSorted lt l) {i j : Nat}
    (hij : i ≤ j) (hj : j < l.length) (d : α) : lt (l.getD j d) (l.getD i d) = false := by
  rw [List.getD_eq_getElem _ _ hj, List.getD_eq_getElem _ _ (by omega)]
  exact sorted.getElem_lt_eq_false hij hj

/-- Keeping ties loses and duplicates nothing: each element is tied with itself. -/
theorem KeepsTies.perm {input output : List α} (keeps : KeepsTies lt input output) :
    output.Perm input := by
  classical
  refine List.perm_iff_count.mpr fun x => ?_
  rw [← List.count_filter (@tied_self α lt _ x), keeps x, List.count_filter (tied_self x)]

/-- Two sorted lists that list every class of tied elements alike are equal. -/
theorem eq_of_isSorted_of_keepsTies {s t : List α} (hs : IsSorted lt s) (ht : IsSorted lt t)
    (keeps : KeepsTies lt s t) : s = t := by
  induction s generalizing t with
  | nil =>
      cases t with
      | nil => rfl
      | cons b t => simpa using keeps b
  | cons a s ih =>
      cases t with
      | nil => simpa using keeps a
      | cons b t =>
          have a_mem : a ∈ b :: t := List.mem_of_mem_filter (p := Tied lt a) (by simp [keeps a])
          have b_mem : b ∈ a :: s :=
            List.mem_of_mem_filter (p := Tied lt b) (by simp [← keeps b])
          have tied : Tied lt a b := tied_eq_true.mpr
            ⟨ht.lt_head_eq_false a_mem, hs.lt_head_eq_false b_mem⟩
          have head : b = a ∧ t.filter (Tied lt a) = s.filter (Tied lt a) := by
            simpa [List.filter_cons, tied, tied_comm a b] using keeps a
          obtain ⟨rfl, -⟩ := head
          refine congrArg _ (ih (isSorted_cons.mp hs).2 (isSorted_cons.mp ht).2 fun x => ?_)
          by_cases tx : Tied lt x b <;> simpa [List.filter_cons, tx] using keeps x

/-- Stable sorting has one answer. -/
theorem IsStableSort.unique {input s t : List α} (hs : IsStableSort lt input s)
    (ht : IsStableSort lt input t) : s = t :=
  eq_of_isSorted_of_keepsTies hs.sorted ht.sorted fun x =>
    (ht.keepsTies x).trans (hs.keepsTies x).symm

/-- A sorted list that keeps the ties of its input is a stable sort of it. -/
theorem isStableSort_of_keepsTies {input output : List α} (sorted : IsSorted lt output)
    (keeps : KeepsTies lt input output) : IsStableSort lt input output :=
  ⟨keeps.perm, sorted, keeps⟩

theorem isStableSort_stableSort (l : List α) : IsStableSort lt l (stableSort lt l) := by
  refine isStableSort_of_keepsTies
    (isSorted_of_pairwise_atMost (List.sorted_mergeSort atMost_trans atMost_total l)) fun x => ?_
  have sub : (l.filter (Tied lt x)).Sublist (stableSort lt l) := by
    refine List.sublist_mergeSort atMost_trans atMost_total ?_ (List.filter_sublist l)
    refine List.Pairwise.imp_of_mem ?_ (List.pairwise_of_forall fun _ _ => trivial)
    intro p q hp hq _
    have tied := tied_trans ((tied_comm x p).symm.trans (List.of_mem_filter hp)) (List.of_mem_filter hq)
    exact atMost_eq_true.mpr (tied_eq_true.mp tied).2
  have filtered := sub.filter (Tied lt x)
  rw [List.filter_filter, List.filter_congr (fun y _ => Bool.and_self _)] at filtered
  exact (filtered.eq_of_length
    (((List.mergeSort_perm l _).filter (Tied lt x)).length_eq.symm)).symm

/-- Every stable sort is the reference one. -/
theorem IsStableSort.eq_stableSort {input output : List α} (h : IsStableSort lt input output) :
    output = stableSort lt input :=
  h.unique (isStableSort_stableSort input)

theorem stableSort_eq_self {l : List α} (sorted : IsSorted lt l) : stableSort lt l = l :=
  ((isStableSort_of_keepsTies sorted (KeepsTies.refl l)).eq_stableSort).symm

@[simp]
theorem stableSort_nil : stableSort lt ([] : List α) = [] := stableSort_eq_self List.Pairwise.nil

@[simp]
theorem stableSort_singleton (x : α) : stableSort lt [x] = [x] :=
  stableSort_eq_self (List.pairwise_singleton _ x)

theorem isSorted_stableSort (l : List α) : IsSorted lt (stableSort lt l) :=
  (isStableSort_stableSort l).sorted

@[simp]
theorem mem_stableSort {x : α} {l : List α} : x ∈ stableSort lt l ↔ x ∈ l :=
  (isStableSort_stableSort l).perm.mem_iff

/-- The stable sort depends on its input only through the order of each class of ties. -/
theorem stableSort_eq_of_keepsTies {l₁ l₂ : List α} (keeps : KeepsTies lt l₁ l₂) :
    stableSort lt l₂ = stableSort lt l₁ :=
  (isStableSort_of_keepsTies (isSorted_stableSort l₂)
    (keeps.trans (isStableSort_stableSort l₂).keepsTies)).eq_stableSort

/-- Exchanging two neighbours that are not tied keeps every class of ties in order. -/
theorem keepsTies_swap {x y : α} (untied : Tied lt x y = false) (l₁ l₂ : List α) :
    KeepsTies lt (l₁ ++ x :: y :: l₂) (l₁ ++ y :: x :: l₂) := by
  intro z
  by_cases zx : Tied lt z x
  · have zy : Tied lt z y = false := by
      cases zy : Tied lt z y
      · rfl
      · simpa [untied] using tied_trans (by rwa [tied_comm] : Tied lt x z) zy
    simp [List.filter_cons, zx, zy]
  · simp [List.filter_cons, zx]

/-- An element that nothing precedes can be sorted last. -/
theorem stableSort_append_singleton {l : List α} {y : α} (last : ∀ z ∈ l, lt y z = false) :
    stableSort lt (l ++ [y]) = stableSort lt l ++ [y] :=
  (isStableSort_of_keepsTies
    (isSorted_append.mpr ⟨isSorted_stableSort l, List.pairwise_singleton _ y,
      fun z hz w hw => by simp_all⟩)
    ((isStableSort_stableSort l).keepsTies.append (KeepsTies.refl [y]))).eq_stableSort.symm

/-- A full block at the front is sorted on its own. -/
theorem sortChunks_append {size : Nat} (pos : 0 < size) {block rest : List α}
    (full : block.length = size) :
    sortChunks lt size (block ++ rest) = stableSort lt block ++ sortChunks lt size rest := by
  by_cases more : size < (block ++ rest).length
  · rw [sortChunks, if_pos ⟨pos, more⟩, List.take_left' full, List.drop_left' full]
  · obtain rfl : rest = [] := List.eq_nil_of_length_eq_zero (by simp at more; omega)
    simp [sortChunks_of_length_le (le_of_eq full), sortChunks_of_length_le]

/-- Selecting elements and sorting stably can be done in either order. -/
theorem stableSort_filter (p : α → Bool) (l : List α) :
    (stableSort lt l).filter p = stableSort lt (l.filter p) :=
  (isStableSort_of_keepsTies ((isSorted_stableSort l).sublist (List.filter_sublist _)) fun x =>
    calc ((stableSort lt l).filter p).filter (Tied lt x)
        = ((stableSort lt l).filter (Tied lt x)).filter p := by
          simp only [List.filter_filter, Bool.and_comm]
      _ = (l.filter (Tied lt x)).filter p := by rw [(isStableSort_stableSort l).keepsTies x]
      _ = (l.filter p).filter (Tied lt x) := by
          simp only [List.filter_filter, Bool.and_comm]).eq_stableSort

/-- A sorted list starts with `x` exactly when its first element tied with `x` is `x` and nothing
in it is less than `x`. -/
theorem IsSorted.head?_eq_some_iff {l : List α} (sorted : IsSorted lt l) {x : α} (mem : x ∈ l) :
    l.head? = some x ↔ (l.filter (Tied lt x)).head? = some x ∧ ∀ y ∈ l, lt y x = false := by
  obtain _ | ⟨s, t⟩ := l
  · simp at mem
  constructor
  · rintro ⟨⟩
    exact ⟨by simp [List.filter_cons], fun y => sorted.lt_head_eq_false⟩
  · rintro ⟨first, least⟩
    have tied : Tied lt x s = true :=
      tied_eq_true.mpr ⟨sorted.lt_head_eq_false mem, least s (List.mem_cons_self s t)⟩
    simpa [List.filter_cons, tied] using first

/-- In `before ++ x :: after`, with `x` not in `before`, the first element tied with `x` is `x`
exactly when nothing before it is tied with it. -/
theorem head?_filter_tied_eq_some_iff {before after : List α} {x : α} (fresh : x ∉ before) :
    ((before ++ x :: after).filter (Tied lt x)).head? = some x ↔
      ∀ y ∈ before, Tied lt x y = false := by
  cases untied : before.filter (Tied lt x) with
  | nil =>
      rw [List.filter_append, untied, List.nil_append, List.filter_cons_of_pos (tied_self x),
        List.head?_cons]
      exact iff_of_true rfl (by simpa only [List.filter_eq_nil_iff, Bool.not_eq_true] using untied)
  | cons b bs =>
      have b_mem : b ∈ before.filter (Tied lt x) := untied ▸ List.mem_cons_self b bs
      have b_ne : b ≠ x := fun same => fresh (same ▸ List.mem_of_mem_filter b_mem)
      simp only [List.filter_append, untied, List.cons_append, List.head?_cons, Option.some.injEq]
      exact ⟨fun same => absurd same b_ne, fun none => by
        simp [none b (List.mem_of_mem_filter b_mem)] at b_mem⟩

/-- The stable sort of `before ++ x :: after`, with `x` not in `before`, starts with `x` exactly
when `x` is less than everything before it and nothing after it is less than `x`. -/
theorem head?_stableSort_eq_some_iff {before after : List α} {x : α} (fresh : x ∉ before) :
    (stableSort lt (before ++ x :: after)).head? = some x ↔
      (∀ y ∈ before, lt x y = true) ∧ ∀ y ∈ after, lt y x = false := by
  have sort : IsStableSort lt (before ++ x :: after) (stableSort lt (before ++ x :: after)) :=
    isStableSort_stableSort _
  rw [(isSorted_stableSort _).head?_eq_some_iff (sort.perm.mem_iff.mpr (by simp)),
    sort.keepsTies x, head?_filter_tied_eq_some_iff fresh]
  simp only [sort.perm.mem_iff, List.mem_append, List.mem_cons]
  constructor
  · rintro ⟨untied, least⟩
    refine ⟨fun y mem => ?_, fun y mem => least y (.inr (.inr mem))⟩
    by_contra notLess
    have tied := tied_eq_true.mpr ⟨Bool.eq_false_iff.mpr notLess, least y (.inl mem)⟩
    simp [untied y mem] at tied
  · rintro ⟨less, least⟩
    refine ⟨fun y mem => by simp [Tied, less y mem], fun y mem => ?_⟩
    rcases mem with mem | rfl | mem
    exacts [less_asymm (less y mem), less_irrefl y, least y mem]

end StrictWeakOrder

end NginxGateway
