import NginxGateway.Dataplane.MatchRule
import NginxGateway.GoSort.Stable

/-!
# Sorting match rules

`sortMatchRules` sorts the match rules of a route rule in place with `sort.SliceStable` and
`higherPriority`. Since `sort.SliceStable` is the stable sort for every strict weak order, the
result is the one sorted rearrangement of the input that keeps tied rules in input order. When the
route order separates distinct routes, only rules of one route can be tied, so the result depends
on the order of each route's rules in the input and not on how the routes were interleaved.
-/

namespace NginxGateway
namespace Dataplane

variable (lessObjectMeta : ObjectMeta → ObjectMeta → Bool)

/-- `sortMatchRules(matchRules)`: Go sorts the slice in place; the model returns it. -/
def sortMatchRules (matchRules : List MatchRule) : List MatchRule :=
  GoSort.sliceStable (higherPriority lessObjectMeta) matchRules

/-- For every route order, even one that is not a strict weak order, `sortMatchRules` neither loses
nor duplicates a rule. -/
theorem sortMatchRules_perm (matchRules : List MatchRule) :
    (sortMatchRules lessObjectMeta matchRules).Perm matchRules :=
  GoSort.sliceStable_perm matchRules

section StrictWeakOrder

variable [IsStrictWeakOrder ObjectMeta fun a b => lessObjectMeta a b]

theorem sortMatchRules_eq_stableSort (matchRules : List MatchRule) :
    sortMatchRules lessObjectMeta matchRules = stableSort (higherPriority lessObjectMeta) matchRules :=
  GoSort.stable_eq_stableSort matchRules

/-- `sortMatchRules` is a stable sort under `higherPriority`, and it is the standard library's
merge sort with `higherPriority` as the comparator. -/
theorem sortMatchRules_isStableSort (matchRules : List MatchRule) :
    IsStableSort (higherPriority lessObjectMeta) matchRules
        (sortMatchRules lessObjectMeta matchRules) ∧
      sortMatchRules lessObjectMeta matchRules =
        matchRules.mergeSort fun rule1 rule2 => !higherPriority lessObjectMeta rule2 rule1 := by
  rw [sortMatchRules_eq_stableSort]
  exact ⟨isStableSort_stableSort matchRules, rfl⟩

theorem sortMatchRules_isStableSort_creationOrder :
    let matchRules : List MatchRule :=
      [⟨⟨[], [], none⟩, ⟨"default", "tea", 1⟩, 0, 0⟩, ⟨⟨[], [], some "GET"⟩, ⟨"default", "coffee", 2⟩, 0, 0⟩]
    IsStrictWeakOrder ObjectMeta (fun a b => creationOrder a b) ∧
      IsStableSort (higherPriority creationOrder) matchRules
        (sortMatchRules creationOrder matchRules) ∧
      sortMatchRules creationOrder matchRules =
        matchRules.mergeSort fun rule1 rule2 => !higherPriority creationOrder rule2 rule1 :=
  ⟨inferInstance, sortMatchRules_isStableSort creationOrder _⟩

/-- Along the sorted rules the priority key never increases: a rule with a method match comes
before every rule without one, and among rules that agree on it the header count and then the
query-parameter count never increase. -/
theorem sortMatchRules_priorityKey_antitone (matchRules : List MatchRule) :
    (sortMatchRules lessObjectMeta matchRules).Pairwise
      fun earlier later => priorityKey later ≤ priorityKey earlier := by
  rw [sortMatchRules_eq_stableSort]
  exact (isSorted_stableSort matchRules).imp (priorityKey_le_of_higherPriority_eq_false lessObjectMeta)

theorem sortMatchRules_priorityKey_antitone_creationOrder :
    IsStrictWeakOrder ObjectMeta (fun a b => creationOrder a b) ∧
      (sortMatchRules creationOrder
          [⟨⟨[], [], none⟩, ⟨"default", "tea", 1⟩, 0, 0⟩, ⟨⟨[], [], some "GET"⟩, ⟨"default", "coffee", 2⟩, 0, 0⟩]).Pairwise
        fun earlier later => priorityKey later ≤ priorityKey earlier :=
  ⟨inferInstance, sortMatchRules_priorityKey_antitone creationOrder _⟩

/-- Sorting sorted rules again changes nothing. -/
theorem sortMatchRules_sortMatchRules (matchRules : List MatchRule) :
    sortMatchRules lessObjectMeta (sortMatchRules lessObjectMeta matchRules) =
      sortMatchRules lessObjectMeta matchRules := by
  rw [sortMatchRules_eq_stableSort, sortMatchRules_eq_stableSort]
  exact stableSort_eq_self (isSorted_stableSort matchRules)

theorem sortMatchRules_sortMatchRules_creationOrder :
    IsStrictWeakOrder ObjectMeta (fun a b => creationOrder a b) ∧
      let matchRules : List MatchRule :=
        [⟨⟨[], [], none⟩, ⟨"default", "tea", 1⟩, 0, 0⟩, ⟨⟨[], [], some "GET"⟩, ⟨"default", "coffee", 2⟩, 0, 0⟩]
      sortMatchRules creationOrder (sortMatchRules creationOrder matchRules) =
        sortMatchRules creationOrder matchRules :=
  ⟨inferInstance, sortMatchRules_sortMatchRules creationOrder _⟩

/-- Choosing some of the rules, those of one route or those with a method match, commutes with
sorting: the chosen rules come out of the sort in the order the sort gives them alone. -/
theorem sortMatchRules_filter (p : MatchRule → Bool) (matchRules : List MatchRule) :
    (sortMatchRules lessObjectMeta matchRules).filter p =
      sortMatchRules lessObjectMeta (matchRules.filter p) := by
  rw [sortMatchRules_eq_stableSort, sortMatchRules_eq_stableSort]
  exact stableSort_filter p matchRules

theorem sortMatchRules_filter_creationOrder :
    IsStrictWeakOrder ObjectMeta (fun a b => creationOrder a b) ∧
      let matchRules : List MatchRule :=
        [⟨⟨[], [], none⟩, ⟨"default", "tea", 1⟩, 0, 0⟩, ⟨⟨[], [], some "GET"⟩, ⟨"default", "coffee", 2⟩, 0, 0⟩]
      (sortMatchRules creationOrder matchRules).filter (fun rule => rule.getMatch.method.isSome) =
        sortMatchRules creationOrder (matchRules.filter fun rule => rule.getMatch.method.isSome) :=
  ⟨inferInstance, sortMatchRules_filter creationOrder _ _⟩

/-- The rule NGINX tries first. Write the rules as `before ++ first :: after`, at the first place
`first` occurs. The sorted rules start with `first` exactly when `first` has a higher priority than
every rule before it, and no rule after it has a higher priority than `first`. -/
theorem head?_sortMatchRules_eq_some_iff {before after : List MatchRule} {first : MatchRule}
    (fresh : first ∉ before) :
    (sortMatchRules lessObjectMeta (before ++ first :: after)).head? = some first ↔
      (∀ rule ∈ before, higherPriority lessObjectMeta first rule = true) ∧
        ∀ rule ∈ after, higherPriority lessObjectMeta rule first = false := by
  rw [sortMatchRules_eq_stableSort]
  exact head?_stableSort_eq_some_iff fresh

theorem head?_sortMatchRules_eq_some_iff_creationOrder :
    let tea : MatchRule := ⟨⟨[], [], none⟩, ⟨"default", "tea", 1⟩, 0, 0⟩
    let coffee : MatchRule := ⟨⟨[], [], some "GET"⟩, ⟨"default", "coffee", 2⟩, 0, 0⟩
    IsStrictWeakOrder ObjectMeta (fun a b => creationOrder a b) ∧ coffee ∉ [tea] ∧
      ((sortMatchRules creationOrder ([tea] ++ coffee :: [])).head? = some coffee ↔
        (∀ rule ∈ [tea], higherPriority creationOrder coffee rule = true) ∧
          ∀ rule ∈ ([] : List MatchRule), higherPriority creationOrder rule coffee = false) :=
  have fresh : (⟨⟨[], [], some "GET"⟩, ⟨"default", "coffee", 2⟩, 0, 0⟩ : MatchRule) ∉
      [⟨⟨[], [], none⟩, ⟨"default", "tea", 1⟩, 0, 0⟩] := by decide
  ⟨inferInstance, fresh, head?_sortMatchRules_eq_some_iff creationOrder fresh⟩

end StrictWeakOrder

/-! ## Routes interleaved in any order -/

variable {lessObjectMeta}

section Total

variable (total : ∀ meta1 meta2 : ObjectMeta,
  (meta1.creationTimestamp, meta1.«namespace», meta1.name) ≠
    (meta2.creationTimestamp, meta2.«namespace», meta2.name) →
  lessObjectMeta meta1 meta2 ∨ lessObjectMeta meta2 meta1)
include total

/-- When the route order separates distinct metadata, rules that `higherPriority` ties come from
one route. -/
theorem route_eq_of_tied {rule1 rule2 : MatchRule}
    (tied : Tied (higherPriority lessObjectMeta) rule1 rule2) :
    objectKeyFromObject rule1.source = objectKeyFromObject rule2.source := by
  obtain ⟨-, -, -, routes⟩ := (tied_higherPriority lessObjectMeta).mp tied
  rw [tied_eq_true] at routes
  by_cases same : (rule1.source.creationTimestamp, rule1.source.«namespace», rule1.source.name) =
      (rule2.source.creationTimestamp, rule2.source.«namespace», rule2.source.name)
  · simp only [Prod.mk.injEq] at same
    simp [objectKeyFromObject, same]
  · rcases total _ _ same with h | h <;> simp [h] at routes

/-- The rules tied with `x` are found among the rules of its route. -/
theorem filter_tied_eq_filter_route (rules : List MatchRule) (x : MatchRule) :
    rules.filter (Tied (higherPriority lessObjectMeta) x) =
      (rules.filter fun rule => objectKeyFromObject rule.source = objectKeyFromObject x.source).filter
        (Tied (higherPriority lessObjectMeta) x) := by
  rw [List.filter_filter]
  refine List.filter_congr fun rule _ => ?_
  cases tied : Tied (higherPriority lessObjectMeta) x rule
  · simp
  · simp [route_eq_of_tied total tied]

/-- When the route order separates distinct metadata, the sorted rules depend only on the order of
each route's rules in the input, not on how the routes are interleaved. -/
theorem sortMatchRules_eq_of_routes_agree [IsStrictWeakOrder ObjectMeta fun a b => lessObjectMeta a b]
    {L1 L2 : List MatchRule}
    (sameOrder : ∀ route : NamespacedName,
      L1.filter (fun rule => objectKeyFromObject rule.source = route) =
        L2.filter (fun rule => objectKeyFromObject rule.source = route)) :
    sortMatchRules lessObjectMeta L1 = sortMatchRules lessObjectMeta L2 := by
  rw [sortMatchRules_eq_stableSort, sortMatchRules_eq_stableSort]
  refine (stableSort_eq_of_keepsTies fun x => ?_).symm
  rw [filter_tied_eq_filter_route total, filter_tied_eq_filter_route total L1, sameOrder]

end Total

theorem sortMatchRules_eq_of_routes_agree_creationOrder :
    let tea : MatchRule := ⟨⟨[], [], none⟩, ⟨"default", "tea", 1⟩, 0, 0⟩
    let teaV2 : MatchRule := ⟨⟨[⟨"version", "v2"⟩], [], none⟩, ⟨"default", "tea", 1⟩, 0, 1⟩
    let coffee : MatchRule := ⟨⟨[], [], none⟩, ⟨"default", "coffee", 2⟩, 0, 0⟩
    (∀ meta1 meta2 : ObjectMeta,
      (meta1.creationTimestamp, meta1.«namespace», meta1.name) ≠
        (meta2.creationTimestamp, meta2.«namespace», meta2.name) →
      creationOrder meta1 meta2 ∨ creationOrder meta2 meta1) ∧
    (∀ route : NamespacedName,
      [tea, coffee, teaV2].filter (fun rule => objectKeyFromObject rule.source = route) =
        [coffee, tea, teaV2].filter (fun rule => objectKeyFromObject rule.source = route)) ∧
    sortMatchRules creationOrder [tea, coffee, teaV2] =
      sortMatchRules creationOrder [coffee, tea, teaV2] := by
  intro tea teaV2 coffee
  have sameOrder : ∀ route : NamespacedName,
      [tea, coffee, teaV2].filter (fun rule => objectKeyFromObject rule.source = route) =
        [coffee, tea, teaV2].filter (fun rule => objectKeyFromObject rule.source = route) := by
    intro route
    by_cases hTea : objectKeyFromObject tea.source = route
    · subst hTea
      simp [tea, teaV2, coffee, objectKeyFromObject]
    by_cases hCoffee : objectKeyFromObject coffee.source = route
    · subst hCoffee
      simp [tea, teaV2, coffee, objectKeyFromObject]
    simp [List.filter_cons, hTea, hCoffee, show teaV2.source = tea.source from rfl]
  exact ⟨creationOrder_total, sameOrder,
    sortMatchRules_eq_of_routes_agree creationOrder_total sameOrder⟩

end Dataplane
end NginxGateway
