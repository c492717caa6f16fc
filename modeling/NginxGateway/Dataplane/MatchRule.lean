import NginxGateway.Api.Types
import NginxGateway.Order.StableSort
import Mathlib.Data.String.Basic
import Mathlib.Data.Prod.Lex

/-!
# Match rules and their priority

`higherPriority` decides which of two match rules NGINX tries first: the rule with a method
match, then the rule with more header matches, then the one with more query-parameter matches,
and on a tie the rule whose route `nkgsort.LessObjectMeta` puts first. It compares three counts,
each larger first, and then the routes, so it is a strict weak order whenever `LessObjectMeta` is
one (`isStrictWeakOrder_higherPriority`). That is what `sort.SliceStable` asks of its comparator.

The package `dataplane` and `LessObjectMeta` are not among the sources: `MatchRule` is modelled
from the spec, and the route order is a parameter of every definition that uses it.
-/

namespace NginxGateway

/-! ## Comparing by a key first -/

section ByKey

variable {α β : Type*}

/-- Larger `key` first; elements with equal keys are compared by `lt`. -/
def byKeyThen (key : α → Nat) (lt : α → α → Bool) (a b : α) : Bool :=
  decide (key b < key a) || (decide (key a = key b) && lt a b)

variable {key : α → Nat} {lt : α → α → Bool}

@[simp]
theorem byKeyThen_eq_true {a b : α} :
    byKeyThen key lt a b = true ↔ key b < key a ∨ key a = key b ∧ lt a b = true := by
  simp [byKeyThen]

/-- Two elements are tied by `byKeyThen` when their keys are equal and `lt` ties them. -/
theorem tied_byKeyThen {a b : α} :
    Tied (byKeyThen key lt) a b = true ↔ key a = key b ∧ Tied lt a b = true := by
  rcases Nat.lt_trichotomy (key a) (key b) with h | h | h
  · simp [Tied, byKeyThen, h, h.ne, Nat.lt_asymm h]
  · simp [Tied, byKeyThen, h]
  · simp [Tied, byKeyThen, h, h.ne', Nat.lt_asymm h]

/-- Comparing by a key first keeps a strict weak order one. -/
theorem isStrictWeakOrder_byKeyThen (key : α → Nat) (order : IsStrictWeakOrder α fun a b => lt a b) :
    IsStrictWeakOrder α fun a b => byKeyThen key lt a b :=
  isStrictWeakOrder_of_tied (fun a => by simp [byKeyThen])
    (fun a b c hab hbc => by
      simp only [byKeyThen_eq_true] at *
      rcases hab with hab | ⟨hab, ltab⟩ <;> rcases hbc with hbc | ⟨hbc, ltbc⟩
      exacts [.inl (by omega), .inl (by omega), .inl (by omega),
        .inr ⟨hab.trans hbc, less_trans ltab ltbc⟩])
    (fun a b c hab hbc => by
      rw [tied_byKeyThen] at *
      exact ⟨hab.1.trans hbc.1, tied_trans hab.2 hbc.2⟩)

/-- Comparing the images under a map keeps a strict weak order one. -/
theorem isStrictWeakOrder_comap {lt : β → β → Bool} (f : α → β)
    (order : IsStrictWeakOrder β fun a b => lt a b) :
    IsStrictWeakOrder α fun a b => lt (f a) (f b) :=
  isStrictWeakOrder_of_tied (fun a => less_irrefl (f a)) (fun _ _ _ => less_trans)
    (fun a b c => tied_trans (a := f a) (b := f b) (c := f c))

end ByKey

/-! ## An order on routes -/

/-- The key the spec orders routes by: the creation timestamp, then the namespace, then the name. -/
def creationKey (objectMeta : ObjectMeta) : Int ×ₗ String ×ₗ String :=
  toLex (objectMeta.creationTimestamp, toLex (objectMeta.«namespace», objectMeta.name))

/-- A route order of the kind the spec describes for `LessObjectMeta`: the older route first, and
among routes created at once the first by namespace and then by name. -/
def creationOrder (meta1 meta2 : ObjectMeta) : Bool := decide (creationKey meta1 < creationKey meta2)

instance isStrictWeakOrder_creationOrder : IsStrictWeakOrder ObjectMeta fun a b => creationOrder a b :=
  isStrictWeakOrder_comap creationKey isStrictWeakOrder_decide_lt

/-- `creationOrder` ties only equal metadata. -/
theorem eq_of_tied_creationOrder {meta1 meta2 : ObjectMeta} (tied : Tied creationOrder meta1 meta2) :
    meta1 = meta2 := by
  simp only [tied_eq_true, creationOrder, decide_eq_false_iff_not, not_lt] at tied
  have keys : creationKey meta1 = creationKey meta2 := le_antisymm tied.2 tied.1
  cases meta1
  cases meta2
  simp_all [creationKey]

/-- `creationOrder` puts one of any two metadata with distinct timestamp, namespace or name
first. -/
theorem creationOrder_total (meta1 meta2 : ObjectMeta)
    (distinct : (meta1.creationTimestamp, meta1.«namespace», meta1.name) ≠
      (meta2.creationTimestamp, meta2.«namespace», meta2.name)) :
    creationOrder meta1 meta2 ∨ creationOrder meta2 meta1 := by
  by_contra both
  simp only [not_or, Bool.not_eq_true] at both
  exact distinct (by rw [eq_of_tied_creationOrder (tied_eq_true.mpr both)])

/-! ## The priority of a match rule -/

namespace Dataplane

open V1beta1

/-- Modelled from the spec: a `MatchRule` pairs one match of a route rule with the metadata of
the route it came from and with where in that route the match stands, so that two equal matches
of one route are still two rules. -/
structure MatchRule where
  /-- The match, as `GetMatch()` returns it. -/
  routeMatch : HTTPRouteMatch
  /-- `Source.ObjectMeta`: the metadata of the route the match came from. -/
  source : ObjectMeta
  /-- `RuleIdx`: the index of the rule in the route's rules. -/
  ruleIdx : Nat
  /-- `MatchIdx`: the index of the match in the rule's matches. -/
  matchIdx : Nat
deriving DecidableEq, Repr, Inhabited

/-- `GetMatch()`. -/
def MatchRule.getMatch (rule : MatchRule) : HTTPRouteMatch := rule.routeMatch

/-- `higherPriority(rule1, rule2)`: whether `rule1` has a higher priority than `rule2`, for the
route order `lessObjectMeta` that stands for `nkgsort.LessObjectMeta`. -/
def higherPriority (lessObjectMeta : ObjectMeta → ObjectMeta → Bool) (rule1 rule2 : MatchRule) :
    Bool :=
  let match1 := rule1.getMatch
  let match2 := rule2.getMatch
  if match1.method.isSome && match2.method.isNone then true
  else if match2.method.isSome && match1.method.isNone then false
  else
    let l1 := match1.headers.length
    let l2 := match2.headers.length
    if l1 ≠ l2 then decide (l1 > l2)
    else
      let l1 := match1.queryParams.length
      let l2 := match2.queryParams.length
      if l1 ≠ l2 then decide (l1 > l2)
      else lessObjectMeta rule1.source rule2.source

/-- The first key of the priority: whether the rule matches a method. -/
def methodRank (rule : MatchRule) : Nat := if rule.getMatch.method.isSome then 1 else 0

/-- The key `higherPriority` compares before the routes: method presence, then the number of
header matches, then the number of query-parameter matches. -/
def priorityKey (rule : MatchRule) : Nat ×ₗ Nat ×ₗ Nat :=
  toLex (methodRank rule, toLex (rule.getMatch.headers.length, rule.getMatch.queryParams.length))

variable (lessObjectMeta : ObjectMeta → ObjectMeta → Bool)

/-- `higherPriority` compares the presence of a method match, the number of header matches and the
number of query-parameter matches, each larger first, and then the routes. -/
theorem higherPriority_eq_byKeyThen :
    higherPriority lessObjectMeta =
      byKeyThen methodRank (byKeyThen (fun rule => rule.getMatch.headers.length)
        (byKeyThen (fun rule => rule.getMatch.queryParams.length)
          fun rule1 rule2 => lessObjectMeta rule1.source rule2.source)) := by
  funext ⟨⟨headers1, queryParams1, method1⟩, source1, _, _⟩ ⟨⟨headers2, queryParams2, method2⟩, source2, _, _⟩
  simp only [higherPriority, byKeyThen, methodRank, MatchRule.getMatch]
  cases method1 <;> cases method2 <;> simp <;> split_ifs <;> simp_all

/-- A rule without higher priority than another has a key no larger. -/
theorem priorityKey_le_of_higherPriority_eq_false {rule1 rule2 : MatchRule}
    (notHigher : higherPriority lessObjectMeta rule1 rule2 = false) :
    priorityKey rule1 ≤ priorityKey rule2 := by
  simp only [higherPriority_eq_byKeyThen, byKeyThen, Bool.or_eq_false_iff, Bool.and_eq_false_imp,
    decide_eq_false_iff_not, decide_eq_true_eq, not_lt] at notHigher
  simp only [priorityKey, Prod.Lex.le_iff]
  omega

/-- For every route order that is a strict weak order, so is `higherPriority`. -/
instance isStrictWeakOrder_higherPriority [IsStrictWeakOrder ObjectMeta fun a b => lessObjectMeta a b] :
    IsStrictWeakOrder MatchRule fun a b => higherPriority lessObjectMeta a b := by
  rw [higherPriority_eq_byKeyThen]
  exact isStrictWeakOrder_byKeyThen _ <| isStrictWeakOrder_byKeyThen _ <|
    isStrictWeakOrder_byKeyThen _ <| isStrictWeakOrder_comap MatchRule.source inferInstance

/-- Two rules are tied exactly when they agree on method presence and on both counts and their
routes are tied. -/
theorem tied_higherPriority {rule1 rule2 : MatchRule} :
    Tied (higherPriority lessObjectMeta) rule1 rule2 = true ↔
      methodRank rule1 = methodRank rule2 ∧
      rule1.getMatch.headers.length = rule2.getMatch.headers.length ∧
      rule1.getMatch.queryParams.length = rule2.getMatch.queryParams.length ∧
      Tied lessObjectMeta rule1.source rule2.source = true := by
  rw [higherPriority_eq_byKeyThen, tied_byKeyThen, tied_byKeyThen, tied_byKeyThen]
  rfl

/-- For every route order that is a strict weak order, `higherPriority` is irreflexive and
transitive, and rules it cannot separate form classes: two rules each tied with a third are tied
with each other. -/
theorem higherPriority_strictWeakOrder [IsStrictWeakOrder ObjectMeta fun a b => lessObjectMeta a b] :
    (∀ a, higherPriority lessObjectMeta a a = false) ∧
      (∀ a b c, higherPriority lessObjectMeta a b → higherPriority lessObjectMeta b c →
        higherPriority lessObjectMeta a c) ∧
      (∀ a b c, Tied (higherPriority lessObjectMeta) a b → Tied (higherPriority lessObjectMeta) b c →
        Tied (higherPriority lessObjectMeta) a c) :=
  ⟨less_irrefl, fun _ _ _ => less_trans, fun _ _ _ => tied_trans⟩

theorem higherPriority_strictWeakOrder_creationOrder :
    IsStrictWeakOrder ObjectMeta (fun a b => creationOrder a b) ∧
      (∀ a, higherPriority creationOrder a a = false) ∧
      (∀ a b c, higherPriority creationOrder a b → higherPriority creationOrder b c →
        higherPriority creationOrder a c) ∧
      (∀ a b c, Tied (higherPriority creationOrder) a b → Tied (higherPriority creationOrder) b c →
        Tied (higherPriority creationOrder) a c) :=
  ⟨inferInstance, higherPriority_strictWeakOrder creationOrder⟩

end Dataplane

end NginxGateway
