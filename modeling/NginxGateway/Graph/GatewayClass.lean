import NginxGateway.Api.Types
import NginxGateway.Go.Map

/-!
# GatewayClasses

`processGatewayClasses` picks, out of every `GatewayClass` of the cluster, the one this controller
runs under: the class with the configured name whose controller is this one. The other classes of
this controller are collected as ignored, and the result says whether a class of the configured
name exists at all. The loop ranges over a Go map, so it may visit the classes in any `Iteration`;
each part of the result is the same in all of them, as long as every key is the key of its class
and at most one class can win.

`buildGatewayClass` wraps a class with its validity: a class with `parametersRef` set is invalid
and carries one condition, built from the error on that field.
-/

namespace NginxGateway
namespace Graph

/-- `processedGatewayClasses`: the classes that belong to this controller. -/
structure ProcessedGatewayClasses where
  /-- `Winner`. -/
  winner : Option V1beta1.GatewayClass
  /-- `Ignored`, `none` while the map is `nil`. -/
  ignored : Option (Go.Map NamespacedName V1beta1.GatewayClass)

/-- The body of the loop of `processGatewayClasses` on the class `gc`, given the result so far
and `gcExists`. -/
def visitGatewayClass (gcName controllerName : String) (state : ProcessedGatewayClasses × Bool)
    (gc : V1beta1.GatewayClass) : ProcessedGatewayClasses × Bool :=
  if gc.objectMeta.name = gcName then
    (if gc.spec.controllerName = controllerName then { state.1 with winner := some gc } else state.1,
      true)
  else if gc.spec.controllerName = controllerName then
    ({ state.1 with
        ignored := some ((state.1.ignored.getD .empty).insert (objectKeyFromObject gc.objectMeta) gc) },
      state.2)
  else state

/-- `processGatewayClasses(gcs, gcName, controllerName)`, with `range` visiting `gcs` in the order
`iteration`. -/
def processGatewayClasses (gcs : Go.Map NamespacedName V1beta1.GatewayClass) (gcName controllerName : String)
    (iteration : gcs.Iteration) : ProcessedGatewayClasses × Bool :=
  iteration.val.foldl (fun state entry => visitGatewayClass gcName controllerName state entry.2)
    (⟨none, none⟩, false)

/-! ## One visit -/

section Visit

variable {gcName controllerName : String} (state : ProcessedGatewayClasses × Bool)
  (gc : V1beta1.GatewayClass)

@[simp]
theorem visitGatewayClass_winner :
    (visitGatewayClass gcName controllerName state gc).1.winner =
      if gc.objectMeta.name = gcName ∧ gc.spec.controllerName = controllerName then some gc
      else state.1.winner := by
  unfold visitGatewayClass
  split_ifs <;> simp_all

@[simp]
theorem visitGatewayClass_ignored (key : NamespacedName) :
    ((visitGatewayClass gcName controllerName state gc).1.ignored.getD .empty).get? key =
      if (gc.spec.controllerName = controllerName ∧ gc.objectMeta.name ≠ gcName) ∧
          objectKeyFromObject gc.objectMeta = key then some gc
      else (state.1.ignored.getD .empty).get? key := by
  unfold visitGatewayClass
  split_ifs <;> simp_all

@[simp]
theorem visitGatewayClass_exists :
    (visitGatewayClass gcName controllerName state gc).2 = (state.2 || decide (gc.objectMeta.name = gcName)) := by
  unfold visitGatewayClass
  split_ifs <;> simp_all

@[simp]
theorem visitGatewayClass_ignored_isSome :
    (visitGatewayClass gcName controllerName state gc).1.ignored.isSome =
      (state.1.ignored.isSome ||
        decide (gc.spec.controllerName = controllerName ∧ gc.objectMeta.name ≠ gcName)) := by
  unfold visitGatewayClass
  split_ifs <;> simp_all

end Visit

/-! ## The whole loop -/

section Loop

variable (gcs : Go.Map NamespacedName V1beta1.GatewayClass) (gcName controllerName : String)
  (iteration : gcs.Iteration)

/-- The classes of `gcs` with a property, read off any iteration. -/
theorem mem_filter_iteration (p : V1beta1.GatewayClass → Prop) [DecidablePred p] (gc : V1beta1.GatewayClass) :
    gc ∈ (iteration.val.filter fun entry => p entry.2).map Prod.snd ↔
      ∃ key, gcs.get? key = some gc ∧ p gc := by
  simp [iteration.property.mem_iff, Go.Map.get?_eq_some_iff]

/-- `Winner` is the last class of the iteration with the configured name and this controller. -/
theorem winner_eq_getLast? :
    (processGatewayClasses gcs gcName controllerName iteration).1.winner =
      ((iteration.val.filter fun entry =>
        entry.2.objectMeta.name = gcName ∧ entry.2.spec.controllerName = controllerName).map
          Prod.snd).getLast? := by
  rw [processGatewayClasses, Go.foldl_lastWrite (visitGatewayClass gcName controllerName · ·.2)
      (·.1.winner)
      (fun entry => entry.2.objectMeta.name = gcName ∧ entry.2.spec.controllerName = controllerName)
      Prod.snd (fun _ _ => by simp), Option.or_none]

/-- Under `key`, `Ignored` holds the last class of the iteration of this controller, with another
name and with `key` as its own key. -/
theorem ignored_get?_eq_getLast? (key : NamespacedName) :
    ((processGatewayClasses gcs gcName controllerName iteration).1.ignored.getD .empty).get? key =
      ((iteration.val.filter fun entry =>
        (entry.2.spec.controllerName = controllerName ∧ entry.2.objectMeta.name ≠ gcName) ∧
          objectKeyFromObject entry.2.objectMeta = key).map Prod.snd).getLast? := by
  rw [processGatewayClasses, Go.foldl_lastWrite (visitGatewayClass gcName controllerName · ·.2)
      (fun state => (state.1.ignored.getD .empty).get? key)
      (fun entry => (entry.2.spec.controllerName = controllerName ∧ entry.2.objectMeta.name ≠ gcName) ∧
        objectKeyFromObject entry.2.objectMeta = key)
      Prod.snd (fun _ _ => by simp)]
  simp only [Option.getD_none, Go.Map.get?_empty, Option.or_none]

/-- `Winner` is a class of `gcs` with the configured name and this controller, if there is one. -/
theorem winner_processGatewayClasses
    (atMostOneWinner : ∀ key1 key2 gc1 gc2, gcs.get? key1 = some gc1 → gcs.get? key2 = some gc2 →
      gc1.objectMeta.name = gcName ∧ gc1.spec.controllerName = controllerName →
      gc2.objectMeta.name = gcName ∧ gc2.spec.controllerName = controllerName → gc1 = gc2)
    (gc : V1beta1.GatewayClass) :
    (processGatewayClasses gcs gcName controllerName iteration).1.winner = some gc ↔
      (∃ key, gcs.get? key = some gc) ∧ gc.objectMeta.name = gcName ∧
        gc.spec.controllerName = controllerName := by
  have winners := mem_filter_iteration gcs iteration
    fun gc => gc.objectMeta.name = gcName ∧ gc.spec.controllerName = controllerName
  rw [winner_eq_getLast?, Go.getLast?_eq_some_iff_of_unique, winners]
  · simp
  · intro gc1 mem1 gc2 mem2
    obtain ⟨key1, get1, wins1⟩ := (winners gc1).mp mem1
    obtain ⟨key2, get2, wins2⟩ := (winners gc2).mp mem2
    exact atMostOneWinner key1 key2 gc1 gc2 get1 get2 wins1 wins2

/-- `Ignored` holds the classes of `gcs` of this controller but another name, under their keys. -/
theorem ignored_processGatewayClasses
    (keys : ∀ key gc, gcs.get? key = some gc → key = objectKeyFromObject gc.objectMeta)
    (key : NamespacedName) :
    ((processGatewayClasses gcs gcName controllerName iteration).1.ignored.getD .empty).get? key =
      (gcs.get? key).filter fun gc =>
        gc.spec.controllerName = controllerName ∧ gc.objectMeta.name ≠ gcName := by
  have ignored := mem_filter_iteration gcs iteration fun gc =>
    (gc.spec.controllerName = controllerName ∧ gc.objectMeta.name ≠ gcName) ∧
      objectKeyFromObject gc.objectMeta = key
  have underKey : ∀ gc, (∃ key', gcs.get? key' = some gc ∧
      (gc.spec.controllerName = controllerName ∧ gc.objectMeta.name ≠ gcName) ∧
        objectKeyFromObject gc.objectMeta = key) ↔
      gcs.get? key = some gc ∧ gc.spec.controllerName = controllerName ∧ gc.objectMeta.name ≠ gcName :=
    fun gc => ⟨fun ⟨key', get, own, named⟩ => ⟨(keys key' gc get).trans named ▸ get, own⟩,
      fun ⟨get, own⟩ => ⟨key, get, own, (keys key gc get).symm⟩⟩
  rw [ignored_get?_eq_getLast?]
  ext gc
  rw [Option.mem_def, Go.getLast?_eq_some_iff_of_unique, ignored, underKey, Option.mem_def,
    Option.filter_eq_some, Option.mem_def]
  · simp
  · intro gc1 mem1 gc2 mem2
    obtain ⟨get1, -⟩ := (underKey gc1).mp ((ignored gc1).mp mem1)
    obtain ⟨get2, -⟩ := (underKey gc2).mp ((ignored gc2).mp mem2)
    exact Option.some_injective _ (get1.symm.trans get2)

/-- `gcExists` says whether some class of `gcs` has the configured name. -/
theorem exists_processGatewayClasses :
    (processGatewayClasses gcs gcName controllerName iteration).2 = true ↔
      ∃ key gc, gcs.get? key = some gc ∧ gc.objectMeta.name = gcName := by
  rw [processGatewayClasses, Go.foldl_flag
    (fun state (entry : NamespacedName × V1beta1.GatewayClass) =>
      visitGatewayClass gcName controllerName state entry.2)
    Prod.snd (fun entry => entry.2.objectMeta.name = gcName) (fun _ _ => by simp)]
  simp [iteration.property.mem_iff, Go.Map.get?_eq_some_iff]

/-- For every map of classes and every order of visiting it, with no assumption on its keys or on
how many classes qualify: `Winner` is a class of the map with the configured name and this
controller, and it is missing only when no class has both. -/
theorem processGatewayClasses_winner_qualifies :
    (∀ gc, (processGatewayClasses gcs gcName controllerName iteration).1.winner = some gc →
      (∃ key, gcs.get? key = some gc) ∧ gc.objectMeta.name = gcName ∧
        gc.spec.controllerName = controllerName) ∧
    ((processGatewayClasses gcs gcName controllerName iteration).1.winner = none ↔
      ∀ key gc, gcs.get? key = some gc →
        ¬(gc.objectMeta.name = gcName ∧ gc.spec.controllerName = controllerName)) := by
  have winners := mem_filter_iteration gcs iteration
    fun gc => gc.objectMeta.name = gcName ∧ gc.spec.controllerName = controllerName
  rw [winner_eq_getLast?, List.getLast?_eq_none_iff, List.eq_nil_iff_forall_not_mem]
  refine ⟨fun gc last => ?_, fun none key gc get wins => none gc ((winners gc).mpr ⟨key, get, wins⟩),
    fun none gc mem => ?_⟩
  · obtain ⟨key, get, wins⟩ := (winners gc).mp (List.mem_of_getLast?_eq_some last)
    exact ⟨⟨key, get⟩, wins⟩
  · obtain ⟨key, get, wins⟩ := (winners gc).mp mem
    exact none key gc get wins

/-- `Ignored` is made, no longer `nil`, exactly when some class of `gcs` belongs to this controller
under another name. -/
theorem ignored_isSome_processGatewayClasses :
    (processGatewayClasses gcs gcName controllerName iteration).1.ignored.isSome = true ↔
      ∃ key gc, gcs.get? key = some gc ∧ gc.spec.controllerName = controllerName ∧
        gc.objectMeta.name ≠ gcName := by
  rw [processGatewayClasses, Go.foldl_flag
    (fun state (entry : NamespacedName × V1beta1.GatewayClass) =>
      visitGatewayClass gcName controllerName state entry.2)
    (·.1.ignored.isSome)
    (fun entry => entry.2.spec.controllerName = controllerName ∧ entry.2.objectMeta.name ≠ gcName)
    (fun _ _ => by simp)]
  simp [iteration.property.mem_iff, Go.Map.get?_eq_some_iff]

/-- For every map of classes and every order of visiting it, with no assumption on its keys:
every entry of `Ignored` is stored under its class's own key and is a class of the map of this
controller with another name, and `Ignored` stays `nil` exactly when there is no such class. -/
theorem processGatewayClasses_ignored_sound :
    (∀ key gc,
      ((processGatewayClasses gcs gcName controllerName iteration).1.ignored.getD .empty).get? key =
        some gc →
      key = objectKeyFromObject gc.objectMeta ∧ (∃ key', gcs.get? key' = some gc) ∧
        gc.spec.controllerName = controllerName ∧ gc.objectMeta.name ≠ gcName) ∧
    ((processGatewayClasses gcs gcName controllerName iteration).1.ignored = none ↔
      ∀ key gc, gcs.get? key = some gc →
        ¬(gc.spec.controllerName = controllerName ∧ gc.objectMeta.name ≠ gcName)) := by
  refine ⟨fun key gc last => ?_, ?_⟩
  · rw [ignored_get?_eq_getLast?] at last
    obtain ⟨key', get, own, named⟩ := (mem_filter_iteration gcs iteration (fun gc =>
      (gc.spec.controllerName = controllerName ∧ gc.objectMeta.name ≠ gcName) ∧
        objectKeyFromObject gc.objectMeta = key) gc).mp (List.mem_of_getLast?_eq_some last)
    exact ⟨named.symm, ⟨key', get⟩, own⟩
  · rw [← Option.not_isSome_iff_eq_none, ignored_isSome_processGatewayClasses]
    simp

end Loop

/-- For every map of classes whose keys are the keys of their classes and in which at most one
class has the configured name and this controller, and for every order of visiting it: `Winner` is
that class, if there is one; `Ignored` holds exactly the classes of this controller with another
name, under their own keys; and `gcExists` says whether some class has the configured name. -/
theorem processGatewayClasses_spec (gcs : Go.Map NamespacedName V1beta1.GatewayClass)
    (gcName controllerName : String) (iteration : gcs.Iteration)
    (keys : ∀ key gc, gcs.get? key = some gc → key = objectKeyFromObject gc.objectMeta)
    (atMostOneWinner : ∀ key1 key2 gc1 gc2, gcs.get? key1 = some gc1 → gcs.get? key2 = some gc2 →
      gc1.objectMeta.name = gcName ∧ gc1.spec.controllerName = controllerName →
      gc2.objectMeta.name = gcName ∧ gc2.spec.controllerName = controllerName → gc1 = gc2) :
    (∀ gc, (processGatewayClasses gcs gcName controllerName iteration).1.winner = some gc ↔
      (∃ key, gcs.get? key = some gc) ∧ gc.objectMeta.name = gcName ∧
        gc.spec.controllerName = controllerName) ∧
    (∀ key, ((processGatewayClasses gcs gcName controllerName iteration).1.ignored.getD .empty).get? key =
      (gcs.get? key).filter fun gc =>
        gc.spec.controllerName = controllerName ∧ gc.objectMeta.name ≠ gcName) ∧
    ((processGatewayClasses gcs gcName controllerName iteration).2 = true ↔
      ∃ key gc, gcs.get? key = some gc ∧ gc.objectMeta.name = gcName) :=
  ⟨winner_processGatewayClasses gcs gcName controllerName iteration atMostOneWinner,
    ignored_processGatewayClasses gcs gcName controllerName iteration keys,
    exists_processGatewayClasses gcs gcName controllerName iteration⟩

theorem processGatewayClasses_spec_three_classes :
    let nginx : V1beta1.GatewayClass := ⟨⟨"", "nginx", 0⟩, ⟨"ctrl-A", none⟩⟩
    let other : V1beta1.GatewayClass := ⟨⟨"", "other", 0⟩, ⟨"ctrl-A", none⟩⟩
    let foreign : V1beta1.GatewayClass := ⟨⟨"", "foreign", 0⟩, ⟨"ctrl-B", none⟩⟩
    let gcs : Go.Map NamespacedName V1beta1.GatewayClass :=
      ⟨[(⟨"", "nginx"⟩, nginx), (⟨"", "other"⟩, other), (⟨"", "foreign"⟩, foreign)], by decide⟩
    let iteration : gcs.Iteration :=
      ⟨[(⟨"", "foreign"⟩, foreign), (⟨"", "other"⟩, other), (⟨"", "nginx"⟩, nginx)], by decide⟩
    (∀ key gc, gcs.get? key = some gc → key = objectKeyFromObject gc.objectMeta) ∧
    (∀ key1 key2 gc1 gc2, gcs.get? key1 = some gc1 → gcs.get? key2 = some gc2 →
      gc1.objectMeta.name = "nginx" ∧ gc1.spec.controllerName = "ctrl-A" →
      gc2.objectMeta.name = "nginx" ∧ gc2.spec.controllerName = "ctrl-A" → gc1 = gc2) ∧
    (∀ gc, (processGatewayClasses gcs "nginx" "ctrl-A" iteration).1.winner = some gc ↔
      (∃ key, gcs.get? key = some gc) ∧ gc.objectMeta.name = "nginx" ∧
        gc.spec.controllerName = "ctrl-A") ∧
    (∀ key, ((processGatewayClasses gcs "nginx" "ctrl-A" iteration).1.ignored.getD .empty).get? key =
      (gcs.get? key).filter fun gc =>
        gc.spec.controllerName = "ctrl-A" ∧ gc.objectMeta.name ≠ "nginx") ∧
    ((processGatewayClasses gcs "nginx" "ctrl-A" iteration).2 = true ↔
      ∃ key gc, gcs.get? key = some gc ∧ gc.objectMeta.name = "nginx") := by
  intro nginx other foreign gcs iteration
  have keys : ∀ key gc, gcs.get? key = some gc → key = objectKeyFromObject gc.objectMeta := by
    intro key gc get
    simp only [Go.Map.get?_eq_some_iff, gcs, List.mem_cons, Prod.mk.injEq] at get
    rcases get with ⟨rfl, rfl⟩ | ⟨rfl, rfl⟩ | ⟨rfl, rfl⟩ | get <;> simp_all [objectKeyFromObject]
  have atMostOneWinner : ∀ key1 key2 gc1 gc2, gcs.get? key1 = some gc1 → gcs.get? key2 = some gc2 →
      gc1.objectMeta.name = "nginx" ∧ gc1.spec.controllerName = "ctrl-A" →
      gc2.objectMeta.name = "nginx" ∧ gc2.spec.controllerName = "ctrl-A" → gc1 = gc2 := by
    intro key1 key2 gc1 gc2 get1 get2 wins1 wins2
    simp only [Go.Map.get?_eq_some_iff, gcs, List.mem_cons, Prod.mk.injEq] at get1 get2
    rcases get1 with ⟨-, rfl⟩ | ⟨-, rfl⟩ | ⟨-, rfl⟩ | get1 <;>
      rcases get2 with ⟨-, rfl⟩ | ⟨-, rfl⟩ | ⟨-, rfl⟩ | get2 <;> simp_all [nginx, other, foreign]
  exact ⟨keys, atMostOneWinner,
    processGatewayClasses_spec gcs "nginx" "ctrl-A" iteration keys atMostOneWinner⟩

/-! ## Building a class -/

/-- `GatewayClass` of package `graph`: a class with its validity. `Condition` stands for
`conditions.Condition`, which is not among the sources. -/
structure GatewayClass (Condition : Type) where
  /-- `Source`. -/
  source : V1beta1.GatewayClass
  /-- `Conditions`. -/
  conditions : List Condition
  /-- `Valid`. -/
  valid : Bool

/-- `validateGatewayClass(gc)`: the error, or `none` for `nil`. -/
def validateGatewayClass (gc : V1beta1.GatewayClass) : Option Field.Error :=
  if gc.spec.parametersRef.isSome then
    let path := (Field.newPath "spec").child "parametersRef"
    some (Field.forbidden path "parametersRef is not supported")
  else none

/-- `buildGatewayClass(gc)`, for the condition constructor
`staticConds.NewGatewayClassInvalidParameters`, which is not among the sources. -/
def buildGatewayClass {Condition : Type} (newGatewayClassInvalidParameters : String → Condition)
    (gc : Option V1beta1.GatewayClass) : Option (GatewayClass Condition) :=
  gc.map fun gc =>
    let valErr := validateGatewayClass gc
    { source := gc
      valid := valErr.isNone
      conditions := (valErr.map fun err => newGatewayClassInvalidParameters err.error).toList }

end Graph
end NginxGateway
