import Mathlib.Data.List.Nodup
import Mathlib.Data.List.Perm.Basic

/-!
# Go maps and the loops over them

A Go map is its entries, each key at most once. Reading a missing key, also from a `nil` map,
gives the zero value, here `none`. `for key, value := range m` visits the entries in an order the
language leaves open and randomises at run time, so a loop over a map is a fold over an
`Iteration`: any permutation of the entries.

A loop body that overwrites one slot leaves in it the value of the last visit that wrote it
(`foldl_lastWrite`), and one that only ever sets a flag leaves it set when some visit set it
(`foldl_flag`). When at most one value can be written, that value is found in every order
(`getLast?_eq_some_iff_of_unique`).
-/

namespace NginxGateway
namespace Go

/-- The value stored under `key` in a list of entries. -/
def lookup {κ ν : Type*} [DecidableEq κ] (key : κ) : List (κ × ν) → Option ν
  | [] => none
  | entry :: entries => if entry.1 = key then some entry.2 else lookup key entries

/-- A Go map: a list of entries with no key twice. -/
structure Map (κ ν : Type*) where
  /-- The entries, in no particular order. -/
  entries : List (κ × ν)
  /-- No key appears twice. -/
  nodupKeys : (entries.map Prod.fst).Nodup

namespace Map

variable {κ ν : Type*} [DecidableEq κ]

/-- `make(map[κ]ν)`. -/
def empty : Map κ ν := ⟨[], List.nodup_nil⟩

/-- `m[key]`, with `none` for a missing key. -/
def get? (m : Map κ ν) (key : κ) : Option ν := lookup key m.entries

/-- `m[key] = value`. -/
def insert (m : Map κ ν) (key : κ) (value : ν) : Map κ ν where
  entries := (key, value) :: m.entries.filter fun entry => entry.1 ≠ key
  nodupKeys := by
    refine List.nodup_cons.mpr ⟨by simp, ?_⟩
    exact m.nodupKeys.sublist ((List.filter_sublist _).map _)

/-- An order in which `for key, value := range m` may visit `m`. -/
def Iteration (m : Map κ ν) : Type _ := { order : List (κ × ν) // order.Perm m.entries }

@[simp]
theorem get?_empty (key : κ) : (empty : Map κ ν).get? key = none := rfl

theorem lookup_filter_ne (key key' : κ) (entries : List (κ × ν)) :
    lookup key' (entries.filter fun entry => entry.1 ≠ key) =
      if key = key' then none else lookup key' entries := by
  induction entries with
  | nil => simp [lookup]
  | cons entry entries ih =>
      obtain ⟨k, v⟩ := entry
      simp only [ne_eq, decide_not] at ih ⊢
      by_cases own : k = key
      · subst own
        by_cases same : k = key'
        · subst same
          simpa [List.filter_cons, lookup] using ih
        · simp [List.filter_cons, lookup, ih, same]
      · by_cases found : k = key'
        · subst found
          simp [List.filter_cons, lookup, own, Ne.symm own]
        · simp [List.filter_cons, lookup, own, found, ih]

@[simp]
theorem get?_insert (m : Map κ ν) (key key' : κ) (value : ν) :
    (m.insert key value).get? key' = if key = key' then some value else m.get? key' := by
  simp only [get?, insert, lookup]
  rw [lookup_filter_ne]
  by_cases same : key = key' <;> simp [same]

/-- In a map, reading a key finds exactly the entries. -/
theorem get?_eq_some_iff (m : Map κ ν) {key : κ} {value : ν} :
    m.get? key = some value ↔ (key, value) ∈ m.entries := by
  obtain ⟨entries, nodupKeys⟩ := m
  simp only [get?]
  induction entries with
  | nil => simp [lookup]
  | cons entry entries ih =>
      obtain ⟨fresh, nodupKeys⟩ := List.nodup_cons.mp nodupKeys
      by_cases found : entry.1 = key
      · subst found
        have absent : (entry.1, value) ∉ entries := fun mem => fresh (List.mem_map.mpr ⟨_, mem, rfl⟩)
        obtain ⟨k, v⟩ := entry
        simp [lookup, absent, eq_comm]
      · simp [lookup, found, ih nodupKeys, Prod.ext_iff, Ne.symm found]

end Map

/-! ## Loops -/

section Loop

variable {σ α β : Type*}

/-- A loop whose body writes `value x` into a slot when `p x` holds, and leaves the slot alone
otherwise, ends with the last write in the slot. -/
theorem foldl_lastWrite (f : σ → α → σ) (slot : σ → Option β) (p : α → Bool) (value : α → β)
    (step : ∀ s x, slot (f s x) = if p x then some (value x) else slot s) (l : List α) (s : σ) :
    slot (l.foldl f s) = (((l.filter p).map value).getLast?).or (slot s) := by
  induction l using List.reverseRecOn with
  | nil => simp
  | append_singleton l x ih =>
      cases px : p x <;> simp [List.filter_append, px, step, ih]

/-- A loop whose body sets a flag when `p x` holds, and never clears it, ends with the flag set
exactly when it was set at the start or some visit set it. -/
theorem foldl_flag (f : σ → α → σ) (flag : σ → Bool) (p : α → Bool)
    (step : ∀ s x, flag (f s x) = (flag s || p x)) (l : List α) (s : σ) :
    flag (l.foldl f s) = (flag s || l.any p) := by
  induction l generalizing s with
  | nil => simp
  | cons x l ih => simp [ih, step, Bool.or_assoc]

/-- In a list of equal values the last one is each of them. -/
theorem getLast?_eq_some_iff_of_unique {l : List β} (unique : ∀ a ∈ l, ∀ b ∈ l, a = b) {x : β} :
    l.getLast? = some x ↔ x ∈ l := by
  constructor
  · exact List.mem_of_getLast?_eq_some
  · intro mem
    obtain ⟨y, last⟩ := Option.ne_none_iff_exists'.mp
      (List.getLast?_eq_none_iff.not.mpr (List.ne_nil_of_mem mem))
    rw [last, unique y (List.mem_of_getLast?_eq_some last) x mem]

end Loop

end Go
end NginxGateway
