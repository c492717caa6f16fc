import NginxGateway.Go.Fmt

/-!
# The endpoint slices of the resolver benchmark

`generateEndpointSliceList(n)` builds the `EndpointSliceList` that `BenchmarkResolve` resolves,
and `bench` fails unless the resolver finds `n` endpoints in it. The list holds `n` ready
endpoints, the `m`-th with the address `10.0.(m / 100).(m % 100)`, at most
`maxEndpointsPerSlice` of them to a slice, so no two endpoints share an address
(`generateEndpointSliceList_endpoints`).

Each `make` of the function can panic: `runtime.makeslice` refuses a capacity below the length,
and a capacity whose elements take more than `maxAlloc` bytes. The sizes of the element types
depend on the version of the Kubernetes API and `maxAlloc` on the platform, so they are the
parameters `Sizes`. The slices are appended to a Go slice made with capacity `slicesCount`,
computed in Go's `int`: `n + 99` wraps around for the last 99 values of `int`, where the capacity
is negative, as it is for `n ≤ -199`. Where the function returns, it has appended exactly
`slicesCount` slices, so the slice never grows (`generateEndpointSliceList_slicesCount`).
Left out: `mallocgc` running out of memory below `maxAlloc`, which ends the process.
-/

namespace NginxGateway

namespace Go

/-- Go's `int`: 64 bits in two's complement, so arithmetic wraps into `[-2^63, 2^63)`. -/
def wrapInt (x : Int) : Int :=
  (x + 9223372036854775808) % 18446744073709551616 - 9223372036854775808

/-- `uintptr(x)` of an `int`: its two's-complement bits read as an unsigned number. -/
def uintptr (x : Int) : Nat := (x % 18446744073709551616).toNat

/-- `make([]T, len, cap)` as `runtime.makeslice` does it, for a `T` of `elemSize` bytes on a
platform whose largest allocation is `maxAlloc`: `len` zero values, or `none` where it panics.
`mem` is `math.MulUintptr(et.Size_, uintptr(cap))` taken exactly, so it overflows from `2^64` on. -/
def makeSlice {α : Type} [Inhabited α] (elemSize maxAlloc : Nat) (len cap : Int) : Option (List α) :=
  let mem := elemSize * uintptr cap
  if 18446744073709551616 ≤ mem ∨ maxAlloc < mem ∨ len < 0 ∨ len > cap then none
  else some (List.replicate len.toNat default)

section MakeSlice

variable {α : Type} [Inhabited α] {elemSize maxAlloc : Nat} {len cap : Int}

/-- `make` panics on a capacity below its length. -/
theorem makeSlice_of_gt (below : len > cap) :
    (makeSlice elemSize maxAlloc len cap : Option (List α)) = none :=
  if_pos (.inr (.inr (.inr below)))

/-- For a length and a capacity in order, `make` panics exactly when the capacity's elements take
more than `maxAlloc` bytes, `maxAlloc` being a `uintptr`. -/
theorem makeSlice_of_le (maxAlloc_lt : maxAlloc < 18446744073709551616) (nonneg : 0 ≤ len)
    (le : len ≤ cap) (isInt : cap < 9223372036854775808) :
    (makeSlice elemSize maxAlloc len cap : Option (List α)) =
      if maxAlloc < elemSize * cap.toNat then none else some (List.replicate len.toNat default) := by
  have bits : uintptr cap = cap.toNat := by unfold uintptr; omega
  unfold makeSlice
  dsimp only
  rw [bits]
  by_cases fits : maxAlloc < elemSize * cap.toNat
  · rw [if_pos (.inr (.inl fits)), if_pos fits]
  · rw [if_neg (by omega), if_neg fits]

/-- What `make` returns is `len` zero values. -/
theorem eq_replicate_of_makeSlice_eq_some {made : List α}
    (make : makeSlice elemSize maxAlloc len cap = some made) : made = List.replicate len.toNat default := by
  unfold makeSlice at make
  dsimp only at make
  split_ifs at make
  exact (Option.some.inj make).symm

end MakeSlice

end Go

namespace DiscoveryV1

/-- `EndpointConditions`, with the one condition the benchmark sets. -/
structure EndpointConditions where
  /-- `Ready`. -/
  ready : Option Bool
deriving DecidableEq, Repr, Inhabited

/-- `Endpoint`. -/
structure Endpoint where
  /-- `Addresses`. -/
  addresses : List String
  /-- `Conditions`. -/
  conditions : EndpointConditions
deriving DecidableEq, Repr, Inhabited

/-- `EndpointPort`. -/
structure EndpointPort where
  /-- `Port`; `nil` matches any port of the service. -/
  port : Option Int
deriving DecidableEq, Repr, Inhabited

/-- `EndpointSlice`. -/
structure EndpointSlice where
  /-- `Endpoints`. -/
  endpoints : List Endpoint
  /-- `AddressType`. -/
  addressType : String
  /-- `Ports`. -/
  ports : List EndpointPort
deriving DecidableEq, Repr, Inhabited

/-- `AddressTypeIPv4`. -/
def addressTypeIPv4 : String := "IPv4"

/-- `EndpointSliceList`. -/
structure EndpointSliceList where
  /-- `Items`. -/
  items : List EndpointSlice
deriving DecidableEq, Repr, Inhabited

end DiscoveryV1

namespace Resolver

open DiscoveryV1

/-- What the `make`s of `generateEndpointSliceList` compare that the sources do not fix. -/
structure Sizes where
  /-- `unsafe.Sizeof(discoveryV1.EndpointSlice{})`, which depends on the Kubernetes API. -/
  endpointSliceSize : Nat
  /-- `unsafe.Sizeof(discoveryV1.Endpoint{})`. -/
  endpointSize : Nat
  /-- The runtime's `maxAlloc`, the largest allocation of the platform (`1 << 48` on
  linux/amd64). -/
  maxAlloc : Nat
  /-- `maxAlloc` is a `uintptr`. -/
  maxAlloc_lt : maxAlloc < 18446744073709551616

/-- `maxEndpointsPerSlice`, the Kubernetes default. -/
def maxEndpointsPerSlice : Int := 100

/-- `fmt.Sprintf("10.0.%d.%d", i, j)`. -/
def endpointAddress (i j : Nat) : String := "10.0." ++ toString i ++ "." ++ toString j

/-- The endpoint the inner loop writes at index `j` of the `i`-th slice. -/
def endpoint (i j : Nat) : Endpoint :=
  { addresses := [endpointAddress i j], conditions := { ready := some true } }

/-- The inner loop, `for j := 0; j < c; j++ { slice.Endpoints[j] = ... }`, over the `endpoints`
that `make([]discoveryV1.Endpoint, c)` gave. -/
def fillEndpoints (i c : Nat) (endpoints : List Endpoint) : List Endpoint :=
  (List.range c).foldl (fun endpoints j => endpoints.set j (endpoint i j)) endpoints

/-- The `i`-th slice, with `c` endpoints written over the made `endpoints`. -/
def endpointSlice (i c : Nat) (endpoints : List Endpoint) : EndpointSlice where
  endpoints := fillEndpoints i c endpoints
  addressType := addressTypeIPv4
  ports := [{ port := none }]

/-- The outer loop, from slice `i` with `n` endpoints still to make:
`for i := 0; n > 0; i++ { c := ...; n -= maxEndpointsPerSlice; ...; result.Items = append(...) }`,
`none` where a `make` panics. -/
def appendSlices (sizes : Sizes) (items : List EndpointSlice) (i : Nat) (n : Int) :
    Option (List EndpointSlice) :=
  if 0 < n then
    let c := if n < maxEndpointsPerSlice then n else maxEndpointsPerSlice
    Go.makeSlice sizes.endpointSize sizes.maxAlloc c c >>= fun endpoints =>
      appendSlices sizes (items ++ [endpointSlice i c.toNat endpoints]) (i + 1) (n - maxEndpointsPerSlice)
  else some items
termination_by n.toNat
decreasing_by simp_wf; simp only [maxEndpointsPerSlice]; omega

/-- `slicesCount := (n + maxEndpointsPerSlice - 1) / maxEndpointsPerSlice`, in Go's `int`, whose
division rounds toward zero. -/
def slicesCount (n : Int) : Int :=
  (Go.wrapInt (n + maxEndpointsPerSlice - 1)).tdiv maxEndpointsPerSlice

/-- `generateEndpointSliceList(n)`, `none` where a `make` panics. -/
def generateEndpointSliceList (sizes : Sizes) (n : Int) : Option EndpointSliceList := do
  let items ← Go.makeSlice sizes.endpointSliceSize sizes.maxAlloc 0 (slicesCount n)
  let items ← appendSlices sizes items 0 n
  return { items := items }

/-- The endpoints of a list of slices, slice after slice. -/
def allEndpoints (items : List EndpointSlice) : List Endpoint := items.flatMap (·.endpoints)

/-! ## The loops -/

/-- The inner loop fills every index of the slice `make` gave it. -/
theorem fillEndpoints_replicate (i c : Nat) :
    fillEndpoints i c (List.replicate c default) = (List.range c).map (endpoint i) := by
  have filled : ∀ k ≤ c, (List.range k).foldl (fun endpoints j => endpoints.set j (endpoint i j))
      (List.replicate c default) = (List.range k).map (endpoint i) ++ List.replicate (c - k) default := by
    intro k
    induction k with
    | zero => simp
    | succ k ih =>
        intro hk
        obtain ⟨rest, hrest⟩ : ∃ rest, c - k = rest + 1 := ⟨c - k - 1, by omega⟩
        rw [List.range_succ, List.foldl_append, ih (by omega), List.foldl_cons, List.foldl_nil,
          List.set_append_right _ _ (by simp), hrest, List.replicate_succ]
        simp [show c - (k + 1) = rest by omega]
  simpa using filled c le_rfl

@[simp]
theorem endpoints_endpointSlice (i c : Nat) :
    (endpointSlice i c (List.replicate c default)).endpoints = (List.range c).map (endpoint i) :=
  fillEndpoints_replicate i c

/-- One turn of the outer loop makes the next `min k 100` of `k` endpoints. -/
theorem range_map_endpoint (i k : Nat) :
    (List.range (min k 100)).map (endpoint i) ++
      (List.range (k - 100)).map (fun m => endpoint (i + 1 + m / 100) (m % 100)) =
    (List.range k).map fun m => endpoint (i + m / 100) (m % 100) := by
  have first : ∀ l ≤ 100, (List.range l).map (endpoint i) =
      (List.range l).map fun m => endpoint (i + m / 100) (m % 100) := fun l short =>
    List.map_congr_left fun m mem => by
      rw [List.mem_range] at mem
      rw [Nat.div_eq_of_lt (by omega), Nat.mod_eq_of_lt (by omega), Nat.add_zero]
  rcases Nat.lt_or_ge k 100 with short | long
  · rw [Nat.min_eq_left short.le, Nat.sub_eq_zero_of_le short.le, List.range_zero, List.map_nil,
      List.append_nil, first k short.le]
  · obtain ⟨r, rfl⟩ := Nat.exists_eq_add_of_le long
    rw [Nat.min_eq_right long, Nat.add_sub_cancel_left, List.range_add, List.map_append,
      List.map_map, first 100 le_rfl]
    congr 1
    exact List.map_congr_left fun m _ => by
      simp only [Function.comp, Nat.add_mod_left]
      congr 1
      omega

/-- The size of the slice one turn of the outer loop makes. -/
theorem toNat_sliceSize (n : Int) :
    (if n < maxEndpointsPerSlice then n else maxEndpointsPerSlice).toNat = min n.toNat 100 := by
  simp only [maxEndpointsPerSlice]
  split_ifs <;> omega

section Loop

variable (sizes : Sizes)

/-- One turn of the outer loop: the `make` of the slice's `min n 100` endpoints panics when they
take more than `maxAlloc` bytes, and otherwise the loop goes on with the slice appended. -/
theorem appendSlices_of_pos {items : List EndpointSlice} {i : Nat} {n : Int} (pos : 0 < n) :
    appendSlices sizes items i n =
      if sizes.maxAlloc < sizes.endpointSize * min n.toNat 100 then none
      else appendSlices sizes
        (items ++ [endpointSlice i (min n.toNat 100) (List.replicate (min n.toNat 100) default)])
        (i + 1) (n - maxEndpointsPerSlice) := by
  rw [appendSlices, if_pos pos]
  dsimp only
  rw [Go.makeSlice_of_le sizes.maxAlloc_lt (by simp only [maxEndpointsPerSlice]; split_ifs <;> omega)
    le_rfl (by simp only [maxEndpointsPerSlice]; split_ifs <;> omega), toNat_sliceSize]
  split_ifs <;> rfl

/-- The outer loop panics exactly when the first slice's endpoints take more than `maxAlloc`
bytes: every later slice is no larger. -/
theorem appendSlices_eq_none_iff (items : List EndpointSlice) (i : Nat) (n : Int) :
    appendSlices sizes items i n = none ↔ sizes.maxAlloc < sizes.endpointSize * min n.toNat 100 := by
  induction items, i, n using appendSlices.induct sizes with
  | case1 items i n pos c ih =>
      have size : c.toNat = min n.toNat 100 := by simp only [c, dite_eq_ite]; exact toNat_sliceSize n
      rw [size] at ih
      rw [appendSlices_of_pos sizes pos]
      split_ifs with panics
      · simp only [panics]
      · have smaller : min (n - maxEndpointsPerSlice).toNat 100 ≤ min n.toNat 100 := by
          simp only [maxEndpointsPerSlice]; omega
        rw [ih (List.replicate _ default), iff_false_right panics]
        exact fun later => panics (later.trans_le (Nat.mul_le_mul_left _ smaller))
  | case2 items i n done =>
      rw [appendSlices, if_neg done, show n.toNat = 0 by omega]
      simp

/-- Where the outer loop returns, it has appended one slice for every started hundred of
endpoints, each with between one and `maxEndpointsPerSlice` endpoints, and these are the
endpoints `i`, `i + 1`, ... numbered from slice `i` on. -/
theorem appendSlices_eq_some {items out : List EndpointSlice} {i : Nat} {n : Int}
    (run : appendSlices sizes items i n = some out) :
    out.length = items.length + (n.toNat + 99) / 100 ∧
      (∀ slice ∈ out, slice ∈ items ∨ 0 < slice.endpoints.length ∧ slice.endpoints.length ≤ 100) ∧
      allEndpoints out =
        allEndpoints items ++ (List.range n.toNat).map fun m => endpoint (i + m / 100) (m % 100) := by
  induction items, i, n using appendSlices.induct sizes with
  | case1 items i n pos c ih =>
      have size : c.toNat = min n.toNat 100 := by simp only [c, dite_eq_ite]; exact toNat_sliceSize n
      rw [size] at ih
      rw [appendSlices_of_pos sizes pos, if_neg (by rintro panics; simp [panics] at run)] at run
      obtain ⟨length, sized, endpoints⟩ := ih _ run
      have rest : (n - maxEndpointsPerSlice).toNat = n.toNat - 100 := by
        simp only [maxEndpointsPerSlice]; omega
      refine ⟨?_, fun slice mem => ?_, ?_⟩
      · rw [length, List.length_append, List.length_singleton, rest]
        omega
      · rcases sized slice mem with mem | sized
        · rcases List.mem_append.mp mem with mem | mem
          · exact .inl mem
          · rw [List.mem_singleton.mp mem, endpoints_endpointSlice, List.length_map, List.length_range]
            exact .inr ⟨by omega, Nat.min_le_right _ _⟩
        · exact .inr sized
      · rw [endpoints, allEndpoints, List.flatMap_append, List.flatMap_singleton,
          endpoints_endpointSlice, List.append_assoc, rest, range_map_endpoint]
        rfl
  | case2 items i n done =>
      rw [appendSlices, if_neg done, Option.some.injEq] at run
      subst run
      exact ⟨by omega, fun slice mem => .inl mem, by simp [show n.toNat = 0 by omega]⟩

end Loop

/-! ## Addresses -/

/-- Two endpoints' addresses are equal only for the same slice and index. -/
theorem endpointAddress_injective {i j i' j' : Nat} (same : endpointAddress i j = endpointAddress i' j') :
    i = i' ∧ j = j' := by
  have chars : (toString i).data ++ '.' :: (toString j).data =
      (toString i').data ++ '.' :: (toString j').data := by
    simpa [endpointAddress, String.ext_iff] using same
  have notDot : ∀ {k : Nat}, '.' ∉ (toString k).data := fun mem => by
    simpa using Go.isDigit_of_mem_toString mem
  obtain ⟨first, -, second⟩ := (List.append_cons_inj_of_not_mem notDot notDot).mp chars
  exact ⟨Go.toString_injective (String.ext first), Go.toString_injective (String.ext second)⟩

/-- The addresses of the numbered endpoints are pairwise distinct. -/
theorem nodup_addresses_range (n : Nat) :
    (((List.range n).map fun m => endpoint (m / 100) (m % 100)).flatMap (·.addresses)).Nodup := by
  have addresses : ((List.range n).map fun m => endpoint (m / 100) (m % 100)).flatMap (·.addresses) =
      (List.range n).map fun m => endpointAddress (m / 100) (m % 100) := by
    induction n with
    | zero => rfl
    | succ n ih =>
        rw [List.range_succ, List.map_append, List.flatMap_append, ih, List.map_append]
        rfl
  rw [addresses]
  refine List.Pairwise.map _ (fun m m' distinct same => distinct ?_) (List.nodup_range n)
  obtain ⟨div, mod⟩ := endpointAddress_injective same
  omega

/-! ## The whole function -/

/-- `slicesCount`, for an `n` of Go's `int`. -/
theorem slicesCount_eq (n : Int) (isInt : -9223372036854775808 ≤ n ∧ n < 9223372036854775808) :
    slicesCount n =
      if n + 99 < 9223372036854775808 then (n + 99).tdiv 100 else (n + 99 - 18446744073709551616).tdiv 100 := by
  simp only [slicesCount, Go.wrapInt, maxEndpointsPerSlice]
  split_ifs <;> congr 1 <;> omega

theorem tdiv_hundred (x : Int) : x.tdiv 100 = if 0 ≤ x then x / 100 else -((-x) / 100) := by
  split_ifs with nonneg
  · exact Int.tdiv_eq_ediv nonneg (by decide)
  · conv_lhs => rw [← Int.neg_neg x]
    rw [Int.neg_tdiv, Int.tdiv_eq_ediv (by omega) (by decide)]

/-- For every `n` of Go's `int`, whatever the sizes of the types and the platform's `maxAlloc`:
the function panics exactly when `slicesCount` is negative (`n ≤ -199`, or `n` one of the last 99
values of `int`, where `n + 99` wraps around), when the `slicesCount` slices the first `make`
reserves take more than `maxAlloc` bytes, or when the endpoints of the first slice do. Where it
returns, the capacity it reserved is the number of slices the loop appends, so `append` never
grows the slice. -/
theorem generateEndpointSliceList_slicesCount (sizes : Sizes) (n : Int)
    (isInt : -9223372036854775808 ≤ n ∧ n < 9223372036854775808) :
    (generateEndpointSliceList sizes n = none ↔
      n ≤ -199 ∨ 9223372036854775709 ≤ n ∨
        sizes.maxAlloc < sizes.endpointSliceSize * ((n.toNat + 99) / 100) ∨
        sizes.maxAlloc < sizes.endpointSize * min n.toNat 100) ∧
      ∀ list ∈ generateEndpointSliceList sizes n, slicesCount n = list.items.length := by
  have count := slicesCount_eq n isInt
  rw [tdiv_hundred, tdiv_hundred] at count
  have returnsNothing : ∀ list ∈ (none : Option EndpointSliceList), slicesCount n = list.items.length :=
    fun _ mem => absurd mem (Option.not_mem_none _)
  by_cases negative : slicesCount n < 0
  · rw [generateEndpointSliceList, Go.makeSlice_of_gt negative]
    exact ⟨iff_of_true rfl (by omega), returnsNothing⟩
  have slices : (slicesCount n).toNat = (n.toNat + 99) / 100 := by omega
  rw [generateEndpointSliceList, Go.makeSlice_of_le sizes.maxAlloc_lt le_rfl (by omega) (by omega),
    slices]
  simp only [Option.bind_eq_bind, Option.pure_def, Int.toNat_zero, List.replicate_zero]
  split_ifs with tooMany
  · exact ⟨iff_of_true rfl (.inr (.inr (.inl tooMany))), returnsNothing⟩
  rw [Option.some_bind]
  cases run : appendSlices sizes [] 0 n with
  | none =>
      have loopPanics := (appendSlices_eq_none_iff sizes [] 0 n).mp run
      exact ⟨iff_of_true rfl (.inr (.inr (.inr loopPanics))), returnsNothing⟩
  | some out =>
      have length := (appendSlices_eq_some sizes run).1
      have fits := (appendSlices_eq_none_iff sizes [] 0 n).not.mp (by rw [run]; exact Option.some_ne_none out)
      rw [List.length_nil, Nat.zero_add] at length
      refine ⟨iff_of_false (Option.some_ne_none _) (by omega), fun list mem => ?_⟩
      rw [← Option.some.inj mem, length]
      omega

theorem generateEndpointSliceList_slicesCount_large :
    let sizes : Sizes := ⟨328, 96, 281474976710656, by decide⟩
    (-9223372036854775808 ≤ (1000000000000000 : Int) ∧ (1000000000000000 : Int) < 9223372036854775808) ∧
      (generateEndpointSliceList sizes 1000000000000000 = none ↔
        (1000000000000000 : Int) ≤ -199 ∨ 9223372036854775709 ≤ (1000000000000000 : Int) ∨
          sizes.maxAlloc < sizes.endpointSliceSize * (((1000000000000000 : Int).toNat + 99) / 100) ∨
          sizes.maxAlloc < sizes.endpointSize * min (1000000000000000 : Int).toNat 100) ∧
      ∀ list ∈ generateEndpointSliceList sizes 1000000000000000,
        slicesCount 1000000000000000 = list.items.length := by
  intro sizes
  have isInt : -9223372036854775808 ≤ (1000000000000000 : Int) ∧
      (1000000000000000 : Int) < 9223372036854775808 := by decide
  exact ⟨isInt, generateEndpointSliceList_slicesCount sizes 1000000000000000 isInt⟩

/-- Whatever list `generateEndpointSliceList(n)` returns holds, slice after slice, the endpoints
`m < n` with the address `10.0.(m / 100).(m % 100)`, all ready; no two share an address, and every
slice holds between one and `maxEndpointsPerSlice` of them. -/
theorem generateEndpointSliceList_endpoints {sizes : Sizes} {n : Int} {list : EndpointSliceList}
    (generated : generateEndpointSliceList sizes n = some list) :
    allEndpoints list.items = (List.range n.toNat).map (fun m => endpoint (m / 100) (m % 100)) ∧
      ((allEndpoints list.items).flatMap (·.addresses)).Nodup ∧
      ∀ slice ∈ list.items, 0 < slice.endpoints.length ∧ slice.endpoints.length ≤ 100 := by
  obtain ⟨made, make, generated⟩ := Option.bind_eq_some.mp generated
  obtain ⟨items, run, built⟩ := Option.bind_eq_some.mp generated
  obtain rfl : { items := items } = list := Option.some.inj built
  rw [Go.eq_replicate_of_makeSlice_eq_some make, Int.toNat_zero, List.replicate_zero] at run
  obtain ⟨-, sized, endpoints⟩ := appendSlices_eq_some sizes run
  rw [show allEndpoints [] = [] from rfl, List.nil_append] at endpoints
  simp only [Nat.zero_add] at endpoints
  dsimp only
  refine ⟨endpoints, endpoints ▸ nodup_addresses_range n.toNat, fun slice mem => ?_⟩
  simpa using sized slice mem

theorem generateEndpointSliceList_endpoints_one :
    let sizes : Sizes := ⟨328, 96, 281474976710656, by decide⟩
    let slice := endpointSlice 0 1 [default]
    generateEndpointSliceList sizes 1 = some { items := [slice] } ∧
      allEndpoints [slice] = (List.range (1 : Int).toNat).map (fun m => endpoint (m / 100) (m % 100)) ∧
      ((allEndpoints [slice]).flatMap (·.addresses)).Nodup ∧
      ∀ s ∈ [slice], 0 < s.endpoints.length ∧ s.endpoints.length ≤ 100 := by
  intro sizes slice
  have generated : generateEndpointSliceList sizes 1 = some { items := [slice] } := by
    rw [generateEndpointSliceList, Go.makeSlice_of_le sizes.maxAlloc_lt le_rfl (by decide) (by decide),
      if_neg (by decide)]
    simp only [Option.bind_eq_bind, Option.some_bind]
    rw [appendSlices_of_pos sizes (by decide), if_neg (by decide), appendSlices, if_neg (by decide)]
    rfl
  exact ⟨generated, generateEndpointSliceList_endpoints generated⟩

end Resolver

end NginxGateway
