import Mathlib.Data.List.Basic
import Mathlib.Data.String.Basic
import Mathlib.Data.Nat.Digits
import Mathlib.Tactic.Ring

/-!
# Decimal formatting

`fmt.Sprintf` with the verb `%d` writes a non-negative integer as its decimal digits, which is
`toString` of a natural number (`Nat.repr`, through `Nat.toDigits 10`). A decimal numeral
determines its number (`toString_injective`): read back digit by digit (`digitsValue`), it gives
the number again. It holds digits only (`isDigit_of_mem_toString`), so numerals joined by a dot
determine their numbers.
-/

namespace NginxGateway
namespace Go

/-- The value of a decimal digit. -/
def digitValue (c : Char) : Nat := c.toNat - '0'.toNat

/-- The number a list of decimal digits denotes, the most significant first. -/
def digitsValue (ds : List Char) : Nat := ds.foldl (fun acc c => 10 * acc + digitValue c) 0

theorem digitValue_digitChar {d : Nat} (hd : d < 10) : digitValue (Nat.digitChar d) = d :=
  (by decide : ∀ d < 10, digitValue (Nat.digitChar d) = d) d hd

theorem isDigit_digitChar {d : Nat} (hd : d < 10) : (Nat.digitChar d).isDigit = true :=
  (by decide : ∀ d < 10, (Nat.digitChar d).isDigit = true) d hd

theorem foldl_digitsValue (ds : List Char) (acc : Nat) :
    ds.foldl (fun acc c => 10 * acc + digitValue c) acc = acc * 10 ^ ds.length + digitsValue ds := by
  induction ds generalizing acc with
  | nil => simp [digitsValue]
  | cons d ds ih =>
      have cons : digitsValue (d :: ds) =
          ds.foldl (fun acc c => 10 * acc + digitValue c) (10 * 0 + digitValue d) := rfl
      rw [List.foldl_cons, cons, ih, ih, List.length_cons, pow_succ]
      ring

/-- `Nat.toDigitsCore` with enough fuel puts the digits of `n` in front of `ds`. -/
theorem digitsValue_toDigitsCore (fuel n : Nat) (ds : List Char) (enough : n < fuel) :
    digitsValue (Nat.toDigitsCore 10 fuel n ds) = n * 10 ^ ds.length + digitsValue ds := by
  induction fuel generalizing n ds with
  | zero => omega
  | succ fuel ih =>
      have last : digitsValue (Nat.digitChar (n % 10) :: ds) =
          n % 10 * 10 ^ ds.length + digitsValue ds := by
        rw [digitsValue, List.foldl_cons, foldl_digitsValue,
          digitValue_digitChar (Nat.mod_lt n (by omega)), Nat.mul_zero, Nat.zero_add]
      simp only [Nat.toDigitsCore]
      split_ifs with single
      · rw [last, Nat.mod_eq_of_lt (by omega)]
      · rw [ih (n / 10) _ (by omega), last, List.length_cons]
        conv_rhs => rw [← Nat.div_add_mod n 10]
        ring

theorem digitsValue_toDigits (n : Nat) : digitsValue (Nat.toDigits 10 n) = n := by
  simpa [digitsValue] using digitsValue_toDigitsCore (n + 1) n [] (by omega)

/-- Distinct numbers have distinct numerals. -/
theorem toString_injective : Function.Injective (toString : Nat → String) := fun a b same => by
  have digits : Nat.toDigits 10 a = Nat.toDigits 10 b := List.asString_inj.mp same
  rw [← digitsValue_toDigits a, digits, digitsValue_toDigits]

theorem isDigit_of_mem_toDigitsCore (fuel n : Nat) (ds : List Char) {c : Char}
    (mem : c ∈ Nat.toDigitsCore 10 fuel n ds) : c.isDigit = true ∨ c ∈ ds := by
  induction fuel generalizing n ds with
  | zero => exact .inr mem
  | succ fuel ih =>
      have digit := isDigit_digitChar (Nat.mod_lt n (show 10 > 0 by omega))
      simp only [Nat.toDigitsCore] at mem
      split_ifs at mem
      · rcases List.mem_cons.mp mem with rfl | mem
        exacts [.inl digit, .inr mem]
      · rcases ih _ _ mem with isDigit | mem
        · exact .inl isDigit
        · rcases List.mem_cons.mp mem with rfl | mem
          exacts [.inl digit, .inr mem]

/-- A numeral holds digits only. -/
theorem isDigit_of_mem_toString {n : Nat} {c : Char} (mem : c ∈ (toString n).data) :
    c.isDigit = true :=
  (isDigit_of_mem_toDigitsCore (n + 1) n [] mem).resolve_right (List.not_mem_nil c)

end Go
end NginxGateway
