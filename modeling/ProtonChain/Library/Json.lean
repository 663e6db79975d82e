import Mathlib.Data.List.Basic
import Mathlib.Data.Vector.Basic

/-! JSON texts of numbers and of arrays of numbers.

Digits never meet the comma or the brackets, so a text has one reading: numbers have different
texts, and so have two arrays of one length.
-/

set_option autoImplicit false

namespace Json

def comma : UInt8 := 44

def decimal (number : Nat) : List UInt8 :=
  (Nat.toDigits 10 number).map fun digit => UInt8.ofNat digit.toNat

/-- Numbers with a comma between two of them. -/
def elements : List Nat → List UInt8
  | [] => []
  | [number] => decimal number
  | number :: next :: rest => decimal number ++ comma :: elements (next :: rest)

/-- The elements between square brackets. -/
def array (numbers : List Nat) : List UInt8 := 91 :: elements numbers ++ [93]

def trueText : List UInt8 := [116, 114, 117, 101]

/-- `false` -/
def falseText : List UInt8 := [102, 97, 108, 115, 101]

/-- Space, tab, line feed and carriage return. -/
def isWhitespace (code : UInt8) : Bool := code = 32 || code = 9 || code = 10 || code = 13

def trim (text : List UInt8) : List UInt8 :=
  ((text.dropWhile isWhitespace).reverse.dropWhile isWhitespace).reverse

theorem digit_bounds {number : Nat} {digit : Char} (member : digit ∈ Nat.toDigits 10 number) :
    48 ≤ digit.toNat ∧ digit.toNat ≤ 57 := by
  have isDigit := Nat.isDigit_of_mem_toDigits (by decide) (le_refl 10) member
  simpa [Char.isDigit, UInt32.le_iff_toNat_le] using isDigit

theorem comma_notMem_decimal (number : Nat) : comma ∉ decimal number := by
  intro member
  obtain ⟨digit, listed, same⟩ := List.mem_map.mp member
  have bounds := digit_bounds listed
  have code := congrArg UInt8.toNat same
  rw [UInt8.toNat_ofNat', Nat.mod_eq_of_lt (by omega)] at code
  have : comma.toNat = 44 := rfl
  omega

theorem decimal_injective : Function.Injective decimal := by
  -- the digits are read back from their codes, the number from its digits
  have chars (number : Nat) :
      (decimal number).map (fun code => Char.ofNat code.toNat) = Nat.toDigits 10 number := by
    rw [decimal, List.map_map]
    refine (List.map_congr_left fun digit member => ?_).trans (List.map_id _)
    have bounds := digit_bounds member
    rw [Function.comp_apply, UInt8.toNat_ofNat', Nat.mod_eq_of_lt (by omega), Char.ofNat_toNat]
    rfl
  intro first second same
  have digits : Nat.toDigits 10 first = Nat.toDigits 10 second := by
    rw [← chars, ← chars, same]
  rw [← Nat.ofDigitChars_ten_toDigits (n := first), digits, Nat.ofDigitChars_ten_toDigits]

/-- Two texts are cut alike at their first separator. -/
theorem separated_inj {separator : UInt8} {first first' rest rest' : List UInt8}
    (absent : separator ∉ first) (absent' : separator ∉ first')
    (same : first ++ separator :: rest = first' ++ separator :: rest') :
    first = first' ∧ rest = rest' := by
  rcases List.append_eq_append_iff.mp same with ⟨between, rfl, cut⟩ | ⟨between, rfl, cut⟩
  · cases between with
    | nil => exact ⟨(List.append_nil _).symm, (List.cons.inj cut).2⟩
    | cons code between =>
      exact (absent' (by simp [(List.cons.inj cut).1])).elim
  · cases between with
    | nil => exact ⟨List.append_nil _, ((List.cons.inj cut).2).symm⟩
    | cons code between =>
      exact (absent (by simp [(List.cons.inj cut).1])).elim

theorem elements_inj {first second : List Nat} (length : first.length = second.length)
    (same : elements first = elements second) : first = second := by
  induction first using elements.induct generalizing second with
  | case1 => exact (List.eq_nil_of_length_eq_zero length.symm).symm
  | case2 number =>
    obtain ⟨other, rfl⟩ := List.length_eq_one_iff.mp length.symm
    exact congrArg (fun value => [value]) (decimal_injective same)
  | case3 number next rest ih =>
    match second, length with
    | other :: next' :: rest', length =>
      -- the first comma ends the first number of both texts
      obtain ⟨head, tail⟩ := separated_inj (comma_notMem_decimal number)
        (comma_notMem_decimal other) same
      rw [decimal_injective head, ih (by simpa using length) tail]

theorem array_inj {first second : List Nat} (length : first.length = second.length)
    (same : array first = array second) : first = second :=
  elements_inj length (List.append_cancel_right (List.cons.inj same).2)

end Json
