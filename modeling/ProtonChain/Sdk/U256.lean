import Mathlib.Algebra.Order.Group.Unbundled.Int
import Mathlib.Data.Finset.Max
import Mathlib.Data.Fintype.Basic
import Mathlib.Order.Bounds.Basic
import Mathlib.Order.Fin.Basic
import Mathlib.Tactic.LinearCombination
import ProtonChain.Library.Codec
import ProtonChain.Library.Limbs
import ProtonChain.Types

/-! The large integers of the contract kit.

The limbs stand lowest first in addition, subtraction, conversion and encoding. The
comparison is derived from the array and reads them in the same order, so the lowest limb
in which two integers differ decides it.
-/

set_option autoImplicit false

namespace ProtonChain.Sdk

open Limbs

structure U256 where
  limbs : List.Vector U64 4
  deriving DecidableEq

namespace U256

def one : U256 := ⟨⟨[1, 0, 0, 0], rfl⟩⟩

def toLeBytes (self : U256) : Bytes := self.limbs.toList.flatMap ProtonChain.toLeBytes

/-- The loop of `Add` and `Sub`: both flags of a limb go into the next one. -/
def limbLoop (overflowing : U64 → U64 → U64 × Bool) (carry : U64) : List U64 → List U64 → List U64
  | limb :: self, limb' :: rhs =>
    let (result, flag) := overflowing limb limb'
    let (result, flag') := overflowing result carry
    result :: limbLoop overflowing (if flag || flag' then 1 else 0) self rhs
  | _, _ => []

theorem length_limbLoop (overflowing : U64 → U64 → U64 × Bool) (carry : U64)
    {self rhs : List U64} (lengths : self.length = rhs.length) :
    (limbLoop overflowing carry self rhs).length = self.length := by
  induction self generalizing rhs carry with
  | nil => rfl
  | cons limb self ih =>
    cases rhs with
    | nil => cases lengths
    | cons limb' rhs =>
      rw [limbLoop, List.length_cons, List.length_cons, ih _ (Nat.succ_inj.mp lengths)]

theorem length_eq (self rhs : U256) : self.limbs.toList.length = rhs.limbs.toList.length := by
  rw [self.limbs.toList_length, rhs.limbs.toList_length]

def add (self rhs : U256) : U256 :=
  ⟨⟨limbLoop overflowingAdd 0 self.limbs.toList rhs.limbs.toList,
    (length_limbLoop _ _ (length_eq self rhs)).trans self.limbs.toList_length⟩⟩

def sub (self rhs : U256) : U256 :=
  ⟨⟨limbLoop overflowingSub 0 self.limbs.toList rhs.limbs.toList,
    (length_limbLoop _ _ (length_eq self rhs)).trans self.limbs.toList_length⟩⟩

instance : Add U256 := ⟨add⟩

instance : Sub U256 := ⟨sub⟩

/-- `From<u128>`: the halves of the integer in the two lowest limbs. -/
def ofU128 (value : U128) : U256 :=
  ⟨⟨[value.setWidth 64, (value >>> 64).setWidth 64, 0, 0], rfl⟩⟩

/-- The derived order: arrays compare from their first element. -/
instance : LT U256 := ⟨fun self other => self.limbs.toList < other.limbs.toList⟩

instance (self other : U256) : Decidable (self < other) :=
  inferInstanceAs (Decidable (self.limbs.toList < other.limbs.toList))

/-! ## Values -/

def value (self : U256) : Nat := Limbs.value self.limbs.toList

theorem value_lt (self : U256) : self.value < 2 ^ 256 := by
  have bound := Limbs.value_lt self.limbs.toList
  rwa [self.limbs.toList_length] at bound

theorem eq_of_value_eq {first second : U256} (same : first.value = second.value) :
    first = second := by
  cases first
  cases second
  exact congrArg U256.mk
    (List.Vector.eq _ _ (value_injective (by simp) same))

/-- What a loop keeps of each limb: with its sign, the result is exact up to a carry. -/
def Exact (sign : Int) (overflowing : U64 → U64 → U64 × Bool) : Prop :=
  ∀ limb limb' carry : U64, carry.toNat ≤ 1 →
    ((overflowing (overflowing limb limb').1 carry).1.toNat : Int) =
      limb.toNat + sign * (limb'.toNat + carry.toNat - 2 ^ 64 *
        ((overflowing limb limb').2 || (overflowing (overflowing limb limb').1 carry).2).toNat)

theorem exact_add : Exact 1 overflowingAdd := by
  intro limb limb' carry bit
  have step := add_carry_exact limb limb' bit
  omega

theorem exact_sub : Exact (-1) overflowingSub := by
  intro limb limb' borrow bit
  have step := sub_borrow_exact limb limb' bit
  omega

theorem toNat_carry (flag : Bool) : (if flag then 1 else 0 : U64).toNat = flag.toNat := by
  cases flag <;> rfl

/-- The run of the loop: what leaves the last limb is all that is lost. -/
theorem value_limbLoop {sign : Int} {overflowing : U64 → U64 → U64 × Bool}
    (exact : Exact sign overflowing) (carry : U64) (bit : carry.toNat ≤ 1) {self rhs : List U64}
    (lengths : self.length = rhs.length) :
    ∃ out : Int, (Limbs.value (limbLoop overflowing carry self rhs) : Int) = Limbs.value self +
      sign * (Limbs.value rhs + carry.toNat - 2 ^ (64 * self.length) * out) := by
  induction self generalizing rhs carry with
  | nil =>
    obtain rfl := List.length_eq_zero_iff.mp lengths.symm
    exact ⟨carry.toNat, by simp [limbLoop, Limbs.value]⟩
  | cons limb self ih =>
    cases rhs with
    | nil => cases lengths
    | cons limb' rhs =>
      have step := exact limb limb' carry bit
      have small := Bool.toNat_le ((overflowing limb limb').2 ||
        (overflowing (overflowing limb limb').1 carry).2)
      obtain ⟨out, rest⟩ := ih _ ((toNat_carry _).trans_le small) (Nat.succ_inj.mp lengths)
      refine ⟨out, ?_⟩
      rw [toNat_carry] at rest
      rw [limbLoop, Limbs.value, Limbs.value, Limbs.value, List.length_cons, Nat.mul_succ, pow_add]
      push_cast
      linear_combination step + 2 ^ 64 * rest

/-! ## Arithmetic -/

section Arithmetic
variable (first second : U256)

theorem value_op {sign : Int} {overflowing : U64 → U64 → U64 × Bool}
    (exact : Exact sign overflowing) :
    (Limbs.value (limbLoop overflowing 0 first.limbs.toList second.limbs.toList) : Int) %
      2 ^ 256 = (first.value + sign * second.value) % 2 ^ 256 := by
  obtain ⟨out, run⟩ := value_limbLoop exact 0 (Nat.zero_le _) (length_eq first second)
  rw [first.limbs.toList_length] at run
  have exactly : (Limbs.value (limbLoop overflowing 0 first.limbs.toList second.limbs.toList) :
      Int) = first.value + sign * second.value + 2 ^ 256 * (-(sign * out)) := by
    have zero : ((0 : U64).toNat : Int) = 0 := rfl
    rw [run, value, value, zero]
    ring
  rw [exactly, Int.add_mul_emod_self_left]

theorem value_emod : (first.value : Int) % 2 ^ 256 = first.value :=
  Int.emod_eq_of_lt (Int.natCast_nonneg _) (by exact_mod_cast first.value_lt)

theorem value_add : ((first + second).value : Int) = (first.value + second.value) % 2 ^ 256 := by
  have sum := value_op first second exact_add
  rw [Int.one_mul] at sum
  rw [← value_emod]
  exact sum

theorem value_sub : ((first - second).value : Int) = (first.value - second.value) % 2 ^ 256 := by
  have difference := value_op first second exact_sub
  rw [Int.neg_one_mul, ← Int.sub_eq_add_neg] at difference
  rw [← value_emod]
  exact difference

theorem add_sub_cancel : first + second - second = first := by
  apply eq_of_value_eq
  have back := value_sub (first + second) second
  rw [value_add, Int.emod_sub_emod, Int.add_sub_cancel, value_emod] at back
  exact Int.ofNat_inj.mp back

theorem value_ofU128 (given : U128) : (ofU128 given).value = given.toNat := by
  have small := given.isLt
  change Limbs.value [given.setWidth 64, (given >>> 64).setWidth 64, (0 : U64), 0] = given.toNat
  have zero : (0 : U64).toNat = 0 := rfl
  simp only [Limbs.value, BitVec.toNat_setWidth, BitVec.toNat_ushiftRight,
    Nat.shiftRight_eq_div_pow, zero]
  omega

end Arithmetic

/-! ## Encoding -/

theorem ofBytes_flatMap (limbs : List U64) :
    Codec.ofBytes (limbs.flatMap ProtonChain.toLeBytes) = Limbs.value limbs := by
  induction limbs with
  | nil => rfl
  | cons limb limbs ih =>
    have small : limb.toNat < 256 ^ 8 := limb.isLt
    have head : Codec.ofBytes (ProtonChain.toLeBytes limb) = limb.toNat :=
      (Codec.ofBytes_toBytes 8 limb.toNat).trans (Nat.mod_eq_of_lt small)
    have length : (ProtonChain.toLeBytes limb).length = 8 := Codec.length_toBytes 8 limb.toNat
    rw [List.flatMap_cons, Codec.ofBytes_append, head, length, ih, Limbs.value]
    rfl

theorem length_toLeBytes (self : U256) : self.toLeBytes.length = 32 := by
  have limb (word : U64) : (ProtonChain.toLeBytes word).length = 8 :=
    Codec.length_toBytes 8 word.toNat
  rw [toLeBytes, List.length_flatMap, List.map_congr_left fun word _ => limb word,
    List.map_const', self.limbs.toList_length]
  rfl

theorem toLeBytes_eq (self : U256) : self.toLeBytes = Codec.toBytes 32 self.value := by
  have bytes := Codec.toBytes_ofBytes self.toLeBytes
  rw [length_toLeBytes, toLeBytes, ofBytes_flatMap] at bytes
  exact bytes.symm

/-- On values the operators are those of the integers modulo 2^256. -/
theorem arithmetic_is_modular :
    (∀ a b : U256, ((a + b).value : Int) = (a.value + b.value) % 2 ^ 256) ∧
    (∀ a b : U256, ((a - b).value : Int) = (a.value - b.value) % 2 ^ 256) ∧
    (∀ a b : U256, a + b - b = a) ∧
    (∀ given : U128, (ofU128 given).value = given.toNat) ∧
    ∀ a : U256, a.toLeBytes = Codec.toBytes 32 a.value ∧ Codec.ofBytes a.toLeBytes = a.value :=
  ⟨value_add, value_sub, add_sub_cancel, value_ofU128, fun a =>
    ⟨toLeBytes_eq a, ofBytes_flatMap a.limbs.toList⟩⟩

/-! ## Order -/

def limb (self : U256) (position : Fin 4) : U64 := self.limbs.get position

theorem getElem?_limbs (self : U256) (position : Fin 4) :
    self.limbs.toList[position.val]? = some (self.limb position) := by
  rw [limb, List.Vector.get_eq_get_toList, List.getElem?_eq_getElem]
  rfl

/-- The limbs in which two integers differ. -/
def differing (first second : U256) : Finset (Fin 4) :=
  {position | first.limb position ≠ second.limb position}

@[simp] theorem mem_differing {first second : U256} {position : Fin 4} :
    position ∈ differing first second ↔ first.limb position ≠ second.limb position := by
  simp [differing]

theorem getElem?_eq {first second : U256} {index : Nat}
    (same : ∀ position : Fin 4, position.val = index → position ∉ differing first second) :
    first.limbs.toList[index]? = second.limbs.toList[index]? := by
  by_cases within : index < 4
  · have equal := not_not.mp (mt mem_differing.mpr (same ⟨index, within⟩ rfl))
    have here := getElem?_limbs first ⟨index, within⟩
    have here' := getElem?_limbs second ⟨index, within⟩
    exact here.trans ((congrArg some equal).trans here'.symm)
  · rw [List.getElem?_eq_none (by rw [first.limbs.toList_length]; omega),
      List.getElem?_eq_none (by rw [second.limbs.toList_length]; omega)]

variable {first second : U256}

theorem lt_iff_of_isLeast {low : Fin 4} (lowest : IsLeast (differing first second) low) :
    first < second ↔ first.limb low < second.limb low := by
  apply lt_iff_lowest (getElem?_limbs first low) (getElem?_limbs second low)
    (mem_differing.mp lowest.1)
  intro index below
  apply getElem?_eq
  rintro position rfl differs
  exact absurd (lowest.2 differs) (not_le.mpr below)

theorem value_lt_iff_of_isGreatest {high : Fin 4}
    (highest : IsGreatest (differing first second) high) :
    first.value < second.value ↔ first.limb high < second.limb high := by
  apply value_lt_iff_highest (getElem?_limbs first high) (getElem?_limbs second high)
    (mem_differing.mp highest.1)
  intro index above
  apply getElem?_eq
  rintro position rfl differs
  exact absurd (highest.2 differs) (not_le.mpr above)

theorem eq_of_differing_empty (empty : differing first second = ∅) : first = second := by
  have limbs : first.limbs.toList = second.limbs.toList := by
    apply List.ext_getElem?
    intro index
    apply getElem?_eq
    intro position _
    rw [empty]
    exact Finset.notMem_empty position
  cases first
  cases second
  exact congrArg U256.mk (List.Vector.eq _ _ limbs)

/-- The lowest and the highest limb in which two integers differ put the same one first. -/
def SameDirection (first second : U256) : Prop :=
  ∀ low high : Fin 4, IsLeast (differing first second) low →
    IsGreatest (differing first second) high →
    (first.limb low < second.limb low ↔ first.limb high < second.limb high)

/-- The derived order is the numeric one exactly on the pairs whose lowest and highest
differing limbs agree. -/
theorem lt_iff_value_lt_iff (a b : U256) :
    ((a < b) ↔ a.value < b.value) ↔ SameDirection a b := by
  rcases Finset.eq_empty_or_nonempty (differing a b) with empty | some
  · obtain rfl := eq_of_differing_empty empty
    refine iff_of_true (iff_of_false (List.lt_irrefl _) (Nat.lt_irrefl _)) ?_
    intro low high lowest
    have inside : low ∈ differing a a := lowest.1
    rw [empty] at inside
    cases Finset.notMem_empty low inside
  · obtain ⟨least, inside, below⟩ := Finset.exists_min_image (differing a b) id some
    obtain ⟨greatest, inside', above⟩ := Finset.exists_max_image (differing a b) id some
    have lowest : IsLeast (differing a b) least := ⟨inside, below⟩
    have highest : IsGreatest (differing a b) greatest := ⟨inside', above⟩
    rw [lt_iff_of_isLeast lowest, value_lt_iff_of_isGreatest highest]
    constructor
    · intro agree low high lowest' highest'
      rwa [lowest'.unique lowest, highest'.unique highest]
    · intro same
      exact same least greatest lowest highest

/-- 2^64 stands before one. -/
theorem wide_before_one :
    (⟨⟨[0, 1, 0, 0], rfl⟩⟩ : U256) < one ∧
      ¬ (⟨⟨[0, 1, 0, 0], rfl⟩⟩ : U256).value < one.value := by
  decide

end U256
end ProtonChain.Sdk
