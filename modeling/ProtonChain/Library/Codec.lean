import Mathlib.Data.Vector.Basic
import Mathlib.Algebra.Order.Ring.Nat

/-! Binary codecs that are read from the front.

A codec reads back what it wrote, in front of any other bytes. It may refuse
values, such as lists too long for the width of their length.
-/

set_option autoImplicit false

structure Codec (A : Type) where
  fits : A → Bool
  encode : A → List UInt8
  decode : List UInt8 → Option (A × List UInt8)
  decode_encode : ∀ value rest, fits value = true →
    decode (encode value ++ rest) = some (value, rest)

namespace Codec

variable {A B : Type}

/-! ## Integers -/

/-- The value of little-endian digits. -/
def ofBytes : List UInt8 → Nat
  | [] => 0
  | byte :: rest => byte.toNat + 256 * ofBytes rest

/-- The digits of a value, the lowest first. -/
def toBytes (width value : Nat) : List UInt8 :=
  (List.range width).map fun index => UInt8.ofNat (value / 256 ^ index)

theorem length_toBytes (width value : Nat) : (toBytes width value).length = width := by
  rw [toBytes, List.length_map, List.length_range]

theorem toBytes_succ (width value : Nat) :
    toBytes (width + 1) value = UInt8.ofNat value :: toBytes width (value / 256) := by
  rw [toBytes, List.range_succ_eq_map, List.map_cons, List.map_map, pow_zero, Nat.div_one, toBytes]
  refine congrArg _ (List.map_congr_left fun index _ => ?_)
  rw [Function.comp_apply, Nat.succ_eq_add_one, pow_succ', Nat.div_div_eq_div_mul]

theorem ofBytes_toBytes (width value : Nat) :
    ofBytes (toBytes width value) = value % 256 ^ width := by
  induction width generalizing value with
  | zero => rw [pow_zero, Nat.mod_one]; rfl
  | succ width ih =>
    rw [toBytes_succ, ofBytes, ih, pow_succ', Nat.mod_mul]
    rfl

theorem ofBytes_append (first rest : List UInt8) :
    ofBytes (first ++ rest) = ofBytes first + 256 ^ first.length * ofBytes rest := by
  induction first with
  | nil => rw [List.nil_append, ofBytes, List.length_nil, pow_zero, Nat.one_mul, Nat.zero_add]
  | cons byte first ih =>
    rw [List.cons_append, ofBytes, ofBytes, ih, List.length_cons, pow_succ', Nat.mul_add,
      Nat.add_assoc, Nat.mul_assoc]

theorem toBytes_ofBytes (bytes : List UInt8) : toBytes bytes.length (ofBytes bytes) = bytes := by
  induction bytes with
  | nil => rfl
  | cons byte bytes ih =>
    have small : byte.toNat < 256 := byte.toNat_lt
    have low : UInt8.ofNat (byte.toNat + 256 * ofBytes bytes) = byte := by
      rw [← UInt8.toNat_inj, UInt8.toNat_ofNat']
      omega
    have rest : (byte.toNat + 256 * ofBytes bytes) / 256 = ofBytes bytes := by omega
    rw [List.length_cons, toBytes_succ, ofBytes, low, rest, ih]

theorem ofBytes_lt (bytes : List UInt8) : ofBytes bytes < 256 ^ bytes.length := by
  induction bytes with
  | nil => exact Nat.one_pos
  | cons byte bytes ih =>
    have small : byte.toNat < 256 := byte.toNat_lt
    rw [ofBytes, List.length_cons, pow_succ']
    omega

/-- Byte strings of one length are known by their value. -/
theorem eq_of_ofBytes_eq {first second : List UInt8} (lengths : first.length = second.length)
    (same : ofBytes first = ofBytes second) : first = second := by
  rw [← toBytes_ofBytes first, ← toBytes_ofBytes second, lengths, same]

/-- Split off the first bytes, all of them or none. -/
def split (count : Nat) (data : List UInt8) : Option (List UInt8 × List UInt8) :=
  if count ≤ data.length then some (data.take count, data.drop count) else none

theorem split_append {count : Nat} {first : List UInt8} (exact : first.length = count)
    (rest : List UInt8) : split count (first ++ rest) = some (first, rest) := by
  subst exact
  rw [split, if_pos (by simp), List.take_left, List.drop_left]

/-- A machine word of so many bytes. -/
def word (width : Nat) : Codec (BitVec (8 * width)) where
  fits _ := true
  encode value := toBytes width value.toNat
  decode data :=
    (split width data).map fun (digits, rest) => (BitVec.ofNat _ (ofBytes digits), rest)
  decode_encode value rest _ := by
    have small : value.toNat < 256 ^ width := by
      rw [show (256 : Nat) = 2 ^ 8 from rfl, ← pow_mul]
      exact value.isLt
    simp only [split_append (length_toBytes _ _), Option.map_some, ofBytes_toBytes,
      Nat.mod_eq_of_lt small, BitVec.ofNat_toNat, BitVec.setWidth_eq]

/-! ## Byte strings -/

/-- An array carries no length. -/
def array (count : Nat) : Codec (List.Vector UInt8 count) where
  fits _ := true
  encode value := value.toList
  decode data :=
    if enough : count ≤ data.length then
      some (⟨data.take count, List.length_take_of_le enough⟩, data.drop count)
    else none
  decode_encode value rest _ := by
    have enough : count ≤ (value.toList ++ rest).length := by
      rw [List.length_append, value.toList_length]
      exact Nat.le_add_right _ _
    have first : (value.toList ++ rest).take count = value.toList :=
      List.take_left' value.toList_length
    have later : (value.toList ++ rest).drop count = rest := List.drop_left' value.toList_length
    rw [dif_pos enough, later]
    exact congrArg (fun value => some (value, rest)) (Subtype.ext first)

/-- A byte string after its length in eight bytes. -/
def bytes : Codec (List UInt8) where
  fits value := decide (value.length < 256 ^ 8)
  encode value := toBytes 8 value.length ++ value
  decode data := (split 8 data).bind fun (digits, rest) => split (ofBytes digits) rest
  decode_encode value rest fits := by
    have small : value.length < 256 ^ 8 := of_decide_eq_true fits
    simp only [List.append_assoc, split_append (length_toBytes _ _), Option.bind_some,
      ofBytes_toBytes, Nat.mod_eq_of_lt small, split_append rfl]

/-! ## Compound values -/

def pair (first : Codec A) (second : Codec B) : Codec (A × B) where
  fits value := first.fits value.1 && second.fits value.2
  encode value := first.encode value.1 ++ second.encode value.2
  decode data := (first.decode data).bind fun (left, rest) =>
    (second.decode rest).map fun (right, rest) => ((left, right), rest)
  decode_encode value rest fits := by
    obtain ⟨left, right⟩ := (Bool.and_eq_true _ _).mp fits
    simp only [List.append_assoc, first.decode_encode _ _ left, Option.bind_some,
      second.decode_encode _ _ right, Option.map_some]

/-- A tag before the value. -/
def option (codec : Codec A) : Codec (Option A) where
  fits value := value.all codec.fits
  encode
    | none => [0]
    | some value => 1 :: codec.encode value
  decode
    | 0 :: rest => some (none, rest)
    | 1 :: rest => (codec.decode rest).map fun (value, rest) => (some value, rest)
    | _ => none
  decode_encode value rest fits := by
    cases value with
    | none => rfl
    | some value =>
      change (codec.decode (codec.encode value ++ rest)).map _ = _
      rw [codec.decode_encode value rest fits, Option.map_some]

def bool : Codec Bool where
  fits _ := true
  encode value := [if value then 1 else 0]
  decode
    | 0 :: rest => some (false, rest)
    | 1 :: rest => some (true, rest)
    | _ => none
  decode_encode value rest _ := by cases value <;> rfl

/-- The same bytes under another type. -/
def through (codec : Codec A) (make : A → B) (fields : B → A)
    (inverse : ∀ value, make (fields value) = value) : Codec B where
  fits value := codec.fits (fields value)
  encode value := codec.encode (fields value)
  decode data := (codec.decode data).map fun (value, rest) => (make value, rest)
  decode_encode value rest fits := by
    simp only [codec.decode_encode _ _ fits, Option.map_some, inverse]

/-! ## One value after another -/

/-- Values that all fit and leave bytes need neither a length nor separators. -/
theorem flatMap_encode_injective (codec : Codec A) (fits : ∀ value, codec.fits value = true)
    (filled : ∀ value, codec.encode value ≠ []) :
    Function.Injective fun values : List A => values.flatMap codec.encode := by
  intro first second same
  induction first generalizing second with
  | nil =>
    cases second with
    | nil => rfl
    | cons head rest =>
      change [] = codec.encode head ++ rest.flatMap codec.encode at same
      exact absurd (List.append_eq_nil_iff.mp same.symm).1 (filled head)
  | cons value values ih =>
    cases second with
    | nil =>
      change codec.encode value ++ values.flatMap codec.encode = [] at same
      exact absurd (List.append_eq_nil_iff.mp same).1 (filled value)
    | cons head rest =>
      -- both sides are read back from the front
      change codec.encode value ++ values.flatMap codec.encode =
        codec.encode head ++ rest.flatMap codec.encode at same
      have read := codec.decode_encode value (values.flatMap codec.encode) (fits value)
      rw [same, codec.decode_encode head _ (fits head)] at read
      obtain ⟨rfl, tails⟩ := Prod.mk.inj (Option.some.inj read)
      rw [ih tails.symm]

end Codec
