import ProtonChain.Bincode
import ProtonChain.Library.Runs
import Mathlib.Data.Set.Function

/-! Stealth addresses and their recognition.

An address is derived from both keys and a counter. Its owner finds the counter again by
deriving a window of addresses and comparing view tags; the other half of an address is not
compared.
-/

set_option autoImplicit false

namespace ProtonChain

/-- The ephemeral key hides the nonce, and the view tag hides the ephemeral key. -/
def StealthAddress.derive (sha3 : Sha3) (viewKey spendKey : Bytes) (nonce : U64) :
    StealthAddress :=
  let ephemeral := sha3 (viewKey ++ toLeBytes nonce)
  let viewTag := sha3 (spendKey ++ ephemeral.toList)
  ⟨ephemeral, viewTag⟩

namespace Privacy

structure StealthAddressGenerator where
  viewKeyBase : List.Vector UInt8 32
  spendKeyBase : List.Vector UInt8 32
  nonceCounter : U64
  deriving DecidableEq

namespace StealthAddressGenerator

def new (viewKey spendKey : List.Vector UInt8 32) : StealthAddressGenerator :=
  ⟨viewKey, spendKey, 0⟩

section Derivation
variable (sha3 : Sha3) (generator : StealthAddressGenerator)

def address (nonce : U64) : StealthAddress :=
  StealthAddress.derive sha3 generator.viewKeyBase.toList generator.spendKeyBase.toList nonce

def ephemeralKey (nonce : U64) : List.Vector UInt8 32 :=
  sha3 (generator.spendKeyBase.toList ++ toLeBytes nonce)

/-- The counter is advanced first, so nonces start from 1. -/
def generate : (StealthAddress × List.Vector UInt8 32) × StealthAddressGenerator :=
  let nonce := generator.nonceCounter + 1
  ((generator.address sha3 nonce, generator.ephemeralKey sha3 nonce),
    { generator with nonceCounter := nonce })

/-- The loop over the nonces from 0 on that returns at the first equal view tag. -/
def checkOwnership (stealth : StealthAddress) : Option (List.Vector UInt8 32) :=
  (List.range 10000).findSome? fun nonce =>
    let expected := generator.address sha3 (BitVec.ofNat 64 nonce)
    if expected.encryptedViewTag = stealth.encryptedViewTag then
      some (generator.ephemeralKey sha3 (BitVec.ofNat 64 nonce))
    else none

/-- The messages that the derivations of all addresses of the generator hash. -/
def derivationMessages : Set Bytes :=
  {message | ∃ nonce, message = generator.viewKeyBase.toList ++ toLeBytes nonce ∨
    message =
      generator.spendKeyBase.toList ++ (generator.address sha3 nonce).ephemeralPubkey.toList}

def CollisionFree : Prop := Set.InjOn sha3 (generator.derivationMessages sha3)

def generated (calls : Nat) :
    List (StealthAddress × List.Vector UInt8 32) × StealthAddressGenerator :=
  Runs.run (fun generator (_ : Unit) => generate sha3 generator) generator (List.replicate calls ())

end Derivation

/-- The owner finds every address again, with its key. -/
def Recognizes (sha3 : Sha3) (generator : StealthAddressGenerator) (calls : Nat) : Prop :=
  ∀ entry ∈ (generator.generated sha3 calls).1,
    (generator.generated sha3 calls).2.checkOwnership sha3 entry.1 = some entry.2

/-- Whatever is recognized is an address of the generator, with its key. -/
def RecognizesOwn (sha3 : Sha3) (generator : StealthAddressGenerator) (stealth : StealthAddress) :
    Prop :=
  ∀ key, generator.checkOwnership sha3 stealth = some key →
    ∃ nonce, stealth = generator.address sha3 nonce ∧ key = generator.ephemeralKey sha3 nonce

/-! ## Derivation without collisions -/

section Tags
variable {sha3 : Sha3} {generator : StealthAddressGenerator}

theorem viewTag_injective (free : generator.CollisionFree sha3) :
    Function.Injective fun nonce => (generator.address sha3 nonce).encryptedViewTag := by
  intro first second same
  have tagged := free ⟨first, .inr rfl⟩ ⟨second, .inr rfl⟩ same
  have ephemeral := List.Vector.eq _ _ (List.append_cancel_left tagged)
  have derived := free ⟨first, .inl rfl⟩ ⟨second, .inl rfl⟩ ephemeral
  exact toLeBytes_injective (List.append_cancel_left derived)

/-! ## The window of the search -/

theorem nonce_of_checkOwnership {stealth : StealthAddress} {key : List.Vector UInt8 32}
    (found : generator.checkOwnership sha3 stealth = some key) :
    ∃ nonce : U64, nonce.toNat < 10000 ∧
      (generator.address sha3 nonce).encryptedViewTag = stealth.encryptedViewTag ∧
      key = generator.ephemeralKey sha3 nonce := by
  obtain ⟨index, member, tested⟩ := List.exists_of_findSome?_eq_some found
  have bound := List.mem_range.mp member
  obtain ⟨tagged, same⟩ := Option.ite_none_right_eq_some.mp tested
  refine ⟨BitVec.ofNat 64 index, ?_, tagged, (Option.some.inj same).symm⟩
  rw [BitVec.toNat_ofNat]
  omega

theorem checkOwnership_of_viewTag (free : generator.CollisionFree sha3) {nonce : U64}
    (window : nonce.toNat < 10000) {stealth : StealthAddress}
    (tagged : (generator.address sha3 nonce).encryptedViewTag = stealth.encryptedViewTag) :
    generator.checkOwnership sha3 stealth = some (generator.ephemeralKey sha3 nonce) := by
  cases found : generator.checkOwnership sha3 stealth with
  | none =>
    have missed := List.findSome?_eq_none_iff.mp found nonce.toNat (List.mem_range.mpr window)
    simp [tagged] at missed
  | some key =>
    obtain ⟨other, -, tagged', rfl⟩ := nonce_of_checkOwnership found
    rw [viewTag_injective free (tagged'.trans tagged.symm)]

/-- The addresses of later nonces are not found. -/
theorem checkOwnership_of_late (free : generator.CollisionFree sha3) {nonce : U64}
    (late : 10000 ≤ nonce.toNat) :
    generator.checkOwnership sha3 (generator.address sha3 nonce) = none := by
  cases found : generator.checkOwnership sha3 (generator.address sha3 nonce) with
  | none => rfl
  | some key =>
    obtain ⟨other, window, tagged, -⟩ := nonce_of_checkOwnership found
    rw [viewTag_injective free tagged] at window
    omega

end Tags

/-! ## Generated addresses -/

section Generated
variable (sha3 : Sha3) (viewKey spendKey : List.Vector UInt8 32)

theorem generated_concat (generator : StealthAddressGenerator) (calls : Nat) :
    generator.generated sha3 (calls + 1) =
      ((generator.generated sha3 calls).1 ++
        [((generator.generated sha3 calls).2.generate sha3).1],
      ((generator.generated sha3 calls).2.generate sha3).2) := by
  unfold generated
  rw [List.replicate_succ', Runs.run_concat]

theorem generated_eq (calls : Nat) :
    (new viewKey spendKey).generated sha3 calls =
      ((List.range calls).map fun index =>
          ((new viewKey spendKey).address sha3 (BitVec.ofNat 64 (index + 1)),
            (new viewKey spendKey).ephemeralKey sha3 (BitVec.ofNat 64 (index + 1))),
        ⟨viewKey, spendKey, BitVec.ofNat 64 calls⟩) := by
  induction calls with
  | zero => rfl
  | succ calls ih =>
    have advanced : BitVec.ofNat 64 calls + 1 = BitVec.ofNat 64 (calls + 1) :=
      (BitVec.ofNat_add calls 1).symm
    rw [generated_concat, ih, List.range_succ, List.map_append, List.map_singleton]
    simp only [generate, advanced]
    rfl

variable {sha3 viewKey spendKey}

/-- The call that takes the first nonce outside the window loses its address. -/
theorem not_recognizes_of_many (free : (new viewKey spendKey).CollisionFree sha3) {calls : Nat}
    (many : 10000 ≤ calls) : ¬ Recognizes sha3 (new viewKey spendKey) calls := by
  unfold Recognizes
  rw [generated_eq]
  intro recognizes
  have member : 9999 ∈ List.range calls := List.mem_range.mpr (by omega)
  have found := recognizes _ (List.mem_map_of_mem member)
  have late : 10000 ≤ (BitVec.ofNat 64 (9999 + 1)).toNat := by decide
  have lost := checkOwnership_of_late free late
  exact absurd (lost.symm.trans found) (by simp)

/-- The owner finds all addresses again exactly as long as there are fewer than ten thousand. -/
theorem recognizes_iff (free : (new viewKey spendKey).CollisionFree sha3) (calls : Nat) :
    Recognizes sha3 (new viewKey spendKey) calls ↔ calls < 10000 := by
  constructor
  · intro recognizes
    by_contra many
    exact not_recognizes_of_many free (Nat.not_lt.mp many) recognizes
  · unfold Recognizes
    rw [generated_eq]
    intro few entry member
    obtain ⟨index, bound, rfl⟩ := List.mem_map.mp member
    have early := List.mem_range.mp bound
    apply checkOwnership_of_viewTag free ?_ rfl
    rw [BitVec.toNat_ofNat]
    omega

end Generated

/-! ## Foreign addresses -/

/-- Recognition is sound for an address exactly if no view tag of the window belongs to it, or
the address is the one with this view tag as a whole. -/
theorem recognizesOwn_iff {sha3 : Sha3} {generator : StealthAddressGenerator}
    (free : generator.CollisionFree sha3) (stealth : StealthAddress) :
    RecognizesOwn sha3 generator stealth ↔
      ∀ nonce : U64, nonce.toNat < 10000 →
        (generator.address sha3 nonce).encryptedViewTag = stealth.encryptedViewTag →
        (generator.address sha3 nonce).ephemeralPubkey = stealth.ephemeralPubkey := by
  constructor
  · intro sound nonce window tagged
    obtain ⟨other, whole, -⟩ := sound _ (checkOwnership_of_viewTag free window tagged)
    rw [whole] at tagged ⊢
    rw [viewTag_injective free tagged]
  · intro whole key found
    obtain ⟨nonce, window, tagged, rfl⟩ := nonce_of_checkOwnership found
    refine ⟨nonce, ?_, rfl⟩
    have ephemeral := whole nonce window tagged
    cases stealth
    simp only at tagged ephemeral
    rw [← tagged, ← ephemeral]

/-! ## A concrete generator -/

namespace Sample

/-- The first byte of the digest is the kind of the message. -/
def digest (kind : UInt8) (data : Bytes) : List.Vector UInt8 32 :=
  ⟨kind :: (data ++ List.replicate 31 0).take 31, by
    rw [List.length_cons, List.length_take, List.length_append, List.length_replicate]
    omega⟩

/-- A key with a nonce is told from a key with an ephemeral key by its length. -/
def sha3 : Sha3 := fun data =>
  if data.length = 40 then digest 0 (data.drop 9) else digest 1 (data.drop 33)

def generator : StealthAddressGenerator :=
  new (List.Vector.replicate 32 1) (List.Vector.replicate 32 2)

theorem digest_toList {kind : UInt8} {data : Bytes} (full : data.length = 31) :
    (digest kind data).toList = kind :: data := by
  change kind :: (data ++ List.replicate 31 0).take 31 = kind :: data
  rw [← full, List.take_left]

theorem ephemeral_toList (nonce : U64) :
    (generator.address sha3 nonce).ephemeralPubkey.toList =
      0 :: (generator.viewKeyBase.toList.drop 9 ++ toLeBytes nonce) := by
  change (digest 0 (generator.viewKeyBase.toList.drop 9 ++ toLeBytes nonce)).toList = _
  exact digest_toList rfl

theorem viewTag_toList (nonce : U64) :
    (generator.address sha3 nonce).encryptedViewTag.toList =
      1 :: (generator.viewKeyBase.toList.drop 9 ++ toLeBytes nonce) := by
  change (sha3 (generator.spendKeyBase.toList ++
    (generator.address sha3 nonce).ephemeralPubkey.toList)).toList = _
  rw [ephemeral_toList]
  change (digest 1 (generator.viewKeyBase.toList.drop 9 ++ toLeBytes nonce)).toList = _
  exact digest_toList rfl

/-- The first byte tells the kinds of messages apart, and the last eight are the nonce. -/
theorem collisionFree : generator.CollisionFree sha3 := by
  rintro _ ⟨first, rfl | rfl⟩ _ ⟨second, rfl | rfl⟩ same
  · have bytes : (generator.address sha3 first).ephemeralPubkey.toList =
        (generator.address sha3 second).ephemeralPubkey.toList := congrArg _ same
    rw [ephemeral_toList, ephemeral_toList] at bytes
    rw [toLeBytes_injective (List.append_cancel_left (List.cons.inj bytes).2)]
  · have bytes : (generator.address sha3 first).ephemeralPubkey.toList =
        (generator.address sha3 second).encryptedViewTag.toList := congrArg _ same
    rw [ephemeral_toList, viewTag_toList] at bytes
    exact absurd (List.cons.inj bytes).1 (by decide)
  · have bytes : (generator.address sha3 first).encryptedViewTag.toList =
        (generator.address sha3 second).ephemeralPubkey.toList := congrArg _ same
    rw [ephemeral_toList, viewTag_toList] at bytes
    exact absurd (List.cons.inj bytes).1 (by decide)
  · have bytes : (generator.address sha3 first).encryptedViewTag.toList =
        (generator.address sha3 second).encryptedViewTag.toList := congrArg _ same
    rw [viewTag_toList, viewTag_toList] at bytes
    rw [toLeBytes_injective (List.append_cancel_left (List.cons.inj bytes).2)]

/-- An address of the generator with another ephemeral key. -/
def altered : StealthAddress :=
  { generator.address sha3 1 with ephemeralPubkey := List.Vector.replicate 32 99 }

end Sample

theorem recognizes_two : Recognizes Sample.sha3 Sample.generator 2 :=
  (recognizes_iff Sample.collisionFree 2).mpr (by decide)

/-- The address of the ten thousandth call is lost to its owner. -/
theorem ten_thousandth_is_lost :
    Sample.generator.CollisionFree Sample.sha3 ∧
      ¬ Recognizes Sample.sha3 Sample.generator 10000 :=
  ⟨Sample.collisionFree, not_recognizes_of_many Sample.collisionFree (Nat.le_refl 10000)⟩

theorem derived_is_recognizedOwn :
    RecognizesOwn Sample.sha3 Sample.generator (Sample.generator.address Sample.sha3 7) := by
  refine (recognizesOwn_iff Sample.collisionFree _).mpr ?_
  intro nonce window tagged
  rw [viewTag_injective Sample.collisionFree tagged]

/-- An address whose ephemeral key was replaced is taken for one of the generator. -/
theorem altered_is_recognized :
    Sample.generator.CollisionFree Sample.sha3 ∧
      ¬ RecognizesOwn Sample.sha3 Sample.generator Sample.altered := by
  refine ⟨Sample.collisionFree, ?_⟩
  intro sound
  have window : (1 : U64).toNat < 10000 := by decide
  obtain ⟨nonce, whole, -⟩ := sound _ (checkOwnership_of_viewTag Sample.collisionFree window rfl)
  have bytes := congrArg (fun stealth => stealth.ephemeralPubkey.toList) whole
  simp only [Sample.ephemeral_toList] at bytes
  exact absurd (List.cons.inj bytes).1 (by decide)

end StealthAddressGenerator

end Privacy

end ProtonChain
