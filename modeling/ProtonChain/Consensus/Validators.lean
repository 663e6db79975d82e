import ProtonChain.Types
import ProtonChain.Library.FiniteMap
import Mathlib.Data.Multiset.Sort
import Mathlib.Data.List.Lex

/-! Validators, the validator set and quorum certificates.

The total stake is a counter next to the map of validators. A certificate is an
arbitrary list of signed entries, which the verifier takes one after another.
-/

set_option autoImplicit false

namespace ProtonChain

namespace Address

def ordinals (address : Address) : List Nat :=
  address.asBytes.toList.map UInt8.toNat

theorem ordinals_injective : Function.Injective ordinals := by
  intro first second same
  have bytes := List.map_injective_iff.mpr (fun _ _ => UInt8.toNat_inj.mp) same
  cases first
  cases second
  exact congrArg Address.mk (Subtype.ext bytes)

/-- Byte order, as for arrays. -/
def le (first second : Address) : Prop := first.ordinals ≤ second.ordinals

instance : DecidableRel le := fun first second =>
  inferInstanceAs (Decidable (first.ordinals ≤ second.ordinals))

instance : IsTrans Address le := ⟨fun _ _ _ first second => le_trans first second⟩

instance : Std.Antisymm le :=
  ⟨fun _ _ first second => ordinals_injective (le_antisymm first second)⟩

instance : Std.Total le := ⟨fun first second => le_total first.ordinals second.ordinals⟩

end Address

namespace Consensus

inductive ConsensusPhase where
  | newView
  | prepare
  | preCommit
  | commit
  | decide
  deriving DecidableEq, Repr

structure QuorumCertificate where
  blockHash : Hash
  height : U64
  round : U64
  phase : ConsensusPhase
  signatures : List (Address × Bytes)
  timestamp : U64
  deriving DecidableEq

structure Validator where
  address : Address
  publicKey : Bytes
  stake : U128
  deriving DecidableEq

def Validator.verifySignature (secp : Secp256k1) (validator : Validator) (hash : Hash)
    (signature : Bytes) : Bool :=
  match secp.publicKeyFromSlice validator.publicKey with
  | none => false
  | some pubkey =>
    match secp.messageFromSlice hash.asBytes.toList with
    | none => false
    | some msg =>
      match secp.signatureFromCompact signature with
      | none => false
      | some sig => secp.verifyEcdsa msg sig pubkey

/-- Every validator is stored under its own address. -/
structure ValidatorSet where
  validators : HashMap Address Validator
  totalStake : U128
  keyed : ∀ address validator, validators.lookup address = some validator →
    validator.address = address

namespace ValidatorSet

def new : ValidatorSet := ⟨∅, 0, by simp⟩

def addValidator (set : ValidatorSet) (validator : Validator) : ValidatorSet where
  validators := set.validators.insert validator.address validator
  -- added also where the insertion replaces an entry
  totalStake := set.totalStake + validator.stake
  keyed := by
    intro address found lookup
    by_cases same : address = validator.address
    · subst same
      rw [Finmap.lookup_insert, Option.some.injEq] at lookup
      rw [lookup]
    · rw [Finmap.lookup_insert_of_ne _ same] at lookup
      exact set.keyed address found lookup

def getValidator (set : ValidatorSet) (address : Address) : Option Validator :=
  set.validators.lookup address

/-- The addresses in byte order, one taken by the round. -/
def getLeader (set : ValidatorSet) (round : U64) : Option Address :=
  let sorted := (set.validators.entries.map fun entry => entry.2.address).sort Address.le
  if sorted.isEmpty then none else sorted[round.toNat % sorted.length]?

def validatorCount (set : ValidatorSet) : Nat := set.validators.keys.card

end ValidatorSet

namespace QuorumCertificate

/-- One entry of the loop in `verify`. -/
def countEntry (secp : Secp256k1) (set : ValidatorSet) (hash : Hash) (stakeWeight : U128)
    (entry : Address × Bytes) : U128 :=
  -- the entries counted before are not remembered
  match set.getValidator entry.1 with
  | none => stakeWeight
  | some validator =>
    if validator.verifySignature secp hash entry.2 then stakeWeight + validator.stake
    else stakeWeight

def threshold (set : ValidatorSet) : U128 := set.totalStake * 2 / 3

def verify (secp : Secp256k1) (set : ValidatorSet) (qc : QuorumCertificate) : Bool :=
  decide (threshold set ≤ qc.signatures.foldl (countEntry secp set qc.blockHash) 0)

end QuorumCertificate

end Consensus
end ProtonChain
