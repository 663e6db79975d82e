import Mathlib.Data.Finset.Card
import ProtonChain.Types

/-! The encrypted mempool and the shares that decrypt it.

The number of shares is compared with the threshold, and the key is the exclusive or of all of
them: neither who gave a share nor whether it adds anything to the key is looked at.
-/

set_option autoImplicit false

namespace ProtonChain.Privacy

structure EncryptedTransaction where
  ciphertext : Bytes
  nonce : List.Vector UInt8 12
  senderPubkey : List.Vector UInt8 32
  gasPriceCommitment : List.Vector UInt8 32
  timestamp : U64
  deriving DecidableEq

/-- ChaCha20-Poly1305 and bincode, as the mempool calls them. -/
structure MempoolCrates where
  decrypt : Bytes → List.Vector UInt8 12 → Bytes → Option Bytes
  deserialize : Bytes → Option Transaction

structure EncryptedMempool where
  encryptedTxs : List EncryptedTransaction
  decryptionThreshold : Nat
  deriving DecidableEq

def mixShare (key share : Bytes) : Bytes :=
  (share.take 32).zipIdx.foldl (fun key (byte, i) => key.modify i (· ^^^ byte)) key

def combineShares (shares : List Bytes) : Bytes := shares.foldl mixShare (List.replicate 32 0)

namespace EncryptedMempool
variable (crates : MempoolCrates) (mempool : EncryptedMempool)

def new (threshold : Nat) : EncryptedMempool := ⟨[], threshold⟩

def addEncryptedTx (tx : EncryptedTransaction) : EncryptedMempool :=
  { mempool with encryptedTxs := mempool.encryptedTxs ++ [tx] }

def opened (key : Bytes) : List Transaction :=
  mempool.encryptedTxs.filterMap fun encTx =>
    (crates.decrypt key encTx.nonce encTx.ciphertext).bind crates.deserialize

def decryptBatch (validatorShares : List Bytes) : Except String (List Transaction) :=
  if validatorShares.length < mempool.decryptionThreshold then
    .error "Insufficient validator shares"
  else .ok (mempool.opened crates (combineShares validatorShares))

def contributions (shares : List Bytes) : Finset Bytes := shares.toFinset.erase []

/-- Fewer contributions than the threshold asks for do not decrypt. -/
def NeedsThreshold (shares : List Bytes) : Prop :=
  (contributions shares).card < mempool.decryptionThreshold →
    ∃ fault, mempool.decryptBatch crates shares = .error fault

variable {crates mempool} {shares : List Bytes}

theorem decryptBatch_of_few (few : shares.length < mempool.decryptionThreshold) :
    mempool.decryptBatch crates shares = .error "Insufficient validator shares" := if_pos few

theorem decryptBatch_of_enough (enough : mempool.decryptionThreshold ≤ shares.length) :
    mempool.decryptBatch crates shares = .ok (mempool.opened crates (combineShares shares)) :=
  if_neg (Nat.not_lt.mpr enough)

/-- Decryption needs the contributions of as many validators as the threshold says exactly if
there are not even as many shares, or as many of them are distinct and not empty. -/
theorem needsThreshold_iff (crates : MempoolCrates) (mempool : EncryptedMempool)
    (shares : List Bytes) :
    NeedsThreshold crates mempool shares ↔
      shares.length < mempool.decryptionThreshold ∨
        mempool.decryptionThreshold ≤ (contributions shares).card := by
  unfold NeedsThreshold
  by_cases few : shares.length < mempool.decryptionThreshold
  · simp [decryptBatch_of_few few, few]
  · simp [decryptBatch_of_enough (Nat.not_lt.mp few), few]

end EncryptedMempool

/-! ## A concrete mempool -/

namespace Sample

/-- No key opens a ciphertext that is shorter than its tag. -/
def mempoolCrates : MempoolCrates where
  decrypt _ _ ciphertext := if ciphertext.length < 16 then none else some ciphertext
  deserialize _ := none

def mempool : EncryptedMempool :=
  (EncryptedMempool.new 3).addEncryptedTx
    { ciphertext := [1, 2, 3]
      nonce := List.Vector.replicate 12 0
      senderPubkey := List.Vector.replicate 32 1
      gasPriceCommitment := List.Vector.replicate 32 2
      timestamp := 0 }

end Sample

/-- One share three times, or one share and two empty ones, are three shares. -/
theorem repeated_share_decrypts :
    ¬ EncryptedMempool.NeedsThreshold Sample.mempoolCrates Sample.mempool
        (List.replicate 3 (List.replicate 32 1)) ∧
      ¬ EncryptedMempool.NeedsThreshold Sample.mempoolCrates Sample.mempool
        [List.replicate 32 1, [], []] := by
  constructor
  · intro needs
    obtain ⟨fault, failed⟩ := needs (by decide)
    cases failed
  · intro needs
    obtain ⟨fault, failed⟩ := needs (by decide)
    cases failed

end ProtonChain.Privacy
