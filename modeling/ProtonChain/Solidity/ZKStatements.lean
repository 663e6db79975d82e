import ProtonChain.Solidity.ZKVerifier

/-! Which entry points of the verifier can be asked the same question.

A list of public inputs is passed by an entry point exactly if it has the form that the types of
its arguments leave. Where two forms overlap, a proof that the one accepts is one that the other
accepts.
-/

set_option autoImplicit false

namespace ProtonChain

/-! ## Words -/

namespace Address

theorem bigEndian_append (first second : Bytes) :
    bigEndian (first ++ second) = bigEndian first * 256 ^ second.length + bigEndian second := by
  induction first with
  | nil => simp [bigEndian]
  | cons byte rest ih =>
    rw [List.cons_append, bigEndian, bigEndian, ih, List.length_append, Nat.pow_add, Nat.add_mul,
      Nat.mul_assoc, Nat.add_assoc]

/-- The highest first is the lowest first backwards. -/
theorem bigEndian_reverse (bytes : Bytes) : bigEndian bytes.reverse = Codec.ofBytes bytes := by
  induction bytes with
  | nil => rfl
  | cons byte rest ih =>
    rw [List.reverse_cons, bigEndian_append, ih, Codec.ofBytes]
    simp only [bigEndian, List.length_singleton, List.length_nil]
    omega

/-- The digits of a number that fits the width. -/
def digits (width value : Nat) : List.Vector UInt8 width :=
  ⟨(Codec.toBytes width value).reverse, by rw [List.length_reverse, Codec.length_toBytes]⟩

theorem bigEndian_digits {width value : Nat} (fits : value < 256 ^ width) :
    bigEndian (digits width value).toList = value := by
  have digits : (digits width value).toList = (Codec.toBytes width value).reverse := rfl
  rw [digits, bigEndian_reverse, Codec.ofBytes_toBytes, Nat.mod_eq_of_lt fits]

end Address

namespace Solidity.ProtonZKVerifier

theorem uint256_surjective : Function.Surjective uint256 := by
  intro word
  have fits : word.toNat < 256 ^ 32 := by
    have small := word.isLt
    omega
  refine ⟨⟨Address.digits 32 word.toNat⟩, ?_⟩
  rw [uint256, Address.bigEndian_digits fits, BitVec.ofNat_toNat, BitVec.setWidth_eq]

theorem exists_uint160_iff (word : U256) :
    (∃ account, uint160 account = word) ↔ word.toNat < 2 ^ 160 := by
  constructor
  · rintro ⟨account, rfl⟩
    have small := Address.bigEndian_lt account.asBytes.toList
    rw [List.Vector.toList_length] at small
    rw [uint160, BitVec.toNat_ofNat, Address.value]
    exact (Nat.mod_le _ _).trans_lt (small.trans_eq (by norm_num))
  · intro small
    have fits : word.toNat < 256 ^ 20 := small.trans_eq (by norm_num)
    refine ⟨⟨Address.digits 20 word.toNat⟩, ?_⟩
    rw [uint160, Address.value, Address.bigEndian_digits fits, BitVec.ofNat_toNat,
      BitVec.setWidth_eq]

/-! ## Forms -/

section Forms
variable (keccak256 : Bytes → List.Vector UInt8 32)

def Digest (word : U256) : Prop := ∃ data, uint256 (Hash.new keccak256 data) = word

/-- The lists of public inputs that an entry point passes on for some arguments. -/
def Fits : EntryPoint → List U256 → Prop
  | .transfer, inputs => inputs.length = 3
  | .batchTransfer, inputs => inputs ≠ []
  | .swap, inputs => inputs.length = 4
  | .stake, inputs => inputs.length = 3 ∧ ∀ word ∈ inputs.head?, word.toNat < 2 ^ 160
  | .metadata, inputs => inputs.length = 2 ∧ ∀ word ∈ inputs.getLast?, Digest keccak256 word
  | .nftOwnership, inputs => inputs.length = 3
  | .bridgeAmount, inputs => inputs.length = 2 ∧ ∀ word ∈ inputs.head?, word.toNat < 2 ^ 160
  | .merkle, inputs => inputs.length = 1
  | .merkleUpdate, inputs => inputs.length = 2
  | .viewKey, inputs => inputs.length = 2

theorem fits_publicInputs (statement : Statement) :
    Fits keccak256 statement.entryPoint (statement.publicInputs keccak256) := by
  cases statement with
  | transfer => rfl
  | batchTransfer nullifiers commitments root =>
    simp [Fits, Statement.entryPoint, Statement.publicInputs]
  | swap => rfl
  | stake validator commitment nullifier =>
    refine ⟨rfl, fun word found => ?_⟩
    obtain rfl := Option.some.inj found
    exact (exists_uint160_iff _).mp ⟨validator, rfl⟩
  | metadata metadataHash encryptedMetadata =>
    refine ⟨rfl, fun word found => ?_⟩
    obtain rfl := Option.some.inj found
    exact ⟨encryptedMetadata, rfl⟩
  | nftOwnership => rfl
  | bridgeAmount asset commitment =>
    refine ⟨rfl, fun word found => ?_⟩
    obtain rfl := Option.some.inj found
    exact (exists_uint160_iff _).mp ⟨asset, rfl⟩
  | merkle => rfl
  | merkleUpdate => rfl
  | viewKey => rfl

/-- Arguments for every list of the form. -/
theorem exists_statement_of_fits {entryPoint : EntryPoint} {inputs : List U256}
    (fits : Fits keccak256 entryPoint inputs) :
    ∃ statement : Statement, statement.entryPoint = entryPoint ∧
      statement.publicInputs keccak256 = inputs := by
  have hashOf := uint256_surjective
  cases entryPoint with
  | transfer =>
    obtain ⟨first, second, third, rfl⟩ := List.length_eq_three.mp fits
    obtain ⟨nullifier, rfl⟩ := hashOf first
    obtain ⟨commitment, rfl⟩ := hashOf second
    obtain ⟨root, rfl⟩ := hashOf third
    exact ⟨.transfer nullifier commitment root, rfl, rfl⟩
  | batchTransfer =>
    -- all words but the last are taken for nullifiers
    obtain ⟨before, last, rfl⟩ : ∃ before last, inputs = before ++ [last] :=
      ⟨_, _, (List.dropLast_append_getLast fits).symm⟩
    obtain ⟨nullifiers, rfl⟩ := hashOf.list_map before
    obtain ⟨root, rfl⟩ := hashOf last
    exact ⟨.batchTransfer nullifiers [] root, rfl, by simp [Statement.publicInputs]⟩
  | swap =>
    obtain ⟨first, second, third, fourth, rfl⟩ := List.length_eq_four.mp fits
    obtain ⟨pairHash, rfl⟩ := hashOf first
    obtain ⟨nullifier, rfl⟩ := hashOf second
    obtain ⟨amountIn, rfl⟩ := hashOf third
    obtain ⟨amountOut, rfl⟩ := hashOf fourth
    exact ⟨.swap pairHash nullifier amountIn amountOut, rfl, rfl⟩
  | stake =>
    obtain ⟨three, account⟩ := fits
    obtain ⟨first, second, third, rfl⟩ := List.length_eq_three.mp three
    obtain ⟨validator, rfl⟩ := (exists_uint160_iff first).mpr (account first rfl)
    obtain ⟨commitment, rfl⟩ := hashOf second
    obtain ⟨nullifier, rfl⟩ := hashOf third
    exact ⟨.stake validator commitment nullifier, rfl, rfl⟩
  | metadata =>
    obtain ⟨two, digest⟩ := fits
    obtain ⟨first, second, rfl⟩ := List.length_eq_two.mp two
    obtain ⟨metadataHash, rfl⟩ := hashOf first
    obtain ⟨data, rfl⟩ := digest second rfl
    exact ⟨.metadata metadataHash data, rfl, rfl⟩
  | nftOwnership =>
    obtain ⟨tokenId, second, third, rfl⟩ := List.length_eq_three.mp fits
    obtain ⟨currentStealth, rfl⟩ := hashOf second
    obtain ⟨nullifier, rfl⟩ := hashOf third
    exact ⟨.nftOwnership tokenId currentStealth nullifier, rfl, rfl⟩
  | bridgeAmount =>
    obtain ⟨two, account⟩ := fits
    obtain ⟨first, second, rfl⟩ := List.length_eq_two.mp two
    obtain ⟨asset, rfl⟩ := (exists_uint160_iff first).mpr (account first rfl)
    obtain ⟨commitment, rfl⟩ := hashOf second
    exact ⟨.bridgeAmount asset commitment, rfl, rfl⟩
  | merkle =>
    obtain ⟨first, rfl⟩ := List.length_eq_one_iff.mp fits
    obtain ⟨transferId, rfl⟩ := hashOf first
    exact ⟨.merkle transferId, rfl, rfl⟩
  | merkleUpdate =>
    obtain ⟨chainId, second, rfl⟩ := List.length_eq_two.mp fits
    obtain ⟨newRoot, rfl⟩ := hashOf second
    exact ⟨.merkleUpdate chainId newRoot, rfl, rfl⟩
  | viewKey =>
    obtain ⟨tokenId, second, rfl⟩ := List.length_eq_two.mp fits
    obtain ⟨key, rfl⟩ := hashOf second
    exact ⟨.viewKey tokenId key, rfl, rfl⟩

end Forms

/-- A call of another entry point with the same public inputs exists exactly where they have its
form, and then every proof is answered as by the first call. -/
theorem statements_overlap_iff (keccak256 : Bytes → List.Vector UInt8 32)
    (check : VerifyingKey → Proof → List U256 → Checked.Outcome VerifierError Bool)
    (verifier : ProtonZKVerifier) (first : Statement) :
    Fits keccak256 first.entryPoint (first.publicInputs keccak256) ∧
    (∀ entryPoint, (∃ second : Statement, second.entryPoint = entryPoint ∧
        second.publicInputs keccak256 = first.publicInputs keccak256) ↔
      Fits keccak256 entryPoint (first.publicInputs keccak256)) ∧
    (∀ second : Statement,
      second.publicInputs keccak256 = first.publicInputs keccak256 →
        ∀ proof, second.call keccak256 check verifier proof =
          first.call keccak256 check verifier proof) := by
  refine ⟨fits_publicInputs keccak256 first, fun entryPoint => ⟨?_, ?_⟩, ?_⟩
  · rintro ⟨second, rfl, same⟩
    rw [← same]
    exact fits_publicInputs keccak256 second
  · exact exists_statement_of_fits keccak256
  · intro second same proof
    rw [Statement.call_eq, Statement.call_eq, same]

/-- A transfer of the private token and the ownership of token 0 have the same public inputs. -/
theorem transfer_read_as_ownership :
    (Statement.transfer Hash.zero Hash.zero Hash.zero).entryPoint ≠
        (Statement.nftOwnership 0 Hash.zero Hash.zero).entryPoint ∧
      (Statement.transfer Hash.zero Hash.zero Hash.zero).publicInputs Sample.sha3 =
        (Statement.nftOwnership 0 Hash.zero Hash.zero).publicInputs Sample.sha3 := by
  have zero : uint256 Hash.zero = 0 := by decide
  constructor
  · decide
  · rw [Statement.publicInputs, Statement.publicInputs, zero]

end Solidity.ProtonZKVerifier

end ProtonChain
