import ProtonChain.Contracts.Nft
import ProtonChain.Library.History

/-! Which entries the maps of the collection hold.

A token is minted once and keeps its kind. Its owner is in the map of that kind, and every other
map has entries of minted tokens only.
-/

set_option autoImplicit false

namespace ProtonChain.Contracts.ProtonNFT

open Checked

/-- What an input that goes through does to the collection. -/
inductive Effect {World : Type} (sha3 : Sha3) (nft : ProtonNFT) :
    Input World → ProtonNFT → Prop where
  | minted (caller : Address) (timestamp : U64) (receiver : Address) (metadata : String)
    (token : TokenData) (labelled : token.tokenId = nft.totalSupply + 1)
    (isPublic : token.isPrivate = false) :
    Effect sha3 nft (.call caller timestamp (.mint receiver metadata))
      { nft with
        totalSupply := nft.totalSupply + 1
        tokens := nft.tokens.insert (nft.totalSupply + 1) token
        owners := nft.owners.insert (nft.totalSupply + 1) receiver }
  | privatelyMinted (caller : Address) (timestamp : U64) (toStealth : StealthAddress)
    (encryptedMetadata : Bytes) (metadataHash : Hash) (zkProof : Bytes) (token : TokenData)
    (labelled : token.tokenId = nft.totalSupply + 1) (isPrivate : token.isPrivate = true) :
    Effect sha3 nft
      (.call caller timestamp (.mintPrivate toStealth encryptedMetadata metadataHash zkProof))
      { nft with
        totalSupply := nft.totalSupply + 1
        tokens := nft.tokens.insert (nft.totalSupply + 1) token
        privateOwners := nft.privateOwners.insert (nft.totalSupply + 1) toStealth
        encryptedMetadata :=
          nft.encryptedMetadata.insert (nft.totalSupply + 1) encryptedMetadata }
  | transferred (caller : Address) (timestamp : U64) (sender receiver : Address) (tokenId : U256)
    (token : TokenData) (approved : isApprovedOrOwner sha3 nft sender tokenId = true)
    (found : nft.tokens.lookup tokenId = some token) (isPublic : token.isPrivate = false) :
    Effect sha3 nft (.call caller timestamp (.transfer sender receiver tokenId))
      { nft with
        owners := nft.owners.insert tokenId receiver
        approvals := nft.approvals.erase tokenId }
  | privatelyTransferred (caller : Address) (timestamp : U64) (tokenId : U256)
    (toStealth : StealthAddress) (proof : Bytes) (nullifier newCommitment : Hash)
    (owned : tokenId ∈ nft.privateOwners) :
    Effect sha3 nft
      (.call caller timestamp (.privateTransfer tokenId toStealth proof nullifier newCommitment))
      { nft with
        nullifiers := insert nullifier nft.nullifiers
        privateOwners := nft.privateOwners.insert tokenId toStealth }
  | approved (caller : Address) (timestamp : U64) (receiver : Address) (tokenId : U256)
    (owned : nft.owners.lookup tokenId = some caller) :
    Effect sha3 nft (.call caller timestamp (.approve receiver tokenId))
      { nft with approvals := nft.approvals.insert tokenId receiver }
  | approvedForAll (caller : Address) (timestamp : U64) (operator : Address) (approved : Bool) :
    Effect sha3 nft (.call caller timestamp (.setApprovalForAll operator approved))
      { nft with
        operatorApprovals := nft.operatorApprovals.insert (caller, operator) approved }
  | outside (world : World) : Effect sha3 nft (.outside world) nft

section Effects
variable {World : Type} {host : NftHost World} {state next : State World} {input : Input World}

theorem perform_effect (performed : perform host state input = .ok next) :
    Effect host.sha3 state.nft input next.nft := by
  cases input with
  | outside world =>
    obtain rfl := Except.ok.inj performed
    exact .outside world
  | call caller timestamp call =>
    cases call with
    | mint receiver metadata =>
      simp only [perform, mint, bind_eq_ok, ensure_eq_ok, pure_eq_ok] at performed
      obtain ⟨minted, ⟨-, -, rfl⟩, rfl⟩ := performed
      exact .minted caller timestamp receiver metadata _ rfl rfl
    | mintPrivate toStealth encryptedMetadata metadataHash zkProof =>
      simp only [perform, mintPrivate, bind_eq_ok, ensure_eq_ok, pure_eq_ok] at performed
      obtain ⟨minted, ⟨-, -, -, -, rfl⟩, rfl⟩ := performed
      exact .privatelyMinted caller timestamp toStealth encryptedMetadata metadataHash zkProof _
        rfl rfl
    | transfer sender receiver tokenId =>
      simp only [perform, transfer, bind_eq_ok, ensure_eq_ok, demand_eq_ok, pure_eq_ok]
        at performed
      obtain ⟨-, approved, token, found, -, isPublic, rfl⟩ := performed
      exact .transferred caller timestamp sender receiver tokenId token approved found
        (by simpa using isPublic)
    | privateTransfer tokenId toStealth proof nullifier newCommitment =>
      simp only [perform, privateTransfer, bind_eq_ok, ensure_eq_ok, demand_eq_ok, pure_eq_ok]
        at performed
      obtain ⟨token, -, -, -, stealth, owned, -, -, -, -, rfl⟩ := performed
      exact .privatelyTransferred caller timestamp tokenId toStealth proof nullifier newCommitment
        (Finmap.mem_of_lookup_eq_some owned)
    | approve receiver tokenId =>
      simp only [perform, approve, bind_eq_ok, ensure_eq_ok, demand_eq_ok, pure_eq_ok]
        at performed
      obtain ⟨owner, owned, -, rfl, rfl⟩ := performed
      exact .approved owner timestamp receiver tokenId owned
    | setApprovalForAll operator approved =>
      obtain rfl := Except.ok.inj performed
      exact .approvedForAll caller timestamp operator approved

/-- Both ways to mint. -/
def Input.mints : Input World → Bool
  | .call _ _ (.mint _ _) => true
  | .call _ _ (.mintPrivate _ _ _ _) => true
  | _ => false

theorem mintedId_of_ok (performed : perform host state input = .ok next) :
    mintedId host state input =
      if input.mints then some (state.nft.totalSupply + 1) else none := by
  cases input with
  | outside world => rfl
  | call caller timestamp call =>
    cases call with
    | mint receiver metadata =>
      simp only [perform, mint, bind_eq_ok, ensure_eq_ok, pure_eq_ok] at performed
      obtain ⟨-, ⟨-, owner, -⟩, -⟩ := performed
      simp only [mintedId, mint, ensure, owner, if_true]
      rfl
    | mintPrivate toStealth encryptedMetadata metadataHash zkProof =>
      simp only [perform, mintPrivate, bind_eq_ok, ensure_eq_ok, pure_eq_ok] at performed
      obtain ⟨-, ⟨-, owner, -, proved, -⟩, -⟩ := performed
      simp only [mintedId, mintPrivate, ensure, owner, proved, if_true]
      rfl
    | _ => rfl

theorem mintedId_of_not_succeeds
    (failed : ¬ Transactions.Succeeds (perform host) state input) :
    mintedId host state input = none := by
  cases input with
  | outside world => rfl
  | call caller timestamp call =>
    cases call with
    | mint receiver metadata =>
      cases minted : mint host caller state timestamp receiver metadata with
      | error fault => rw [mintedId, minted]; rfl
      | ok pair => exact absurd ⟨pair.2, by rw [perform, minted]; rfl⟩ failed
    | mintPrivate toStealth encryptedMetadata metadataHash zkProof =>
      cases minted : mintPrivate host caller state timestamp toStealth encryptedMetadata
          metadataHash zkProof with
      | error fault => rw [mintedId, minted]; rfl
      | ok pair => exact absurd ⟨pair.2, by rw [perform, minted]; rfl⟩ failed
    | _ => rfl

end Effects

/-! ## Consistent maps -/

/-- The entries of the maps, by the token that they are about. -/
structure Consistent (nft : ProtonNFT) : Prop where
  minted : ∀ tokenId, tokenId ∈ nft.tokens ↔
    1 ≤ tokenId.toNat ∧ tokenId.toNat ≤ nft.totalSupply.toNat
  labelled : ∀ tokenId token, nft.tokens.lookup tokenId = some token → token.tokenId = tokenId
  publiclyOwned : ∀ tokenId token, nft.tokens.lookup tokenId = some token →
    token.isPrivate = false → tokenId ∈ nft.owners ∧ tokenId ∉ nft.privateOwners
  privatelyOwned : ∀ tokenId token, nft.tokens.lookup tokenId = some token →
    token.isPrivate = true → tokenId ∉ nft.owners ∧ tokenId ∈ nft.privateOwners
  others : ∀ tokenId, tokenId ∈ nft.owners ∨ tokenId ∈ nft.privateOwners ∨
    tokenId ∈ nft.encryptedMetadata ∨ tokenId ∈ nft.approvals → tokenId ∈ nft.tokens
  approved : ∀ tokenId ∈ nft.approvals, ∃ token,
    nft.tokens.lookup tokenId = some token ∧ token.isPrivate = false

theorem consistent_new : Consistent new where
  minted tokenId := by
    have zero : new.totalSupply.toNat = 0 := rfl
    exact iff_of_false Finmap.notMem_empty (by omega)
  labelled tokenId token found := by simp [new] at found
  publiclyOwned tokenId token found := by simp [new] at found
  privatelyOwned tokenId token found := by simp [new] at found
  others tokenId listed := by
    rcases listed with listed | listed | listed | listed <;> exact absurd listed Finmap.notMem_empty
  approved tokenId listed := absurd listed Finmap.notMem_empty

section Consistent
variable {World : Type} {sha3 : Sha3} {nft next : ProtonNFT} {input : Input World}

theorem Consistent.fresh (consistent : Consistent nft)
    (room : nft.totalSupply.toNat + 1 < 2 ^ 256) : nft.totalSupply + 1 ∉ nft.tokens := by
  have next : (nft.totalSupply + 1).toNat = nft.totalSupply.toNat + 1 :=
    BitVec.toNat_add_of_lt room
  rw [consistent.minted, next]
  omega

/-- A mint of either kind, by what it does to an id. -/
theorem Consistent.mint (consistent : Consistent nft)
    (room : nft.totalSupply.toNat + 1 < 2 ^ 256) (token : TokenData)
    (labelled : token.tokenId = nft.totalSupply + 1)
    (owners : HashMap U256 Address) (privateOwners : HashMap U256 StealthAddress)
    (encryptedMetadata : HashMap U256 Bytes)
    (kept : ∀ tokenId, tokenId ≠ nft.totalSupply + 1 →
      (tokenId ∈ owners ↔ tokenId ∈ nft.owners) ∧
      (tokenId ∈ privateOwners ↔ tokenId ∈ nft.privateOwners) ∧
      (tokenId ∈ encryptedMetadata ↔ tokenId ∈ nft.encryptedMetadata))
    (publiclyOwned : token.isPrivate = false →
      nft.totalSupply + 1 ∈ owners ∧ nft.totalSupply + 1 ∉ privateOwners)
    (privatelyOwned : token.isPrivate = true →
      nft.totalSupply + 1 ∉ owners ∧ nft.totalSupply + 1 ∈ privateOwners) :
    Consistent { nft with
      totalSupply := nft.totalSupply + 1
      tokens := nft.tokens.insert (nft.totalSupply + 1) token
      owners := owners
      privateOwners := privateOwners
      encryptedMetadata := encryptedMetadata } := by
  have next : (nft.totalSupply + 1).toNat = nft.totalSupply.toNat + 1 :=
    BitVec.toNat_add_of_lt room
  have fresh := consistent.fresh room
  have apart {tokenId : U256} {old : TokenData} (found : nft.tokens.lookup tokenId = some old) :
      tokenId ≠ nft.totalSupply + 1 := by
    rintro rfl
    exact fresh (Finmap.mem_of_lookup_eq_some found)
  constructor
  · intro tokenId
    rw [Finmap.mem_insert, consistent.minted, next, ← BitVec.toNat_inj, next]
    omega
  · exact FiniteMap.forall_lookup_insert labelled consistent.labelled
  · refine FiniteMap.forall_lookup_insert publiclyOwned fun tokenId old found isPublic => ?_
    obtain ⟨ownersKept, privateKept, -⟩ := kept tokenId (apart found)
    have owned := consistent.publiclyOwned tokenId old found isPublic
    exact ⟨ownersKept.mpr owned.1, fun hidden => owned.2 (privateKept.mp hidden)⟩
  · refine FiniteMap.forall_lookup_insert privatelyOwned fun tokenId old found isPrivate => ?_
    obtain ⟨ownersKept, privateKept, -⟩ := kept tokenId (apart found)
    have owned := consistent.privatelyOwned tokenId old found isPrivate
    exact ⟨fun shown => owned.1 (ownersKept.mp shown), privateKept.mpr owned.2⟩
  · intro tokenId listed
    rw [Finmap.mem_insert]
    by_cases same : tokenId = nft.totalSupply + 1
    · exact .inl same
    · obtain ⟨ownersKept, privateKept, metadataKept⟩ := kept tokenId same
      refine .inr (consistent.others tokenId ?_)
      rwa [ownersKept, privateKept, metadataKept] at listed
  · intro tokenId listed
    obtain ⟨old, found, isPublic⟩ := consistent.approved tokenId listed
    exact ⟨old, (Finmap.lookup_insert_of_ne _ (apart found)).trans found, isPublic⟩

theorem Consistent.isPublic (consistent : Consistent nft) {tokenId : U256}
    (owned : tokenId ∈ nft.owners) :
    ∃ token, nft.tokens.lookup tokenId = some token ∧ token.isPrivate = false := by
  obtain ⟨token, found⟩ := Finmap.mem_iff.mp (consistent.others tokenId (.inl owned))
  refine ⟨token, found, ?_⟩
  cases kind : token.isPrivate with
  | false => rfl
  | true => exact absurd owned (consistent.privatelyOwned tokenId token found kind).1

theorem Consistent.congr (consistent : Consistent nft)
    (supply : next.totalSupply = nft.totalSupply) (tokens : next.tokens = nft.tokens)
    (owners : ∀ tokenId, tokenId ∈ next.owners ↔ tokenId ∈ nft.owners)
    (privateOwners : ∀ tokenId, tokenId ∈ next.privateOwners ↔ tokenId ∈ nft.privateOwners)
    (encryptedMetadata : next.encryptedMetadata = nft.encryptedMetadata)
    (approvals : ∀ tokenId ∈ next.approvals, tokenId ∈ nft.approvals ∨ tokenId ∈ nft.owners) :
    Consistent next where
  minted tokenId := by
    rw [tokens, supply]
    exact consistent.minted tokenId
  labelled tokenId token found := by
    rw [tokens] at found
    exact consistent.labelled tokenId token found
  publiclyOwned tokenId token found isPublic := by
    rw [tokens] at found
    rw [owners, privateOwners]
    exact consistent.publiclyOwned tokenId token found isPublic
  privatelyOwned tokenId token found isPrivate := by
    rw [tokens] at found
    rw [owners, privateOwners]
    exact consistent.privatelyOwned tokenId token found isPrivate
  others tokenId listed := by
    rw [owners, privateOwners, encryptedMetadata] at listed
    rw [tokens]
    apply consistent.others
    rcases listed with owned | hidden | listed | listed
    · exact .inl owned
    · exact .inr (.inl hidden)
    · exact .inr (.inr (.inl listed))
    · exact (approvals tokenId listed).elim (fun listed => .inr (.inr (.inr listed))) .inl
  approved tokenId listed := by
    rw [tokens]
    rcases approvals tokenId listed with listed | owned
    · exact consistent.approved tokenId listed
    · exact consistent.isPublic owned

theorem Consistent.effect (consistent : Consistent nft)
    (room : input.mints = true → nft.totalSupply.toNat + 1 < 2 ^ 256)
    (effect : Effect sha3 nft input next) : Consistent next := by
  cases effect with
  | minted caller timestamp receiver metadata token labelled isPublic =>
    have fresh := consistent.fresh (room rfl)
    refine consistent.mint (room rfl) token labelled _ _ _ (fun tokenId apart => ⟨?_, ?_, ?_⟩)
      (fun _ => ⟨?_, ?_⟩) (fun isPrivate => absurd (isPublic.symm.trans isPrivate) (by simp))
    · exact FiniteMap.mem_insert_of_ne receiver apart
    · exact Iff.rfl
    · exact Iff.rfl
    · exact Finmap.mem_insert.mpr (.inl rfl)
    · intro hidden
      exact fresh (consistent.others _ (.inr (.inl hidden)))
  | privatelyMinted caller timestamp toStealth encryptedMetadata metadataHash zkProof token labelled
      isPrivate =>
    have fresh := consistent.fresh (room rfl)
    refine consistent.mint (room rfl) token labelled _ _ _ (fun tokenId apart => ⟨?_, ?_, ?_⟩)
      (fun isPublic => absurd (isPublic.symm.trans isPrivate) (by simp)) (fun _ => ⟨?_, ?_⟩)
    · exact Iff.rfl
    · exact FiniteMap.mem_insert_of_ne toStealth apart
    · exact FiniteMap.mem_insert_of_ne encryptedMetadata apart
    · intro shown
      exact fresh (consistent.others _ (.inl shown))
    · exact Finmap.mem_insert.mpr (.inl rfl)
  | transferred caller timestamp sender receiver tokenId token approved found isPublic =>
    have owned := (consistent.publiclyOwned tokenId token found isPublic).1
    refine consistent.congr rfl rfl (FiniteMap.mem_insert_of_mem receiver owned)
      (fun _ => Iff.rfl) rfl fun other listed => .inl ?_
    exact (Finmap.mem_erase.mp listed).2
  | privatelyTransferred caller timestamp tokenId toStealth proof nullifier newCommitment owned =>
    exact consistent.congr rfl rfl (fun _ => Iff.rfl)
      (FiniteMap.mem_insert_of_mem toStealth owned) rfl fun other listed => .inl listed
  | approved caller timestamp receiver tokenId owned =>
    refine consistent.congr rfl rfl (fun _ => Iff.rfl) (fun _ => Iff.rfl) rfl fun other listed => ?_
    rcases Finmap.mem_insert.mp listed with rfl | listed
    · exact .inr (Finmap.mem_of_lookup_eq_some owned)
    · exact .inl listed
  | approvedForAll caller timestamp operator approved =>
    exact consistent.congr rfl rfl (fun _ => Iff.rfl) (fun _ => Iff.rfl) rfl fun _ => .inl
  | outside world => exact consistent

theorem Effect.supply (effect : Effect sha3 nft input next) :
    next.totalSupply = if input.mints then nft.totalSupply + 1 else nft.totalSupply := by
  cases effect <;> rfl

end Consistent

/-! ## Runs -/

section Runs
variable {World : Type} (host : NftHost World) (world : World)

def mintedIds (inputs : List (Input World)) : List U256 :=
  Runs.notes (step host) (mintedId host) ⟨new, world⟩ inputs

theorem minted_run (inputs : List (Input World)) :
    (mintedIds host world inputs).length < 2 ^ 256 →
      (mintedIds host world inputs).map BitVec.toNat =
          List.range' 1 (mintedIds host world inputs).length ∧
        (Runs.run (step host) ⟨new, world⟩ inputs).2.nft.totalSupply.toNat =
          (mintedIds host world inputs).length ∧
        Consistent (Runs.run (step host) ⟨new, world⟩ inputs).2.nft := by
  refine @Runs.history _ _ _ (step host) (fun inputs state =>
    (mintedIds host world inputs).length < 2 ^ 256 →
      (mintedIds host world inputs).map BitVec.toNat =
          List.range' 1 (mintedIds host world inputs).length ∧
        state.nft.totalSupply.toNat = (mintedIds host world inputs).length ∧
        Consistent state.nft) ⟨new, world⟩ ?_ ?_ inputs
  · exact fun _ => ⟨rfl, rfl, consistent_new⟩
  · intro inputs last earlier few
    have noted : mintedIds host world (inputs ++ [last]) = mintedIds host world inputs ++
        (mintedId host (Runs.run (step host) ⟨new, world⟩ inputs).2 last).toList :=
      Runs.notes_concat (step host) (mintedId host) ⟨new, world⟩ inputs last
    rw [noted] at few ⊢
    generalize (Runs.run (step host) ⟨new, world⟩ inputs).2 = state at earlier few ⊢
    rw [List.length_append] at few
    obtain ⟨ids, supply, consistent⟩ := earlier (by omega)
    by_cases succeeds : Transactions.Succeeds (perform host) state last
    · obtain ⟨next, performed⟩ := succeeds
      have effect := perform_effect performed
      rw [mintedId_of_ok performed] at few ⊢
      rw [step, Transactions.step_of_ok performed]
      have counted := effect.supply
      cases mints : last.mints with
      | false =>
        simp only [mints, Bool.false_eq_true, if_false] at counted
        simp only [Bool.false_eq_true, if_false, Option.toList_none, List.append_nil]
        rw [counted]
        refine ⟨ids, supply, consistent.effect ?_ effect⟩
        intro minted
        exact absurd (mints.symm.trans minted) (by simp)
      | true =>
        simp only [mints, if_true, Option.toList_some, List.length_singleton] at few counted ⊢
        have room : state.nft.totalSupply.toNat + 1 < 2 ^ 256 := by omega
        have sum : (state.nft.totalSupply + 1).toNat = state.nft.totalSupply.toNat + 1 :=
          BitVec.toNat_add_of_lt room
        refine ⟨?_, ?_, consistent.effect (fun _ => room) effect⟩
        · rw [List.map_append, ids, List.map_singleton, sum, supply, List.length_append,
            List.length_singleton, List.range'_concat]
          simp [Nat.add_comm]
        · rw [counted, sum, supply, List.length_append, List.length_singleton]
    · rw [mintedId_of_not_succeeds succeeds, step, Transactions.step_of_not_succeeds succeeds,
        Option.toList_none, List.append_nil]
      exact ⟨ids, supply, consistent⟩

end Runs

/-- The minted ids are counted from 1 to the total supply, and every map has the entries that
belong to them. -/
theorem tokens_consistent {World : Type} (host : NftHost World) (world : World)
    (inputs : List (Input World))
    (few : (mintedIds host world inputs).length < 2 ^ 256 - 1) :
    (mintedIds host world inputs).map BitVec.toNat = List.range' 1
        (Runs.run (step host) ⟨new, world⟩ inputs).2.nft.totalSupply.toNat ∧
      Consistent (Runs.run (step host) ⟨new, world⟩ inputs).2.nft := by
  obtain ⟨ids, supply, consistent⟩ := minted_run host world inputs (by omega)
  rw [supply]
  exact ⟨ids, consistent⟩

namespace Sample

/-- Address 9 is the owner of the contract, and every proof is accepted. -/
def host : NftHost Unit where
  sha3 := Sample.sha3
  callerIsOwner _ caller := caller = Sample.address 9
  verifyMetadataProof _ _ _ _ := true
  verifyOwnershipProof _ _ _ _ _ := true

def call (caller : UInt8) (call : Call) : Input Unit := .call (Sample.address caller) 0 call

def stealth : StealthAddress := ⟨List.Vector.replicate 32 0, List.Vector.replicate 32 0⟩

/-- Address 3 gets token 1, and a stealth address token 2. -/
def minted : List (Input Unit) :=
  [call 9 (.mint (Sample.address 3) ""), call 9 (.mintPrivate stealth [] Hash.zero [])]

end Sample

theorem tokens_consistent_sample :
    (mintedIds Sample.host () Sample.minted).map BitVec.toNat = List.range' 1
        (Runs.run (step Sample.host) ⟨new, ()⟩ Sample.minted).2.nft.totalSupply.toNat ∧
      Consistent (Runs.run (step Sample.host) ⟨new, ()⟩ Sample.minted).2.nft :=
  tokens_consistent Sample.host () Sample.minted (by decide +kernel)

end ProtonChain.Contracts.ProtonNFT
