import ProtonChain.Library.History
import ProtonChain.Solidity.PrivateNft

/-! What a call does to the collection, and which entries its mappings hold.

Ids are counted from 1 and never reach past the cap. A token keeps its kind and its data, and an
entry of any mapping belongs to a token of its kind. No call comes from the zero address, which
the owner of an unminted token reads as.
-/

set_option autoImplicit false

namespace ProtonChain.Solidity.ProtonPrivateNFT

open Checked

inductive Effect {World : Type} (env : NftEnv World) (state : State World) :
    Input World → State World → Prop where
  | publiclyMinted (timestamp : U256) (receiver : Address) (metadata : String) (tokenId : U256)
    (nft : ProtonPrivateNFT) (world : World)
    (room : state.nft.totalMinted.toNat < maxSupply.toNat)
    (numbered : tokenId.toNat = state.nft.totalMinted.toNat + 1)
    (mapped : nft = { state.nft with
      totalMinted := tokenId
      tokenData := state.nft.tokenData.insert tokenId
        ⟨tokenId, metadata, Hash.zero, false, timestamp⟩
      publicOwners := state.nft.publicOwners.insert tokenId receiver })
    (minted : env.erc721.safeMint nft state.world receiver tokenId = some world) :
    Effect env state (.call state.nft.owner timestamp (.publicMint receiver metadata))
      { state with nft := nft, world := world }
  | privatelyMinted (timestamp : U256) (stealthOwner : Hash) (encryptedMetadata : Bytes)
    (metadataHash : Hash) (zkProof : Bytes) (tokenId : U256) (nft : ProtonPrivateNFT)
    (world : World) (room : state.nft.totalMinted.toNat < maxSupply.toNat)
    (numbered : tokenId.toNat = state.nft.totalMinted.toNat + 1)
    (verified : verifyMetadataProof env state metadataHash encryptedMetadata zkProof = .ok true)
    (mapped : nft = { state.nft with
      totalMinted := tokenId
      tokenData := state.nft.tokenData.insert tokenId ⟨tokenId, "", metadataHash, true, timestamp⟩
      stealthOwners := state.nft.stealthOwners.insert tokenId stealthOwner
      encryptedMetadata := state.nft.encryptedMetadata.insert tokenId encryptedMetadata })
    (minted : env.erc721.safeMint nft state.world Address.zero tokenId = some world) :
    Effect env state (.call state.nft.owner timestamp
        (.privateMint stealthOwner encryptedMetadata metadataHash zkProof))
      { nft := nft
        events := state.events ++ [.metadataEncrypted tokenId metadataHash]
        world := world }
  | publiclyTransferred (caller : Address) (timestamp : U256) (sender receiver : Address)
    (tokenId : U256) (nft : ProtonPrivateNFT) (world : World)
    (approved : state.nft.isApprovedOrOwner tokenId caller = true)
    (isPublic : state.nft.isPrivate tokenId = false)
    (mapped : nft = { state.nft with
      publicOwners := state.nft.publicOwners.insert tokenId receiver
      tokenApprovals := state.nft.tokenApprovals.erase tokenId })
    (moved : env.erc721.transfer nft state.world sender receiver tokenId = some world) :
    Effect env state (.call caller timestamp (.publicTransfer sender receiver tokenId))
      { state with nft := nft, world := world }
  | privatelyTransferred (caller : Address) (timestamp : U256) (tokenId : U256)
    (newStealthOwner nullifier : Hash) (zkProof : Bytes)
    (found : (env.erc721.ownerOf state.nft state.world tokenId).isSome = true)
    (isPrivate : state.nft.isPrivate tokenId = true)
    (fresh : nullifier ∉ state.nft.nullifierSpent)
    (verified : verifyOwnershipProof env state tokenId (state.nft.stealthOwner tokenId) nullifier
      zkProof = .ok true) :
    Effect env state
      (.call caller timestamp (.privateTransfer tokenId newStealthOwner nullifier zkProof))
      { state with
        nft := { state.nft with
          nullifierSpent := insert nullifier state.nft.nullifierSpent
          stealthOwners := state.nft.stealthOwners.insert tokenId newStealthOwner }
        events := state.events ++ [.privateTransfer tokenId nullifier newStealthOwner] }
  | approved (caller : Address) (timestamp : U256) (receiver : Address) (tokenId : U256)
    (allowed : state.nft.publicOwner tokenId = caller ∨
      state.nft.isOperator (state.nft.publicOwner tokenId) caller = true) :
    Effect env state (.call caller timestamp (.approve receiver tokenId))
      { state with
        nft := { state.nft with
          tokenApprovals := state.nft.tokenApprovals.insert tokenId receiver }
        events := state.events ++ [.approval (state.nft.publicOwner tokenId) receiver tokenId] }
  | approvedForAll (caller : Address) (timestamp : U256) (operator : Address) (approved : Bool) :
    Effect env state (.call caller timestamp (.setApprovalForAll operator approved))
      (setApprovalForAll caller state operator approved)
  | revealed (caller : Address) (timestamp : U256) (tokenId : U256) (viewKey : Hash)
    (zkProof : Bytes) (verified : verifyViewKey env state tokenId viewKey zkProof = .ok true) :
    Effect env state (.call caller timestamp (.revealMetadata tokenId viewKey zkProof))
      { state with events := state.events ++ [.viewKeyRevealed tokenId caller] }
  | verifierSet (timestamp : U256) (newVerifier : Address) :
    Effect env state (.call state.nft.owner timestamp (.setZKVerifier newVerifier))
      { state with nft := { state.nft with zkVerifier := newVerifier } }
  | outside (world : World) (owner : Address) :
    Effect env state (.outside world owner)
      { state with
        nft := { state.nft with owner := owner }
        world := world }

section Effects
variable {World : Type} {env : NftEnv World} {state next : State World} {input : Input World}

theorem publicMint_effect {caller : Address} {timestamp : U256} {receiver : Address}
    {metadata : String} {tokenId : U256}
    (minted : publicMint env caller timestamp state receiver metadata = .ok (tokenId, next)) :
    Effect env state (.call caller timestamp (.publicMint receiver metadata)) next ∧
      next.nft.totalMinted = tokenId := by
  simp only [publicMint, safeMint, bind_eq_ok, ensure_eq_ok, add_eq_ok, demand_eq_ok,
    pure_eq_ok] at minted
  obtain ⟨-, rfl, -, room, counted, numbered, after, ⟨world, received, rfl⟩, same⟩ := minted
  obtain ⟨rfl, rfl⟩ := Prod.mk.inj same
  exact ⟨.publiclyMinted timestamp receiver metadata _ _ world room numbered rfl received, rfl⟩

theorem privateMint_effect {caller : Address} {timestamp : U256} {stealthOwner : Hash}
    {encryptedMetadata : Bytes} {metadataHash : Hash} {zkProof : Bytes} {tokenId : U256}
    (minted : privateMint env caller timestamp state stealthOwner encryptedMetadata metadataHash
      zkProof = .ok (tokenId, next)) :
    Effect env state (.call caller timestamp
        (.privateMint stealthOwner encryptedMetadata metadataHash zkProof)) next ∧
      next.nft.totalMinted = tokenId := by
  simp only [privateMint, safeMint, bind_eq_ok, ensure_eq_ok, add_eq_ok, demand_eq_ok,
    pure_eq_ok] at minted
  obtain ⟨-, rfl, -, room, valid, verified, -, accepted, counted, numbered, after,
    ⟨world, received, rfl⟩, same⟩ := minted
  obtain ⟨rfl, rfl⟩ := Prod.mk.inj same
  rw [accepted] at verified
  exact ⟨.privatelyMinted timestamp stealthOwner encryptedMetadata metadataHash zkProof _ _ world
    room numbered verified rfl received, rfl⟩

theorem perform_effect (performed : perform env state input = .ok next) :
    Effect env state input next := by
  cases input with
  | outside world owner =>
    obtain rfl := Except.ok.inj performed
    exact .outside world owner
  | call caller timestamp call =>
    cases call with
    | publicMint receiver metadata =>
      simp only [perform, bind_eq_ok, pure_eq_ok] at performed
      obtain ⟨⟨tokenId, after⟩, minted, rfl⟩ := performed
      exact (publicMint_effect minted).1
    | privateMint stealthOwner encryptedMetadata metadataHash zkProof =>
      simp only [perform, bind_eq_ok, pure_eq_ok] at performed
      obtain ⟨⟨tokenId, after⟩, minted, rfl⟩ := performed
      exact (privateMint_effect minted).1
    | publicTransfer sender receiver tokenId =>
      simp only [perform, publicTransfer, bind_eq_ok, ensure_eq_ok, demand_eq_ok, pure_eq_ok]
        at performed
      obtain ⟨-, approved, -, isPublic, world, moved, rfl⟩ := performed
      exact .publiclyTransferred caller timestamp sender receiver tokenId _ world approved isPublic
        rfl moved
    | privateTransfer tokenId newStealthOwner nullifier zkProof =>
      simp only [perform, privateTransfer, bind_eq_ok, ensure_eq_ok, pure_eq_ok] at performed
      obtain ⟨-, found, -, isPrivate, -, fresh, valid, verified, -, accepted, rfl⟩ := performed
      rw [accepted] at verified
      exact .privatelyTransferred caller timestamp tokenId newStealthOwner nullifier zkProof found
        isPrivate fresh verified
    | approve receiver tokenId =>
      simp only [perform, approve, bind_eq_ok, ensure_eq_ok, pure_eq_ok] at performed
      obtain ⟨-, allowed, rfl⟩ := performed
      exact .approved caller timestamp receiver tokenId allowed
    | setApprovalForAll operator approved =>
      obtain rfl := Except.ok.inj performed
      exact .approvedForAll caller timestamp operator approved
    | revealMetadata tokenId viewKey zkProof =>
      simp only [perform, revealMetadata, bind_eq_ok, ensure_eq_ok, pure_eq_ok] at performed
      obtain ⟨valid, verified, -, accepted, rfl⟩ := performed
      rw [accepted] at verified
      exact .revealed caller timestamp tokenId viewKey zkProof verified
    | setZKVerifier newVerifier =>
      simp only [perform, setZKVerifier, bind_eq_ok, ensure_eq_ok, pure_eq_ok] at performed
      obtain ⟨-, rfl, rfl⟩ := performed
      exact .verifierSet timestamp newVerifier

end Effects

/-! ## Consistent mappings -/

section Reads
variable (nft : ProtonPrivateNFT) (tokenId other : U256)

theorem data_insert (token : NftData) :
    { nft with tokenData := nft.tokenData.insert tokenId token }.data other =
      if other = tokenId then token else nft.data other := by
  rw [data, FiniteMap.lookup_insert]
  split <;> rfl

theorem publicOwner_insert (receiver : Address) :
    { nft with publicOwners := nft.publicOwners.insert tokenId receiver }.publicOwner other =
      if other = tokenId then receiver else nft.publicOwner other := by
  rw [publicOwner, FiniteMap.lookup_insert]
  split <;> rfl

theorem tokenApproval_insert (receiver : Address) :
    { nft with tokenApprovals := nft.tokenApprovals.insert tokenId receiver }.tokenApproval other =
      if other = tokenId then receiver else nft.tokenApproval other := by
  rw [tokenApproval, FiniteMap.lookup_insert]
  split <;> rfl

theorem tokenApproval_erase :
    { nft with tokenApprovals := nft.tokenApprovals.erase tokenId }.tokenApproval other =
      if other = tokenId then Address.zero else nft.tokenApproval other := by
  rw [tokenApproval, FiniteMap.lookup_erase]
  split <;> rfl

theorem isOperator_insert (owner operator : Address) (approved : Bool)
    (owner' operator' : Address) :
    { nft with
      operatorApprovals := nft.operatorApprovals.insert (owner, operator) approved }.isOperator
        owner' operator' =
      if owner' = owner ∧ operator' = operator then approved
      else nft.isOperator owner' operator' := by
  rw [isOperator, FiniteMap.lookup_insert]
  simp only [Prod.mk.injEq]
  split <;> rfl

end Reads

/-- The entries of the mappings, by the token that they are about. -/
structure Consistent (nft : ProtonPrivateNFT) : Prop where
  bounded : nft.totalMinted.toNat ≤ maxSupply.toNat
  minted : ∀ tokenId, tokenId ∈ nft.tokenData ↔
    1 ≤ tokenId.toNat ∧ tokenId.toNat ≤ nft.totalMinted.toNat
  labelled : ∀ tokenId ∈ nft.tokenData, (nft.data tokenId).tokenId = tokenId
  publiclyListed : ∀ tokenId, tokenId ∈ nft.publicOwners ↔
    tokenId ∈ nft.tokenData ∧ nft.isPrivate tokenId = false
  privatelyOwned : ∀ tokenId, tokenId ∈ nft.stealthOwners ↔ nft.isPrivate tokenId = true
  encrypted : ∀ tokenId, tokenId ∈ nft.encryptedMetadata ↔ nft.isPrivate tokenId = true
  approved : ∀ tokenId, nft.tokenApproval tokenId ≠ Address.zero →
    nft.publicOwner tokenId ≠ Address.zero
  operated : ∀ operator, nft.isOperator Address.zero operator = false

/-- Nobody calls from the zero address. -/
def Signed {World : Type} : Input World → Prop
  | .call caller _ _ => caller ≠ Address.zero
  | .outside _ _ => True

instance decidableSigned {World : Type} : DecidablePred (@Signed World)
  | .call _ _ _ => inferInstanceAs (Decidable (_ ≠ _))
  | .outside _ _ => inferInstanceAs (Decidable True)

theorem consistent_new (deployer zkVerifier : Address) : Consistent (new deployer zkVerifier) where
  bounded := Nat.zero_le _
  minted tokenId := by
    have none : (new deployer zkVerifier).totalMinted.toNat = 0 := rfl
    exact iff_of_false Finmap.notMem_empty (by omega)
  labelled tokenId listed := absurd listed Finmap.notMem_empty
  publiclyListed tokenId := iff_of_false Finmap.notMem_empty fun listed =>
    absurd listed.1 Finmap.notMem_empty
  privatelyOwned tokenId := iff_of_false Finmap.notMem_empty Bool.false_ne_true
  encrypted tokenId := iff_of_false Finmap.notMem_empty Bool.false_ne_true
  approved tokenId approval := absurd rfl approval
  operated operator := rfl

section Consistent
variable {World : Type} {env : NftEnv World} {state next : State World} {input : Input World}
  {nft : ProtonPrivateNFT} {tokenId : U256}

theorem data_of_notMem (missing : tokenId ∉ nft.tokenData) : nft.data tokenId = NftData.empty := by
  rw [data, Finmap.lookup_eq_none.mpr missing]
  rfl

theorem mem_publicOwners (owned : nft.publicOwner tokenId ≠ Address.zero) :
    tokenId ∈ nft.publicOwners := by
  by_contra missing
  rw [publicOwner, Finmap.lookup_eq_none.mpr missing] at owned
  exact owned rfl

theorem Consistent.publiclyOwned (consistent : Consistent nft)
    (owned : nft.publicOwner tokenId ≠ Address.zero) :
    tokenId ∈ nft.tokenData ∧ nft.isPrivate tokenId = false :=
  (consistent.publiclyListed tokenId).mp (mem_publicOwners owned)

theorem Consistent.fresh (consistent : Consistent nft)
    (numbered : tokenId.toNat = nft.totalMinted.toNat + 1) : tokenId ∉ nft.tokenData := by
  rw [consistent.minted]
  omega

/-- Neither has it an owner. -/
theorem Consistent.unowned (consistent : Consistent nft) (missing : tokenId ∉ nft.tokenData) :
    nft.publicOwner tokenId = Address.zero := by
  by_contra owned
  exact missing (consistent.publiclyOwned owned).1

/-- A caller who passes the check for a token is no stranger to a public owner. -/
theorem Consistent.owned (consistent : Consistent nft) {spender : Address}
    (somebody : spender ≠ Address.zero)
    (allowed : nft.isApprovedOrOwner tokenId spender = true) :
    nft.publicOwner tokenId ≠ Address.zero := by
  intro zero
  simp only [isApprovedOrOwner, zero, consistent.operated, Bool.or_false, Bool.or_eq_true,
    decide_eq_true_eq, somebody, false_or] at allowed
  exact consistent.approved tokenId (by rwa [allowed]) zero

theorem Consistent.mint (consistent : Consistent nft)
    (room : nft.totalMinted.toNat < maxSupply.toNat)
    (numbered : tokenId.toNat = nft.totalMinted.toNat + 1) (token : NftData)
    (labelled : token.tokenId = tokenId) (publicOwners : HashMap U256 Address)
    (stealthOwners : HashMap U256 Hash) (encryptedMetadata : HashMap U256 Bytes)
    (owners : ∀ other, other ≠ tokenId → publicOwners.lookup other = nft.publicOwners.lookup other)
    (listed : ∀ other, other ∈ publicOwners ↔
      other ∈ nft.publicOwners ∨ other = tokenId ∧ token.isPrivate = false)
    (stealth : ∀ other, other ∈ stealthOwners ↔
      other ∈ nft.stealthOwners ∨ other = tokenId ∧ token.isPrivate = true)
    (encrypted : ∀ other, other ∈ encryptedMetadata ↔
      other ∈ nft.encryptedMetadata ∨ other = tokenId ∧ token.isPrivate = true) :
    Consistent { nft with
      totalMinted := tokenId
      tokenData := nft.tokenData.insert tokenId token
      publicOwners := publicOwners
      stealthOwners := stealthOwners
      encryptedMetadata := encryptedMetadata } := by
  have missing := consistent.fresh numbered
  have kind (other : U256) : ({ nft with
      totalMinted := tokenId
      tokenData := nft.tokenData.insert tokenId token
      publicOwners := publicOwners
      stealthOwners := stealthOwners
      encryptedMetadata := encryptedMetadata } : ProtonPrivateNFT).data other =
      if other = tokenId then token else nft.data other := data_insert nft tokenId other token
  have unkind : nft.isPrivate tokenId = false := by
    rw [isPrivate, data_of_notMem missing]
    rfl
  constructor
  · dsimp only
    omega
  · intro other
    rw [Finmap.mem_insert, consistent.minted, ← BitVec.toNat_inj]
    dsimp only
    omega
  · intro other listed
    rw [kind]
    split
    next same => rw [labelled, same]
    next apart =>
      exact consistent.labelled other ((FiniteMap.mem_insert_of_ne token apart).mp listed)
  · intro other
    rw [listed, consistent.publiclyListed, isPrivate, isPrivate, kind, Finmap.mem_insert]
    by_cases same : other = tokenId
    · subst same
      simp [missing]
    · simp [same]
  · intro other
    rw [stealth, consistent.privatelyOwned, isPrivate, isPrivate, kind]
    by_cases same : other = tokenId
    · subst same
      rw [isPrivate] at unkind
      simp [unkind]
    · simp [same]
  · intro other
    rw [encrypted, consistent.encrypted, isPrivate, isPrivate, kind]
    by_cases same : other = tokenId
    · subst same
      rw [isPrivate] at unkind
      simp [unkind]
    · simp [same]
  · intro other approval
    have owned := consistent.approved other approval
    have apart : other ≠ tokenId := by
      rintro rfl
      exact owned (consistent.unowned missing)
    rwa [publicOwner, owners other apart]
  · exact consistent.operated

/-- Changes of owners and approvals of tokens that are owned. -/
theorem Consistent.congr {next : ProtonPrivateNFT} (consistent : Consistent nft)
    (supply : next.totalMinted = nft.totalMinted) (tokens : next.tokenData = nft.tokenData)
    (listed : ∀ tokenId, tokenId ∈ next.publicOwners ↔ tokenId ∈ nft.publicOwners)
    (stealth : ∀ tokenId, tokenId ∈ next.stealthOwners ↔ tokenId ∈ nft.stealthOwners)
    (encrypted : next.encryptedMetadata = nft.encryptedMetadata)
    (approved : ∀ tokenId, next.tokenApproval tokenId ≠ Address.zero →
      next.publicOwner tokenId ≠ Address.zero)
    (operated : ∀ operator, next.isOperator Address.zero operator = false) : Consistent next where
  bounded := by
    rw [supply]
    exact consistent.bounded
  minted tokenId := by
    rw [tokens, supply]
    exact consistent.minted tokenId
  labelled tokenId := by
    rw [data, tokens]
    exact consistent.labelled tokenId
  publiclyListed tokenId := by
    rw [listed, isPrivate, data, tokens]
    exact consistent.publiclyListed tokenId
  privatelyOwned tokenId := by
    rw [stealth, isPrivate, data, tokens]
    exact consistent.privatelyOwned tokenId
  encrypted tokenId := by
    rw [encrypted, isPrivate, data, tokens]
    exact consistent.encrypted tokenId
  approved := approved
  operated := operated

theorem Consistent.effect (consistent : Consistent state.nft) (signed : Signed input)
    (effect : Effect env state input next) : Consistent next.nft := by
  cases effect with
  | publiclyMinted timestamp receiver metadata tokenId nft world room numbered mapped minted =>
    subst mapped
    refine consistent.mint room numbered _ rfl _ _ _ (fun other apart => ?_) (fun other => ?_)
      (fun other => ?_) fun other => ?_
    · exact Finmap.lookup_insert_of_ne _ apart
    · rw [Finmap.mem_insert, and_iff_left rfl, or_comm]
    · simp
    · simp
  | privatelyMinted timestamp stealthOwner encryptedMetadata metadataHash zkProof tokenId nft world
      room numbered verified mapped minted =>
    subst mapped
    refine consistent.mint room numbered _ rfl _ _ _ (fun other apart => rfl) (fun other => ?_)
      (fun other => ?_) fun other => ?_
    · simp
    · rw [Finmap.mem_insert, and_iff_left rfl, or_comm]
    · rw [Finmap.mem_insert, and_iff_left rfl, or_comm]
  | publiclyTransferred caller timestamp sender receiver tokenId nft world approved isPublic mapped
      moved =>
    subst mapped
    have owned := consistent.owned signed approved
    refine consistent.congr rfl rfl ?_ (fun _ => Iff.rfl) rfl (fun other => ?_)
      consistent.operated
    · exact FiniteMap.mem_insert_of_mem receiver (mem_publicOwners owned)
    · intro approval
      -- the approval of the token itself is deleted
      by_cases same : other = tokenId
      · subst same
        rw [tokenApproval, Finmap.lookup_erase] at approval
        exact absurd rfl approval
      · rw [tokenApproval, Finmap.lookup_erase_ne same] at approval
        rw [publicOwner, Finmap.lookup_insert_of_ne _ same]
        exact consistent.approved other approval
  | privatelyTransferred caller timestamp tokenId newStealthOwner nullifier zkProof found
      isPrivate =>
    refine consistent.congr rfl rfl (fun _ => Iff.rfl) ?_ rfl consistent.approved
      consistent.operated
    exact FiniteMap.mem_insert_of_mem newStealthOwner
      ((consistent.privatelyOwned tokenId).mpr isPrivate)
  | approved caller timestamp receiver tokenId allowed =>
    refine consistent.congr rfl rfl (fun _ => Iff.rfl) (fun _ => Iff.rfl) rfl (fun other => ?_)
      consistent.operated
    intro approval
    by_cases same : other = tokenId
    · subst same
      intro zero
      change state.nft.publicOwner other = Address.zero at zero
      rw [zero, consistent.operated] at allowed
      exact allowed.elim (fun same => signed same.symm) Bool.false_ne_true
    · rw [tokenApproval, Finmap.lookup_insert_of_ne _ same] at approval
      exact consistent.approved other approval
  | approvedForAll caller timestamp operator approved =>
    refine consistent.congr rfl rfl (fun _ => Iff.rfl) (fun _ => Iff.rfl) rfl
      consistent.approved fun other => ?_
    refine (isOperator_insert state.nft caller operator approved _ _).trans ?_
    rw [if_neg fun same => signed same.1.symm]
    exact consistent.operated other
  | revealed => exact consistent
  | verifierSet timestamp newVerifier =>
    exact ⟨consistent.bounded, consistent.minted, consistent.labelled, consistent.publiclyListed,
      consistent.privatelyOwned, consistent.encrypted, consistent.approved, consistent.operated⟩
  | outside world owner =>
    exact ⟨consistent.bounded, consistent.minted, consistent.labelled, consistent.publiclyListed,
      consistent.privatelyOwned, consistent.encrypted, consistent.approved, consistent.operated⟩

theorem Effect.data_kept (effect : Effect env state input next) (consistent : Consistent state.nft)
    {tokenId : U256} (listed : tokenId ∈ state.nft.tokenData) :
    tokenId ∈ next.nft.tokenData ∧ next.nft.data tokenId = state.nft.data tokenId := by
  have minted {fresh : U256} (token : NftData)
      (numbered : fresh.toNat = state.nft.totalMinted.toNat + 1) :
      tokenId ∈ state.nft.tokenData.insert fresh token ∧
        ((state.nft.tokenData.insert fresh token).lookup tokenId).getD NftData.empty =
          state.nft.data tokenId := by
    have apart : tokenId ≠ fresh := by
      rintro rfl
      exact consistent.fresh numbered listed
    refine ⟨Finmap.mem_insert.mpr (.inr listed), ?_⟩
    rw [Finmap.lookup_insert_of_ne _ apart]
    rfl
  cases effect with
  | publiclyMinted _ _ _ _ _ _ _ numbered mapped =>
    subst mapped
    exact minted _ numbered
  | privatelyMinted _ _ _ _ _ _ _ _ _ numbered _ mapped =>
    subst mapped
    exact minted _ numbered
  | publiclyTransferred _ _ _ _ _ _ _ _ _ mapped =>
    subst mapped
    exact ⟨listed, rfl⟩
  | privatelyTransferred => exact ⟨listed, rfl⟩
  | approved => exact ⟨listed, rfl⟩
  | approvedForAll => exact ⟨listed, rfl⟩
  | revealed => exact ⟨listed, rfl⟩
  | verifierSet => exact ⟨listed, rfl⟩
  | outside => exact ⟨listed, rfl⟩

end Consistent

/-! ## The ids of a run -/

section Minted
variable {World : Type} (env : NftEnv World)

def Input.mints : Input World → Bool
  | .call _ _ (.publicMint _ _) => true
  | .call _ _ (.privateMint _ _ _ _) => true
  | _ => false

def mintedId (state : State World) : Input World → Option U256
  | .call caller timestamp (.publicMint receiver metadata) =>
    (publicMint env caller timestamp state receiver metadata).toOption.map Prod.fst
  | .call caller timestamp (.privateMint stealthOwner encryptedMetadata metadataHash zkProof) =>
    (privateMint env caller timestamp state stealthOwner encryptedMetadata metadataHash
      zkProof).toOption.map Prod.fst
  | _ => none

variable {env} {state next : State World} {input : Input World}

theorem mintedId_of_ok (performed : perform env state input = .ok next) :
    mintedId env state input = if input.mints then some next.nft.totalMinted else none := by
  cases input with
  | outside world owner => rfl
  | call caller timestamp call =>
    cases call with
    | publicMint receiver metadata =>
      simp only [perform, bind_eq_ok, pure_eq_ok] at performed
      obtain ⟨⟨tokenId, after⟩, minted, rfl⟩ := performed
      rw [mintedId, minted, (publicMint_effect minted).2]
      rfl
    | privateMint stealthOwner encryptedMetadata metadataHash zkProof =>
      simp only [perform, bind_eq_ok, pure_eq_ok] at performed
      obtain ⟨⟨tokenId, after⟩, minted, rfl⟩ := performed
      rw [mintedId, minted, (privateMint_effect minted).2]
      rfl
    | _ => rfl

theorem mintedId_of_not_succeeds
    (failed : ¬ Transactions.Succeeds (perform env) state input) :
    mintedId env state input = none := by
  cases input with
  | outside world owner => rfl
  | call caller timestamp call =>
    cases call with
    | publicMint receiver metadata =>
      cases minted : publicMint env caller timestamp state receiver metadata with
      | error fault => rw [mintedId, minted]; rfl
      | ok pair => exact absurd ⟨pair.2, by rw [perform, minted]; rfl⟩ failed
    | privateMint stealthOwner encryptedMetadata metadataHash zkProof =>
      cases minted : privateMint env caller timestamp state stealthOwner encryptedMetadata
          metadataHash zkProof with
      | error fault => rw [mintedId, minted]; rfl
      | ok pair => exact absurd ⟨pair.2, by rw [perform, minted]; rfl⟩ failed
    | _ => rfl

theorem Effect.supply (effect : Effect env state input next) :
    next.nft.totalMinted.toNat = state.nft.totalMinted.toNat + if input.mints then 1 else 0 := by
  cases effect with
  | publiclyMinted _ _ _ _ _ _ _ numbered mapped =>
    subst mapped
    exact numbered
  | privatelyMinted _ _ _ _ _ _ _ _ _ numbered _ mapped =>
    subst mapped
    exact numbered
  | publiclyTransferred _ _ _ _ _ _ _ _ _ mapped =>
    subst mapped
    rfl
  | _ => rfl

end Minted

section Runs
variable {World : Type} (env : NftEnv World) (deployer zkVerifier : Address) (world : World)

def mintedIds (inputs : List (Input World)) : List U256 :=
  Runs.notes (step env) (mintedId env) (deployed deployer zkVerifier world) inputs

theorem run_consistent {start : State World} (consistent : Consistent start.nft)
    (inputs : List (Input World)) (signed : ∀ input ∈ inputs, Signed input) :
    Runs.Visits (step env) (fun state => Consistent state.nft) start inputs := by
  have keep : ∀ state input next, Consistent state.nft → Signed input →
      perform env state input = .ok next → Consistent next.nft := by
    intro state input next now allowed performed
    exact now.effect allowed (perform_effect performed)
  exact @Transactions.visits_of_keeps _ _ _ (perform env) (fun state => Consistent state.nft) _ keep
    start consistent inputs ((Runs.meets_const (step env) Signed start inputs).mpr signed)

theorem run_data_kept {start : State World} (consistent : Consistent start.nft)
    (inputs : List (Input World)) (signed : ∀ input ∈ inputs, Signed input) {tokenId : U256}
    (listed : tokenId ∈ start.nft.tokenData) :
    (Runs.run (step env) start inputs).2.nft.data tokenId = start.nft.data tokenId := by
  induction inputs generalizing start with
  | nil => rfl
  | cons input rest ih =>
    rw [List.forall_mem_cons] at signed
    rw [Runs.run_cons]
    by_cases succeeds : Transactions.Succeeds (perform env) start input
    · obtain ⟨next, performed⟩ := succeeds
      have effect := perform_effect performed
      obtain ⟨still, kept⟩ := effect.data_kept consistent listed
      rw [step, Transactions.step_of_ok performed, ← kept]
      exact ih (consistent.effect signed.1 effect) signed.2 still
    · rw [step, Transactions.step_of_not_succeeds succeeds]
      exact ih consistent signed.2 listed

theorem run_numbered (inputs : List (Input World)) :
    (mintedIds env deployer zkVerifier world inputs).map BitVec.toNat = List.range' 1 (Runs.run
      (step env) (deployed deployer zkVerifier world) inputs).2.nft.totalMinted.toNat := by
  refine @Runs.history _ _ _ (step env) (fun inputs state =>
    (mintedIds env deployer zkVerifier world inputs).map BitVec.toNat =
      List.range' 1 state.nft.totalMinted.toNat) _ rfl (fun inputs last earlier => ?_) inputs
  have noted : mintedIds env deployer zkVerifier world (inputs ++ [last]) =
      mintedIds env deployer zkVerifier world inputs ++ (mintedId env
        (Runs.run (step env) (deployed deployer zkVerifier world) inputs).2 last).toList :=
    Runs.notes_concat (step env) (mintedId env) (deployed deployer zkVerifier world) inputs last
  rw [noted, List.map_append, earlier]
  generalize (Runs.run (step env) (deployed deployer zkVerifier world) inputs).2 = state
  by_cases succeeds : Transactions.Succeeds (perform env) state last
  · obtain ⟨next, performed⟩ := succeeds
    have counted := (perform_effect performed).supply
    rw [mintedId_of_ok performed, step, Transactions.step_of_ok performed]
    cases mints : last.mints with
    | false =>
      simp only [mints, Bool.false_eq_true, if_false] at counted
      simp [counted]
    | true =>
      simp only [mints, if_true] at counted
      rw [if_pos rfl, counted, List.range'_concat, Option.toList_some, List.map_singleton, counted]
      simp [Nat.add_comm]
  · rw [mintedId_of_not_succeeds succeeds, step, Transactions.step_of_not_succeeds succeeds]
    simp

end Runs

/-- The ids that mints return are the numbers from 1 to the total supply, which never passes the
cap. Every mapping has the entries that belong to the tokens of its kind, and a minted token
keeps the data that it was minted with. -/
theorem tokens_numbered {World : Type} (env : NftEnv World) (deployer zkVerifier : Address)
    (world : World) (inputs : List (Input World)) (signed : ∀ input ∈ inputs, Signed input) :
    let final := (Runs.run (step env) (deployed deployer zkVerifier world) inputs).2
    (mintedIds env deployer zkVerifier world inputs).map BitVec.toNat =
        List.range' 1 final.nft.totalSupply.toNat ∧
      final.nft.totalSupply.toNat ≤ 100000 ∧ Consistent final.nft ∧
      ∀ earlier later, inputs = earlier ++ later →
        let before := (Runs.run (step env) (deployed deployer zkVerifier world) earlier).2
        ∀ tokenId ∈ before.nft.tokenData, final.nft.data tokenId = before.nft.data tokenId := by
  have initial : Consistent (deployed deployer zkVerifier world).nft :=
    consistent_new deployer zkVerifier
  have visits := run_consistent env initial inputs signed
  have consistent := visits inputs [] (List.append_nil inputs).symm
  refine ⟨run_numbered env deployer zkVerifier world inputs, consistent.bounded, consistent, ?_⟩
  rintro earlier later rfl before tokenId listed
  rw [Runs.run_append]
  exact run_data_kept env (visits earlier later rfl) later
    (fun input member => signed input (List.mem_append_right _ member)) listed

/-- Address 3 gets two tokens and passes one on. -/
theorem tokens_numbered_sample :
    let inputs := [Sample.call 9 (.publicMint (Sample.address 3) "one"),
      Sample.call 9 (.publicMint (Sample.address 3) "two"),
      Sample.call 3 (.publicTransfer (Sample.address 3) (Sample.address 4) 1)]
    let final := (Runs.run (step Sample.env) Sample.start inputs).2
    (mintedIds Sample.env (Sample.address 9) (Sample.address 8) Sample.empty inputs).map
        BitVec.toNat = List.range' 1 final.nft.totalSupply.toNat ∧
      final.nft.totalSupply.toNat ≤ 100000 ∧ Consistent final.nft ∧
      ∀ earlier later, inputs = earlier ++ later →
        let before := (Runs.run (step Sample.env) Sample.start earlier).2
        ∀ tokenId ∈ before.nft.tokenData, final.nft.data tokenId = before.nft.data tokenId :=
  tokens_numbered Sample.env (Sample.address 9) (Sample.address 8) Sample.empty _
    (by decide +kernel)

end ProtonChain.Solidity.ProtonPrivateNFT
