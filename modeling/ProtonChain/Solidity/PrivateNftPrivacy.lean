import ProtonChain.Solidity.PrivateNftTokens

/-! The private side of the collection.

The events name every nullifier that was spent and the last stealth owner of every token that was
moved. A private token is minted to the zero address, which an ERC-721 contract refuses, so over
one there is no private token and nothing to spend.
-/

set_option autoImplicit false

namespace ProtonChain.Solidity.ProtonPrivateNFT

open Checked

def Event.nullifier : Event → Option Hash
  | .privateTransfer _ nullifier _ => some nullifier
  | _ => none

def Event.stealthOwner (tokenId : U256) : Event → Option Hash
  | .privateTransfer moved _ newStealth => if moved = tokenId then some newStealth else none
  | _ => none

def lastStealth (events : List Event) (tokenId : U256) : Option Hash :=
  (events.filterMap (Event.stealthOwner tokenId)).getLast?

/-- What the events tell about the private side. -/
structure Announced (nft : ProtonPrivateNFT) (events : List Event) : Prop where
  once : (events.filterMap Event.nullifier).Nodup
  spent : ∀ nullifier, nullifier ∈ nft.nullifierSpent ↔ nullifier ∈ events.filterMap Event.nullifier
  owned : ∀ tokenId stealth, lastStealth events tokenId = some stealth →
    nft.isPrivate tokenId = true ∧ nft.stealthOwner tokenId = stealth

section Announced
variable {World : Type} {env : NftEnv World} {state next : State World} {input : Input World}
  {nft after : ProtonPrivateNFT} {events : List Event}

theorem announced_new (deployer zkVerifier : Address) : Announced (new deployer zkVerifier) [] where
  once := List.nodup_nil
  spent nullifier := iff_of_false (Finset.notMem_empty nullifier) List.not_mem_nil
  owned tokenId stealth last := by
    rw [lastStealth, List.filterMap_nil] at last
    cases last

/-- Events about other things, and the tokens that they leave alone. -/
theorem Announced.quiet (announced : Announced nft events) (others : List Event)
    (noNullifier : others.filterMap Event.nullifier = [])
    (noStealth : ∀ tokenId, others.filterMap (Event.stealthOwner tokenId) = [])
    (spent : after.nullifierSpent = nft.nullifierSpent)
    (kept : ∀ tokenId, nft.isPrivate tokenId = true →
      after.isPrivate tokenId = true ∧ after.stealthOwner tokenId = nft.stealthOwner tokenId) :
    Announced after (events ++ others) where
  once := by
    rw [List.filterMap_append, noNullifier, List.append_nil]
    exact announced.once
  spent nullifier := by
    rw [List.filterMap_append, noNullifier, List.append_nil, spent]
    exact announced.spent nullifier
  owned tokenId stealth last := by
    rw [lastStealth, List.filterMap_append, noStealth, List.append_nil] at last
    obtain ⟨isPrivate, owner⟩ := announced.owned tokenId stealth last
    rw [(kept tokenId isPrivate).2]
    exact ⟨(kept tokenId isPrivate).1, owner⟩

theorem Announced.transfer (announced : Announced nft events) {tokenId : U256} {nullifier : Hash}
    (newStealth : Hash) (isPrivate : nft.isPrivate tokenId = true)
    (fresh : nullifier ∉ nft.nullifierSpent) :
    Announced { nft with
      nullifierSpent := insert nullifier nft.nullifierSpent
      stealthOwners := nft.stealthOwners.insert tokenId newStealth }
      (events ++ [.privateTransfer tokenId nullifier newStealth]) := by
  have named : [Event.privateTransfer tokenId nullifier newStealth].filterMap Event.nullifier =
      [nullifier] := rfl
  constructor
  · rw [List.filterMap_append, named]
    refine announced.once.append (List.nodup_singleton _) ?_
    rw [List.disjoint_singleton, ← announced.spent]
    exact fresh
  · intro other
    rw [List.filterMap_append, named, List.mem_append, List.mem_singleton, ← announced.spent,
      Finset.mem_insert, or_comm]
  · intro other stealth last
    rw [lastStealth, List.filterMap_append] at last
    by_cases same : other = tokenId
    · subst same
      have given : [Event.privateTransfer other nullifier newStealth].filterMap
          (Event.stealthOwner other) = [newStealth] := by simp [Event.stealthOwner]
      rw [given, List.getLast?_concat] at last
      refine ⟨isPrivate, ?_⟩
      rw [stealthOwner, Finmap.lookup_insert]
      exact Option.some.inj last
    · have silent : [Event.privateTransfer tokenId nullifier newStealth].filterMap
          (Event.stealthOwner other) = [] := by simp [Event.stealthOwner, Ne.symm same]
      rw [silent, List.append_nil] at last
      rw [stealthOwner, Finmap.lookup_insert_of_ne _ same]
      exact announced.owned other stealth last

theorem Announced.effect (announced : Announced state.nft state.events)
    (consistent : Consistent state.nft) (effect : Effect env state input next) :
    Announced next.nft next.events := by
  have silent {after : ProtonPrivateNFT} (spent : after.nullifierSpent = state.nft.nullifierSpent)
      (kept : ∀ tokenId, state.nft.isPrivate tokenId = true → after.isPrivate tokenId = true ∧
        after.stealthOwner tokenId = state.nft.stealthOwner tokenId) :
      Announced after state.events := by
    have quiet := announced.quiet [] rfl (fun _ => rfl) spent kept
    rwa [List.append_nil] at quiet
  -- an id that is minted has no token yet, so it is none of the private ones
  have apart {minted tokenId : U256} (numbered : minted.toNat = state.nft.totalMinted.toNat + 1)
      (isPrivate : state.nft.isPrivate tokenId = true) : tokenId ≠ minted := by
    rintro rfl
    rw [ProtonPrivateNFT.isPrivate, data_of_notMem (consistent.fresh numbered)] at isPrivate
    exact Bool.false_ne_true isPrivate
  cases effect with
  | publiclyMinted timestamp receiver metadata minted nft world room numbered mapped =>
    subst mapped
    refine silent rfl fun tokenId isPrivate => ⟨?_, rfl⟩
    exact (congrArg NftData.isPrivate ((data_insert state.nft minted tokenId _).trans
      (if_neg (apart numbered isPrivate)))).trans isPrivate
  | privatelyMinted timestamp stealthOwner encryptedMetadata metadataHash zkProof minted nft world
      room numbered verified mapped =>
    subst mapped
    refine announced.quiet _ rfl (fun _ => rfl) rfl fun tokenId isPrivate => ⟨?_, ?_⟩
    · exact (congrArg NftData.isPrivate ((data_insert state.nft minted tokenId _).trans
        (if_neg (apart numbered isPrivate)))).trans isPrivate
    · rw [ProtonPrivateNFT.stealthOwner,
        Finmap.lookup_insert_of_ne _ (apart numbered isPrivate)]
      rfl
  | publiclyTransferred _ _ _ _ _ _ _ _ _ mapped =>
    subst mapped
    exact silent rfl fun _ isPrivate => ⟨isPrivate, rfl⟩
  | privatelyTransferred caller timestamp tokenId newStealthOwner nullifier zkProof found isPrivate
      fresh => exact announced.transfer newStealthOwner isPrivate fresh
  | approved =>
    exact announced.quiet _ rfl (fun _ => rfl) rfl fun _ isPrivate => ⟨isPrivate, rfl⟩
  | approvedForAll =>
    exact announced.quiet _ rfl (fun _ => rfl) rfl fun _ isPrivate => ⟨isPrivate, rfl⟩
  | revealed =>
    exact announced.quiet _ rfl (fun _ => rfl) rfl fun _ isPrivate => ⟨isPrivate, rfl⟩
  | verifierSet => exact silent rfl fun _ isPrivate => ⟨isPrivate, rfl⟩
  | outside => exact silent rfl fun _ isPrivate => ⟨isPrivate, rfl⟩

end Announced

/-! ## Over an ERC-721 contract -/

/-- There is no private token, and nothing has been spent. -/
structure Public (nft : ProtonPrivateNFT) : Prop where
  isPublic : ∀ tokenId, nft.isPrivate tokenId = false
  unspent : nft.nullifierSpent = ∅
  unowned : nft.stealthOwners = ∅
  plain : nft.encryptedMetadata = ∅

section Public
variable {World : Type} {env : NftEnv World} {state next : State World} {input : Input World}

def Input.isPrivate : Input World → Bool
  | .call _ _ (.privateMint _ _ _ _) => true
  | .call _ _ (.privateTransfer _ _ _ _) => true
  | _ => false

theorem Public.effect (isPublic : Public state.nft) (standard : env.erc721.Standard)
    (effect : Effect env state input next) : Public next.nft ∧ input.isPrivate = false := by
  cases effect with
  | publiclyMinted timestamp receiver metadata minted nft world room numbered mapped =>
    subst mapped
    refine ⟨⟨fun tokenId => ?_, isPublic.unspent, isPublic.unowned, isPublic.plain⟩, rfl⟩
    have data := data_insert state.nft minted tokenId
      ⟨minted, metadata, Hash.zero, false, timestamp⟩
    refine (congrArg NftData.isPrivate data).trans ?_
    split
    · rfl
    · exact isPublic.isPublic tokenId
  | privatelyMinted _ _ _ _ _ minted nft world _ _ _ _ received =>
    exact absurd rfl (standard.safeMint nft state.world Address.zero minted world received).1
  | publiclyTransferred _ _ _ _ _ _ _ _ _ mapped =>
    subst mapped
    exact ⟨⟨isPublic.isPublic, isPublic.unspent, isPublic.unowned, isPublic.plain⟩, rfl⟩
  | privatelyTransferred _ _ tokenId _ _ _ _ isPrivate =>
    rw [isPublic.isPublic tokenId] at isPrivate
    exact absurd isPrivate Bool.false_ne_true
  | _ => exact ⟨⟨isPublic.isPublic, isPublic.unspent, isPublic.unowned, isPublic.plain⟩, rfl⟩

end Public

section Runs
variable {World : Type} (env : NftEnv World) (deployer zkVerifier : Address) (world : World)

theorem run_public (standard : env.erc721.Standard) (inputs : List (Input World)) :
    Public (Runs.run (step env) (deployed deployer zkVerifier world) inputs).2.nft := by
  have keep : ∀ state input next, Public state.nft → perform env state input = .ok next →
      Public next.nft := by
    intro state input next isPublic performed
    exact (isPublic.effect standard (perform_effect performed)).1
  exact @Transactions.run_keeps _ _ _ (perform env) (fun state => Public state.nft) keep
    (deployed deployer zkVerifier world) ⟨fun _ => rfl, rfl, rfl, rfl⟩ inputs

end Runs

/-- Whatever the extended contract does, a nullifier is spent once, and the events alone tell
which are spent and who got each token last. -/
theorem private_transfers_announced {World : Type} (env : NftEnv World)
    (deployer zkVerifier : Address) (world : World) (inputs : List (Input World))
    (signed : ∀ input ∈ inputs, Signed input) :
    let final := (Runs.run (step env) (deployed deployer zkVerifier world) inputs).2
    Announced final.nft final.events := by
  have initial : Consistent (deployed deployer zkVerifier world).nft :=
    consistent_new deployer zkVerifier
  have keep : ∀ state input next, Consistent state.nft ∧ Announced state.nft state.events →
      Signed input → perform env state input = .ok next →
        Consistent next.nft ∧ Announced next.nft next.events := by
    rintro state input next ⟨consistent, announced⟩ signed performed
    have effect := perform_effect performed
    exact ⟨consistent.effect signed effect, announced.effect consistent effect⟩
  have visits := @Transactions.visits_of_keeps _ _ _ (perform env)
    (fun state => Consistent state.nft ∧ Announced state.nft state.events) _ keep
    (deployed deployer zkVerifier world) ⟨initial, announced_new deployer zkVerifier⟩ inputs
    ((Runs.meets_const (step env) Signed _ inputs).mpr signed)
  exact (visits inputs [] (List.append_nil inputs).symm).2

/-- A contract that mints to the zero address too, so that token 1 is private and moves. -/
theorem private_transfers_announced_sample :
    let env : NftEnv Unit :=
      { erc721 := ⟨fun _ _ _ => some Address.zero, fun _ _ _ => none, fun _ _ _ _ => none,
          fun _ _ _ _ => some (), fun _ _ _ _ _ => some ()⟩
        verifyMetadata := fun _ _ _ _ _ => some trueWord
        verifyNFTOwnership := fun _ _ _ _ _ _ => some trueWord
        verifyViewKey := fun _ _ _ _ _ => some trueWord }
    let inputs : List (Input Unit) :=
      [.call (Sample.address 9) 0 (.privateMint Hash.zero [] Hash.zero []),
        .call (Sample.address 3) 0 (.privateTransfer 1 ⟨Sample.sha3 [1]⟩ ⟨Sample.sha3 [2]⟩ [])]
    let final :=
      (Runs.run (step env) (deployed (Sample.address 9) (Sample.address 8) ()) inputs).2
    Announced final.nft final.events :=
  private_transfers_announced _ (Sample.address 9) (Sample.address 8) () _ (by decide +kernel)

/-- Over an ERC-721 contract every private mint and every private transfer reverts. So no token is
private and no nullifier is spent, in every state of every run. -/
theorem private_calls_revert {World : Type} (env : NftEnv World) (standard : env.erc721.Standard)
    (deployer zkVerifier : Address) (world : World) (inputs : List (Input World)) :
    Runs.Visits (step env) (fun state => Public state.nft) (deployed deployer zkVerifier world)
      inputs ∧
    Runs.Meets (step env) (fun state input => input.isPrivate = true →
      ¬ Transactions.Succeeds (perform env) state input) (deployed deployer zkVerifier world)
      inputs := by
  constructor
  · intro earlier later split
    exact run_public env deployer zkVerifier world standard earlier
  · rw [Runs.meets_iff_forall]
    rintro earlier input later rfl isPrivate ⟨next, performed⟩
    have isPublic := run_public env deployer zkVerifier world standard earlier
    have no := (isPublic.effect standard (perform_effect performed)).2
    exact Bool.false_ne_true (no.symm.trans isPrivate)

/-- A mint to a stealth owner with an accepted proof, and a transfer of the token. -/
theorem private_calls_revert_sample :
    let inputs := [Sample.call 9 (.privateMint Hash.zero [] Hash.zero []),
      Sample.call 3 (.privateTransfer 1 Hash.zero Hash.zero [])]
    Runs.Visits (step Sample.env) (fun state => Public state.nft) Sample.start inputs ∧
    Runs.Meets (step Sample.env) (fun state input => input.isPrivate = true →
      ¬ Transactions.Succeeds (perform Sample.env) state input) Sample.start inputs :=
  private_calls_revert Sample.env Sample.erc721_standard (Sample.address 9) (Sample.address 8)
    Sample.empty _

end ProtonChain.Solidity.ProtonPrivateNFT
