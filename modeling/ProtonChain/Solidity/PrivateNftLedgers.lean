import ProtonChain.Solidity.PrivateNftPrivacy

/-! The owners of the collection and those of the contract that it extends.

Both are written by a mint and by a public transfer. The inherited functions write the second
only, and from then on the first says who may move a token, whoever holds it by the second.
-/

set_option autoImplicit false

namespace ProtonChain.Solidity

namespace ProtonPrivateNFT

open Checked

section Ledgers
variable {World : Type} (env : NftEnv World)

/-- Both contracts name the same owner of every token, or none. -/
def Agrees (state : State World) : Prop :=
  ∀ tokenId owner, env.erc721.ownerOf state.nft state.world tokenId = some owner ↔
    owner ≠ Address.zero ∧ state.nft.ownerOf tokenId = owner

/-- What happens outside moves no token, so nobody uses an inherited transfer. -/
def Undisturbed (state : State World) : Input World → Prop
  | .call _ _ _ => True
  | .outside world _ => ∀ tokenId,
    env.erc721.ownerOf state.nft world tokenId =
      env.erc721.ownerOf state.nft state.world tokenId

variable {env} {state next : State World} {input : Input World}

theorem Agrees.written (agrees : Agrees env state) (standard : env.erc721.Standard)
    {nft : ProtonPrivateNFT} {events : List Event} {world : World} {tokenId : U256}
    {receiver : Address} (somebody : receiver ≠ Address.zero)
    (moved : ∀ other, env.erc721.ownerOf nft world other =
      if other = tokenId then some receiver else env.erc721.ownerOf nft state.world other)
    (owners : ∀ other, nft.ownerOf other =
      if other = tokenId then receiver else state.nft.ownerOf other) :
    Agrees env ⟨nft, events, world⟩ := by
  intro other owner
  rw [moved, owners]
  by_cases same : other = tokenId
  · rw [if_pos same, if_pos same, Option.some.injEq]
    constructor
    · rintro rfl
      exact ⟨somebody, rfl⟩
    · exact And.right
  · rw [if_neg same, if_neg same, standard.recorded nft state.nft]
    exact agrees other owner

end Ledgers

/-! ## The tokens of an owner -/

section Enumeration
variable {World : Type} {env : NftEnv World} {state : State World} {holder : Address}

end Enumeration

/-! ## Runs -/

section Runs
variable {World : Type} (env : NftEnv World)

/-- In every state of a run, a public transfer goes through exactly if the mappings of the
collection let its caller move the token, and it is taken from its holder by the extended contract
and given to somebody. Then both contracts name the receiver, whoever they named before: who holds
a token by an inherited transfer loses it to the owner that the collection has. -/
theorem publicTransfer_iff (standard : env.erc721.Standard) (moves : env.erc721.Moves)
    (deployer zkVerifier : Address) (world : World) (inputs : List (Input World))
    (caller : Address) (timestamp : U256) (sender receiver : Address) (tokenId : U256) :
    let state := (Runs.run (step env) (deployed deployer zkVerifier world) inputs).2
    (Transactions.Succeeds (perform env) state
        (.call caller timestamp (.publicTransfer sender receiver tokenId)) ↔
      state.nft.isApprovedOrOwner tokenId caller = true ∧
        env.erc721.ownerOf state.nft state.world tokenId = some sender ∧
        receiver ≠ Address.zero) ∧
    ∀ next, perform env state (.call caller timestamp (.publicTransfer sender receiver tokenId)) =
        .ok next →
      env.erc721.ownerOf next.nft next.world tokenId = some receiver ∧
        next.nft.ownerOf tokenId = receiver := by
  intro state
  have isPublic : state.nft.isPrivate tokenId = false :=
    (run_public env deployer zkVerifier world standard inputs).isPublic tokenId
  refine ⟨⟨?_, ?_⟩, ?_⟩
  · rintro ⟨next, performed⟩
    cases perform_effect performed with
    | publiclyTransferred _ _ _ _ _ nft world approved isPublic mapped moved =>
      obtain ⟨held, somebody, -⟩ := standard.transfer _ _ _ _ _ _ moved
      rw [standard.recorded nft state.nft] at held
      exact ⟨approved, held, somebody⟩
  · rintro ⟨approved, held, somebody⟩
    let written := { state.nft with
      publicOwners := state.nft.publicOwners.insert tokenId receiver
      tokenApprovals := state.nft.tokenApprovals.erase tokenId }
    have kept : env.erc721.ownerOf written state.world tokenId = some sender := by
      rwa [standard.recorded written state.nft]
    obtain ⟨world, moved⟩ := moves written state.world sender receiver tokenId kept somebody
    refine ⟨⟨written, state.events, world⟩, ?_⟩
    simp only [perform, publicTransfer, bind_eq_ok, ensure_eq_ok, demand_eq_ok, pure_eq_ok]
    exact ⟨(), approved, (), isPublic, world, moved, rfl⟩
  · intro next performed
    cases perform_effect performed with
    | publiclyTransferred _ _ _ _ _ nft world approved isPublic mapped moved =>
      obtain ⟨-, -, moved⟩ := standard.transfer _ _ _ _ _ _ moved
      refine ⟨(moved tokenId).trans (if_pos rfl), ?_⟩
      have owner := publicOwner_insert state.nft tokenId tokenId receiver
      rw [if_pos rfl] at owner
      subst mapped
      have shown : ¬ state.nft.isPrivate tokenId = true := by simp [isPublic]
      exact (if_neg shown).trans owner

end Runs

/-- Address 3 has passed its token to address 4 by an inherited transfer, and takes it back. -/
theorem publicTransfer_iff_sample :
    let inputs := [Sample.call 9 (.publicMint (Sample.address 3) "one"),
      .outside ⟨[(1, Sample.address 4)], List.nodup_singleton _⟩ (Sample.address 9)]
    let state := (Runs.run (step Sample.env) Sample.start inputs).2
    (Transactions.Succeeds (perform Sample.env) state
        (.call (Sample.address 3) 0 (.publicTransfer (Sample.address 4) (Sample.address 3) 1)) ↔
      state.nft.isApprovedOrOwner 1 (Sample.address 3) = true ∧
        Sample.env.erc721.ownerOf state.nft state.world 1 = some (Sample.address 4) ∧
        Sample.address 3 ≠ Address.zero) ∧
    ∀ next, perform Sample.env state
        (.call (Sample.address 3) 0 (.publicTransfer (Sample.address 4) (Sample.address 3) 1)) =
          .ok next →
      Sample.env.erc721.ownerOf next.nft next.world 1 = some (Sample.address 3) ∧
        next.nft.ownerOf 1 = Sample.address 3 :=
  publicTransfer_iff Sample.env Sample.erc721_standard Sample.erc721_moves (Sample.address 9)
    (Sample.address 8) Sample.empty _ (Sample.address 3) 0 (Sample.address 4) (Sample.address 3) 1

end ProtonPrivateNFT

end ProtonChain.Solidity
