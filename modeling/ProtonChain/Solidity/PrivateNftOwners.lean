import ProtonChain.Solidity.PrivateNftTokens

/-! Who changes the public owner of a token, and whose approvals stand.

An owner is first written by a mint, of an id that nobody owns, and then by transfers of callers
who own the token or have been let to move it. A transfer takes the approval away, so the one that
stands is of the owner that stands.
-/

set_option autoImplicit false

namespace ProtonChain.Solidity.ProtonPrivateNFT

open Checked

/-- The caller owns the token, is approved for it or is an operator of its owner. -/
def Authorized (nft : ProtonPrivateNFT) (caller : Address) (tokenId : U256) : Prop :=
  caller = nft.publicOwner tokenId ∨ nft.tokenApproval tokenId = caller ∨
    nft.isOperator (nft.publicOwner tokenId) caller = true

section Owners
variable {World : Type} (env : NftEnv World)

/-- An owner changes by the mint of the next id or by a transfer of an authorized caller, which
leaves no approval. -/
def Lawful (state : State World) (input : Input World) : Prop :=
  let next := (step env state input).2
  ∀ tokenId, next.nft.publicOwner tokenId ≠ state.nft.publicOwner tokenId →
    (∃ timestamp receiver metadata,
      input = .call state.nft.owner timestamp (.publicMint receiver metadata) ∧
        tokenId.toNat = state.nft.totalMinted.toNat + 1 ∧
        state.nft.publicOwner tokenId = Address.zero ∧
        next.nft.publicOwner tokenId = receiver) ∨
    ∃ caller timestamp sender receiver,
      input = .call caller timestamp (.publicTransfer sender receiver tokenId) ∧
        Authorized state.nft caller tokenId ∧ state.nft.publicOwner tokenId ≠ Address.zero ∧
        next.nft.publicOwner tokenId = receiver ∧
        next.nft.tokenApproval tokenId = Address.zero

/-- The owner, or one of his operators, approves the spender. -/
def Grants (owner spender : Address) (tokenId : U256) (state : State World) (input : Input World) :
    Prop :=
  state.nft.publicOwner tokenId = owner ∧ ∃ caller timestamp,
    input = .call caller timestamp (.approve spender tokenId) ∧
      (caller = owner ∨ state.nft.isOperator owner caller = true)

/-- Neither the owner nor the approval of the token changes. -/
def Rests (tokenId : U256) (state : State World) (input : Input World) : Prop :=
  let next := (step env state input).2
  next.nft.publicOwner tokenId = state.nft.publicOwner tokenId ∧
    next.nft.tokenApproval tokenId = state.nft.tokenApproval tokenId

variable {env} {state next : State World} {input : Input World}

theorem isApprovedOrOwner_iff {nft : ProtonPrivateNFT} {caller : Address} {tokenId : U256} :
    nft.isApprovedOrOwner tokenId caller = true ↔ Authorized nft caller tokenId := by
  simp [isApprovedOrOwner, Authorized, or_assoc]

theorem Effect.owner_cases (effect : Effect env state input next)
    (consistent : Consistent state.nft) (signed : Signed input) (tokenId : U256) :
    next.nft.publicOwner tokenId = state.nft.publicOwner tokenId ∨
    (∃ timestamp receiver metadata,
      input = .call state.nft.owner timestamp (.publicMint receiver metadata) ∧
        tokenId.toNat = state.nft.totalMinted.toNat + 1 ∧
        state.nft.publicOwner tokenId = Address.zero ∧
        next.nft.publicOwner tokenId = receiver) ∨
    ∃ caller timestamp sender receiver,
      input = .call caller timestamp (.publicTransfer sender receiver tokenId) ∧
        Authorized state.nft caller tokenId ∧ state.nft.publicOwner tokenId ≠ Address.zero ∧
        next.nft.publicOwner tokenId = receiver ∧
        next.nft.tokenApproval tokenId = Address.zero := by
  cases effect with
  | publiclyMinted timestamp receiver metadata minted nft world room numbered mapped =>
    subst mapped
    have owner : _ = _ := publicOwner_insert state.nft minted tokenId receiver
    by_cases same : tokenId = minted
    · subst same
      rw [if_pos rfl] at owner
      exact .inr (.inl ⟨timestamp, receiver, metadata, rfl, numbered,
        consistent.unowned (consistent.fresh numbered), owner⟩)
    · rw [if_neg same] at owner
      exact .inl owner
  | publiclyTransferred caller timestamp sender receiver moved nft world approved isPublic mapped =>
    subst mapped
    have owner : _ = _ := publicOwner_insert state.nft moved tokenId receiver
    have approval : _ = _ := tokenApproval_erase state.nft moved tokenId
    by_cases same : tokenId = moved
    · subst same
      rw [if_pos rfl] at owner approval
      exact .inr (.inr ⟨caller, timestamp, sender, receiver, rfl,
        isApprovedOrOwner_iff.mp approved, consistent.owned signed approved, owner, approval⟩)
    · rw [if_neg same] at owner
      exact .inl owner
  | privatelyMinted _ _ _ _ _ _ _ _ _ _ _ mapped =>
    subst mapped
    exact .inl rfl
  | _ => exact .inl rfl

theorem Effect.approval_cases (effect : Effect env state input next)
    (consistent : Consistent state.nft) {tokenId : U256}
    (stands : next.nft.tokenApproval tokenId ≠ Address.zero) :
    (next.nft.publicOwner tokenId = state.nft.publicOwner tokenId ∧
      next.nft.tokenApproval tokenId = state.nft.tokenApproval tokenId) ∨
    (next.nft.publicOwner tokenId = state.nft.publicOwner tokenId ∧
      Grants (state.nft.publicOwner tokenId) (next.nft.tokenApproval tokenId) tokenId state
        input) := by
  cases effect with
  | publiclyMinted timestamp receiver metadata minted nft world room numbered mapped =>
    subst mapped
    -- the id that is minted has no approval, as nobody owned it
    have owned := consistent.approved tokenId stands
    have apart : tokenId ≠ minted := by
      rintro rfl
      exact owned (consistent.unowned (consistent.fresh numbered))
    have owner : _ = _ := publicOwner_insert state.nft minted tokenId receiver
    rw [if_neg apart] at owner
    exact .inl ⟨owner, rfl⟩
  | publiclyTransferred caller timestamp sender receiver moved nft world approved isPublic mapped =>
    subst mapped
    have owner : _ = _ := publicOwner_insert state.nft moved tokenId receiver
    have approval : _ = _ := tokenApproval_erase state.nft moved tokenId
    by_cases same : tokenId = moved
    · rw [if_pos same] at approval
      exact absurd approval stands
    · rw [if_neg same] at owner approval
      exact .inl ⟨owner, approval⟩
  | approved caller timestamp receiver granted allowed =>
    have approval : _ = _ := tokenApproval_insert state.nft granted tokenId receiver
    by_cases same : tokenId = granted
    · subst same
      rw [if_pos rfl] at approval
      refine .inr ⟨rfl, rfl, caller, timestamp, ?_, ?_⟩
      · exact congrArg (fun spender => Input.call caller timestamp (.approve spender tokenId))
          approval.symm
      · exact allowed.imp Eq.symm id
    · rw [if_neg same] at approval
      exact .inl ⟨rfl, approval⟩
  | privatelyMinted _ _ _ _ _ _ _ _ _ _ _ mapped =>
    subst mapped
    exact .inl ⟨rfl, rfl⟩
  | _ => exact .inl ⟨rfl, rfl⟩

theorem lawful_of_consistent (consistent : Consistent state.nft) (signed : Signed input) :
    Lawful env state input := by
  intro tokenId changed
  by_cases succeeds : Transactions.Succeeds (perform env) state input
  · obtain ⟨next, performed⟩ := succeeds
    rw [step, Transactions.step_of_ok performed] at changed ⊢
    exact ((perform_effect performed).owner_cases consistent signed tokenId).resolve_left changed
  · rw [step, Transactions.step_of_not_succeeds succeeds] at changed
    exact absurd rfl changed

theorem approval_step (consistent : Consistent state.nft) {tokenId : U256}
    (stands : (step env state input).2.nft.tokenApproval tokenId ≠ Address.zero) :
    Rests env tokenId state input ∨
      (step env state input).2.nft.publicOwner tokenId = state.nft.publicOwner tokenId ∧
        Grants (state.nft.publicOwner tokenId)
          ((step env state input).2.nft.tokenApproval tokenId) tokenId state input := by
  by_cases succeeds : Transactions.Succeeds (perform env) state input
  · obtain ⟨next, performed⟩ := succeeds
    rw [Rests, step, Transactions.step_of_ok performed] at *
    exact (perform_effect performed).approval_cases consistent stands
  · rw [Rests, step, Transactions.step_of_not_succeeds succeeds]
    exact .inl ⟨rfl, rfl⟩

end Owners

section Runs
variable {World : Type} (env : NftEnv World) {start : State World}

theorem run_approvals (consistent : Consistent start.nft) (empty : start.nft.tokenApprovals = ∅)
    (inputs : List (Input World)) (signed : ∀ input ∈ inputs, Signed input) {tokenId : U256}
    (stands : (Runs.run (step env) start inputs).2.nft.tokenApproval tokenId ≠ Address.zero) :
    Runs.Since (step env)
      (Grants ((Runs.run (step env) start inputs).2.nft.publicOwner tokenId)
        ((Runs.run (step env) start inputs).2.nft.tokenApproval tokenId) tokenId)
      (Rests env tokenId) start inputs := by
  induction inputs using List.reverseRecOn with
  | nil =>
    rw [Runs.run_nil, tokenApproval, empty] at stands
    exact absurd rfl stands
  | append_singleton inputs last ih =>
    have earlier : ∀ input ∈ inputs, Signed input := by
      intro input member
      exact signed input (List.mem_append_left _ member)
    have before := run_consistent env consistent inputs earlier inputs [] (by simp)
    rw [Runs.run_concat] at stands ⊢
    rw [Runs.since_concat]
    rcases approval_step before stands with rests | ⟨owner, grants⟩
    · -- what was granted before still stands
      have standing := stands
      rw [rests.2] at standing
      rw [rests.1, rests.2]
      exact .inr ⟨ih earlier standing, rests⟩
    · rw [owner]
      exact .inl grants

end Runs

/-- Over every run, the public owner of a token changes only by the mint of the next id or by a
transfer that the owner, the approved caller or an operator makes, which leaves no approval. And
an approval that stands was granted by the present owner or one of his operators, and neither of
the two has changed since. -/
theorem owners_lawful {World : Type} (env : NftEnv World) (deployer zkVerifier : Address)
    (world : World) (inputs : List (Input World)) (signed : ∀ input ∈ inputs, Signed input) :
    Runs.Meets (step env) (Lawful env) (deployed deployer zkVerifier world) inputs ∧
      let final := (Runs.run (step env) (deployed deployer zkVerifier world) inputs).2
      ∀ tokenId, final.nft.tokenApproval tokenId ≠ Address.zero →
        Runs.Since (step env)
          (Grants (final.nft.publicOwner tokenId) (final.nft.tokenApproval tokenId) tokenId)
          (Rests env tokenId) (deployed deployer zkVerifier world) inputs := by
  have initial : Consistent (deployed deployer zkVerifier world).nft :=
    consistent_new deployer zkVerifier
  constructor
  · rw [Runs.meets_iff_forall]
    rintro earlier input later rfl
    have before := run_consistent env initial _ signed earlier (input :: later) rfl
    exact lawful_of_consistent before (signed input (by simp))
  · intro final tokenId stands
    exact run_approvals env initial rfl inputs signed stands

/-- Address 3 approves address 5 for its second token, and address 5 takes it. -/
theorem owners_lawful_sample :
    let inputs := [Sample.call 9 (.publicMint (Sample.address 3) "one"),
      Sample.call 9 (.publicMint (Sample.address 3) "two"),
      Sample.call 3 (.approve (Sample.address 5) 2),
      Sample.call 5 (.publicTransfer (Sample.address 3) (Sample.address 5) 2)]
    Runs.Meets (step Sample.env) (Lawful Sample.env) Sample.start inputs ∧
      let final := (Runs.run (step Sample.env) Sample.start inputs).2
      ∀ tokenId, final.nft.tokenApproval tokenId ≠ Address.zero →
        Runs.Since (step Sample.env)
          (Grants (final.nft.publicOwner tokenId) (final.nft.tokenApproval tokenId) tokenId)
          (Rests Sample.env tokenId) Sample.start inputs :=
  owners_lawful Sample.env (Sample.address 9) (Sample.address 8) Sample.empty _ (by decide +kernel)

end ProtonChain.Solidity.ProtonPrivateNFT
