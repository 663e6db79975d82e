import ProtonChain.Contracts.NftTokens

/-! Who changes the owner of a public token.

A transfer asks whether its argument `from` is approved, not whether the caller is. The owner of a
public token is public, so anyone can name it.
-/

set_option autoImplicit false

namespace ProtonChain.Contracts.ProtonNFT

open Checked

def Authorized (nft : ProtonNFT) (caller : Address) (tokenId : U256) (owner : Address) : Prop :=
  caller = owner ∨ nft.approvals.lookup tokenId = some caller ∨
    nft.operatorApprovals.lookup (owner, caller) = some true

section Owners
variable {World : Type} (host : NftHost World)

/-- A public token whose recorded owner changes is transferred by an authorized caller. -/
def Lawful (state : State World) (input : Input World) : Prop :=
  ∀ tokenId token owner, state.nft.tokens.lookup tokenId = some token →
    token.isPrivate = false → state.nft.owners.lookup tokenId = some owner →
    (step host state input).2.nft.owners.lookup tokenId ≠ some owner →
    ∃ caller timestamp sender receiver,
      input = .call caller timestamp (.transfer sender receiver tokenId) ∧
        Authorized state.nft caller tokenId owner

/-- A transfer of an owned token to another address is made by a caller who passes the check that
the code makes of `from`, and a mint writes over no other owner. -/
def Guarded (state : State World) : Input World → Prop
  | .call caller _ (.transfer _ receiver tokenId) =>
    ∀ owner, state.nft.owners.lookup tokenId = some owner →
      owner = receiver ∨ isApprovedOrOwner host.sha3 state.nft caller tokenId = true
  | .call _ _ (.mint receiver _) =>
    ∀ token owner, state.nft.tokens.lookup (state.nft.totalSupply + 1) = some token →
      token.isPrivate = false →
      state.nft.owners.lookup (state.nft.totalSupply + 1) = some owner → owner = receiver
  | _ => True

variable {host} {state next : State World} {input : Input World}

theorem isApprovedOrOwner_iff {sha3 : Sha3} {nft : ProtonNFT} {spender owner : Address}
    {tokenId : U256} (owned : nft.owners.lookup tokenId = some owner) :
    isApprovedOrOwner sha3 nft spender tokenId = true ↔ Authorized nft spender tokenId owner := by
  have named : (nft.ownerOf tokenId).getD (hidden sha3) = owner := by
    rw [ownerOf, owned]
    rfl
  rw [isApprovedOrOwner, named, ownerOf, owned, Authorized]
  by_cases own : owner = spender
  · simp [own]
  · have other : spender ≠ owner := Ne.symm own
    by_cases approved : nft.approvals.lookup tokenId = some spender
    · simp [own, approved]
    · cases operator : nft.operatorApprovals.lookup (owner, spender) with
      | none => simp [own, other, approved]
      | some all => simp [own, other, approved]

theorem lawful_iff_guarded (performed : perform host state input = .ok next) :
    Lawful host state input ↔ Guarded host state input := by
  have effect := perform_effect performed
  have moved : (step host state input).2.nft = next.nft := by
    rw [step, Transactions.step_of_ok performed]
  rw [Lawful, moved]
  generalize next.nft = after at effect
  -- where the owners stay, nothing is to be shown
  have quiet (kept : after.owners = state.nft.owners) :
      ∀ tokenId token owner, state.nft.tokens.lookup tokenId = some token →
        token.isPrivate = false → state.nft.owners.lookup tokenId = some owner →
        after.owners.lookup tokenId ≠ some owner →
        ∃ caller timestamp sender receiver,
          input = .call caller timestamp (.transfer sender receiver tokenId) ∧
            Authorized state.nft caller tokenId owner := by
    intro tokenId token owner found isPublic owned changed
    rw [kept] at changed
    exact absurd owned changed
  cases effect with
  | minted caller timestamp receiver metadata token labelled isPublic =>
    constructor
    · intro lawful old owner found isPublic owned
      by_contra apart
      have moved : (state.nft.owners.insert (state.nft.totalSupply + 1) receiver).lookup
          (state.nft.totalSupply + 1) ≠ some owner := by
        rw [FiniteMap.lookup_insert, if_pos rfl]
        exact fun given => apart (Option.some.inj given).symm
      -- the change is made by a mint, which is no transfer
      obtain ⟨_, _, _, _, input, -⟩ := lawful _ old owner found isPublic owned moved
      cases input
    · intro guarded tokenId old owner found isPublic owned changed
      rw [FiniteMap.lookup_insert] at changed
      split at changed
      next same =>
        subst same
        exact absurd (congrArg some (guarded old owner found isPublic owned).symm) changed
      next => exact absurd owned changed
  | privatelyMinted => exact iff_of_true (quiet rfl) trivial
  | transferred caller timestamp sender receiver tokenId token approved found isPublic =>
    constructor
    · intro lawful owner owned
      by_cases same : owner = receiver
      · exact .inl same
      · have moved : (state.nft.owners.insert tokenId receiver).lookup tokenId ≠ some owner := by
          rw [FiniteMap.lookup_insert, if_pos rfl]
          exact fun given => same (Option.some.inj given).symm
        obtain ⟨_, _, _, _, input, authorized⟩ :=
          lawful tokenId token owner found isPublic owned moved
        cases input
        exact .inr ((isApprovedOrOwner_iff owned).mpr authorized)
    · intro guarded other old owner found' isPublic' owned changed
      rw [FiniteMap.lookup_insert] at changed
      split at changed
      next same =>
        subst same
        have apart : owner ≠ receiver := fun same => changed (congrArg some same.symm)
        have allowed := (guarded owner owned).resolve_left apart
        exact ⟨caller, timestamp, sender, receiver, rfl,
          (isApprovedOrOwner_iff owned).mp allowed⟩
      next => exact absurd owned changed
  | privatelyTransferred => exact iff_of_true (quiet rfl) trivial
  | approved => exact iff_of_true (quiet rfl) trivial
  | approvedForAll => exact iff_of_true (quiet rfl) trivial
  | outside => exact iff_of_true (quiet rfl) trivial

theorem lawful_of_not_succeeds (failed : ¬ Transactions.Succeeds (perform host) state input) :
    Lawful host state input := by
  intro tokenId token owner found isPublic owned changed
  rw [step, Transactions.step_of_not_succeeds failed] at changed
  exact absurd owned changed

/-- A mint in a consistent state is guarded, and so is a transfer in the caller's own name. -/
theorem guarded_of_named (consistent : Consistent state.nft)
    (room : state.nft.totalSupply.toNat + 1 < 2 ^ 256)
    (named : ∀ caller timestamp sender receiver tokenId,
      input = .call caller timestamp (.transfer sender receiver tokenId) → sender = caller)
    (performed : perform host state input = .ok next) : Guarded host state input := by
  have effect := perform_effect performed
  generalize next.nft = after at effect
  cases effect with
  | minted =>
    intro token owner found
    exact absurd (Finmap.mem_of_lookup_eq_some found) (consistent.fresh room)
  | transferred caller timestamp sender receiver tokenId token approved =>
    obtain rfl := named caller timestamp sender receiver tokenId rfl
    exact fun owner owned => .inr approved
  | privatelyMinted => trivial
  | privatelyTransferred => trivial
  | approved => trivial
  | approvedForAll => trivial
  | outside => trivial

end Owners

/-- Owners of public tokens change by authorized transfers only, exactly if every transfer that
goes through is one of a caller who passes the check himself or leaves the owner as it is, and no
mint writes over an owner. It is enough that every transfer names its caller and the count of the
tokens does not wrap. -/
theorem owners_lawful_iff {World : Type} (host : NftHost World) (world : World)
    (inputs : List (Input World)) :
    (Runs.Meets (step host) (Lawful host) ⟨new, world⟩ inputs ↔
      Runs.Meets (step host)
        (fun state input => Transactions.Succeeds (perform host) state input →
          Guarded host state input) ⟨new, world⟩ inputs) ∧
    ((mintedIds host world inputs).length < 2 ^ 256 - 1 →
      (∀ caller timestamp sender receiver tokenId,
        .call caller timestamp (.transfer sender receiver tokenId) ∈ inputs → sender = caller) →
      Runs.Meets (step host) (Lawful host) ⟨new, world⟩ inputs) := by
  have same : Runs.Meets (step host) (Lawful host) ⟨new, world⟩ inputs ↔
      Runs.Meets (step host) (fun state input =>
        Transactions.Succeeds (perform host) state input → Guarded host state input)
        ⟨new, world⟩ inputs := by
    constructor
    · intro meets
      refine meets.mono fun state input lawful ⟨next, performed⟩ => ?_
      exact (lawful_iff_guarded performed).mp lawful
    · intro meets
      refine meets.mono fun state input guarded => ?_
      by_cases succeeds : Transactions.Succeeds (perform host) state input
      · obtain ⟨next, performed⟩ := succeeds
        exact (lawful_iff_guarded performed).mpr (guarded ⟨next, performed⟩)
      · exact lawful_of_not_succeeds succeeds
  refine ⟨same, fun few named => same.mpr ?_⟩
  rw [Runs.meets_iff_forall]
  rintro earlier input later rfl ⟨next, performed⟩
  have noted := Runs.notes_append (step host) (mintedId host) ⟨new, world⟩ earlier (input :: later)
  have before : (mintedIds host world earlier).length < 2 ^ 256 - 1 := by
    rw [mintedIds, noted, List.length_append] at few
    rw [mintedIds]
    omega
  obtain ⟨-, supply, consistent⟩ := minted_run host world earlier (by omega)
  refine guarded_of_named consistent (by omega) ?_ performed
  rintro caller timestamp sender receiver tokenId rfl
  exact named caller timestamp sender receiver tokenId (by simp)

/-- Address 5 takes the token of address 3, which has approved nobody. -/
theorem owner_named_by_thief :
    ¬ Runs.Meets (step Sample.host) (Lawful Sample.host) ⟨new, ()⟩
      (Sample.minted ++
        [Sample.call 5 (.transfer (Sample.address 3) (Sample.address 5) 1)]) := by
  intro meets
  have lawful := (Runs.meets_iff_forall _ _ _ _).mp meets Sample.minted _ [] rfl
  have found : (Runs.run (step Sample.host) ⟨new, ()⟩ Sample.minted).2.nft.tokens.lookup 1 =
      some ⟨1, "", Hash.zero, false, 0⟩ := by decide +kernel
  obtain ⟨caller, timestamp, sender, receiver, same, authorized⟩ :=
    lawful 1 _ (Sample.address 3) found rfl (by decide +kernel) (by decide +kernel)
  cases same
  exact absurd authorized (by unfold Authorized; decide +kernel)

end ProtonChain.Contracts.ProtonNFT
