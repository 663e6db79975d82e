import ProtonChain.Contracts.Staking

/-! The unbonding queue of the staking contract at the end of a block.

The scan notes the indices of what it pays, and a second loop removes them from the last
to the first, so that an index still to come is not shifted by a removal.
-/

set_option autoImplicit false

namespace ProtonChain.Contracts.ProtonStaking

open Checked

def unlocked (height : U64) (entry : UnbondingEntry) : Bool :=
  decide (entry.unlockHeight.toNat ≤ height.toNat)

/-! ## Removal from the back -/

theorem removeEach_append (first rest : List Nat) (queue : List UnbondingEntry) :
    removeEach (first ++ rest) queue = removeEach first queue >>= removeEach rest := by
  induction first generalizing queue with
  | nil => rfl
  | cons index first ih =>
    rw [List.cons_append, removeEach, removeEach]
    split
    · exact ih _
    · rfl

/-- The indices that the scan notes, counted on from the front part. -/
def noted (height : U64) : List UnbondingEntry → Nat → List Nat
  | [], _ => []
  | entry :: rest, index =>
    if unlocked height entry then index :: noted height rest (index + 1)
    else noted height rest (index + 1)

/-- Every removal is in range; the induction moves the first entry over to the front. -/
theorem removeEach_noted (height : U64) (front queue : List UnbondingEntry) :
    removeEach (noted height queue front.length).reverse (front ++ queue) =
      .ok (front ++ queue.filter fun entry => !unlocked height entry) := by
  induction queue generalizing front with
  | nil => rw [noted, List.reverse_nil, removeEach, List.filter_nil]
  | cons entry queue ih =>
    have later := ih (front ++ [entry])
    rw [List.length_append, List.length_singleton, List.append_assoc, List.append_assoc] at later
    rw [noted]
    cases due : unlocked height entry with
    | false =>
      rw [List.filter_cons_of_pos (by simp [due])]
      exact later
    | true =>
      -- what comes later is gone when the entry itself is removed
      rw [if_pos rfl, List.reverse_cons, removeEach_append]
      change (removeEach _ (front ++ ([entry] ++ queue)) >>= _) = _
      rw [later, ok_bind, removeEach, if_pos (by simp), List.eraseIdx_append_of_length_le le_rfl,
        List.filter_cons_of_neg (by simp [due]), Nat.sub_self]
      rfl

/-! ## Payments -/

section Payments
variable {World : Type} (host : StakingHost World) (height : U64)

/-- What an entry is owed goes to its delegator. -/
def pay (world : World) (entry : UnbondingEntry) : Option World :=
  host.transfer world host.protonToken entry.delegator entry.amount

/-- The scan pays the unlocked entries in their order and notes their indices. -/
theorem payUnlocked_eq (queue : List UnbondingEntry) (index : Nat) (world : World) :
    payUnlocked host height (queue.zipIdx index) world =
      (demand (.raised .transfer) ((queue.filter (unlocked height)).foldlM (pay host) world)).map
        fun paid => (noted height queue index, paid) := by
  induction queue generalizing index world with
  | nil => rfl
  | cons entry queue ih =>
    rw [List.zipIdx_cons, payUnlocked, noted]
    by_cases due : entry.unlockHeight.toNat ≤ height.toNat
    · have now : unlocked height entry = true := decide_eq_true due
      rw [if_pos due, List.filter_cons_of_pos now, if_pos now, List.foldlM_cons]
      change (demand _ (pay host world entry) >>= _) = _
      cases paid : pay host world entry with
      | none => rfl
      | some after =>
        rw [demand, ok_bind, ih, Option.bind_eq_bind, Option.bind_some]
        cases (queue.filter (unlocked height)).foldlM (pay host) after <;> rfl
    · have later : ¬ unlocked height entry = true := by simpa [unlocked] using due
      rw [if_neg due, List.filter_cons_of_neg later, if_neg later, ih]

theorem processUnbonding_eq (state : State World) :
    processUnbonding host state height =
      (demand (.raised .transfer)
          ((state.staking.unbondingQueue.filter (unlocked height)).foldlM (pay host)
            state.world)).map
        fun world => ⟨{ state.staking with
          unbondingQueue := state.staking.unbondingQueue.filter fun entry =>
            !unlocked height entry }, world⟩ := by
  have removal := removeEach_noted height [] state.staking.unbondingQueue
  rw [processUnbonding, payUnlocked_eq]
  cases (state.staking.unbondingQueue.filter (unlocked height)).foldlM (pay host) state.world with
  | none => rfl
  | some world =>
    change (removeEach (noted height state.staking.unbondingQueue 0).reverse
      state.staking.unbondingQueue >>= _) = _
    rw [List.nil_append, List.length_nil] at removal
    rw [removal]
    rfl

/-- A block pays every unlocked entry once, to its delegator and in order, and keeps the
others in theirs; no removal is out of range. -/
theorem processUnbonding_pays_unlocked (state : State World) :
    processUnbonding host state height =
        (demand (.raised .transfer)
            ((state.staking.unbondingQueue.filter (unlocked height)).foldlM (pay host)
              state.world)).map
          (fun world => ⟨{ state.staking with
            unbondingQueue := state.staking.unbondingQueue.filter fun entry =>
              !unlocked height entry }, world⟩) ∧
      Avoids (.raised .removeIndex) (processUnbonding host state height) := by
  refine ⟨processUnbonding_eq host height state, ?_⟩
  rw [Avoids, processUnbonding_eq]
  cases (state.staking.unbondingQueue.filter (unlocked height)).foldlM (pay host) state.world with
  | none =>
    intro same
    cases same
  | some world =>
    intro same
    cases same

end Payments

end ProtonChain.Contracts.ProtonStaking
