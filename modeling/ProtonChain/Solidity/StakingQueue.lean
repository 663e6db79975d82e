import ProtonChain.Solidity.StakingSolvency

/-! Who is paid from the unbonding queue, for which entry and when.

The contract keeps the marks of the entries but not the transfers of its scans. The
transfers are kept here beside it, each with the position of the entry it was made for.
-/

set_option autoImplicit false

namespace ProtonChain.Solidity.ProtonStaking

open Checked

/-! ## Scans with a record -/

/-- A transfer of a scan, for the entry at the position. -/
structure Payout where
  position : Nat
  recipient : Address
  amount : U256
  time : U256
  deriving DecidableEq

section Scan
variable {World : Type} (env : Env World) (token : Address) (now : U256)

def payOut (position : Nat) (recipient : Address) (amount : U256) (world : World) :
    Outcome StakingError (Payout × World) := do
  let world ← transfer env token recipient amount world
  return (⟨position, recipient, amount, now⟩, world)

/-- The scan of the queue from a position on, with the transfers that it makes. -/
def payEntries (position : Nat) :
    List UnbondingEntry → World →
      Outcome StakingError (List Payout × List UnbondingEntry × World)
  | [], world => .ok ([], [], world)
  | entry :: rest, world =>
    if entry.processed = false ∧ entry.unlockHeight.toNat ≤ now.toNat then do
      let (payout, world) ← payOut env token now position entry.delegator entry.amount world
      let (payouts, rest, world) ← payEntries (position + 1) rest world
      return (payout :: payouts, { entry with processed := true } :: rest, world)
    else do
      let (payouts, rest, world) ← payEntries (position + 1) rest world
      return (payouts, entry :: rest, world)

/-- Without the record this is the scan of the contract. -/
theorem map_payEntries (position : Nat) (queue : List UnbondingEntry) (world : World) :
    (payEntries env token now position queue world).map Prod.snd =
      processEntries env token now queue world := by
  induction queue generalizing position world with
  | nil => rfl
  | cons entry rest ih =>
    rw [payEntries, processEntries]
    split
    · rw [payOut]
      cases transfer env token entry.delegator entry.amount world with
      | error fault => rfl
      | ok paid =>
        change Except.map Prod.snd (payEntries env token now (position + 1) rest paid >>= _) =
          (processEntries env token now rest paid >>= _)
        rw [← ih (position + 1) paid]
        cases payEntries env token now (position + 1) rest paid <;> rfl
    · rw [← ih (position + 1) world]
      cases payEntries env token now (position + 1) rest world <;> rfl

/-- The transfer that a payout is the record of. -/
def Payout.transferred (world : World) (payout : Payout) : Option World :=
  env.erc20.transfer world token env.self payout.recipient payout.amount

end Scan

/-! ## What a scan pays -/

def Due (now : U256) (entry : UnbondingEntry) : Prop :=
  entry.processed = false ∧ entry.unlockHeight.toNat ≤ now.toNat

instance (now : U256) (entry : UnbondingEntry) : Decidable (Due now entry) :=
  inferInstanceAs (Decidable (_ ∧ _))

def settle (now : U256) (entry : UnbondingEntry) : UnbondingEntry :=
  if Due now entry then { entry with processed := true } else entry

def payoutOf (now : U256) (entry : UnbondingEntry × Nat) : Payout :=
  ⟨entry.2, entry.1.delegator, entry.1.amount, now⟩

def duePayouts (now : U256) (position : Nat) (queue : List UnbondingEntry) : List Payout :=
  ((queue.zipIdx position).filter fun entry => Due now entry.1).map (payoutOf now)

def paidOut (payouts : List Payout) : Nat := (payouts.map fun payout => payout.amount.toNat).sum

theorem duePayouts_cons (now : U256) (position : Nat) (entry : UnbondingEntry)
    (rest : List UnbondingEntry) :
    duePayouts now position (entry :: rest) =
      if Due now entry then
        ⟨position, entry.delegator, entry.amount, now⟩ :: duePayouts now (position + 1) rest
      else duePayouts now (position + 1) rest := by
  simp only [duePayouts, List.zipIdx_cons, List.filter_cons, decide_eq_true_eq]
  split <;> rfl

/-- A scan pays what is due and marks it; the transfers lead from the world before it to the world
after it. -/
theorem payEntries_ok {World : Type} {env : Env World} {token : Address} {now : U256}
    {position : Nat} {queue queue' : List UnbondingEntry} {world world' : World}
    {payouts : List Payout}
    (done : payEntries env token now position queue world = .ok (payouts, queue', world')) :
    payouts = duePayouts now position queue ∧ queue' = queue.map (settle now) ∧
      payouts.foldlM (Payout.transferred env token) world = some world' := by
  induction queue generalizing position payouts queue' world with
  | nil =>
    cases done
    exact ⟨rfl, rfl, rfl⟩
  | cons entry rest ih =>
    rw [payEntries] at done
    rw [duePayouts_cons, List.map_cons, settle]
    change (if Due now entry then _ else _) = _ at done
    split at done
    next due =>
      simp only [payOut, bind_eq_ok, transfer_eq_ok, pure_eq_ok] at done
      obtain ⟨_, ⟨paid, moved, rfl⟩, ⟨later, rest', last⟩, scanned, same⟩ := done
      cases same
      obtain ⟨rfl, rfl, transfers⟩ := ih scanned
      refine ⟨by rw [if_pos due], by rw [if_pos due], ?_⟩
      rw [List.foldlM_cons, Payout.transferred, moved]
      exact transfers
    next early =>
      simp only [bind_eq_ok, pure_eq_ok] at done
      obtain ⟨⟨later, rest', last⟩, scanned, same⟩ := done
      cases same
      obtain ⟨rfl, rfl, transfers⟩ := ih scanned
      exact ⟨by rw [if_neg early], by rw [if_neg early], transfers⟩

theorem time_duePayouts {now : U256} {position : Nat} {queue : List UnbondingEntry}
    {payout : Payout} (member : payout ∈ duePayouts now position queue) : payout.time = now := by
  obtain ⟨entry, -, rfl⟩ := List.mem_map.mp member
  rfl

theorem mem_duePayouts {now : U256} {queue : List UnbondingEntry} {payout : Payout} :
    payout ∈ duePayouts now 0 queue ↔
      ∃ entry, queue[payout.position]? = some entry ∧ Due now entry ∧
        payout = payoutOf now (entry, payout.position) := by
  simp only [duePayouts, List.mem_map, List.mem_filter, decide_eq_true_eq, Prod.exists,
    List.mk_mem_zipIdx_iff_getElem?]
  constructor
  · rintro ⟨entry, position, ⟨found, due⟩, rfl⟩
    exact ⟨entry, found, due, rfl⟩
  · rintro ⟨entry, found, due, same⟩
    exact ⟨entry, payout.position, ⟨found, due⟩, same.symm⟩

theorem nodup_duePayouts (now : U256) (position : Nat) (queue : List UnbondingEntry) :
    ((duePayouts now position queue).map Payout.position).Nodup := by
  have positions : (queue.zipIdx position).map Prod.snd = List.range' position queue.length :=
    List.zipIdx_map_snd position queue
  have distinct : ((queue.zipIdx position).map Prod.snd).Nodup := by
    rw [positions]
    exact List.nodup_range'
  simp only [duePayouts, List.map_map]
  exact distinct.sublist (List.filter_sublist.map _)

theorem pending_settle (now : U256) (position : Nat) (queue : List UnbondingEntry) :
    pending queue = paidOut (duePayouts now position queue) + pending (queue.map (settle now)) := by
  induction queue generalizing position with
  | nil => rfl
  | cons entry rest ih =>
    have others := ih (position + 1)
    rw [duePayouts_cons, List.map_cons, settle, pending]
    by_cases due : Due now entry
    · have waiting := due.1
      simp only [due, if_true, pending, paidOut, List.map_cons, List.sum_cons] at others ⊢
      simp only [waiting, Bool.false_eq_true, if_false]
      omega
    · simp only [due, if_false, pending]
      omega

/-! ## Books of withdrawals and payouts -/

structure Withdrawal where
  delegator : Address
  amount : U256
  unlockHeight : Nat
  deriving DecidableEq

def withdrawalOf (entry : UnbondingEntry) : Withdrawal :=
  ⟨entry.delegator, entry.amount, entry.unlockHeight.toNat⟩

/-- The queue, all withdrawals that were asked for and all transfers that were made. -/
structure QueueBook where
  entries : List UnbondingEntry
  withdrawals : List Withdrawal
  payouts : List Payout

def unstaked (withdrawals : List Withdrawal) : Nat :=
  (withdrawals.map fun withdrawal => withdrawal.amount.toNat).sum

/-- Each entry is a withdrawal that was asked for; it is paid at most once, to its delegator,
for its amount and not early; it is marked exactly if it was paid; and all that was unstaked
is paid or pending. -/
structure Settled (book : QueueBook) : Prop where
  asked : book.entries.map withdrawalOf = book.withdrawals
  once : (book.payouts.map Payout.position).Nodup
  exact : ∀ payout ∈ book.payouts, ∃ entry, book.entries[payout.position]? = some entry ∧
    entry.processed = true ∧ payout.recipient = entry.delegator ∧
      payout.amount = entry.amount ∧ entry.unlockHeight.toNat ≤ payout.time.toNat
  marked : ∀ position entry, book.entries[position]? = some entry → entry.processed = true →
    position ∈ book.payouts.map Payout.position
  total : unstaked book.withdrawals = paidOut book.payouts + pending book.entries

/-- What an input that goes through does to the book. -/
inductive QueueBook.Moves (book : QueueBook) : QueueBook → Prop
  | kept : Moves book book
  | asked (entry : UnbondingEntry) (fresh : entry.processed = false) :
    Moves book
      ⟨book.entries ++ [entry], book.withdrawals ++ [withdrawalOf entry], book.payouts⟩
  | scanned (now : U256) :
    Moves book ⟨book.entries.map (settle now), book.withdrawals,
      book.payouts ++ duePayouts now 0 book.entries⟩

theorem settled_nil : Settled ⟨[], [], []⟩ where
  asked := rfl
  once := List.nodup_nil
  exact := nofun
  marked := nofun
  total := rfl

theorem withdrawalOf_settle (now : U256) (entry : UnbondingEntry) :
    withdrawalOf (settle now entry) = withdrawalOf entry := by
  rw [settle]
  split <;> rfl

theorem Settled.ask {book : QueueBook} (settled : Settled book) {entry : UnbondingEntry}
    (fresh : entry.processed = false) :
    Settled ⟨book.entries ++ [entry], book.withdrawals ++ [withdrawalOf entry], book.payouts⟩ where
  asked := by simp [settled.asked]
  once := settled.once
  exact := by
    intro payout member
    obtain ⟨paid, found, rest⟩ := settled.exact payout member
    have bound := (List.getElem?_eq_some_iff.mp found).1
    exact ⟨paid, (List.getElem?_append_left bound).trans found, rest⟩
  marked := by
    intro position other found done
    -- the new entry is not processed, so the position is an old one
    rw [List.getElem?_append] at found
    split at found
    · exact settled.marked position other found done
    · obtain rfl := List.mem_singleton.mp (List.mem_of_getElem? found)
      rw [fresh] at done
      cases done
  total := by
    have total := settled.total
    simp only [unstaked, List.map_append, List.sum_append, List.map_cons, List.map_nil,
      List.sum_singleton, pending_append, pending, fresh] at total ⊢
    simp only [withdrawalOf, Bool.false_eq_true, if_false]
    omega

theorem Settled.scan {book : QueueBook} (settled : Settled book) (now : U256) :
    Settled ⟨book.entries.map (settle now), book.withdrawals,
      book.payouts ++ duePayouts now 0 book.entries⟩ where
  asked := by
    simp only [List.map_map, ← settled.asked]
    exact List.map_congr_left fun entry _ => withdrawalOf_settle now entry
  once := by
    -- what was paid before is marked, and a marked entry is not due
    rw [List.map_append]
    refine settled.once.append (nodup_duePayouts now 0 book.entries) ?_
    intro position before after
    obtain ⟨old, paid, rfl⟩ := List.mem_map.mp before
    obtain ⟨new, unpaid, same⟩ := List.mem_map.mp after
    obtain ⟨entry, found, done, -⟩ := settled.exact old paid
    obtain ⟨entry', found', due, -⟩ := mem_duePayouts.mp unpaid
    rw [same, found] at found'
    obtain rfl := Option.some.inj found'
    rw [due.1] at done
    cases done
  exact := by
    intro payout member
    rcases List.mem_append.mp member with old | new
    · obtain ⟨entry, found, done, rest⟩ := settled.exact payout old
      refine ⟨entry, ?_, done, rest⟩
      rw [List.getElem?_map, found, Option.map_some, settle, if_neg]
      exact fun due => absurd due.1 (by simp [done])
    · obtain ⟨entry, found, due, same⟩ := mem_duePayouts.mp new
      refine ⟨{ entry with processed := true }, ?_, rfl, ?_⟩
      · rw [List.getElem?_map, found, Option.map_some, settle, if_pos due]
      · rw [same]
        exact ⟨rfl, rfl, due.2⟩
  marked := by
    intro position entry' found done
    rw [List.getElem?_map, Option.map_eq_some_iff] at found
    obtain ⟨entry, found, rfl⟩ := found
    rw [List.map_append, List.mem_append]
    by_cases due : Due now entry
    · exact .inr (List.mem_map.mpr ⟨payoutOf now (entry, position),
        mem_duePayouts.mpr ⟨entry, found, due, rfl⟩, rfl⟩)
    · rw [settle, if_neg due] at done
      exact .inl (settled.marked position entry found done)
  total := by
    have total := settled.total
    have paid := pending_settle now 0 book.entries
    simp only [paidOut, List.map_append, List.sum_append] at total paid ⊢
    omega

theorem Settled.moves {book book' : QueueBook} (settled : Settled book)
    (moves : book.Moves book') : Settled book' := by
  cases moves with
  | kept => exact settled
  | asked entry fresh => exact settled.ask fresh
  | scanned now => exact settled.scan now

/-! ## Recorded steps -/

/-- The contract, with what was asked of it and what its scans have paid. -/
structure QueueRecord (World : Type) where
  state : State World
  withdrawals : List Withdrawal
  payouts : List Payout

def QueueRecord.book {World : Type} (record : QueueRecord World) : QueueBook :=
  ⟨record.state.staking.unbondingQueue, record.withdrawals, record.payouts⟩

section Steps
variable {World : Type} (env : StakingEnv World)

def performRecorded (record : QueueRecord World) :
    Input World → Outcome StakingError (QueueRecord World)
  | .call caller now (.unstake address amount) => do
    let state ← unstake caller record.state now address amount
    let unlockHeight := now.toNat + record.state.staking.unbondingPeriod.toNat
    return { record with
      state := state
      withdrawals := record.withdrawals ++ [⟨caller, amount, unlockHeight⟩] }
  | .call _ now .processUnbonding => do
    let (payouts, queue, world) ← payEntries env.toEnv record.state.staking.protonToken
      (now.setWidth 256) 0 record.state.staking.unbondingQueue record.state.world
    return { record with
      state := ⟨{ record.state.staking with unbondingQueue := queue }, world⟩
      payouts := record.payouts ++ payouts }
  | input => do
    let state ← perform env record.state input
    return { record with state := state }

def recordedStep :
    QueueRecord World → Input World → Except (Fault StakingError) Unit × QueueRecord World :=
  Transactions.step (performRecorded env)

variable {env}

theorem map_performRecorded (record : QueueRecord World) (input : Input World) :
    (performRecorded env record input).map QueueRecord.state = perform env record.state input := by
  cases input with
  | outside world owner => rfl
  | call caller now call =>
    cases call with
    | processUnbonding =>
      rw [performRecorded, perform, processUnbonding,
        ← map_payEntries env.toEnv record.state.staking.protonToken (now.setWidth 256) 0]
      cases payEntries env.toEnv record.state.staking.protonToken (now.setWidth 256) 0
        record.state.staking.unbondingQueue record.state.world <;> rfl
    | unstake address amount =>
      rw [performRecorded, perform]
      cases unstake caller record.state now address amount <;> rfl
    | _ =>
      simp only [performRecorded]
      cases perform env record.state _ <;> rfl

theorem state_recordedStep (record : QueueRecord World) (input : Input World) :
    (recordedStep env record input).2.state = (step env record.state input).2 := by
  rw [recordedStep, step, Transactions.step, Transactions.step, ← map_performRecorded]
  cases performRecorded env record input <;> rfl

variable {record next : QueueRecord World} {input : Input World}

theorem unstake_queue {caller : Address} {state next : State World} {now : U64}
    {address : Address} {amount : U256}
    (done : unstake caller state now address amount = .ok next) :
    ∃ entry, entry.processed = false ∧
      withdrawalOf entry = ⟨caller, amount, now.toNat + state.staking.unbondingPeriod.toNat⟩ ∧
      next.staking.unbondingQueue = state.staking.unbondingQueue ++ [entry] := by
  obtain ⟨-, -, delegation, total, record, unlockHeight, -, -, -, -, -, -, unlocks, books⟩ :=
    unstake_ok done
  rw [books]
  exact ⟨⟨caller, address, amount, unlockHeight, false⟩, rfl,
    congrArg (Withdrawal.mk caller amount) unlocks, rfl⟩

theorem perform_queue {state next : State World} (performed : perform env state input = .ok next)
    (quiet : input.queues = false) :
    next.staking.unbondingQueue = state.staking.unbondingQueue := by
  cases input with
  | outside world owner =>
    obtain rfl := Except.ok.inj performed
    rfl
  | call caller now call =>
    cases call with
    | registerValidator commission =>
      obtain ⟨-, record, -, -, -, -, rfl⟩ := registerValidator_ok performed
      rfl
    | stake target amount =>
      obtain ⟨-, -, delegation, total, record, -, -, -, -, -, -, books⟩ := stake_ok performed
      rw [books]
      rfl
    | privateStake target encryptedAmount commitment nullifier zkProof =>
      obtain ⟨-, -, record, nullifiers, encrypted, -, -, -, -, books⟩ := privateStake_ok performed
      rw [books]
      rfl
    | unstake target amount => cases quiet
    | processUnbonding => cases quiet
    | distributeRewards validators rewards =>
      obtain ⟨-, ⟨records, epoch, books⟩, -⟩ := distributeRewards_ok performed
      rw [books]
    | slashValidator target percentage =>
      obtain ⟨-, -, record, -, -, -, -, books⟩ := slashValidator_ok performed
      rw [books]
      rfl
    | _ =>
      obtain ⟨owner, queue, zkVerifier, kept, books⟩ := perform_aside rfl performed
      rw [books, kept rfl]

theorem performRecorded_moves (done : performRecorded env record input = .ok next) :
    record.book.Moves next.book := by
  cases input with
  | outside world owner =>
    obtain rfl := Except.ok.inj done
    exact .kept
  | call caller now call =>
    cases call with
    | unstake address amount =>
      simp only [performRecorded, bind_eq_ok, pure_eq_ok] at done
      obtain ⟨state, unstaked, rfl⟩ := done
      obtain ⟨entry, fresh, asked, pushed⟩ := unstake_queue unstaked
      simp only [QueueRecord.book, pushed, ← asked]
      exact .asked entry fresh
    | processUnbonding =>
      simp only [performRecorded, bind_eq_ok, pure_eq_ok] at done
      obtain ⟨⟨payouts, queue, world⟩, scanned, rfl⟩ := done
      obtain ⟨rfl, rfl, -⟩ := payEntries_ok scanned
      exact .scanned (now.setWidth 256)
    | _ =>
      simp only [performRecorded, bind_eq_ok, pure_eq_ok] at done
      obtain ⟨state, performed, rfl⟩ := done
      simp only [QueueRecord.book, perform_queue performed rfl]
      exact .kept

/-- A step records the transfers of its scan, in their order and at its time, and nothing else. -/
structure Records (env : StakingEnv World) (record : QueueRecord World) (input : Input World)
    (next : QueueRecord World) (made : List Payout) : Prop where
  payouts : next.payouts = record.payouts ++ made
  scan : ∀ caller now, input = .call caller now .processUnbonding →
    made.foldlM (Payout.transferred env.toEnv record.state.staking.protonToken)
        record.state.world = some next.state.world ∧
      ∀ payout ∈ made, payout.time = now.setWidth 256
  other : (∀ caller now, input ≠ .call caller now .processUnbonding) → made = []

theorem Records.nothing (env : StakingEnv World) (record : QueueRecord World)
    (input : Input World) : Records env record input record [] where
  payouts := (List.append_nil _).symm
  scan _ _ _ := ⟨rfl, nofun⟩
  other _ := rfl

theorem performRecorded_records (done : performRecorded env record input = .ok next) :
    ∃ made, Records env record input next made := by
  have quiet (apart : ∀ caller now, input ≠ .call caller now .processUnbonding)
      (same : next.payouts = record.payouts) : Records env record input next [] :=
    ⟨same.trans (List.append_nil _).symm, fun caller now called => absurd called (apart caller now),
      fun _ => rfl⟩
  cases input with
  | outside world owner =>
    obtain rfl := Except.ok.inj done
    exact ⟨[], quiet (fun _ _ same => by cases same) rfl⟩
  | call caller now call =>
    cases call with
    | processUnbonding =>
      simp only [performRecorded, bind_eq_ok, pure_eq_ok] at done
      obtain ⟨⟨payouts, queue, world⟩, scanned, rfl⟩ := done
      refine ⟨payouts, rfl, ?_, fun other => absurd rfl (other caller now)⟩
      rintro _ _ ⟨⟩
      obtain ⟨rfl, -, transfers⟩ := payEntries_ok scanned
      exact ⟨transfers, fun payout => time_duePayouts⟩
    | _ =>
      simp only [performRecorded, bind_eq_ok, pure_eq_ok] at done
      obtain ⟨state, -, rfl⟩ := done
      exact ⟨[], quiet (fun _ _ same => by cases same) rfl⟩

theorem recordedStep_records (record : QueueRecord World) (input : Input World) :
    ∃ made, Records env record input (recordedStep env record input).2 made := by
  rw [recordedStep, Transactions.step]
  cases done : performRecorded env record input with
  | ok next => exact performRecorded_records done
  | error fault => exact ⟨[], .nothing env record input⟩

end Steps

/-- From the deployment on, in every state of a run with blocks of any times, each entry of
the queue is paid at most once, to its delegator, for its amount and not before it unlocks,
and all that was unstaked is paid or pending. What is recorded are the transfers of the token that
the scans make, and the record beside the contract changes nothing about its runs. -/
theorem unbonding_settled {World : Type} (env : StakingEnv World)
    (deployer protonToken zkVerifier : Address) (world : World) (inputs : List (Input World)) :
    Runs.Visits (recordedStep env) (fun record => Settled record.book)
        ⟨⟨ProtonStaking.new deployer protonToken zkVerifier, world⟩, [], []⟩ inputs ∧
      Runs.Meets (recordedStep env)
        (fun record input =>
          ∃ made, Records env record input (recordedStep env record input).2 made)
        ⟨⟨ProtonStaking.new deployer protonToken zkVerifier, world⟩, [], []⟩ inputs ∧
      (Runs.run (recordedStep env)
          ⟨⟨ProtonStaking.new deployer protonToken zkVerifier, world⟩, [], []⟩ inputs).2.state =
        (Runs.run (step env)
          ⟨ProtonStaking.new deployer protonToken zkVerifier, world⟩ inputs).2 := by
  refine ⟨?_, ?_, ?_⟩
  · refine @Transactions.visits_of_keeps _ _ _ (performRecorded env) _ (fun _ _ => True) ?_ _
      settled_nil inputs ((Runs.meets_const _ (fun _ => True) _ inputs).mpr fun _ _ => trivial)
    intro record input next settled _ done
    exact settled.moves (performRecorded_moves done)
  · exact (Runs.meets_iff_forall _ _ _ _).mpr fun _ _ _ _ => recordedStep_records _ _
  · exact Runs.run_erase (step env) (recordedStep env) QueueRecord.state state_recordedStep _ inputs

end ProtonChain.Solidity.ProtonStaking
