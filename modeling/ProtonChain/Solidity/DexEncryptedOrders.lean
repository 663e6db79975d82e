import ProtonChain.Library.Entries
import ProtonChain.Solidity.Bridge
import ProtonChain.Solidity.DexPrivate

/-! Encrypted orders of the exchange contract.

An order is kept under the hash of its terms and listed under its pair; a cancelled one stays in
both. A placement does not look whether its hash is taken, so what is told of one order rests on
the hashes of the terms that a run places being different.
-/

set_option autoImplicit false

namespace ProtonChain.Solidity

open Checked

structure EncryptedOrder where
  owner : Address
  encryptedAmount : Hash
  encryptedPrice : Hash
  isBuy : Bool
  zkProof : Hash
  timestamp : U256
  active : Bool
  deriving DecidableEq

/-- A mapping reads this where no order was placed. -/
def EncryptedOrder.empty : EncryptedOrder where
  owner := Address.zero
  encryptedAmount := Hash.zero
  encryptedPrice := Hash.zero
  isBuy := false
  zkProof := Hash.zero
  timestamp := 0
  active := false

inductive OrderError where
  | exchange (error : PrivateDexError)
  | orderNotFound
  | unauthorized
  deriving DecidableEq, Repr

/-- What the hash of an order is made from. -/
structure OrderTerms where
  owner : Address
  pairHash : Hash
  encryptedAmount : Hash
  encryptedPrice : Hash
  isBuy : Bool
  timestamp : U256
  deriving DecidableEq

namespace OrderTerms

/-- `abi.encodePacked` of the terms. -/
def packed (terms : OrderTerms) : Bytes :=
  terms.owner.asBytes.toList ++ (terms.pairHash.asBytes.toList ++
    (terms.encryptedAmount.asBytes.toList ++ (terms.encryptedPrice.asBytes.toList ++
      ((if terms.isBuy then 1 else 0) :: ProtonBridge.word terms.timestamp))))

def orderHash (keccak256 : Bytes → List.Vector UInt8 32) (terms : OrderTerms) : Hash :=
  Hash.new keccak256 terms.packed

/-- The fields have fixed widths, so they can be told apart. -/
theorem packed_injective : Function.Injective packed := by
  intro first second same
  have width {count : Nat} (left right : List.Vector UInt8 count) :
      left.toList.length = right.toList.length := by
    rw [left.toList_length, right.toList_length]
  obtain ⟨owner, same⟩ := List.append_inj same (width _ _)
  obtain ⟨pairHash, same⟩ := List.append_inj same (width _ _)
  obtain ⟨amount, same⟩ := List.append_inj same (width _ _)
  obtain ⟨price, same⟩ := List.append_inj same (width _ _)
  obtain ⟨side, time⟩ := List.cons.inj same
  have sides : first.isBuy = second.isBuy := by
    revert side
    cases first.isBuy <;> cases second.isBuy <;> simp
  have times : first.timestamp = second.timestamp := by
    have digits := congrArg Codec.ofBytes (List.reverse_injective time)
    rw [Codec.ofBytes_toBytes, Codec.ofBytes_toBytes] at digits
    have below := first.timestamp.isLt
    have below' := second.timestamp.isLt
    have bound : (2 : Nat) ^ 256 = 256 ^ 32 := by norm_num
    rw [bound] at below below'
    rw [Nat.mod_eq_of_lt below, Nat.mod_eq_of_lt below'] at digits
    exact BitVec.eq_of_toNat_eq digits
  cases first
  cases second
  rw [OrderTerms.mk.injEq]
  exact ⟨Address.eq_of_bytes owner, Hash.eq_of_bytes pairHash, Hash.eq_of_bytes amount,
    Hash.eq_of_bytes price, sides, times⟩

end OrderTerms

/-- What is kept of the terms: all but the pair. -/
def OrderTerms.kept (terms : OrderTerms) : Address × Hash × Hash × Bool × U256 :=
  (terms.owner, terms.encryptedAmount, terms.encryptedPrice, terms.isBuy, terms.timestamp)

def EncryptedOrder.kept (order : EncryptedOrder) : Address × Hash × Hash × Bool × U256 :=
  (order.owner, order.encryptedAmount, order.encryptedPrice, order.isBuy, order.timestamp)

namespace ProtonDEX

structure OrderState (World : Type) where
  exchange : State World
  encryptedOrders : HashMap Hash EncryptedOrder
  pairOrderHashes : HashMap Hash (List Hash)

namespace OrderState

variable {World : Type} (state : OrderState World)

def order (orderHash : Hash) : EncryptedOrder :=
  (state.encryptedOrders.lookup orderHash).getD EncryptedOrder.empty

def orderHashes (pairHash : Hash) : List Hash := (state.pairOrderHashes.lookup pairHash).getD []

end OrderState

/-! ## Calls -/

section Calls
variable {World : Type} (env : PrivateDexEnv World) (caller : Address) (state : OrderState World)

def placeEncryptedOrder (timestamp : U256) (tokenA tokenB : Address)
    (encryptedAmount encryptedPrice : Hash) (isBuy : Bool) (zkProof : Hash) :
    Outcome OrderError (Hash × OrderState World) := do
  let (token0, token1) ← lift (fun error => .exchange (.dex error)) (sortTokens tokenA tokenB)
  let pairHash := pairHash env.toEnv token0 token1
  ensure ((state.exchange.dex.pair pairHash).tokenA ≠ Address.zero)
    (.raised (.exchange (.dex .pairNotFound)))
  let terms : OrderTerms :=
    ⟨caller, pairHash, encryptedAmount, encryptedPrice, isBuy, timestamp⟩
  let orderHash := terms.orderHash env.keccak256
  return (orderHash, { state with
    encryptedOrders := state.encryptedOrders.insert orderHash
      { owner := caller
        encryptedAmount := encryptedAmount
        encryptedPrice := encryptedPrice
        isBuy := isBuy
        zkProof := zkProof
        timestamp := timestamp
        active := true }
    pairOrderHashes :=
      state.pairOrderHashes.insert pairHash (state.orderHashes pairHash ++ [orderHash]) })

def cancelOrder (orderHash : Hash) : Outcome OrderError (OrderState World) := do
  let order := state.order orderHash
  ensure (order.owner ≠ Address.zero) (.raised .orderNotFound)
  ensure (order.owner = caller) (.raised .unauthorized)
  return { state with
    encryptedOrders := state.encryptedOrders.insert orderHash { order with active := false } }

end Calls

/-! ## Runs -/

/-- An input of the exchange, or a call of the order book. -/
inductive OrderInput (World : Type) where
  | exchange (input : PrivateInput World)
  | placeEncryptedOrder (caller : Address) (timestamp : U256) (tokenA tokenB : Address)
    (encryptedAmount encryptedPrice : Hash) (isBuy : Bool) (zkProof : Hash)
  | cancelOrder (caller : Address) (orderHash : Hash)

section Runs
variable {World : Type} (env : PrivateDexEnv World)

def performOrder (state : OrderState World) :
    OrderInput World → Outcome OrderError (OrderState World)
  | .exchange input => do
    let exchange ← lift .exchange (performPrivate env state.exchange input)
    return { state with exchange := exchange }
  | .placeEncryptedOrder caller timestamp tokenA tokenB encryptedAmount encryptedPrice isBuy
      zkProof => do
    let (_, next) ← placeEncryptedOrder env caller state timestamp tokenA tokenB encryptedAmount
      encryptedPrice isBuy zkProof
    return next
  | .cancelOrder caller orderHash => cancelOrder caller state orderHash

def orderStep : OrderState World → OrderInput World →
    Except (Fault OrderError) Unit × OrderState World :=
  Transactions.step (performOrder env)

/-- An exchange before its first order. -/
def withoutOrders (exchange : State World) : OrderState World := ⟨exchange, ∅, ∅⟩

/-- The terms that an input places, none where it does not place an order. -/
def placedTerms (state : OrderState World) : OrderInput World → Option OrderTerms
  | .placeEncryptedOrder caller timestamp tokenA tokenB encryptedAmount encryptedPrice isBuy _ =>
    match sortTokens tokenA tokenB with
    | .ok (token0, token1) =>
      let pairHash := pairHash env.toEnv token0 token1
      if (state.exchange.dex.pair pairHash).tokenA ≠ Address.zero then
        some ⟨caller, pairHash, encryptedAmount, encryptedPrice, isBuy, timestamp⟩
      else none
    | .error _ => none
  | _ => none

def placements (start : OrderState World) (inputs : List (OrderInput World)) : List OrderTerms :=
  Runs.notes (orderStep env) (placedTerms env) start inputs

end Runs


/-! ## What an input does -/

section Effects
variable {World : Type} (env : PrivateDexEnv World)

/-- The terms with a proof, as they are kept. -/
def orderOf (terms : OrderTerms) (zkProof : Hash) : EncryptedOrder :=
  ⟨terms.owner, terms.encryptedAmount, terms.encryptedPrice, terms.isBuy, zkProof,
    terms.timestamp, true⟩

/-- An input cancels the order: its owner asks for it. -/
def Cancels (orderHash : Hash) (state : OrderState World) (input : OrderInput World) : Prop :=
  ∃ caller order, input = .cancelOrder caller orderHash ∧
    state.encryptedOrders.lookup orderHash = some order ∧ order.owner = caller ∧
    caller ≠ Address.zero

/-- What an input that goes through leaves. -/
inductive OrderEffect (state : OrderState World) : OrderInput World → OrderState World → Prop where
  | exchanged (input : PrivateInput World) (next : State World)
    (performed : performPrivate env state.exchange input = .ok next) :
    OrderEffect state (.exchange input) { state with exchange := next }
  | placed (input : OrderInput World) (terms : OrderTerms) (zkProof : Hash)
    (taken : placedTerms env state input = some terms) :
    OrderEffect state input { state with
      encryptedOrders := state.encryptedOrders.insert (terms.orderHash env.keccak256)
        (orderOf terms zkProof)
      pairOrderHashes := state.pairOrderHashes.insert terms.pairHash
        (state.orderHashes terms.pairHash ++ [terms.orderHash env.keccak256]) }
  | cancelled (caller : Address) (orderHash : Hash) (order : EncryptedOrder)
    (found : state.encryptedOrders.lookup orderHash = some order) (own : order.owner = caller)
    (somebody : caller ≠ Address.zero) :
    OrderEffect state (.cancelOrder caller orderHash) { state with
      encryptedOrders := state.encryptedOrders.insert orderHash { order with active := false } }

variable {env} {state next : OrderState World} {input : OrderInput World}

theorem cancelOrder_eq_ok {caller : Address} {orderHash : Hash} :
    cancelOrder caller state orderHash = .ok next ↔
      ∃ order, state.encryptedOrders.lookup orderHash = some order ∧ order.owner = caller ∧
        caller ≠ Address.zero ∧ next = { state with
          encryptedOrders :=
            state.encryptedOrders.insert orderHash { order with active := false } } := by
  simp only [cancelOrder, bind_eq_ok, ensure_eq_ok, pure_eq_ok]
  constructor
  · rintro ⟨-, somebody, -, own, rfl⟩
    cases found : state.encryptedOrders.lookup orderHash with
    | none =>
      -- nobody owns an order that was not placed
      rw [OrderState.order, found] at somebody
      exact absurd rfl somebody
    | some order =>
      rw [OrderState.order, found, Option.getD_some] at somebody own ⊢
      exact ⟨order, rfl, own, own ▸ somebody, rfl⟩
  · rintro ⟨order, found, own, somebody, rfl⟩
    rw [OrderState.order, found, Option.getD_some]
    exact ⟨(), own ▸ somebody, (), own, rfl⟩

theorem placeEncryptedOrder_eq_ok {caller : Address} {timestamp : U256} {tokenA tokenB : Address}
    {encryptedAmount encryptedPrice : Hash} {isBuy : Bool} {zkProof : Hash} :
    performOrder env state (.placeEncryptedOrder caller timestamp tokenA tokenB encryptedAmount
        encryptedPrice isBuy zkProof) = .ok next ↔
      ∃ terms, placedTerms env state (.placeEncryptedOrder caller timestamp tokenA tokenB
          encryptedAmount encryptedPrice isBuy zkProof) = some terms ∧ next = { state with
        encryptedOrders := state.encryptedOrders.insert (terms.orderHash env.keccak256)
          (orderOf terms zkProof)
        pairOrderHashes := state.pairOrderHashes.insert terms.pairHash
          (state.orderHashes terms.pairHash ++ [terms.orderHash env.keccak256]) } := by
  simp only [performOrder, placeEncryptedOrder, placedTerms, bind_eq_ok, lift_eq_ok, ensure_eq_ok,
    pure_eq_ok]
  cases sorts : sortTokens tokenA tokenB with
  | error fault => simp
  | ok tokens =>
    constructor
    · rintro ⟨-, ⟨sorted, same, -, found, rfl⟩, rfl⟩
      obtain rfl := Except.ok.inj same
      exact ⟨_, if_pos found, rfl⟩
    · rintro ⟨terms, taken, rfl⟩
      rw [Option.ite_none_right_eq_some] at taken
      obtain ⟨found, same⟩ := taken
      obtain rfl := Option.some.inj same
      exact ⟨_, ⟨tokens, rfl, (), found, rfl⟩, rfl⟩

theorem performOrder_effect (performed : performOrder env state input = .ok next) :
    OrderEffect env state input next := by
  cases input with
  | exchange input =>
    simp only [performOrder, bind_eq_ok, lift_eq_ok, pure_eq_ok] at performed
    obtain ⟨exchange, performed, rfl⟩ := performed
    exact .exchanged input exchange performed
  | placeEncryptedOrder caller timestamp tokenA tokenB encryptedAmount encryptedPrice isBuy
      zkProof =>
    obtain ⟨terms, taken, rfl⟩ := placeEncryptedOrder_eq_ok.mp performed
    exact .placed _ terms zkProof taken
  | cancelOrder caller orderHash =>
    obtain ⟨order, found, own, somebody, rfl⟩ := cancelOrder_eq_ok.mp performed
    exact .cancelled caller orderHash order found own somebody

@[simp] theorem placedTerms_exchange (input : PrivateInput World) :
    placedTerms env state (.exchange input) = none := rfl

@[simp] theorem placedTerms_cancelOrder (caller : Address) (orderHash : Hash) :
    placedTerms env state (.cancelOrder caller orderHash) = none := rfl

theorem placedTerms_of_not_succeeds
    (failed : ¬ Transactions.Succeeds (performOrder env) state input) :
    placedTerms env state input = none := by
  cases input with
  | exchange input => rfl
  | cancelOrder caller orderHash => rfl
  | placeEncryptedOrder caller timestamp tokenA tokenB encryptedAmount encryptedPrice isBuy
      zkProof =>
    by_contra some
    obtain ⟨terms, taken⟩ := Option.ne_none_iff_exists'.mp some
    exact failed ⟨_, placeEncryptedOrder_eq_ok.mpr ⟨terms, taken, rfl⟩⟩

/-- A cancellation by the owner does not fail. -/
theorem cancels_iff {orderHash : Hash} : Cancels orderHash state input ↔
    Transactions.Succeeds (performOrder env) state input ∧
      ∃ caller, input = .cancelOrder caller orderHash := by
  constructor
  · rintro ⟨caller, order, rfl, found, own, somebody⟩
    exact ⟨⟨_, cancelOrder_eq_ok.mpr ⟨order, found, own, somebody, rfl⟩⟩, caller, rfl⟩
  · rintro ⟨⟨next, performed⟩, caller, rfl⟩
    obtain ⟨order, found, own, somebody, -⟩ := cancelOrder_eq_ok.mp performed
    exact ⟨caller, order, rfl, found, own, somebody⟩

variable (env) in
theorem orderStep_cases (state : OrderState World) (input : OrderInput World) :
    OrderEffect env state input (orderStep env state input).2 ∨
      (orderStep env state input).2 = state ∧ placedTerms env state input = none ∧
        ∀ orderHash, ¬ Cancels orderHash state input := by
  by_cases succeeds : Transactions.Succeeds (performOrder env) state input
  · obtain ⟨next, performed⟩ := succeeds
    rw [orderStep, Transactions.step_of_ok performed]
    exact .inl (performOrder_effect performed)
  · exact .inr ⟨Transactions.step_of_not_succeeds succeeds, placedTerms_of_not_succeeds succeeds,
      fun orderHash cancels => succeeds (cancels_iff.mp cancels).1⟩

end Effects

/-! ## The book of a run -/

section Book
variable {World : Type} (env : PrivateDexEnv World)

/-- An input places terms with the hash. -/
def Places (orderHash : Hash) (state : OrderState World) (input : OrderInput World) : Prop :=
  ∃ terms, placedTerms env state input = some terms ∧
    terms.orderHash env.keccak256 = orderHash

/-- The book after the terms that were placed. -/
structure OrdersBooked (placed : List OrderTerms) (state : OrderState World) : Prop where
  listed : ∀ pairHash, state.orderHashes pairHash =
    (placed.filter fun terms => terms.pairHash = pairHash).map (OrderTerms.orderHash env.keccak256)
  known : ∀ orderHash, orderHash ∈ state.encryptedOrders ↔
    ∃ terms ∈ placed, terms.orderHash env.keccak256 = orderHash
  kept : ∀ orderHash order, state.encryptedOrders.lookup orderHash = some order →
    ∃ terms ∈ placed, terms.orderHash env.keccak256 = orderHash ∧ order.kept = terms.kept

variable {env} {state next : OrderState World} {input : OrderInput World}

theorem OrdersBooked.step {placed : List OrderTerms} (booked : OrdersBooked env placed state) :
    OrdersBooked env (placed ++ (placedTerms env state input).toList)
      (orderStep env state input).2 := by
  rcases orderStep_cases env state input with effect | ⟨stays, none, -⟩
  · generalize (orderStep env state input).2 = next at effect
    cases effect with
    | exchanged input next performed =>
      rw [placedTerms_exchange, Option.toList_none, List.append_nil]
      exact ⟨booked.listed, booked.known, booked.kept⟩
    | placed input terms zkProof taken =>
      rw [taken, Option.toList_some]
      constructor
      · intro pairHash
        rw [OrderState.orderHashes, FiniteMap.lookup_insert, List.filter_append, List.map_append,
          ← booked.listed]
        by_cases same : pairHash = terms.pairHash
        · simp [same]
        · simp [same, Ne.symm same, OrderState.orderHashes]
      · intro orderHash
        rw [Finmap.mem_insert, booked.known]
        simp only [List.mem_append, List.mem_singleton, or_and_right, exists_or, exists_eq_left]
        rw [or_comm, eq_comm]
      · refine FiniteMap.forall_lookup_insert ?_ fun orderHash order found => ?_
        · exact ⟨terms, by simp, rfl, rfl⟩
        · obtain ⟨old, member, hashed, kept⟩ := booked.kept orderHash order found
          exact ⟨old, List.mem_append_left _ member, hashed, kept⟩
    | cancelled caller cancelled order found own somebody =>
      rw [placedTerms_cancelOrder, Option.toList_none, List.append_nil]
      refine ⟨booked.listed, fun orderHash => ?_, ?_⟩
      · rw [← booked.known]
        exact FiniteMap.mem_insert_of_mem _ (Finmap.mem_of_lookup_eq_some found) orderHash
      · refine FiniteMap.forall_lookup_insert ?_ booked.kept
        exact booked.kept cancelled order found
  · rw [stays, none, Option.toList_none, List.append_nil]
    exact booked

theorem active_step (orderHash : Hash) :
    ((orderStep env state input).2.order orderHash).active = true ↔
      Places env orderHash state input ∨
        (state.order orderHash).active = true ∧ ¬ Cancels orderHash state input := by
  rcases orderStep_cases env state input with effect | ⟨stays, none, kept⟩
  · generalize (orderStep env state input).2 = next at effect
    cases effect with
    | exchanged input next performed =>
      have neither : ¬ Places env orderHash state (.exchange input) ∧
          ¬ Cancels orderHash state (.exchange input) := by simp [Places, Cancels]
      simp [neither, OrderState.order]
    | placed input terms zkProof taken =>
      have kept : ¬ Cancels orderHash state input := by
        rintro ⟨caller, order, rfl, -⟩
        cases taken
      rw [and_iff_left kept, OrderState.order, FiniteMap.lookup_insert]
      by_cases same : orderHash = terms.orderHash env.keccak256
      · rw [if_pos same, Option.getD_some]
        exact iff_of_true rfl (.inl ⟨terms, taken, same.symm⟩)
      · have other : ¬ Places env orderHash state input := by
          rintro ⟨_, taken', hashed⟩
          rw [taken] at taken'
          exact same (hashed ▸ Option.some.inj taken' ▸ rfl)
        rw [if_neg same, or_iff_right other]
        rfl
    | cancelled caller cancelled order found own somebody =>
      have quiet : ¬ Places env orderHash state (.cancelOrder caller cancelled) := by
        simp [Places]
      rw [or_iff_right quiet, OrderState.order, FiniteMap.lookup_insert]
      by_cases same : orderHash = cancelled
      · subst same
        rw [if_pos rfl]
        refine iff_of_false Bool.false_ne_true fun both => both.2 ?_
        exact ⟨caller, order, rfl, found, own, somebody⟩
      · have other : ¬ Cancels orderHash state (.cancelOrder caller cancelled) := by
          rintro ⟨_, _, given, -⟩
          cases given
          exact same rfl
        rw [if_neg same, and_iff_left other]
        rfl
  · have neither : ¬ Places env orderHash state input := by simp [Places, none]
    rw [stays, or_iff_right neither, and_iff_left (kept orderHash)]

end Book

section Runs
variable {World : Type} (env : PrivateDexEnv World) (exchange : State World)

theorem run_booked (inputs : List (OrderInput World)) :
    OrdersBooked env (placements env (withoutOrders exchange) inputs)
      (Runs.run (orderStep env) (withoutOrders exchange) inputs).2 := by
  refine @Runs.history _ _ _ (orderStep env) (fun inputs state =>
    OrdersBooked env (placements env (withoutOrders exchange) inputs) state) _ ?_ ?_ inputs
  · refine ⟨fun _ => rfl, fun orderHash => ?_, fun orderHash order found => ?_⟩
    · refine iff_of_false Finmap.notMem_empty ?_
      rintro ⟨terms, member, -⟩
      exact List.not_mem_nil member
    · exact absurd (Finmap.mem_of_lookup_eq_some found) Finmap.notMem_empty
  · intro inputs last booked
    rw [placements, Runs.notes_concat]
    exact booked.step

theorem order_active_iff (orderHash : Hash) (inputs : List (OrderInput World)) :
    ((Runs.run (orderStep env) (withoutOrders exchange) inputs).2.order orderHash).active = true ↔
      Runs.Since (orderStep env) (Places env orderHash)
        (fun state input => ¬ Cancels orderHash state input) (withoutOrders exchange) inputs := by
  induction inputs using List.reverseRecOn with
  | nil =>
    refine iff_of_false Bool.false_ne_true ?_
    rintro ⟨earlier, input, later, split, -⟩
    simp at split
  | append_singleton inputs last ih => rw [Runs.run_concat, active_step, Runs.since_concat, ih]

def onExchange : OrderInput World → Option (PrivateInput World)
  | .exchange input => some input
  | _ => none

theorem exchange_of_step (state : OrderState World) (input : OrderInput World) :
    (orderStep env state input).2.exchange =
      match onExchange input with
      | some input => (privateStep env state.exchange input).2
      | none => state.exchange := by
  cases input with
  | exchange input =>
    simp only [onExchange, orderStep, privateStep, Transactions.step, performOrder]
    cases performPrivate env state.exchange input <;> rfl
  | placeEncryptedOrder caller timestamp tokenA tokenB encryptedAmount encryptedPrice isBuy
      zkProof =>
    rcases orderStep_cases env state _ with effect | ⟨stays, -⟩
    · generalize (orderStep env state _).2 = next at effect
      cases effect
      rfl
    · rw [stays]
      rfl
  | cancelOrder caller orderHash =>
    rcases orderStep_cases env state (.cancelOrder caller orderHash) with effect | ⟨stays, -⟩
    · generalize (orderStep env state (.cancelOrder caller orderHash)).2 = next at effect
      cases effect <;> rfl
    · rw [stays]
      rfl

/-- The exchange under an order book, as the exchange without one. -/
theorem run_exchange (start : OrderState World) (inputs : List (OrderInput World)) :
    (Runs.run (orderStep env) start inputs).2.exchange =
      (Runs.run (privateStep env) start.exchange (inputs.filterMap onExchange)).2 := by
  induction inputs generalizing start with
  | nil => rfl
  | cons input rest ih =>
    rw [Runs.run_cons, ih, exchange_of_step]
    cases asked : onExchange input with
    | none => rw [List.filterMap_cons_none asked]
    | some input => rw [List.filterMap_cons_some asked, Runs.run_cons]

/-- The order book of a run, and the exchange beside it. Every pair lists the hashes of the terms
that were placed for it, in their order and with repetitions; an order is known if its hash was
placed, and active while its owner has not cancelled it since. The exchange is as it would be
without the orders. -/
theorem orders_booked (inputs : List (OrderInput World)) :
    let placed := placements env (withoutOrders exchange) inputs
    let final := (Runs.run (orderStep env) (withoutOrders exchange) inputs).2
    (∀ pairHash, final.orderHashes pairHash =
      (placed.filter fun terms => terms.pairHash = pairHash).map
        (OrderTerms.orderHash env.keccak256)) ∧
    (∀ orderHash, orderHash ∈ final.encryptedOrders ↔
      ∃ terms ∈ placed, terms.orderHash env.keccak256 = orderHash) ∧
    (∀ orderHash, (final.order orderHash).active = true ↔
      Runs.Since (orderStep env) (Places env orderHash)
        (fun state input => ¬ Cancels orderHash state input) (withoutOrders exchange) inputs) ∧
    final.exchange = (Runs.run (privateStep env) exchange (inputs.filterMap onExchange)).2 := by
  have booked := run_booked env exchange inputs
  exact ⟨booked.listed, booked.known,
    fun orderHash => order_active_iff env exchange orderHash inputs,
    run_exchange env (withoutOrders exchange) inputs⟩

end Runs

/-! ## Terms that stay -/

section Terms
variable {World : Type} (env : PrivateDexEnv World)

def KeepsTerms (state next : OrderState World) : Prop :=
  Entries.Keeps EncryptedOrder.kept state.encryptedOrders next.encryptedOrders

/-- Terms that are placed under a hash that is taken are the ones that it was taken with. -/
def Untaken (state : OrderState World) (input : OrderInput World) : Prop :=
  ∀ terms, placedTerms env state input = some terms →
    ∀ order, state.encryptedOrders.lookup (terms.orderHash env.keccak256) = some order →
      order.kept = terms.kept

/-- No two of the terms have one hash. -/
def Collisionless (placed : List OrderTerms) : Prop :=
  ∀ first ∈ placed, ∀ second ∈ placed,
    env.keccak256 first.packed = env.keccak256 second.packed → first.packed = second.packed

variable {env}

theorem keepsTerms_iff (state : OrderState World) (input : OrderInput World) :
    KeepsTerms state (orderStep env state input).2 ↔ Untaken env state input := by
  rcases orderStep_cases env state input with effect | ⟨stays, none, -⟩
  · generalize (orderStep env state input).2 = next at effect
    cases effect with
    | exchanged input next performed =>
      exact iff_of_true (Entries.Keeps.refl _) fun terms taken => by cases taken
    | placed input terms zkProof taken =>
      rw [KeepsTerms, Entries.keeps_insert_iff, Untaken]
      constructor
      · intro same other taken'
        rw [taken] at taken'
        obtain rfl := Option.some.inj taken'
        exact same
      · intro same
        exact same terms taken
    | cancelled caller orderHash order found own somebody =>
      refine iff_of_true (Entries.keeps_insert_iff.mpr fun other found' => ?_) fun terms taken => ?_
      · rw [found] at found'
        obtain rfl := Option.some.inj found'
        rfl
      · cases taken
  · rw [stays]
    refine iff_of_true (Entries.Keeps.refl _) fun terms taken => ?_
    rw [none] at taken
    cases taken

/-- Over every run the terms of an order stay from the placement on, exactly if no other terms are
placed under its hash. It is enough that the terms of the run have no collision; then every hash
is listed under one pair only. -/
theorem orders_keep_terms_iff (exchange : State World) (inputs : List (OrderInput World)) :
    (Runs.Persists (orderStep env) KeepsTerms (withoutOrders exchange) inputs ↔
      Runs.Meets (orderStep env) (Untaken env) (withoutOrders exchange) inputs) ∧
    (Collisionless env (placements env (withoutOrders exchange) inputs) →
      Runs.Meets (orderStep env) (Untaken env) (withoutOrders exchange) inputs ∧
        let final := (Runs.run (orderStep env) (withoutOrders exchange) inputs).2
        ∀ orderHash first second, orderHash ∈ final.orderHashes first →
          orderHash ∈ final.orderHashes second → first = second) := by
  have alike {placed : List OrderTerms} (apart : Collisionless env placed)
      {first second : OrderTerms} (one : first ∈ placed) (two : second ∈ placed)
      (hashes : first.orderHash env.keccak256 = second.orderHash env.keccak256) :
      first = second :=
    OrderTerms.packed_injective (apart first one second two (congrArg Hash.asBytes hashes))
  have refl (state : OrderState World) : KeepsTerms state state := Entries.Keeps.refl _
  have trans (first second third : OrderState World) (one : KeepsTerms first second)
      (two : KeepsTerms second third) : KeepsTerms first third := Entries.Keeps.trans one two
  refine ⟨Runs.persists_iff_meets (orderStep env) refl trans keepsTerms_iff
    (withoutOrders exchange) inputs, fun apart => ⟨?_, ?_⟩⟩
  · rw [Runs.meets_iff_forall]
    rintro earlier input later rfl terms taken order found
    obtain ⟨old, member, hashed, kept⟩ := (run_booked env exchange earlier).kept _ order found
    -- the terms that took the hash are among those of the run, and so are the new ones
    have noted := Runs.notes_append (orderStep env) (placedTerms env) (withoutOrders exchange)
      earlier (input :: later)
    rw [placements, noted, Runs.notes, taken] at apart
    rw [kept, alike apart (List.mem_append_left _ member) (by simp) hashed]
  · intro final orderHash first second one two
    have listed := (run_booked env exchange inputs).listed
    rw [listed, List.mem_map] at one two
    obtain ⟨terms, member, hashed⟩ := one
    obtain ⟨terms', member', hashed'⟩ := two
    rw [List.mem_filter, decide_eq_true_eq] at member member'
    rw [← member.2, ← member'.2, alike apart member.1 member'.1 (hashed.trans hashed'.symm)]

end Terms

end ProtonDEX

end ProtonChain.Solidity
