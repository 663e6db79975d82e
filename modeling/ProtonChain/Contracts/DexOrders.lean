import ProtonChain.Bincode
import ProtonChain.Contracts.DexPrivate
import ProtonChain.Library.Entries

/-! Encrypted orders of the exchange as a contract of the chain itself.

The hash of an order leaves out its owner, and the two byte strings in it run into each other. So
orders of different owners and different amounts go under one hash, and the last one stays.
-/

set_option autoImplicit false

namespace ProtonChain.Contracts

open Checked

structure EncryptedOrder where
  owner : StealthAddress
  encryptedAmount : Bytes
  encryptedPrice : Bytes
  isBuy : Bool
  zkProof : Bytes
  timestamp : U64
  deriving DecidableEq

/-- What an order says besides its proof. -/
def EncryptedOrder.terms (order : EncryptedOrder) : StealthAddress × Bytes × Bytes × Bool × U64 :=
  (order.owner, order.encryptedAmount, order.encryptedPrice, order.isBuy, order.timestamp)

structure EncryptedOrderPlaced where
  orderHash : Hash
  pair : Address × Address
  isBuy : Bool
  deriving DecidableEq

structure OrderHost (World : Type) extends PrivateDexHost World where
  sha3 : Sha3
  verifyOrderProof : World → Bytes → Hash → StealthAddress → Bool

inductive OrderPanic where
  | dex (panic : PrivateDexPanic)
  deriving DecidableEq, Repr

namespace ProtonDEX

/-- The exchange with its order book and the events of the orders. -/
structure OrderState (World : Type) where
  exchange : State World
  encryptedOrders : HashMap Hash EncryptedOrder
  events : List EncryptedOrderPlaced

/-- The bytes that an order hash is made from. -/
def orderBytes (tokenA tokenB : Address) (encryptedAmount encryptedPrice : Bytes) (isBuy : Bool)
    (timestamp : U64) : Bytes :=
  tokenA.asBytes.toList ++ (tokenB.asBytes.toList ++ (encryptedAmount ++ (encryptedPrice ++
    ((if isBuy then 1 else 0) :: toLeBytes timestamp))))

section Calls
variable {World : Type} (host : OrderHost World) (timestamp : U64) (state : OrderState World)

def placeEncryptedOrder (tokenA tokenB : Address) (encryptedAmount encryptedPrice : Bytes)
    (isBuy : Bool) (zkProof : Bytes) (stealth : StealthAddress) :
    Outcome OrderPanic (Hash × OrderState World) := do
  let orderHash := Hash.new host.sha3
    (orderBytes tokenA tokenB encryptedAmount encryptedPrice isBuy timestamp)
  ensure (host.verifyOrderProof state.exchange.world zkProof orderHash stealth = true)
    (.reason "Invalid order proof")
  return (orderHash, { state with
    encryptedOrders := state.encryptedOrders.insert orderHash
      { owner := stealth
        encryptedAmount := encryptedAmount
        encryptedPrice := encryptedPrice
        isBuy := isBuy
        zkProof := zkProof
        timestamp := timestamp }
    events := state.events ++ [⟨orderHash, (tokenA, tokenB), isBuy⟩] })

end Calls

/-! ## Runs -/

/-- An input of the exchange, or an order that is placed at some time. -/
inductive OrderInput (World : Type) where
  | exchange (input : PrivateInput World)
  | placeEncryptedOrder (timestamp : U64) (tokenA tokenB : Address)
    (encryptedAmount encryptedPrice : Bytes) (isBuy : Bool) (zkProof : Bytes)
    (stealth : StealthAddress)

section Runs
variable {World : Type} (host : OrderHost World)

def performOrder (state : OrderState World) :
    OrderInput World → Outcome OrderPanic (OrderState World)
  | .exchange input => do
    let exchange ← lift .dex (performPrivate host.toPrivateDexHost state.exchange input)
    return { state with exchange := exchange }
  | .placeEncryptedOrder timestamp tokenA tokenB encryptedAmount encryptedPrice isBuy zkProof
      stealth => do
    let (_, next) ← placeEncryptedOrder host timestamp state tokenA tokenB encryptedAmount
      encryptedPrice isBuy zkProof stealth
    return next

def orderStep : OrderState World → OrderInput World →
    Except (Fault OrderPanic) Unit × OrderState World :=
  Transactions.step (performOrder host)

/-- An exchange before its first order. -/
def withoutOrders (exchange : State World) : OrderState World := ⟨exchange, ∅, []⟩

def accepted (state : OrderState World) : OrderInput World → Option (Hash × EncryptedOrder)
  | .exchange _ => none
  | .placeEncryptedOrder timestamp tokenA tokenB encryptedAmount encryptedPrice isBuy zkProof
      stealth =>
    let orderHash := Hash.new host.sha3
      (orderBytes tokenA tokenB encryptedAmount encryptedPrice isBuy timestamp)
    if host.verifyOrderProof state.exchange.world zkProof orderHash stealth = true then
      some (orderHash, ⟨stealth, encryptedAmount, encryptedPrice, isBuy, zkProof, timestamp⟩)
    else none

end Runs

/-! ## The book of a run -/

section Book
variable {World : Type} (host : OrderHost World)

theorem orders_written :
    Entries.Written (orderStep host) OrderState.encryptedOrders (accepted host) := by
  intro state input
  cases input with
  | exchange input =>
    simp only [orderStep, Transactions.step, performOrder, accepted]
    cases performPrivate host.toPrivateDexHost state.exchange input <;> rfl
  | placeEncryptedOrder timestamp tokenA tokenB encryptedAmount encryptedPrice isBuy zkProof
      stealth =>
    cases verified : host.verifyOrderProof state.exchange.world zkProof (Hash.new host.sha3
      (orderBytes tokenA tokenB encryptedAmount encryptedPrice isBuy timestamp)) stealth <;>
    · simp only [orderStep, Transactions.step, performOrder, placeEncryptedOrder, ensure, accepted,
        verified]
      rfl

end Book

/-- The bytes of two orders are the same exactly if the tokens, the side and the time are, and the
amount followed by the price is: neither the owner nor the end of the amount counts. -/
theorem orderBytes_eq_iff {tokenA tokenB tokenA' tokenB' : Address}
    {amount price amount' price' : Bytes} {isBuy isBuy' : Bool} {timestamp timestamp' : U64} :
    orderBytes tokenA tokenB amount price isBuy timestamp =
        orderBytes tokenA' tokenB' amount' price' isBuy' timestamp' ↔
      tokenA = tokenA' ∧ tokenB = tokenB' ∧ amount ++ price = amount' ++ price' ∧
        isBuy = isBuy' ∧ timestamp = timestamp' := by
  have width (first second : Address) :
      first.asBytes.toList.length = second.asBytes.toList.length := by
    rw [first.asBytes.toList_length, second.asBytes.toList_length]
  have tail : ((if isBuy then 1 else 0) :: toLeBytes timestamp : Bytes).length =
      ((if isBuy' then 1 else 0) :: toLeBytes timestamp').length := by
    simp [toLeBytes]
  constructor
  · intro same
    obtain ⟨first, same⟩ := List.append_inj same (width _ _)
    obtain ⟨second, same⟩ := List.append_inj same (width _ _)
    rw [← List.append_assoc, ← List.append_assoc] at same
    -- the two strings are read back from the end
    obtain ⟨strings, ends⟩ := List.append_inj' same tail
    obtain ⟨side, time⟩ := List.cons.inj ends
    refine ⟨Address.eq_of_bytes first, Address.eq_of_bytes second, strings, ?_,
      toLeBytes_injective time⟩
    revert side
    cases isBuy <;> cases isBuy' <;> simp
  · rintro ⟨rfl, rfl, strings, rfl, rfl⟩
    rw [orderBytes, orderBytes, ← List.append_assoc amount, ← List.append_assoc amount', strings]

/-- Over every run an order is the last that was accepted under its hash, and its terms stay
exactly if no other terms are accepted under it. From every state on, an accepted order replaces
the one whose amount and price are the same bytes one after the other, whoever owns that. -/
theorem orders_last_accepted {World : Type} (host : OrderHost World) (exchange : State World)
    (inputs : List (OrderInput World)) :
    let final := (Runs.run (orderStep host) (withoutOrders exchange) inputs).2
    (∀ orderHash order, final.encryptedOrders.lookup orderHash = some order ↔
      Runs.Since (orderStep host)
        (fun state input => accepted host state input = some (orderHash, order))
        (fun state input => ∀ other, accepted host state input ≠ some (orderHash, other))
        (withoutOrders exchange) inputs) ∧
    (Runs.Persists (orderStep host)
        (fun state next =>
          Entries.Keeps EncryptedOrder.terms state.encryptedOrders next.encryptedOrders)
        (withoutOrders exchange) inputs ↔
      Runs.Meets (orderStep host)
        (Entries.Agrees OrderState.encryptedOrders (accepted host) EncryptedOrder.terms)
        (withoutOrders exchange) inputs) ∧
    ∀ timestamp tokenA tokenB amount price amount' price' isBuy zkProof stealth,
      amount' ++ price' = amount ++ price →
      let orderHash := Hash.new host.sha3 (orderBytes tokenA tokenB amount price isBuy timestamp)
      host.verifyOrderProof final.exchange.world zkProof orderHash stealth = true →
        (orderStep host final (.placeEncryptedOrder timestamp tokenA tokenB amount' price' isBuy
          zkProof stealth)).2.encryptedOrders.lookup orderHash =
            some ⟨stealth, amount', price', isBuy, zkProof, timestamp⟩ := by
  refine ⟨fun orderHash order =>
      Entries.lookup_iff (orders_written host) rfl inputs orderHash order,
    Entries.persists_iff (orders_written host) EncryptedOrder.terms (withoutOrders exchange) inputs,
    ?_⟩
  intro timestamp tokenA tokenB amount price amount' price' isBuy zkProof stealth strings orderHash
    verified
  have same : orderBytes tokenA tokenB amount' price' isBuy timestamp =
      orderBytes tokenA tokenB amount price isBuy timestamp :=
    orderBytes_eq_iff.mpr ⟨rfl, rfl, strings, rfl, rfl⟩
  rw [orders_written, accepted, same, if_pos verified]
  exact Finmap.lookup_insert _

end ProtonDEX

end ProtonChain.Contracts
