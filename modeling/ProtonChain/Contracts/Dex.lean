import ProtonChain.Library.ConstantProduct
import ProtonChain.Library.FiniteMap
import ProtonChain.Library.Transactions
import ProtonChain.Types

/-! The exchange as a contract of the chain itself, and what it has been paid.

The host moves the tokens. A journal notes each accepted transfer with the pair it is made
for, so that the reserves can be compared with what came in. Arithmetic that overflows
ends the call.
-/

set_option autoImplicit false

namespace ProtonChain.Contracts

open Checked ConstantProduct

structure TradingPair where
  tokenA : Address
  tokenB : Address
  reserveA : U128
  reserveB : U128
  totalLiquidity : U128
  encryptedVolume : Bytes
  deriving DecidableEq

inductive DexPanic where
  | unwrapNone
  | transferFrom
  | mintLpToken
  deriving DecidableEq, Repr

structure ProtonDEX where
  pairs : HashMap (Address × Address) TradingPair
  fees : U16
  feeRecipient : Address

structure Host (World : Type) where
  selfAddress : Address
  transferFrom : World → Address → Address → Address → U128 → Option World
  mintLpToken : World → Address → U128 → Option World

/-- A transfer to the contract and the pair it is made for. -/
structure Deposit where
  pairKey : Address × Address
  token : Address
  amount : U128
  deriving DecidableEq

namespace ProtonDEX

structure State (World : Type) where
  dex : ProtonDEX
  world : World
  deposits : List Deposit

def new (fees : U16) (feeRecipient : Address) : ProtonDEX := ⟨∅, fees, feeRecipient⟩

def sortPair (a b : Address) : Address × Address :=
  if a.asBytes.toList < b.asBytes.toList then (a, b) else (b, a)

/-- The loop of `sqrt`; `z` falls in every round. -/
def sqrtLoop (x y z : U128) : Outcome DexPanic U128 :=
  if y < z then do
    let quotient ← div x y
    let total ← add y quotient
    let next ← div total 2
    sqrtLoop x next y
  else .ok z
termination_by z.toNat
decreasing_by
  exact BitVec.lt_def.mp ‹_›

def sqrt (x : U128) : Outcome DexPanic U128 :=
  if x = 0 then .ok 0
  else do
    let successor ← add x 1
    let y ← div successor 2
    sqrtLoop x y x

def min (a b : U128) : U128 := if a < b then a else b

/-- The liquidity that a deposit mints. -/
def mintedLiquidity (pair : TradingPair) (amountA amountB : U128) : Outcome DexPanic U128 :=
  if pair.totalLiquidity = 0 then do
    let product ← mul amountA amountB
    sqrt product
  else do
    let liquidityA ← mulDiv amountA pair.totalLiquidity pair.reserveA
    let liquidityB ← mulDiv amountB pair.totalLiquidity pair.reserveB
    return min liquidityA liquidityB

def unwrap {A : Type} : Option A → Outcome DexPanic A
  | some value => .ok value
  | none => .error (.raised .unwrapNone)

def createPair (tokenA tokenB : Address) (dex : ProtonDEX) : Outcome DexPanic ProtonDEX := do
  ensure (tokenA ≠ tokenB) (.reason "Invalid pair: same token")
  let pairKey := sortPair tokenA tokenB
  ensure (pairKey ∉ dex.pairs) (.reason "Pair already exists")
  let pair : TradingPair :=
    { tokenA := pairKey.1
      tokenB := pairKey.2
      reserveA := 0
      reserveB := 0
      totalLiquidity := 0
      encryptedVolume := [] }
  return { dex with pairs := dex.pairs.insert pairKey pair }

section Host
variable {World : Type} (host : Host World)

/-- `transfer_from(token, caller(), self_address(), amount)`, noted in the journal. -/
def transferIn (pairKey : Address × Address) (token caller : Address) (amount : U128)
    (state : State World) : Outcome DexPanic (State World) :=
  match host.transferFrom state.world token caller host.selfAddress amount with
  | some world => .ok { state with
      world := world
      deposits := ⟨pairKey, token, amount⟩ :: state.deposits }
  | none => .error (.raised .transferFrom)

def mintLpToken (caller : Address) (liquidity : U128) (world : World) : Outcome DexPanic World :=
  match host.mintLpToken world caller liquidity with
  | some world => .ok world
  | none => .error (.raised .mintLpToken)

def addLiquidity (caller tokenA tokenB : Address) (amountA amountB : U128) (state : State World) :
    Outcome DexPanic (U128 × State World) := do
  let pairKey := sortPair tokenA tokenB
  let pair ← unwrap (state.dex.pairs.lookup pairKey)
  let paid ← transferIn host pairKey tokenA caller amountA state
  let paid ← transferIn host pairKey tokenB caller amountB paid
  let liquidity ← mintedLiquidity pair amountA amountB
  let reserveA ← add pair.reserveA amountA
  let reserveB ← add pair.reserveB amountB
  let totalLiquidity ← add pair.totalLiquidity liquidity
  let pair := { pair with
    reserveA := reserveA
    reserveB := reserveB
    totalLiquidity := totalLiquidity }
  let world ← mintLpToken host caller liquidity paid.world
  return (liquidity, { paid with
    dex := { state.dex with pairs := state.dex.pairs.insert pairKey pair }
    world := world })

end Host

/-- Both trade directions are priced from the first reserve to the second. -/
def calculateSwapAmount (dex : ProtonDEX) (tokenIn tokenOut : Address) (amountIn : U128) :
    Outcome DexPanic U128 := do
  let pair ← unwrap (dex.pairs.lookup (sortPair tokenIn tokenOut))
  let amountInWithFee ← charge (dex.fees.setWidth 128) 10000 amountIn
  quote amountInWithFee pair.reserveA pair.reserveB

/-! ## Runs -/

inductive Call where
  | createPair (tokenA tokenB : Address)
  | addLiquidity (tokenA tokenB : Address) (amountA amountB : U128)

inductive Input (World : Type) where
  | call (caller : Address) (call : Call)
  | outside (world : World)

def perform {World : Type} (host : Host World) (state : State World) :
    Input World → Outcome DexPanic (State World)
  | .call _ (.createPair tokenA tokenB) => do
    let dex ← createPair tokenA tokenB state.dex
    return { state with dex := dex }
  | .call caller (.addLiquidity tokenA tokenB amountA amountB) => do
    let (_, next) ← addLiquidity host caller tokenA tokenB amountA amountB state
    return next
  | .outside world => .ok { state with world := world }

def step {World : Type} (host : Host World) : State World → Input World →
    Except (Fault DexPanic) Unit × State World :=
  Transactions.step (perform host)

end ProtonDEX

end ProtonChain.Contracts
