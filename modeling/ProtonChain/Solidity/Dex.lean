import ProtonChain.Library.ConstantProduct
import ProtonChain.Library.Mapping
import ProtonChain.Library.Transactions
import ProtonChain.Solidity.Chain

/-! The exchange contract: pairs, their reserves and the shares of the providers.

A call that reverts undoes the transfers it has made. Encrypted orders and private swaps
touch none of these books.
-/

set_option autoImplicit false

namespace ProtonChain.Solidity

open Checked ConstantProduct

structure TradingPair where
  tokenA : Address
  tokenB : Address
  reserveA : U256
  reserveB : U256
  totalLiquidity : U256
  encryptedVolume : U256
  active : Bool
  deriving DecidableEq

/-- A mapping reads this where no pair was created. -/
def TradingPair.empty : TradingPair where
  tokenA := Address.zero
  tokenB := Address.zero
  reserveA := 0
  reserveB := 0
  totalLiquidity := 0
  encryptedVolume := 0
  active := false

inductive DexError where
  | ownableUnauthorizedAccount
  | pairAlreadyExists
  | pairNotFound
  | invalidAmount
  | insufficientLiquidity
  | slippageExceeded
  deriving DecidableEq, Repr

structure ProtonDEX where
  owner : Address
  tradingFee : U256
  feeRecipient : Address
  pairs : HashMap Hash TradingPair
  lpBalances : HashMap Hash (HashMap Address U256)

namespace ProtonDEX

def feeDenominator : U256 := 10000

def new (deployer feeRecipient : Address) : ProtonDEX where
  owner := deployer
  tradingFee := 30
  feeRecipient := feeRecipient
  pairs := ∅
  lpBalances := ∅

def pair (dex : ProtonDEX) (pairHash : Hash) : TradingPair :=
  (dex.pairs.lookup pairHash).getD TradingPair.empty

def setPair (dex : ProtonDEX) (pairHash : Hash) (pair : TradingPair) : ProtonDEX :=
  { dex with pairs := dex.pairs.insert pairHash pair }

def lpBalance (dex : ProtonDEX) (pairHash : Hash) (holder : Address) : U256 :=
  Mapping.cell dex.lpBalances pairHash holder

def setLpBalance (dex : ProtonDEX) (pairHash : Hash) (holder : Address) (balance : U256) :
    ProtonDEX :=
  { dex with lpBalances := Mapping.write dex.lpBalances pairHash holder balance }

def lpTotal (dex : ProtonDEX) (pairHash : Hash) : Nat :=
  Mapping.sum (Mapping.row dex.lpBalances pairHash)

section Books
variable (dex : ProtonDEX) (pairHash : Hash)

@[simp] theorem pair_setPair (pair : TradingPair) (other : Hash) :
    (dex.setPair pairHash pair).pair other = if other = pairHash then pair else dex.pair other := by
  rw [ProtonDEX.pair, setPair, FiniteMap.lookup_insert]
  split <;> rfl

theorem lpTotal_setLpBalance (holder : Address) (balance : U256) (other : Hash) :
    (dex.setLpBalance pairHash holder balance).lpTotal other +
        (if other = pairHash then (dex.lpBalance pairHash holder).toNat else 0) =
      dex.lpTotal other + if other = pairHash then balance.toNat else 0 :=
  Mapping.sum_row_write dex.lpBalances pairHash holder balance other

end Books

/-! ## Pricing -/

/-- The Newton loop of `_sqrt`; `y` falls in every round. -/
def sqrtLoop (x z y : U256) : Outcome DexError U256 :=
  if z < y then do
    let quotient ← div x z
    let total ← add quotient z
    let next ← div total 2
    sqrtLoop x next z
  else .ok y
termination_by y.toNat
decreasing_by
  exact BitVec.lt_def.mp ‹_›

def sqrt (x : U256) : Outcome DexError U256 := do
  let successor ← add x 1
  let z ← div successor 2
  sqrtLoop x z x

/-- The shares that a deposit mints. -/
def mintedLiquidity (pair : TradingPair) (amountA amountB : U256) : Outcome DexError U256 :=
  if pair.totalLiquidity = 0 then do
    let product ← mul amountA amountB
    sqrt product
  else do
    let liquidityA ← mulDiv amountA pair.totalLiquidity pair.reserveA
    let liquidityB ← mulDiv amountB pair.totalLiquidity pair.reserveB
    return if liquidityA < liquidityB then liquidityA else liquidityB

def amountInWithFee (dex : ProtonDEX) (amountIn : U256) : Outcome DexError U256 :=
  charge dex.tradingFee feeDenominator amountIn

/-- The two branches of a swap, by whether the input is the first token of the pair. -/
def exchange (pair : TradingPair) (forward : Bool) (amountIn amountInWithFee : U256) :
    Outcome DexError (U256 × TradingPair) :=
  if forward then do
    let amountOut ← quote amountInWithFee pair.reserveA pair.reserveB
    let reserveA ← add pair.reserveA amountIn
    let reserveB ← sub pair.reserveB amountOut
    return (amountOut, { pair with reserveA := reserveA, reserveB := reserveB })
  else do
    let amountOut ← quote amountInWithFee pair.reserveB pair.reserveA
    let reserveB ← add pair.reserveB amountIn
    let reserveA ← sub pair.reserveA amountOut
    return (amountOut, { pair with reserveA := reserveA, reserveB := reserveB })

/-! ## Calls -/

def sortTokens (tokenA tokenB : Address) : Outcome DexError (Address × Address) := do
  ensure (tokenA ≠ tokenB) (.reason "Same token")
  return if tokenA.value < tokenB.value then (tokenA, tokenB) else (tokenB, tokenA)

structure State (World : Type) where
  dex : ProtonDEX
  world : World

section Calls
variable {World : Type} (env : Env World)

/-- `keccak256(abi.encodePacked(token0, token1))`. -/
def pairHash (token0 token1 : Address) : Hash :=
  Hash.new env.keccak256 (token0.asBytes.toList ++ token1.asBytes.toList)

def safeTransfer (token recipient : Address) (amount : U256) (world : World) :
    Outcome DexError World :=
  match env.erc20.transfer world token env.self recipient amount with
  | some world => .ok world
  | none => .error (.reason "Transfer failed")

def safeTransferFrom (token owner recipient : Address) (amount : U256) (world : World) :
    Outcome DexError World :=
  match env.erc20.transferFrom world token env.self owner recipient amount with
  | some world => .ok world
  | none => .error (.reason "TransferFrom failed")

variable (caller : Address) (state : State World)

def createPair (tokenA tokenB : Address) : Outcome DexError (State World) := do
  ensure (caller = state.dex.owner) (.raised .ownableUnauthorizedAccount)
  ensure (tokenA ≠ tokenB) (.raised .invalidAmount)
  let (token0, token1) ← sortTokens tokenA tokenB
  let hash := pairHash env token0 token1
  ensure ((state.dex.pair hash).tokenA = Address.zero) (.raised .pairAlreadyExists)
  return { state with
    dex := state.dex.setPair hash
      { tokenA := token0
        tokenB := token1
        reserveA := 0
        reserveB := 0
        totalLiquidity := 0
        encryptedVolume := 0
        active := true } }

def addLiquidity (tokenA tokenB : Address) (amountA amountB minLiquidity : U256) :
    Outcome DexError (U256 × State World) := do
  let (token0, token1) ← sortTokens tokenA tokenB
  let hash := pairHash env token0 token1
  let pair := state.dex.pair hash
  ensure (pair.tokenA ≠ Address.zero) (.raised .pairNotFound)
  let world ← safeTransferFrom env token0 caller env.self amountA state.world
  let world ← safeTransferFrom env token1 caller env.self amountB world
  let liquidity ← mintedLiquidity pair amountA amountB
  ensure (minLiquidity.toNat ≤ liquidity.toNat) (.raised .slippageExceeded)
  let reserveA ← add pair.reserveA amountA
  let reserveB ← add pair.reserveB amountB
  let totalLiquidity ← add pair.totalLiquidity liquidity
  let balance ← add (state.dex.lpBalance hash caller) liquidity
  let dex := state.dex.setPair hash { pair with
    reserveA := reserveA
    reserveB := reserveB
    totalLiquidity := totalLiquidity }
  return (liquidity, ⟨dex.setLpBalance hash caller balance, world⟩)

def removeLiquidity (tokenA tokenB : Address) (liquidity minAmountA minAmountB : U256) :
    Outcome DexError ((U256 × U256) × State World) := do
  let (token0, token1) ← sortTokens tokenA tokenB
  let hash := pairHash env token0 token1
  let pair := state.dex.pair hash
  ensure (pair.tokenA ≠ Address.zero) (.raised .pairNotFound)
  ensure (liquidity.toNat ≤ (state.dex.lpBalance hash caller).toNat)
    (.raised .insufficientLiquidity)
  let amountA ← mulDiv liquidity pair.reserveA pair.totalLiquidity
  let amountB ← mulDiv liquidity pair.reserveB pair.totalLiquidity
  ensure (minAmountA.toNat ≤ amountA.toNat ∧ minAmountB.toNat ≤ amountB.toNat)
    (.raised .slippageExceeded)
  let balance ← sub (state.dex.lpBalance hash caller) liquidity
  let reserveA ← sub pair.reserveA amountA
  let reserveB ← sub pair.reserveB amountB
  let totalLiquidity ← sub pair.totalLiquidity liquidity
  let dex := state.dex.setPair hash { pair with
    reserveA := reserveA
    reserveB := reserveB
    totalLiquidity := totalLiquidity }
  let world ← safeTransfer env token0 caller amountA state.world
  let world ← safeTransfer env token1 caller amountB world
  return ((amountA, amountB), ⟨dex.setLpBalance hash caller balance, world⟩)

def swap (tokenIn tokenOut : Address) (amountIn minAmountOut : U256) (recipient : Address) :
    Outcome DexError (U256 × State World) := do
  let (token0, token1) ← sortTokens tokenIn tokenOut
  let hash := pairHash env token0 token1
  let pair := state.dex.pair hash
  ensure (pair.tokenA ≠ Address.zero) (.raised .pairNotFound)
  let afterFee ← amountInWithFee state.dex amountIn
  let (amountOut, pair) ← exchange pair (tokenIn = token0) amountIn afterFee
  ensure (minAmountOut.toNat ≤ amountOut.toNat) (.raised .slippageExceeded)
  let world ← safeTransferFrom env tokenIn caller env.self amountIn state.world
  let world ← safeTransfer env tokenOut recipient amountOut world
  let fee ← sub amountIn afterFee
  let world ← safeTransfer env tokenIn state.dex.feeRecipient fee world
  return (amountOut, ⟨state.dex.setPair hash pair, world⟩)

def getReserves (dex : ProtonDEX) (tokenA tokenB : Address) : Outcome DexError (U256 × U256) := do
  let (token0, token1) ← sortTokens tokenA tokenB
  let pair := dex.pair (pairHash env token0 token1)
  return (pair.reserveA, pair.reserveB)

def calculateSwapAmount (dex : ProtonDEX) (tokenIn tokenOut : Address) (amountIn : U256) :
    Outcome DexError U256 := do
  let (token0, token1) ← sortTokens tokenIn tokenOut
  let pair := dex.pair (pairHash env token0 token1)
  if pair.tokenA = Address.zero then return 0
  else
    let afterFee ← amountInWithFee dex amountIn
    if tokenIn = token0 then quote afterFee pair.reserveA pair.reserveB
    else quote afterFee pair.reserveB pair.reserveA

def setTradingFee (newFee : U256) : Outcome DexError (State World) := do
  ensure (caller = state.dex.owner) (.raised .ownableUnauthorizedAccount)
  ensure (newFee.toNat ≤ 1000) (.reason "Fee too high")
  return { state with dex := { state.dex with tradingFee := newFee } }

def setFeeRecipient (newRecipient : Address) : Outcome DexError (State World) := do
  ensure (caller = state.dex.owner) (.raised .ownableUnauthorizedAccount)
  return { state with dex := { state.dex with feeRecipient := newRecipient } }

end Calls

/-! ## Runs -/

inductive Call where
  | createPair (tokenA tokenB : Address)
  | addLiquidity (tokenA tokenB : Address) (amountA amountB minLiquidity : U256)
  | removeLiquidity (tokenA tokenB : Address) (liquidity minAmountA minAmountB : U256)
  | swap (tokenIn tokenOut : Address) (amountIn minAmountOut : U256) (recipient : Address)
  | setTradingFee (newFee : U256)
  | setFeeRecipient (newRecipient : Address)

/-- A call of the exchange, or what happens between two of them: calls of other contracts
leave a new world, and the owner may have passed the ownership on. -/
inductive Input (World : Type) where
  | call (caller : Address) (call : Call)
  | outside (world : World) (owner : Address)

def perform {World : Type} (env : Env World) (state : State World) :
    Input World → Outcome DexError (State World)
  | .call caller (.createPair tokenA tokenB) => createPair env caller state tokenA tokenB
  | .call caller (.addLiquidity tokenA tokenB amountA amountB minLiquidity) => do
    let (_, next) ← addLiquidity env caller state tokenA tokenB amountA amountB minLiquidity
    return next
  | .call caller (.removeLiquidity tokenA tokenB liquidity minAmountA minAmountB) => do
    let (_, next) ← removeLiquidity env caller state tokenA tokenB liquidity minAmountA minAmountB
    return next
  | .call caller (.swap tokenIn tokenOut amountIn minAmountOut recipient) => do
    let (_, next) ← swap env caller state tokenIn tokenOut amountIn minAmountOut recipient
    return next
  | .call caller (.setTradingFee newFee) => setTradingFee caller state newFee
  | .call caller (.setFeeRecipient newRecipient) => setFeeRecipient caller state newRecipient
  | .outside world owner => .ok ⟨{ state.dex with owner := owner }, world⟩

def step {World : Type} (env : Env World) : State World → Input World →
    Except (Fault DexError) Unit × State World :=
  Transactions.step (perform env)

end ProtonDEX

/-! ## A concrete exchange -/

namespace Sample

/-- The exchange at address 8. -/
def env : Env Ledger := ⟨Sample.address 8, Sample.sha3, erc20⟩

/-- Address 3 holds tokens 1 and 2 and lets the exchange spend them. -/
def ledger : Ledger where
  balances := ((∅ : HashMap (Address × Address) U256).insert
    (Sample.address 1, Sample.address 3) 5000).insert (Sample.address 2, Sample.address 3) 5000
  allowances := ((∅ : HashMap (Address × Address × Address) U256).insert
    (Sample.address 1, Sample.address 3, Sample.address 8) 5000).insert
      (Sample.address 2, Sample.address 3, Sample.address 8) 5000

def deployed : ProtonDEX.State Ledger :=
  ⟨ProtonDEX.new (Sample.address 9) (Sample.address 7), ledger⟩

/-- Two pairs are created and address 3 gives the first of them 1000 and 2000. -/
def opening : List (ProtonDEX.Input Ledger) :=
  [.call (Sample.address 9) (.createPair (Sample.address 1) (Sample.address 2)),
    .call (Sample.address 3) (.addLiquidity (Sample.address 1) (Sample.address 2) 1000 2000 0)]

def opened : ProtonDEX.State Ledger := (Runs.run (ProtonDEX.step env) deployed opening).2

end Sample

end ProtonChain.Solidity
