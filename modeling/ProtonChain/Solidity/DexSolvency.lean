import Mathlib.Data.Set.Function
import Mathlib.Data.Set.Prod
import Mathlib.Tactic.SplitIfs
import ProtonChain.Solidity.DexPools

/-! What the exchange holds against what its pairs record.

A swap adds the whole input to the reserve of the pair and then pays the fee out of it.
The fee is covered only where the exchange holds more of the token than its pairs record.
-/

set_option autoImplicit false

namespace ProtonChain.Solidity.ProtonDEX

open Checked ConstantProduct

/-! ## Recorded reserves -/

def reserveOf (token : Address) (pair : TradingPair) : Nat :=
  (if pair.tokenA = token then pair.reserveA.toNat else 0) +
    if pair.tokenB = token then pair.reserveB.toNat else 0

def reserves (dex : ProtonDEX) (token : Address) : Nat :=
  FiniteMap.total (reserveOf token) dex.pairs

theorem reserveOf_empty (token : Address) : reserveOf token TradingPair.empty = 0 := by
  simp [reserveOf, TradingPair.empty]

theorem reserves_setPair (dex : ProtonDEX) (hash : Hash) (pair : TradingPair) (token : Address) :
    (dex.setPair hash pair).reserves token + reserveOf token (dex.pair hash) =
      dex.reserves token + reserveOf token pair := by
  have written := FiniteMap.total_insert (reserveOf token) dex.pairs hash pair
  rw [FiniteMap.weightAt_getD (reserveOf token) dex.pairs hash TradingPair.empty
    (reserveOf_empty token)] at written
  exact written

theorem reserves_replace (dex : ProtonDEX) {hash : Hash} {token0 token1 : Address}
    (pair : TradingPair)
    (before : (dex.pair hash).tokenA = token0 ∧ (dex.pair hash).tokenB = token1)
    (after : pair.tokenA = token0 ∧ pair.tokenB = token1) (token : Address) :
    (dex.setPair hash pair).reserves token +
        (if token = token0 then (dex.pair hash).reserveA.toNat else 0) +
        (if token = token1 then (dex.pair hash).reserveB.toNat else 0) =
      dex.reserves token + (if token = token0 then pair.reserveA.toNat else 0) +
        if token = token1 then pair.reserveB.toNat else 0 := by
  have written := reserves_setPair dex hash pair token
  rw [reserveOf, reserveOf, before.1, before.2, after.1, after.2] at written
  simp only [eq_comm (b := token)] at written
  omega

theorem exchange_reserveOf {pair after : TradingPair} {tokenIn tokenOut : Address}
    {amountIn afterFee amountOut : U256} (distinct : tokenIn ≠ tokenOut)
    (named : pair.tokenA = (sorted tokenIn tokenOut).1 ∧
      pair.tokenB = (sorted tokenIn tokenOut).2)
    (exchanged : exchange pair (tokenIn = (sorted tokenIn tokenOut).1) amountIn afterFee =
      .ok (amountOut, after)) (token : Address) :
    reserveOf token after + (if token = tokenOut then amountOut.toNat else 0) =
      reserveOf token pair + if token = tokenIn then amountIn.toNat else 0 := by
  -- the order of the two tokens decides which reserve takes the input
  rcases sorted_eq tokenIn tokenOut with order | order
  · rw [order] at named
    rw [order, decide_eq_true rfl] at exchanged
    obtain ⟨-, reserveA, reserveB, paid, left, rfl⟩ := exchange_forward exchanged
    simp only [reserveOf, named, paid, eq_comm (b := token)]
    split_ifs <;> omega
  · rw [order] at named
    rw [order, decide_eq_false distinct] at exchanged
    obtain ⟨-, reserveA, reserveB, paid, left, rfl⟩ := exchange_backward exchanged
    simp only [reserveOf, named, paid, eq_comm (b := token)]
    split_ifs <;> omega

/-- The fee on an input: what is left after the rounded-down part without it. -/
def feeOn (dex : ProtonDEX) (amountIn : U256) : Nat :=
  amountIn.toNat - amountIn.toNat * (10000 - dex.tradingFee.toNat) / 10000

theorem amountInWithFee_feeOn {dex : ProtonDEX} {amountIn afterFee : U256}
    (charged : amountInWithFee dex amountIn = .ok afterFee) :
    (amountIn - afterFee).toNat = dex.feeOn amountIn := by
  rw [BitVec.toNat_sub_of_le (BitVec.le_def.mpr (amountInWithFee_le charged)), feeOn]
  obtain ⟨-, -, -, exact⟩ := charge_eq_ok.mp charged
  rw [exact]
  rfl

section Tokens
variable {World : Type} (env : Env World) (tokens : Set Address)

/-- Every pair is kept under the hash of its own two tokens, which are of the given set. -/
def Named (dex : ProtonDEX) : Prop :=
  ∀ hash pair, dex.pairs.lookup hash = some pair →
    ∃ tokenA ∈ tokens, ∃ tokenB ∈ tokens, tokenA ≠ tokenB ∧ hash = hashOf env tokenA tokenB ∧
      (pair.tokenA, pair.tokenB) = sorted tokenA tokenB

/-- No two pairs of the tokens share a hash. -/
def PairsApart : Prop :=
  Set.InjOn (fun pair : Address × Address => pairHash env pair.1 pair.2) (tokens ×ˢ tokens)

variable {env tokens}

theorem sorted_mem {tokenA tokenB : Address} (first : tokenA ∈ tokens) (second : tokenB ∈ tokens) :
    sorted tokenA tokenB ∈ tokens ×ˢ tokens := by
  rcases sorted_eq tokenA tokenB with same | same
  · rw [same]
    exact ⟨first, second⟩
  · rw [same]
    exact ⟨second, first⟩

theorem lookup_of_found {dex : ProtonDEX} {hash : Hash}
    (found : (dex.pair hash).tokenA ≠ Address.zero) :
    dex.pairs.lookup hash = some (dex.pair hash) := by
  cases read : dex.pairs.lookup hash with
  | some pair => simp [ProtonDEX.pair, read]
  | none => simp [ProtonDEX.pair, read, TradingPair.empty] at found

/-- A pair that a call finds is the pair of the tokens it names. -/
theorem Named.tokens_eq {dex : ProtonDEX} (named : Named env tokens dex)
    (apart : PairsApart env tokens) {tokenA tokenB : Address} (first : tokenA ∈ tokens)
    (second : tokenB ∈ tokens)
    (found : (dex.pair (hashOf env tokenA tokenB)).tokenA ≠ Address.zero) :
    (dex.pair (hashOf env tokenA tokenB)).tokenA = (sorted tokenA tokenB).1 ∧
      (dex.pair (hashOf env tokenA tokenB)).tokenB = (sorted tokenA tokenB).2 := by
  obtain ⟨tokenA', first', tokenB', second', -, hash, same⟩ := named _ _ (lookup_of_found found)
  have one := apart (sorted_mem first second) (sorted_mem first' second') hash
  rw [← one] at same
  exact Prod.mk.inj same

theorem Named.setPair {dex : ProtonDEX} (named : Named env tokens dex) {tokenA tokenB : Address}
    (first : tokenA ∈ tokens) (second : tokenB ∈ tokens) (distinct : tokenA ≠ tokenB)
    {pair : TradingPair} (same : (pair.tokenA, pair.tokenB) = sorted tokenA tokenB) :
    Named env tokens (dex.setPair (hashOf env tokenA tokenB) pair) := by
  intro hash other held
  rw [ProtonDEX.setPair, FiniteMap.lookup_insert] at held
  split at held
  next own =>
    obtain rfl := Option.some.inj held
    exact ⟨tokenA, first, tokenB, second, distinct, own, same⟩
  · exact named hash other held

end Tokens

/-! ## Balances -/

section Balances
variable {World : Type} (env : Env World)

def held (world : World) (token : Address) : Nat :=
  (env.erc20.balanceOf world token env.self).toNat

/-- The exchange holds at least what its pairs record, of every token. -/
def Solvent (state : State World) : Prop :=
  ∀ token, state.dex.reserves token ≤ held env state.world token

variable {env} {caller : Address} {state next : State World}

theorem Adds.held {token0 token1 : Address} {amountA amountB minLiquidity liquidity : U256}
    {world : World}
    (adds : Adds env caller state token0 token1 amountA amountB minLiquidity liquidity world)
    (standard0 : env.erc20.Standard token0) (standard1 : env.erc20.Standard token1)
    (outsider : caller ≠ env.self) (token : Address) :
    held env world token = held env state.world token +
      (if token = token0 then amountA.toNat else 0) +
        if token = token1 then amountB.toNat else 0 := by
  obtain ⟨between, first, second⟩ := adds.paid
  have one := (standard0.transferFrom _ _ _ _ _ _ first).received env.self token outsider.symm
  have two := (standard1.transferFrom _ _ _ _ _ _ second).received env.self token outsider.symm
  simp only [and_true] at one two
  unfold ProtonDEX.held
  omega

theorem Removes.held {token0 token1 : Address} {liquidity amountA amountB : U256} {world : World}
    (removes : Removes env caller state token0 token1 liquidity amountA amountB world)
    (standard0 : env.erc20.Standard token0) (standard1 : env.erc20.Standard token1)
    (outsider : caller ≠ env.self) (token : Address) :
    held env world token + (if token = token0 then amountA.toNat else 0) +
        (if token = token1 then amountB.toNat else 0) = held env state.world token := by
  obtain ⟨between, first, second⟩ := removes.paid
  have one := (standard0.transfer _ _ _ _ _ first).sent env.self token outsider.symm
  have two := (standard1.transfer _ _ _ _ _ second).sent env.self token outsider.symm
  simp only [and_true] at one two
  unfold ProtonDEX.held
  omega

theorem Swaps.held {token0 token1 tokenIn tokenOut : Address} {amountIn minAmountOut : U256}
    {recipient : Address} {afterFee amountOut : U256} {pair : TradingPair} {world : World}
    (swaps : Swaps env caller state token0 token1 tokenIn tokenOut amountIn minAmountOut recipient
      afterFee amountOut pair world)
    (standardIn : env.erc20.Standard tokenIn) (standardOut : env.erc20.Standard tokenOut)
    (distinct : tokenIn ≠ tokenOut) (outsider : caller ≠ env.self)
    (feeOut : state.dex.feeRecipient ≠ env.self) :
    held env world tokenIn + state.dex.feeOn amountIn =
        held env state.world tokenIn + amountIn.toNat ∧
      ∀ token, token ≠ tokenIn →
        held env state.world token ≤
          held env world token + if token = tokenOut then amountOut.toNat else 0 := by
  obtain ⟨taken, given, first, second, third⟩ := swaps.paid
  have inward := standardIn.transferFrom _ _ _ _ _ _ first
  have outward := standardOut.transfer _ _ _ _ _ second
  have fee := standardIn.transfer _ _ _ _ _ third
  constructor
  · have one := inward.received env.self tokenIn outsider.symm
    have two := congrArg BitVec.toNat (outward.others tokenIn env.self distinct)
    have three := fee.sent env.self tokenIn feeOut.symm
    simp only [and_self, if_true, amountInWithFee_feeOn swaps.charged] at one three
    unfold ProtonDEX.held
    omega
  · intro token other
    have one := congrArg BitVec.toNat (inward.others token env.self other)
    have two := outward.loses env.self token
    have three := congrArg BitVec.toNat (fee.others token env.self other)
    unfold ProtonDEX.held
    omega

/-! ## Reserves after a call -/

theorem Adds.reserves {token0 token1 : Address} {amountA amountB minLiquidity liquidity : U256}
    {world : World}
    (adds : Adds env caller state token0 token1 amountA amountB minLiquidity liquidity world)
    (named : (state.dex.pair (pairHash env token0 token1)).tokenA = token0 ∧
      (state.dex.pair (pairHash env token0 token1)).tokenB = token1) (token : Address) :
    (added caller state (pairHash env token0 token1) amountA amountB liquidity).reserves token =
      state.dex.reserves token + (if token = token0 then amountA.toNat else 0) +
        if token = token1 then amountB.toNat else 0 := by
  have replaced := reserves_replace state.dex
    (deposited (state.dex.pair (pairHash env token0 token1)) amountA amountB liquidity) named
    named token
  have reserveA := BitVec.toNat_add_of_lt adds.reserveA
  have reserveB := BitVec.toNat_add_of_lt adds.reserveB
  have filledA : (deposited (state.dex.pair (pairHash env token0 token1)) amountA amountB
    liquidity).reserveA.toNat = _ := reserveA
  have filledB : (deposited (state.dex.pair (pairHash env token0 token1)) amountA amountB
    liquidity).reserveB.toNat = _ := reserveB
  change (state.dex.setPair _ (deposited _ _ _ _)).reserves token = _
  rw [filledA, filledB] at replaced
  split_ifs at replaced ⊢ <;> omega

theorem Removes.reserves {token0 token1 : Address} {liquidity amountA amountB : U256}
    {world : World}
    (removes : Removes env caller state token0 token1 liquidity amountA amountB world)
    (named : (state.dex.pair (pairHash env token0 token1)).tokenA = token0 ∧
      (state.dex.pair (pairHash env token0 token1)).tokenB = token1) (token : Address) :
    (removed caller state (pairHash env token0 token1) liquidity amountA amountB).reserves token +
        (if token = token0 then amountA.toNat else 0) +
        (if token = token1 then amountB.toNat else 0) = state.dex.reserves token := by
  have replaced := reserves_replace state.dex
    (withdrawn (state.dex.pair (pairHash env token0 token1)) liquidity amountA amountB) named
    named token
  have belowA := mulDiv_le removes.part removes.quotedA
  have belowB := mulDiv_le removes.part removes.quotedB
  have leftA : (withdrawn (state.dex.pair (pairHash env token0 token1)) liquidity amountA
    amountB).reserveA.toNat = _ := BitVec.toNat_sub_of_le (BitVec.le_def.mpr belowA)
  have leftB : (withdrawn (state.dex.pair (pairHash env token0 token1)) liquidity amountA
    amountB).reserveB.toNat = _ := BitVec.toNat_sub_of_le (BitVec.le_def.mpr belowB)
  change (state.dex.setPair _ (withdrawn _ _ _ _)).reserves token + _ + _ = _
  rw [leftA, leftB] at replaced
  split_ifs at replaced ⊢ <;> omega

theorem Swaps.reserves {tokenIn tokenOut : Address} {amountIn minAmountOut : U256}
    {recipient : Address} {afterFee amountOut : U256} {pair : TradingPair} {world : World}
    (swaps : Swaps env caller state (sorted tokenIn tokenOut).1 (sorted tokenIn tokenOut).2
      tokenIn tokenOut amountIn minAmountOut recipient afterFee amountOut pair world)
    (distinct : tokenIn ≠ tokenOut)
    (named : (state.dex.pair (hashOf env tokenIn tokenOut)).tokenA = (sorted tokenIn tokenOut).1 ∧
      (state.dex.pair (hashOf env tokenIn tokenOut)).tokenB = (sorted tokenIn tokenOut).2)
    (token : Address) :
    (state.dex.setPair (hashOf env tokenIn tokenOut) pair).reserves token +
        (if token = tokenOut then amountOut.toNat else 0) =
      state.dex.reserves token + if token = tokenIn then amountIn.toNat else 0 := by
  have written := reserves_setPair state.dex (hashOf env tokenIn tokenOut) pair token
  have moved := exchange_reserveOf distinct named swaps.exchanged token
  omega

/-! ## Solvency after a call -/

theorem solvent_createPair (solvent : Solvent env state) (hash : Hash) (token0 token1 : Address) :
    Solvent env { state with dex := state.dex.setPair hash (freshPair token0 token1) } := by
  intro token
  have written := reserves_setPair state.dex hash (freshPair token0 token1) token
  have fresh : reserveOf token (freshPair token0 token1) = 0 := by simp [reserveOf, freshPair]
  have now := solvent token
  simp only at now ⊢
  omega

theorem Adds.solvent {token0 token1 : Address} {amountA amountB minLiquidity liquidity : U256}
    (adds : Adds env caller state token0 token1 amountA amountB minLiquidity liquidity next.world)
    (books : next.dex = added caller state (pairHash env token0 token1) amountA amountB liquidity)
    (standard0 : env.erc20.Standard token0) (standard1 : env.erc20.Standard token1)
    (outsider : caller ≠ env.self)
    (named : (state.dex.pair (pairHash env token0 token1)).tokenA = token0 ∧
      (state.dex.pair (pairHash env token0 token1)).tokenB = token1)
    (solvent : Solvent env state) : Solvent env next := by
  intro token
  have recorded := adds.reserves named token
  have taken := adds.held standard0 standard1 outsider token
  have now := solvent token
  rw [books, recorded, taken]
  omega

theorem Removes.solvent {token0 token1 : Address} {liquidity amountA amountB : U256}
    (removes : Removes env caller state token0 token1 liquidity amountA amountB next.world)
    (books : next.dex =
      removed caller state (pairHash env token0 token1) liquidity amountA amountB)
    (standard0 : env.erc20.Standard token0) (standard1 : env.erc20.Standard token1)
    (outsider : caller ≠ env.self)
    (named : (state.dex.pair (pairHash env token0 token1)).tokenA = token0 ∧
      (state.dex.pair (pairHash env token0 token1)).tokenB = token1)
    (solvent : Solvent env state) : Solvent env next := by
  intro token
  have recorded := removes.reserves named token
  have given := removes.held standard0 standard1 outsider token
  have now := solvent token
  rw [books]
  omega

/-- A swap keeps the exchange solvent exactly if its fee comes out of what is not recorded. -/
theorem Swaps.solvent_iff_covered {tokenIn tokenOut : Address} {amountIn minAmountOut : U256}
    {recipient : Address} {afterFee amountOut : U256} {pair : TradingPair}
    (swaps : Swaps env caller state (sorted tokenIn tokenOut).1 (sorted tokenIn tokenOut).2
      tokenIn tokenOut amountIn minAmountOut recipient afterFee amountOut pair next.world)
    (books : next.dex = state.dex.setPair (hashOf env tokenIn tokenOut) pair)
    (standardIn : env.erc20.Standard tokenIn) (standardOut : env.erc20.Standard tokenOut)
    (distinct : tokenIn ≠ tokenOut) (outsider : caller ≠ env.self)
    (feeOut : state.dex.feeRecipient ≠ env.self)
    (named : (state.dex.pair (hashOf env tokenIn tokenOut)).tokenA = (sorted tokenIn tokenOut).1 ∧
      (state.dex.pair (hashOf env tokenIn tokenOut)).tokenB = (sorted tokenIn tokenOut).2)
    (solvent : Solvent env state) :
    Solvent env next ↔
      state.dex.reserves tokenIn + state.dex.feeOn amountIn ≤
        ProtonDEX.held env state.world tokenIn := by
  obtain ⟨takenIn, givenOut⟩ := swaps.held standardIn standardOut distinct outsider feeOut
  have recorded := swaps.reserves distinct named
  have paidIn := recorded tokenIn
  rw [if_neg distinct, if_pos rfl] at paidIn
  simp only [Solvent, books]
  constructor
  · intro after
    have now := after tokenIn
    omega
  · intro covered token
    by_cases own : token = tokenIn
    · subst own
      omega
    · -- what leaves of the other token leaves its reserve as well
      have other := recorded token
      have given := givenOut token own
      have now := solvent token
      rw [if_neg own] at other
      omega

end Balances

/-! ## Runs -/

def Call.tokens : Call → List Address
  | .createPair tokenA tokenB => [tokenA, tokenB]
  | .addLiquidity tokenA tokenB _ _ _ => [tokenA, tokenB]
  | .removeLiquidity tokenA tokenB _ _ _ => [tokenA, tokenB]
  | .swap tokenIn tokenOut _ _ _ => [tokenIn, tokenOut]
  | .setTradingFee _ => []
  | .setFeeRecipient _ => []

section Runs
variable {World : Type} (env : Env World) (tokens : Set Address)

/-- Calls come from others, name tokens of the given set and never make the exchange the
recipient of its own fees. What happens outside takes nothing from the exchange. -/
def Allowed (state : State World) : Input World → Prop
  | .call caller call =>
    caller ≠ env.self ∧ (∀ token ∈ call.tokens, token ∈ tokens) ∧
      call ≠ .setFeeRecipient env.self
  | .outside world _ => ∀ token, held env state.world token ≤ held env world token

/-- A swap finds its fee in what the exchange holds beyond the recorded reserves. -/
def FeeCovered (state : State World) : Input World → Prop
  | .call _ (.swap tokenIn _ amountIn _ _) =>
    state.dex.reserves tokenIn + state.dex.feeOn amountIn ≤ held env state.world tokenIn
  | _ => True

structure Sound (state : State World) : Prop where
  named : Named env tokens state.dex
  feeOut : state.dex.feeRecipient ≠ env.self

variable {env tokens} {state next : State World} {input : Input World}

theorem perform_sound (apart : PairsApart env tokens) (sound : Sound env tokens state)
    (allowed : Allowed env tokens state input) (performed : perform env state input = .ok next) :
    Sound env tokens next := by
  have named := sound.named
  have feeOut := sound.feeOut
  cases input with
  | outside world owner =>
    obtain rfl := Except.ok.inj performed
    exact ⟨named, feeOut⟩
  | call caller call =>
    obtain ⟨-, inside, recipient⟩ := allowed
    cases call with
    | createPair tokenA tokenB =>
      obtain ⟨-, distinct, -, rfl⟩ := (createPair_eq_ok env caller state).mp performed
      exact ⟨named.setPair (inside _ (by simp [Call.tokens])) (inside _ (by simp [Call.tokens]))
        distinct rfl, feeOut⟩
    | addLiquidity tokenA tokenB amountA amountB minLiquidity =>
      obtain ⟨liquidity, distinct, adds, books⟩ := perform_addLiquidity performed
      have first : tokenA ∈ tokens := inside _ (by simp [Call.tokens])
      have second : tokenB ∈ tokens := inside _ (by simp [Call.tokens])
      have kept : Named env tokens (state.dex.setPair (hashOf env tokenA tokenB)
          (deposited (state.dex.pair (hashOf env tokenA tokenB)) amountA amountB liquidity)) :=
        named.setPair first second distinct
          (Prod.ext_iff.mpr (named.tokens_eq apart first second adds.found))
      constructor
      · rw [books]
        exact kept
      · rw [books]
        exact feeOut
    | removeLiquidity tokenA tokenB liquidity minAmountA minAmountB =>
      obtain ⟨amountA, amountB, distinct, removes, books⟩ := perform_removeLiquidity performed
      have first : tokenA ∈ tokens := inside _ (by simp [Call.tokens])
      have second : tokenB ∈ tokens := inside _ (by simp [Call.tokens])
      have kept : Named env tokens (state.dex.setPair (hashOf env tokenA tokenB)
          (withdrawn (state.dex.pair (hashOf env tokenA tokenB)) liquidity amountA amountB)) :=
        named.setPair first second distinct
          (Prod.ext_iff.mpr (named.tokens_eq apart first second removes.found))
      constructor
      · rw [books]
        exact kept
      · rw [books]
        exact feeOut
    | swap tokenIn tokenOut amountIn minAmountOut recipient =>
      obtain ⟨distinct, amountOut, afterFee, pair, swaps, books⟩ := perform_swap performed
      have first : tokenIn ∈ tokens := inside _ (by simp [Call.tokens])
      have second : tokenOut ∈ tokens := inside _ (by simp [Call.tokens])
      have own := named.tokens_eq apart first second swaps.found
      constructor
      · rw [books]
        refine named.setPair first second distinct (Prod.ext_iff.mpr ?_)
        obtain ⟨tokenA, tokenB⟩ := exchange_tokens swaps.exchanged
        exact ⟨tokenA.trans own.1, tokenB.trans own.2⟩
      · rw [books]
        exact feeOut
    | setTradingFee newFee =>
      obtain ⟨-, -, rfl⟩ := (setTradingFee_eq_ok caller state).mp performed
      exact ⟨named, feeOut⟩
    | setFeeRecipient newRecipient =>
      obtain ⟨-, rfl⟩ := (setFeeRecipient_eq_ok caller state).mp performed
      exact ⟨named, fun own => recipient (own ▸ rfl)⟩

/-- A successful step from a solvent state is solvent exactly if its fee is covered. -/
theorem perform_solvent (standard : ∀ token ∈ tokens, env.erc20.Standard token)
    (apart : PairsApart env tokens) (sound : Sound env tokens state) (solvent : Solvent env state)
    (allowed : Allowed env tokens state input) (performed : perform env state input = .ok next) :
    Solvent env next ↔ FeeCovered env state input := by
  have named := sound.named
  cases input with
  | outside world owner =>
    obtain rfl := Except.ok.inj performed
    exact iff_of_true (fun token => (solvent token).trans (allowed token)) trivial
  | call caller call =>
    obtain ⟨outsider, inside, -⟩ := allowed
    cases call with
    | createPair tokenA tokenB =>
      obtain ⟨-, -, -, rfl⟩ := (createPair_eq_ok env caller state).mp performed
      exact iff_of_true (solvent_createPair solvent _ _ _) trivial
    | addLiquidity tokenA tokenB amountA amountB minLiquidity =>
      obtain ⟨liquidity, -, adds, books⟩ := perform_addLiquidity performed
      have first : tokenA ∈ tokens := inside _ (by simp [Call.tokens])
      have second : tokenB ∈ tokens := inside _ (by simp [Call.tokens])
      have sortedIn := sorted_mem first second
      have own := named.tokens_eq apart first second adds.found
      exact iff_of_true (adds.solvent books (standard _ sortedIn.1) (standard _ sortedIn.2)
        outsider own solvent) trivial
    | removeLiquidity tokenA tokenB liquidity minAmountA minAmountB =>
      obtain ⟨amountA, amountB, -, removes, books⟩ := perform_removeLiquidity performed
      have first : tokenA ∈ tokens := inside _ (by simp [Call.tokens])
      have second : tokenB ∈ tokens := inside _ (by simp [Call.tokens])
      have sortedIn := sorted_mem first second
      have own := named.tokens_eq apart first second removes.found
      exact iff_of_true (removes.solvent books (standard _ sortedIn.1) (standard _ sortedIn.2)
        outsider own solvent) trivial
    | swap tokenIn tokenOut amountIn minAmountOut recipient =>
      obtain ⟨distinct, amountOut, afterFee, pair, swaps, books⟩ := perform_swap performed
      have first : tokenIn ∈ tokens := inside _ (by simp [Call.tokens])
      have second : tokenOut ∈ tokens := inside _ (by simp [Call.tokens])
      have own := named.tokens_eq apart first second swaps.found
      exact swaps.solvent_iff_covered books (standard _ first) (standard _ second) distinct
        outsider sound.feeOut own solvent
    | setTradingFee newFee =>
      obtain ⟨-, -, rfl⟩ := (setTradingFee_eq_ok caller state).mp performed
      exact iff_of_true solvent trivial
    | setFeeRecipient newRecipient =>
      obtain ⟨-, rfl⟩ := (setFeeRecipient_eq_ok caller state).mp performed
      exact iff_of_true solvent trivial

end Runs

/-- From the deployment on, the exchange holds what its pairs record in every state of a run
exactly if every swap that goes through finds its fee beyond the recorded reserves. -/
theorem solvent_iff {World : Type} (env : Env World) (tokens : Set Address)
    (standard : ∀ token ∈ tokens, env.erc20.Standard token) (apart : PairsApart env tokens)
    (deployer feeRecipient : Address) (feeOut : feeRecipient ≠ env.self) (world : World)
    (inputs : List (Input World))
    (allowed : Runs.Meets (step env) (Allowed env tokens)
      ⟨ProtonDEX.new deployer feeRecipient, world⟩ inputs) :
    Runs.Visits (step env) (Solvent env) ⟨ProtonDEX.new deployer feeRecipient, world⟩ inputs ↔
      Runs.Meets (step env)
        (fun state input => Transactions.Succeeds (perform env) state input →
          FeeCovered env state input)
        ⟨ProtonDEX.new deployer feeRecipient, world⟩ inputs := by
  refine @Transactions.visits_iff_meets _ _ _ _ _ (Sound env tokens) _ _ ?_ ?_ _ ?_ ?_ inputs
    allowed
  · intro state input next sound solvent allowed performed
    exact perform_solvent standard apart sound solvent allowed performed
  · intro state input next sound allowed performed
    exact perform_sound apart sound allowed performed
  · intro token
    exact Nat.zero_le _
  · exact ⟨nofun, feeOut⟩

namespace Sample

def tokens : Set Address := {Sample.address 1, Sample.address 2}

theorem pairsApart : PairsApart Sample.env tokens := by
  rintro ⟨first, second⟩ ⟨rfl | rfl, rfl | rfl⟩ ⟨first', second'⟩ ⟨rfl | rfl, rfl | rfl⟩ same <;>
    first
    | rfl
    | exact absurd same (by decide)

/-- The fee is set to nothing before the pair is used. -/
def feeless : List (Input Sample.Ledger) :=
  .call (Sample.address 9) (.setTradingFee 0) :: Sample.opening ++ [Sample.trading]

theorem inside : ∀ token ∈ [Sample.address 1, Sample.address 2], token ∈ tokens := by
  intro token member
  simpa [tokens] using member

theorem feeless_allowed :
    Runs.Meets (step Sample.env) (Allowed Sample.env tokens) Sample.deployed feeless :=
  ⟨⟨by decide, nofun, nofun⟩, ⟨by decide, inside, nofun⟩, ⟨by decide, inside, nofun⟩,
    ⟨by decide, inside, nofun⟩, trivial⟩

theorem opening_allowed :
    Runs.Meets (step Sample.env) (Allowed Sample.env tokens) Sample.deployed
      (Sample.opening ++ [Sample.trading]) :=
  ⟨⟨by decide, inside, nofun⟩, ⟨by decide, inside, nofun⟩, ⟨by decide, inside, nofun⟩, trivial⟩

end Sample

theorem solvent_sample :
    Runs.Visits (step Sample.env) (Solvent Sample.env) Sample.deployed Sample.feeless := by
  refine (solvent_iff Sample.env Sample.tokens (fun token _ => Sample.erc20_standard token)
    Sample.pairsApart (Sample.address 9) (Sample.address 7) (by decide) Sample.ledger Sample.feeless
    Sample.feeless_allowed).mpr ⟨fun _ => trivial, fun _ => trivial, fun _ => trivial, ?_, trivial⟩
  intro _
  change (_ : Nat) ≤ _
  decide +kernel

/-- A swap of 1000 at the fee of the deployment: 2000 are recorded and 1997 are held. -/
theorem swap_pays_fee_from_reserves :
    (∀ token ∈ Sample.tokens, Sample.env.erc20.Standard token) ∧
      PairsApart Sample.env Sample.tokens ∧
      Runs.Meets (step Sample.env) (Allowed Sample.env Sample.tokens) Sample.deployed
        (Sample.opening ++ [Sample.trading]) ∧
      ¬ Runs.Visits (step Sample.env) (Solvent Sample.env) Sample.deployed
        (Sample.opening ++ [Sample.trading]) := by
  refine ⟨fun token _ => Sample.erc20_standard token, Sample.pairsApart, Sample.opening_allowed, ?_⟩
  intro visits
  have last := visits (Sample.opening ++ [Sample.trading]) [] (List.append_nil _).symm
    (Sample.address 1)
  exact absurd last (by decide +kernel)

end ProtonChain.Solidity.ProtonDEX
