import ProtonChain.Contracts.DexQuotes
import ProtonChain.Library.PoolDeposits
import ProtonChain.Solidity.DexRoots
import ProtonChain.Solidity.DexSolvency

/-! The pools of the two exchanges, fed with the same calls.

Both book the first amount for the first reserve, in whatever order the tokens are named, and both
mint by one rule, though in words of different widths. So they keep the same pools as long as a
deposit goes through on both or on neither.
-/

set_option autoImplicit false

namespace ProtonChain

open Checked ConstantProduct

/-! ## Deposits of the chain's own exchange -/

namespace Contracts.ProtonDEX

def pool (pair : TradingPair) : Pool :=
  ⟨pair.reserveA.toNat, pair.reserveB.toNat, pair.totalLiquidity.toNat⟩

def poolAt (dex : ProtonDEX) (pairKey : Address × Address) : Pool :=
  (dex.pairs.lookup pairKey).elim Pool.empty pool

theorem poolAt_insert (dex : ProtonDEX) (pairKey : Address × Address) (pair : TradingPair)
    (other : Address × Address) :
    { dex with pairs := dex.pairs.insert pairKey pair }.poolAt other =
      if other = pairKey then pool pair else dex.poolAt other := by
  simp only [poolAt, FiniteMap.lookup_insert]
  split <;> rfl

/-- Where there is a root, it is the exact one. -/
theorem sqrt_value {x root : U128} (computed : sqrt x = .ok root) :
    root.toNat = x.toNat.sqrt := by
  have small : x.toNat + 1 < 2 ^ 128 := by
    by_cases zero : x = 0
    · subst zero
      decide
    · rw [sqrt, if_neg zero, bind_eq_ok] at computed
      obtain ⟨successor, added, -⟩ := computed
      have one : (1 : U128).toNat = 1 := rfl
      exact one ▸ (add_eq_ok_iff_fits.mp added).1
  obtain ⟨root', computed', exact⟩ := sqrt_eq_ok small
  rw [computed] at computed'
  rw [Except.ok.inj computed', exact]

theorem mintedLiquidity_value {pair : TradingPair} {amountA amountB liquidity : U128}
    (minted : mintedLiquidity pair amountA amountB = .ok liquidity) :
    liquidity.toNat = (pool pair).minted amountA.toNat amountB.toNat := by
  by_cases first : pair.totalLiquidity = 0
  · rw [mintedLiquidity, if_pos first, bind_eq_ok] at minted
    obtain ⟨product, exact, root⟩ := minted
    have empty : (pool pair).shares = 0 := congrArg BitVec.toNat first
    rw [sqrt_value root, mul_eq_ok.mp exact, Pool.minted, if_pos empty]
  · rw [mintedLiquidity, if_neg first] at minted
    simp only [bind_eq_ok, pure_eq_ok] at minted
    obtain ⟨quoteA, quotedA, quoteB, quotedB, rfl⟩ := minted
    have shared : (pool pair).shares ≠ 0 := fun empty =>
      first (BitVec.eq_of_toNat_eq (empty.trans BitVec.toNat_zero.symm))
    exact minted_of_quotes shared rfl quotedA quotedB

section Calls
variable {World : Type} {host : Host World} {state next : State World}

theorem addLiquidity_pools {caller tokenA tokenB : Address} {amountA amountB liquidity : U128}
    (done : addLiquidity host caller tokenA tokenB amountA amountB state = .ok (liquidity, next))
    (pairKey : Address × Address) :
    next.dex.poolAt pairKey =
      if pairKey = sortPair tokenA tokenB then
        (state.dex.poolAt pairKey).joined amountA.toNat amountB.toNat
      else state.dex.poolAt pairKey := by
  simp only [addLiquidity, bind_eq_ok, unwrap_eq_ok, add_eq_ok, pure_eq_ok] at done
  obtain ⟨pair, found, between, -, paid, -, minted, priced, reserveA, grownA, reserveB, grownB,
    total, grown, world, -, same⟩ := done
  obtain ⟨-, rfl⟩ := Prod.mk.inj same
  rw [poolAt_insert]
  by_cases own : pairKey = sortPair tokenA tokenB
  · have before : state.dex.poolAt pairKey = pool pair := by
      rw [poolAt, own, found]
      rfl
    rw [if_pos own, if_pos own, before, Pool.joined, ← mintedLiquidity_value priced]
    simp only [pool, grownA, grownB, grown]
  · rw [if_neg own, if_neg own]

theorem createPair_pools {tokenA tokenB : Address} {dex after : ProtonDEX}
    (created : createPair tokenA tokenB dex = .ok after) (pairKey : Address × Address) :
    after.poolAt pairKey = dex.poolAt pairKey := by
  simp only [createPair, bind_eq_ok, ensure_eq_ok, pure_eq_ok] at created
  obtain ⟨-, -, -, free, rfl⟩ := created
  rw [poolAt_insert]
  split
  next own =>
    rw [poolAt, own, Finmap.lookup_eq_none.mpr free]
    rfl
  next => rfl

end Calls

end Contracts.ProtonDEX

/-! ## Deposits of the Solidity exchange -/

namespace Solidity.ProtonDEX

theorem sqrt_value {x root : U256} (computed : sqrt x = .ok root) :
    root.toNat = x.toNat.sqrt := by
  have small : x.toNat + 1 < 2 ^ 256 := by
    have unfolded := computed
    rw [sqrt, bind_eq_ok] at unfolded
    obtain ⟨successor, added, -⟩ := unfolded
    have one : (1 : U256).toNat = 1 := rfl
    exact one ▸ (add_eq_ok_iff_fits.mp added).1
  obtain ⟨root', computed', exact⟩ := sqrt_eq_ok small
  rw [computed] at computed'
  rw [Except.ok.inj computed', exact]

theorem mintedLiquidity_value {pair : TradingPair} {amountA amountB liquidity : U256}
    (minted : mintedLiquidity pair amountA amountB = .ok liquidity) :
    liquidity.toNat = (pool pair).minted amountA.toNat amountB.toNat := by
  by_cases first : pair.totalLiquidity = 0
  · rw [mintedLiquidity, if_pos first, bind_eq_ok] at minted
    obtain ⟨product, exact, root⟩ := minted
    have empty : (pool pair).shares = 0 := congrArg BitVec.toNat first
    rw [sqrt_value root, mul_eq_ok.mp exact, Pool.minted, if_pos empty]
  · rw [mintedLiquidity, if_neg first] at minted
    simp only [bind_eq_ok, pure_eq_ok] at minted
    obtain ⟨quoteA, quotedA, quoteB, quotedB, rfl⟩ := minted
    have shared : (pool pair).shares ≠ 0 := fun empty =>
      first (BitVec.eq_of_toNat_eq (empty.trans BitVec.toNat_zero.symm))
    exact minted_of_quotes shared rfl quotedA quotedB

section Calls
variable {World : Type} {env : Env World} {caller : Address} {state : State World}

theorem Adds.joined {token0 token1 : Address} {amountA amountB minLiquidity liquidity : U256}
    {world : World}
    (adds : Adds env caller state token0 token1 amountA amountB minLiquidity liquidity world)
    (hash : Hash) :
    pool ((added caller state (pairHash env token0 token1) amountA amountB liquidity).pair hash) =
      if hash = pairHash env token0 token1 then
        (pool (state.dex.pair hash)).joined amountA.toNat amountB.toNat
      else pool (state.dex.pair hash) := by
  rw [pair_added]
  split
  next own =>
    subst own
    have deposit := adds.deposit
    rw [pair_added, if_pos rfl] at deposit
    obtain ⟨reserveA, reserveB, shares, -, -, -⟩ := deposit
    rw [Pool.joined, ← mintedLiquidity_value adds.minted]
    exact congr (congr (congrArg Pool.mk reserveA) reserveB) shares
  next => rfl

end Calls

/-- Where no pair was created there is nothing. -/
def Vacant (dex : ProtonDEX) : Prop :=
  ∀ hash, (dex.pair hash).tokenA = Address.zero → pool (dex.pair hash) = Pool.empty

end Solidity.ProtonDEX

/-! ## The exchanges side by side -/

structure Exchanges (World World' : Type) where
  rust : Contracts.ProtonDEX.State World
  solidity : Solidity.ProtonDEX.State World'

namespace Exchanges

/-- The calls that both exchanges have. Only one of them asks for a least liquidity. -/
inductive Call where
  | createPair (tokenA tokenB : Address)
  | addLiquidity (tokenA tokenB : Address) (amountA amountB : U128) (minLiquidity : Solidity.U256)

inductive Input (World World' : Type) where
  | call (caller : Address) (call : Call)
  | outside (world : World) (world' : World') (owner : Address)

def Call.tokens : Call → List Address
  | .createPair tokenA tokenB | .addLiquidity tokenA tokenB _ _ _ => [tokenA, tokenB]

section Inputs
variable {World World' : Type}

def Input.tokens : Input World World' → List Address
  | .call _ made => made.tokens
  | .outside _ _ _ => []

def Input.toRust : Input World World' → Contracts.ProtonDEX.Input World
  | .call caller (.createPair tokenA tokenB) => .call caller (.createPair tokenA tokenB)
  | .call caller (.addLiquidity tokenA tokenB amountA amountB _) =>
    .call caller (.addLiquidity tokenA tokenB amountA amountB)
  | .outside world _ _ => .outside world

def Input.toSolidity : Input World World' → Solidity.ProtonDEX.Input World'
  | .call caller (.createPair tokenA tokenB) => .call caller (.createPair tokenA tokenB)
  | .call caller (.addLiquidity tokenA tokenB amountA amountB minLiquidity) =>
    .call caller (.addLiquidity tokenA tokenB (amountA.setWidth 256) (amountB.setWidth 256)
      minLiquidity)
  | .outside _ world owner => .outside world owner

variable (host : Contracts.Host World) (env : Solidity.Env World') (tokens : Set Address)

def GoesThroughRust (both : Exchanges World World') (input : Input World World') : Prop :=
  Transactions.Succeeds (Contracts.ProtonDEX.perform host) both.rust input.toRust

def GoesThroughSolidity (both : Exchanges World World') (input : Input World World') : Prop :=
  Transactions.Succeeds (Solidity.ProtonDEX.perform env) both.solidity input.toSolidity

def step (both : Exchanges World World') (input : Input World World') :
    (Except (Fault Contracts.DexPanic) Unit × Except (Fault Solidity.DexError) Unit) ×
      Exchanges World World' :=
  let (answer, rust) := Contracts.ProtonDEX.step host both.rust input.toRust
  let (answer', solidity) := Solidity.ProtonDEX.step env both.solidity input.toSolidity
  ((answer, answer'), ⟨rust, solidity⟩)

/-- Both keep one pool for any two of the tokens. -/
def SamePools (both : Exchanges World World') : Prop :=
  ∀ tokenA ∈ tokens, ∀ tokenB ∈ tokens, tokenA ≠ tokenB →
    both.rust.dex.poolAt (Contracts.ProtonDEX.sortPair tokenA tokenB) =
      Solidity.ProtonDEX.pool
        (both.solidity.dex.pair (Solidity.ProtonDEX.hashOf env tokenA tokenB))

/-- A deposit of something goes through on both or on neither. -/
def Together (both : Exchanges World World') : Input World World' → Prop
  | .call caller (.addLiquidity tokenA tokenB amountA amountB minLiquidity) =>
    amountA = 0 ∧ amountB = 0 ∨
      (GoesThroughRust host both
          (.call caller (.addLiquidity tokenA tokenB amountA amountB minLiquidity)) ↔
        GoesThroughSolidity env both
          (.call caller (.addLiquidity tokenA tokenB amountA amountB minLiquidity)))
  | _ => True

end Inputs

/-! ## Steps -/

section Steps
variable {World World' : Type} {host : Contracts.Host World} {env : Solidity.Env World'}
  {tokens : Set Address}

/-- What a step does to the pools of the chain's own exchange. -/
theorem rust_pools (state : Contracts.ProtonDEX.State World) (input : Input World World')
    (pairKey : Address × Address) :
    (Contracts.ProtonDEX.step host state input.toRust).2.dex.poolAt pairKey =
      match input with
      | .call _ (.addLiquidity tokenA tokenB amountA amountB _) =>
        if pairKey = Contracts.ProtonDEX.sortPair tokenA tokenB ∧
            Transactions.Succeeds (Contracts.ProtonDEX.perform host) state input.toRust then
          (state.dex.poolAt pairKey).joined amountA.toNat amountB.toNat
        else state.dex.poolAt pairKey
      | _ => state.dex.poolAt pairKey := by
  by_cases succeeds : Transactions.Succeeds (Contracts.ProtonDEX.perform host) state input.toRust
  · obtain ⟨next, performed⟩ := succeeds
    rw [Contracts.ProtonDEX.step, Transactions.step_of_ok performed]
    cases input with
    | outside world world' owner =>
      obtain rfl := Except.ok.inj performed
      rfl
    | call caller call =>
      cases call with
      | createPair tokenA tokenB =>
        simp only [Input.toRust, Contracts.ProtonDEX.perform, bind_eq_ok, pure_eq_ok] at performed
        obtain ⟨dex, created, rfl⟩ := performed
        exact Contracts.ProtonDEX.createPair_pools created pairKey
      | addLiquidity tokenA tokenB amountA amountB minLiquidity =>
        have succeeds : Transactions.Succeeds (Contracts.ProtonDEX.perform host) state
            (.call caller (.addLiquidity tokenA tokenB amountA amountB minLiquidity) :
              Input World World').toRust := ⟨next, performed⟩
        simp only [Input.toRust, Contracts.ProtonDEX.perform, bind_eq_ok, pure_eq_ok] at performed
        obtain ⟨⟨liquidity, after⟩, done, rfl⟩ := performed
        simp only [succeeds, and_true]
        exact Contracts.ProtonDEX.addLiquidity_pools done pairKey
  · rw [Contracts.ProtonDEX.step, Transactions.step_of_not_succeeds succeeds]
    cases input with
    | outside world world' owner => rfl
    | call caller call =>
      cases call with
      | createPair tokenA tokenB => rfl
      | addLiquidity tokenA tokenB amountA amountB => simp only [succeeds, and_false, if_false]

theorem solidity_pools {state : Solidity.ProtonDEX.State World'}
    (vacant : Solidity.ProtonDEX.Vacant state.dex) (input : Input World World') (hash : Hash) :
    Solidity.ProtonDEX.pool
        ((Solidity.ProtonDEX.step env state input.toSolidity).2.dex.pair hash) =
      match input with
      | .call _ (.addLiquidity tokenA tokenB amountA amountB _) =>
        if hash = Solidity.ProtonDEX.hashOf env tokenA tokenB ∧
            Transactions.Succeeds (Solidity.ProtonDEX.perform env) state input.toSolidity then
          (Solidity.ProtonDEX.pool (state.dex.pair hash)).joined amountA.toNat amountB.toNat
        else Solidity.ProtonDEX.pool (state.dex.pair hash)
      | _ => Solidity.ProtonDEX.pool (state.dex.pair hash) := by
  by_cases succeeds : Transactions.Succeeds (Solidity.ProtonDEX.perform env) state input.toSolidity
  · obtain ⟨next, performed⟩ := succeeds
    rw [Solidity.ProtonDEX.step, Transactions.step_of_ok performed]
    cases input with
    | outside world world' owner =>
      obtain rfl := Except.ok.inj performed
      rfl
    | call caller call =>
      cases call with
      | createPair tokenA tokenB =>
        obtain ⟨-, -, free, rfl⟩ :=
          (Solidity.ProtonDEX.createPair_eq_ok env caller state).mp performed
        dsimp only
        rw [Solidity.ProtonDEX.pair_setPair]
        split
        next own =>
          rw [own, vacant _ free]
          rfl
        next => rfl
      | addLiquidity tokenA tokenB amountA amountB minLiquidity =>
        have succeeds : Transactions.Succeeds (Solidity.ProtonDEX.perform env) state
            (.call caller (.addLiquidity tokenA tokenB amountA amountB minLiquidity) :
              Input World World').toSolidity := ⟨next, performed⟩
        obtain ⟨liquidity, -, adds, books⟩ := Solidity.ProtonDEX.perform_addLiquidity performed
        have wide (amount : U128) : (amount.setWidth 256).toNat = amount.toNat :=
          BitVec.toNat_setWidth_of_le (by decide)
        simp only [succeeds, and_true]
        rw [books, ← wide amountA, ← wide amountB]
        exact adds.joined hash
  · rw [Solidity.ProtonDEX.step, Transactions.step_of_not_succeeds succeeds]
    cases input with
    | outside world world' owner => rfl
    | call caller call =>
      cases call with
      | createPair tokenA tokenB => rfl
      | addLiquidity tokenA tokenB amountA amountB => simp only [succeeds, and_false, if_false]

theorem solidity_vacant {state : Solidity.ProtonDEX.State World'}
    (vacant : Solidity.ProtonDEX.Vacant state.dex) (input : Input World World') :
    Solidity.ProtonDEX.Vacant (Solidity.ProtonDEX.step env state input.toSolidity).2.dex := by
  have keep : ∀ next, Solidity.ProtonDEX.perform env state input.toSolidity = .ok next →
      Solidity.ProtonDEX.Vacant next.dex := by
    intro next performed hash
    cases input with
    | outside world world' owner =>
      obtain rfl := Except.ok.inj performed
      exact vacant hash
    | call caller call =>
      cases call with
      | createPair tokenA tokenB =>
        obtain ⟨-, -, free, rfl⟩ :=
          (Solidity.ProtonDEX.createPair_eq_ok env caller state).mp performed
        dsimp only
        rw [Solidity.ProtonDEX.pair_setPair]
        split
        next => exact fun _ => rfl
        next => exact vacant hash
      | addLiquidity tokenA tokenB amountA amountB minLiquidity =>
        obtain ⟨liquidity, -, adds, books⟩ := Solidity.ProtonDEX.perform_addLiquidity performed
        rw [books, Solidity.ProtonDEX.pair_added]
        split
        next own =>
          subst own
          exact fun free => absurd free adds.found
        next => exact vacant hash
  by_cases succeeds : Transactions.Succeeds (Solidity.ProtonDEX.perform env) state input.toSolidity
  · obtain ⟨next, performed⟩ := succeeds
    rw [Solidity.ProtonDEX.step, Transactions.step_of_ok performed]
    exact keep next performed
  · rw [Solidity.ProtonDEX.step, Transactions.step_of_not_succeeds succeeds]
    exact vacant

/-- Two pairs of tokens share a hash only if they are one. -/
theorem hashOf_eq_iff (apart : Solidity.ProtonDEX.PairsApart env tokens)
    {tokenA tokenB tokenA' tokenB' : Address} (first : tokenA ∈ tokens) (second : tokenB ∈ tokens)
    (first' : tokenA' ∈ tokens) (second' : tokenB' ∈ tokens) :
    Solidity.ProtonDEX.hashOf env tokenA tokenB = Solidity.ProtonDEX.hashOf env tokenA' tokenB' ↔
      Contracts.ProtonDEX.sortPair tokenA tokenB =
        Contracts.ProtonDEX.sortPair tokenA' tokenB' := by
  rw [← Contracts.ProtonDEX.sorted_eq_sortPair, ← Contracts.ProtonDEX.sorted_eq_sortPair]
  constructor
  · exact apart (Solidity.ProtonDEX.sorted_mem first second)
      (Solidity.ProtonDEX.sorted_mem first' second')
  · intro same
    rw [Solidity.ProtonDEX.hashOf, Solidity.ProtonDEX.hashOf, same]

/-- What the comparison rests on besides the pools. -/
structure Sound (both : Exchanges World World') : Prop where
  rust : Contracts.ProtonDEX.Sound both.rust
  solidity : Solidity.ProtonDEX.Vacant both.solidity.dex

theorem step_sound {both : Exchanges World World'} (sound : Sound both)
    (input : Input World World') : Sound (step host env both input).2 where
  rust := Transactions.step_keeps sound.rust fun _ performed =>
    Contracts.ProtonDEX.perform_sound sound.rust performed
  solidity := solidity_vacant sound.solidity input

theorem apart_of_goesThrough {both : Exchanges World World'} (sound : Sound both)
    {caller token : Address} {amountA amountB : U128} {minLiquidity : Solidity.U256} :
    ¬ GoesThroughRust host both
        (.call caller (.addLiquidity token token amountA amountB minLiquidity)) ∧
      ¬ GoesThroughSolidity env both
        (.call caller (.addLiquidity token token amountA amountB minLiquidity)) := by
  constructor
  · rintro ⟨next, performed⟩
    simp only [Input.toRust, Contracts.ProtonDEX.perform, bind_eq_ok, pure_eq_ok] at performed
    obtain ⟨⟨liquidity, after⟩, done, -⟩ := performed
    obtain ⟨pair, -, found, -⟩ := Contracts.ProtonDEX.addLiquidity_ok done
    obtain ⟨tokens, apart⟩ := sound.rust.keyed _ _ found
    have own : Contracts.ProtonDEX.sortPair token token = (token, token) :=
      (Contracts.ProtonDEX.sortPair_eq token token).elim id id
    obtain ⟨one, two⟩ := Prod.mk.inj (tokens.trans own)
    exact apart (one.trans two.symm)
  · rintro ⟨next, performed⟩
    obtain ⟨-, apart, -⟩ := Solidity.ProtonDEX.perform_addLiquidity performed
    exact apart rfl

theorem step_samePools_iff (apart : Solidity.ProtonDEX.PairsApart env tokens)
    {both : Exchanges World World'} (sound : Sound both) (same : SamePools env tokens both)
    {input : Input World World'} (named : ∀ token ∈ input.tokens, token ∈ tokens) :
    SamePools env tokens (step host env both input).2 ↔ Together host env both input := by
  have pools : SamePools env tokens (step host env both input).2 ↔
      ∀ tokenX ∈ tokens, ∀ tokenY ∈ tokens, tokenX ≠ tokenY →
        (Contracts.ProtonDEX.step host both.rust input.toRust).2.dex.poolAt
            (Contracts.ProtonDEX.sortPair tokenX tokenY) =
          Solidity.ProtonDEX.pool
            ((Solidity.ProtonDEX.step env both.solidity input.toSolidity).2.dex.pair
              (Solidity.ProtonDEX.hashOf env tokenX tokenY)) := Iff.rfl
  rw [pools]
  cases input with
  | outside world world' owner =>
    simp only [rust_pools, solidity_pools sound.solidity]
    exact iff_of_true same trivial
  | call caller call =>
    cases call with
    | createPair tokenA tokenB =>
      simp only [rust_pools, solidity_pools sound.solidity]
      exact iff_of_true same trivial
    | addLiquidity tokenA tokenB amountA amountB minLiquidity =>
      simp only [rust_pools, solidity_pools sound.solidity]
      have first := named tokenA (by simp [Input.tokens, Call.tokens])
      have second := named tokenB (by simp [Input.tokens, Call.tokens])
      have nothing : amountA.toNat = 0 ∧ amountB.toNat = 0 ↔ amountA = 0 ∧ amountB = 0 :=
        and_congr (BitVec.toNat_inj (y := 0)) (BitVec.toNat_inj (y := 0))
      by_cases distinct : tokenA = tokenB
      · subst distinct
        obtain ⟨rust, solidity⟩ := @apart_of_goesThrough _ _ host env both sound caller tokenA
          amountA amountB minLiquidity
        refine iff_of_true ?_ (.inr (iff_of_false rust solidity))
        intro tokenX memberX tokenY memberY others
        rw [if_neg fun made => rust made.2, if_neg fun made => solidity made.2]
        exact same tokenX memberX tokenY memberY others
      · constructor
        · intro next
          have own := next tokenA first tokenB second distinct
          rw [same tokenA first tokenB second distinct] at own
          simp only [true_and] at own
          rw [Pool.joined_alike_iff, nothing] at own
          exact own
        · intro together tokenX memberX tokenY memberY others
          have one := hashOf_eq_iff apart memberX memberY first second
          by_cases own : Contracts.ProtonDEX.sortPair tokenX tokenY =
              Contracts.ProtonDEX.sortPair tokenA tokenB
          · have before := same tokenX memberX tokenY memberY others
            simp only [one.mpr own, own, true_and] at before ⊢
            rw [before, Pool.joined_alike_iff, nothing]
            exact together
          · rw [if_neg fun made => own made.1, if_neg fun made => own (one.mp made.1)]
            exact same tokenX memberX tokenY memberY others

end Steps

/-! ## Runs -/

section Runs
variable {World World' : Type} (host : Contracts.Host World) (env : Solidity.Env World')

/-- Both exchanges as they are deployed. -/
def deployed (fees : U16) (feeRecipient deployer feeRecipient' : Address) (world : World)
    (world' : World') : Exchanges World World' where
  rust := ⟨Contracts.ProtonDEX.new fees feeRecipient, world, []⟩
  solidity := ⟨Solidity.ProtonDEX.new deployer feeRecipient', world'⟩

/-- Over every run of the same calls, the exchanges keep the same pools in every state, exactly if
every deposit of something goes through on both or on neither. -/
theorem pools_agree_iff (tokens : Set Address)
    (apart : Solidity.ProtonDEX.PairsApart env tokens) (fees : U16)
    (feeRecipient deployer feeRecipient' : Address) (world : World) (world' : World')
    (inputs : List (Input World World'))
    (named : ∀ input ∈ inputs, ∀ token ∈ input.tokens, token ∈ tokens) :
    Runs.Visits (step host env) (SamePools env tokens)
        (deployed fees feeRecipient deployer feeRecipient' world world') inputs ↔
      Runs.Meets (step host env) (Together host env)
        (deployed fees feeRecipient deployer feeRecipient' world world') inputs := by
  have exactly : ∀ (both : Exchanges World World') (input : Input World World'), Sound both →
      SamePools env tokens both → (∀ token ∈ input.tokens, token ∈ tokens) →
        (SamePools env tokens (step host env both input).2 ↔ Together host env both input) :=
    fun both input sound same listed => step_samePools_iff apart sound same listed
  have keep : ∀ (both : Exchanges World World') (input : Input World World'), Sound both →
      (∀ token ∈ input.tokens, token ∈ tokens) → Sound (step host env both input).2 :=
    fun both input sound _ => step_sound sound input
  refine Runs.visits_iff_meets (step host env) exactly keep ?_ ?_ inputs ?_
  · exact fun tokenA _ tokenB _ _ => rfl
  · exact ⟨⟨nofun, nofun⟩, fun _ _ => rfl⟩
  · exact (Runs.meets_const _ (fun input => ∀ token ∈ Input.tokens input, token ∈ tokens) _
      inputs).mpr named

end Runs

namespace Sample

/-- A pair is created and address 3 gives it 1000 and 2000. -/
def opening : List (Input Unit Solidity.Sample.Ledger) :=
  [.call (ProtonChain.Sample.address 9)
      (.createPair (ProtonChain.Sample.address 1) (ProtonChain.Sample.address 2)),
    .call (ProtonChain.Sample.address 3)
      (.addLiquidity (ProtonChain.Sample.address 1) (ProtonChain.Sample.address 2) 1000 2000 0)]

end Sample

theorem pools_agree_sample :
    Runs.Visits (step Contracts.ProtonDEX.Sample.host Solidity.Sample.env)
      (SamePools Solidity.Sample.env Solidity.ProtonDEX.Sample.tokens)
      (deployed 30 (ProtonChain.Sample.address 7) (ProtonChain.Sample.address 9)
        (ProtonChain.Sample.address 7) () Solidity.Sample.ledger) Sample.opening := by
  refine (pools_agree_iff Contracts.ProtonDEX.Sample.host Solidity.Sample.env
    Solidity.ProtonDEX.Sample.tokens Solidity.ProtonDEX.Sample.pairsApart 30
    (ProtonChain.Sample.address 7) (ProtonChain.Sample.address 9) (ProtonChain.Sample.address 7) ()
    Solidity.Sample.ledger Sample.opening ?_).mpr ⟨trivial, .inr ?_, trivial⟩
  · intro input member
    rcases List.mem_cons.mp member with rfl | later
    · exact Solidity.ProtonDEX.Sample.inside
    · rw [List.mem_singleton.mp later]
      exact Solidity.ProtonDEX.Sample.inside
  · refine iff_of_true ?_ ?_
    · change Transactions.Succeeds _ _ _
      decide +kernel
    · change Transactions.Succeeds _ _ _
      decide +kernel

end Exchanges

end ProtonChain
