import ProtonChain.Contracts.DexReserves
import ProtonChain.Solidity.DexPools

/-! The quotes of the two exchanges.

Both price an input by the same rule, but one of them always takes the first reserve of the
pair for the reserve of the input.
-/

set_option autoImplicit false

namespace ProtonChain.Contracts.ProtonDEX

open Checked ConstantProduct

/-- An input without its fee, rounded down. -/
def afterFee (fees amountIn : Nat) : Nat := amountIn * (10000 - fees) / 10000

section Quotes
variable {World : Type} (env : Solidity.Env World) (rust : ProtonDEX)
  (solidity : Solidity.ProtonDEX) (tokenIn tokenOut : Address)

/-- The two exchanges charge one fee and keep one state of the pair, with both reserves
filled. -/
structure SamePair (pair : TradingPair) : Prop where
  apart : tokenIn ≠ tokenOut
  found : rust.pairs.lookup (sortPair tokenIn tokenOut) = some pair
  created : (solidity.pair (Solidity.ProtonDEX.hashOf env tokenIn tokenOut)).tokenA ≠
    Address.zero
  reserveA : (solidity.pair (Solidity.ProtonDEX.hashOf env tokenIn tokenOut)).reserveA.toNat =
    pair.reserveA.toNat
  reserveB : (solidity.pair (Solidity.ProtonDEX.hashOf env tokenIn tokenOut)).reserveB.toNat =
    pair.reserveB.toNat
  filledA : 0 < pair.reserveA.toNat
  filledB : 0 < pair.reserveB.toNat
  fees : solidity.tradingFee.toNat = rust.fees.toNat
  rate : rust.fees.toNat ≤ 10000

def SameQuote (amountIn : U128) : Prop :=
  ∃ quote quote', calculateSwapAmount rust tokenIn tokenOut amountIn = .ok quote ∧
    Solidity.ProtonDEX.calculateSwapAmount env solidity tokenIn tokenOut
      (amountIn.setWidth 256) = .ok quote' ∧ quote.toNat = quote'.toNat

variable {env rust solidity tokenIn tokenOut}

theorem sorted_eq_sortPair (a b : Address) : Solidity.ProtonDEX.sorted a b = sortPair a b := by
  simp only [Solidity.ProtonDEX.sorted, sortPair, Address.value_lt_iff]

theorem calculateSwapAmount_iff {pair : TradingPair}
    (same : SamePair env rust solidity tokenIn tokenOut pair) {amountIn : U128}
    (charged : amountIn.toNat * (10000 - rust.fees.toNat) < 2 ^ 128)
    (priced : afterFee rust.fees.toNat amountIn.toNat * pair.reserveB.toNat < 2 ^ 128)
    (amount : Nat) :
    (∃ quote, calculateSwapAmount rust tokenIn tokenOut amountIn = .ok quote ∧
        quote.toNat = amount) ↔
      pair.reserveA.toNat + afterFee rust.fees.toNat amountIn.toNat < 2 ^ 128 ∧
        amount = output (afterFee rust.fees.toNat amountIn.toNat) pair.reserveA.toNat
          pair.reserveB.toNat := by
  have fees : (rust.fees.setWidth 128).toNat = rust.fees.toNat :=
    BitVec.toNat_setWidth_of_le (by decide)
  have rate : (rust.fees.setWidth 128).toNat ≤ (10000 : U128).toNat := fees.symm ▸ same.rate
  obtain ⟨input, charge⟩ := @charge_exists DexPanic _ _ _ amountIn rate
    (by rw [fees]; exact charged) (by decide)
  have value : input.toNat = afterFee rust.fees.toNat amountIn.toNat := by
    rw [(charge_eq_ok.mp charge).2.2.2, fees]
    rfl
  simp only [calculateSwapAmount, same.found, unwrap, bind_eq_ok, Except.ok.injEq, exists_eq_left',
    charge, quote_eq_ok, value, priced, true_and]
  constructor
  · rintro ⟨quote, ⟨fits, -, exact⟩, rfl⟩
    exact ⟨fits, exact⟩
  · rintro ⟨fits, rfl⟩
    have positive := same.filledA
    obtain ⟨quote, answered⟩ :=
      quote_exists (E := DexPanic) (value ▸ priced) (value ▸ fits) positive
    obtain ⟨-, -, -, exact⟩ := quote_eq_ok.mp answered
    exact ⟨quote, ⟨fits, by omega, value ▸ exact⟩, value ▸ exact⟩

theorem solidity_calculateSwapAmount {pair : TradingPair}
    (same : SamePair env rust solidity tokenIn tokenOut pair) {amountIn : U128}
    (charged : amountIn.toNat * (10000 - rust.fees.toNat) < 2 ^ 128) :
    ∃ quote, Solidity.ProtonDEX.calculateSwapAmount env solidity tokenIn tokenOut
        (amountIn.setWidth 256) = .ok quote ∧
      quote.toNat =
        if sortPair tokenIn tokenOut = (tokenIn, tokenOut) then
          output (afterFee rust.fees.toNat amountIn.toNat) pair.reserveA.toNat
            pair.reserveB.toNat
        else
          output (afterFee rust.fees.toNat amountIn.toNat) pair.reserveB.toNat
            pair.reserveA.toNat := by
  have wide : (amountIn.setWidth 256).toNat = amountIn.toNat :=
    BitVec.toNat_setWidth_of_le (by decide)
  have denominator : Solidity.ProtonDEX.feeDenominator.toNat = 10000 := rfl
  obtain ⟨input, charge⟩ := @charge_exists Solidity.DexError _ solidity.tradingFee
    Solidity.ProtonDEX.feeDenominator (amountIn.setWidth 256)
    (by rw [denominator, same.fees]; exact same.rate)
    (by rw [wide, denominator, same.fees]; exact Nat.lt_trans charged (by decide)) (by decide)
  have value : input.toNat = afterFee rust.fees.toNat amountIn.toNat := by
    rw [(charge_eq_ok.mp charge).2.2.2, wide, denominator, same.fees]
    rfl
  have small : input.toNat < 2 ^ 128 := by
    rw [value]
    exact Nat.lt_of_le_of_lt (Nat.div_le_self _ _) charged
  -- products and sums of 128-bit values fit 256 bits
  have answers : ∀ reserveIn reserveOut : Solidity.U256, reserveIn.toNat < 2 ^ 128 →
      reserveOut.toNat < 2 ^ 128 → 0 < reserveIn.toNat →
        ∃ quote : Solidity.U256,
          (ConstantProduct.quote input reserveIn reserveOut : Outcome Solidity.DexError _) =
            .ok quote := by
    intro reserveIn reserveOut smallIn smallOut positive
    refine quote_exists ?_ (by omega) positive
    exact Nat.lt_of_lt_of_eq (Nat.mul_lt_mul'' small smallOut) (by decide)
  have smallA : (solidity.pair (Solidity.ProtonDEX.hashOf env tokenIn tokenOut)).reserveA.toNat <
      2 ^ 128 := same.reserveA ▸ pair.reserveA.isLt
  have smallB : (solidity.pair (Solidity.ProtonDEX.hashOf env tokenIn tokenOut)).reserveB.toNat <
      2 ^ 128 := same.reserveB ▸ pair.reserveB.isLt
  have first : tokenIn = (Solidity.ProtonDEX.sorted tokenIn tokenOut).1 ↔
      sortPair tokenIn tokenOut = (tokenIn, tokenOut) := by
    rw [sorted_eq_sortPair]
    rcases sortPair_eq tokenIn tokenOut with order | order
    · simp [order]
    · simp [order, same.apart, same.apart.symm]
  rw [Solidity.ProtonDEX.calculateSwapAmount_of_found env same.apart same.created charge]
  by_cases forward : sortPair tokenIn tokenOut = (tokenIn, tokenOut)
  · obtain ⟨quote, answered⟩ := answers _ _ smallA smallB (same.reserveA ▸ same.filledA)
    rw [if_pos (first.mpr forward), if_pos forward]
    refine ⟨quote, answered, ?_⟩
    rw [(quote_eq_ok.mp answered).2.2.2, value, same.reserveA, same.reserveB]
  · obtain ⟨quote, answered⟩ := answers _ _ smallB smallA (same.reserveB ▸ same.filledB)
    rw [if_neg (mt first.mp forward), if_neg forward]
    refine ⟨quote, answered, ?_⟩
    rw [(quote_eq_ok.mp answered).2.2.2, value, same.reserveA, same.reserveB]

end Quotes

/-- For every pair state, fee, direction and input without an overflowing product: the two
exchanges return one quote exactly if the first reserve and the input fit a word of the first
exchange, and the direction is that of the sorted pair or makes no difference. -/
theorem sameQuote_iff {World : Type} {env : Solidity.Env World} {rust : ProtonDEX}
    {solidity : Solidity.ProtonDEX} {tokenIn tokenOut : Address} {pair : TradingPair}
    (same : SamePair env rust solidity tokenIn tokenOut pair) {amountIn : U128}
    (charged : amountIn.toNat * (10000 - rust.fees.toNat) < 2 ^ 128)
    (priced : afterFee rust.fees.toNat amountIn.toNat * pair.reserveB.toNat < 2 ^ 128) :
    SameQuote env rust solidity tokenIn tokenOut amountIn ↔
      pair.reserveA.toNat + afterFee rust.fees.toNat amountIn.toNat < 2 ^ 128 ∧
        (sortPair tokenIn tokenOut = (tokenIn, tokenOut) ∨
          output (afterFee rust.fees.toNat amountIn.toNat) pair.reserveA.toNat
              pair.reserveB.toNat =
            output (afterFee rust.fees.toNat amountIn.toNat) pair.reserveB.toNat
              pair.reserveA.toNat) := by
  obtain ⟨quote', answered, value⟩ := solidity_calculateSwapAmount same charged
  have one : SameQuote env rust solidity tokenIn tokenOut amountIn ↔
      ∃ quote, calculateSwapAmount rust tokenIn tokenOut amountIn = .ok quote ∧
        quote.toNat = quote'.toNat := by
    simp only [SameQuote, answered, Except.ok.injEq, exists_eq_left', exists_and_left]
  rw [one, calculateSwapAmount_iff same charged priced, value]
  by_cases forward : sortPair tokenIn tokenOut = (tokenIn, tokenOut)
  · simp [forward]
  · simp only [forward, if_false, false_or]
    rw [eq_comm (a := output _ pair.reserveB.toNat _)]

namespace Sample

/-- The pair of tokens 1 and 2 holds 1000 and 2000. -/
def pair : TradingPair := ⟨Sample.address 1, Sample.address 2, 1000, 2000, 1414, []⟩

def rust : ProtonDEX :=
  { ProtonDEX.new 30 (Sample.address 7) with
    pairs := (∅ : HashMap (Address × Address) TradingPair).insert
      (Sample.address 1, Sample.address 2) pair }

def solidity : Solidity.ProtonDEX :=
  (Solidity.ProtonDEX.new (Sample.address 9) (Sample.address 7)).setPair
    (Solidity.ProtonDEX.hashOf Solidity.Sample.env (Sample.address 1) (Sample.address 2))
    ⟨Sample.address 1, Sample.address 2, 1000, 2000, 1414, 0, true⟩

theorem samePair : SamePair Solidity.Sample.env rust solidity (Sample.address 1)
    (Sample.address 2) pair := by
  constructor <;> decide +kernel

theorem samePair_reversed : SamePair Solidity.Sample.env rust solidity (Sample.address 2)
    (Sample.address 1) pair := by
  constructor <;> decide +kernel

end Sample

theorem sameQuote_sample :
    SameQuote Solidity.Sample.env Sample.rust Sample.solidity (Sample.address 1)
      (Sample.address 2) 100 :=
  (sameQuote_iff Sample.samePair (by decide) (by decide)).mpr ⟨by decide, .inl (by decide)⟩

/-- For 100 of token 2 the first exchange quotes 180 of token 1, the other 47. -/
theorem reversed_quotes_differ :
    SamePair Solidity.Sample.env Sample.rust Sample.solidity (Sample.address 2)
        (Sample.address 1) Sample.pair ∧
      (100 : U128).toNat * (10000 - Sample.rust.fees.toNat) < 2 ^ 128 ∧
      afterFee Sample.rust.fees.toNat 100 * Sample.pair.reserveB.toNat < 2 ^ 128 ∧
      ¬ SameQuote Solidity.Sample.env Sample.rust Sample.solidity (Sample.address 2)
        (Sample.address 1) 100 := by
  refine ⟨Sample.samePair_reversed, by decide, by decide, ?_⟩
  rintro ⟨quote, quote', first, second, same⟩
  have rust : calculateSwapAmount Sample.rust (Sample.address 2) (Sample.address 1) 100 =
      .ok 180 := by decide +kernel
  have solidity : Solidity.ProtonDEX.calculateSwapAmount Solidity.Sample.env Sample.solidity
      (Sample.address 2) (Sample.address 1) ((100 : U128).setWidth 256) = .ok 47 := by
    decide +kernel
  obtain rfl := Except.ok.inj (rust.symm.trans first)
  obtain rfl := Except.ok.inj (solidity.symm.trans second)
  exact absurd same (by decide)

end ProtonChain.Contracts.ProtonDEX
