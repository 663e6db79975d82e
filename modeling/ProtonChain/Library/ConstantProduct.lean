import Mathlib.Tactic.Ring
import Mathlib.Tactic.Linarith
import ProtonChain.Library.Checked

/-! Pools that keep the product of two reserves, with shares of the pool.

Quotes are rounded down. The laws say in which direction the rounding goes: what a trade,
a deposit or a withdrawal leaves to each share is never less than before.
-/

set_option autoImplicit false

namespace ConstantProduct

def output (input reserveIn reserveOut : Nat) : Nat := input * reserveOut / (reserveIn + input)

/-- The part of a reserve that belongs to some of the shares. -/
def portion (shares total reserve : Nat) : Nat := shares * reserve / total

/-! ## Trades -/

section Trade
variable {input reserveIn reserveOut : Nat}

theorem output_mul_le : output input reserveIn reserveOut * (reserveIn + input) ≤
    input * reserveOut := Nat.div_mul_le_self _ _

theorem output_lt (positive : 0 < reserveIn) (positive' : 0 < reserveOut) :
    output input reserveIn reserveOut < reserveOut := by
  apply Nat.div_lt_of_lt_mul
  exact Nat.mul_lt_mul_of_pos_right (Nat.lt_add_of_pos_left positive) positive'

/-- A trade that pays in at least its input does not lower the product. -/
theorem product_le_trade {amountIn reserveOut' : Nat} (paid : input ≤ amountIn)
    (left : reserveOut' + output input reserveIn reserveOut = reserveOut) :
    reserveIn * reserveOut ≤ (reserveIn + amountIn) * reserveOut' := by
  have rounded : output input reserveIn reserveOut * (reserveIn + input) ≤ input * reserveOut :=
    output_mul_le
  -- the product is kept by the exact input, and paying more only adds to it
  have exact : reserveIn * reserveOut ≤ (reserveIn + input) * reserveOut' := by
    generalize output input reserveIn reserveOut = out at *
    subst left
    nlinarith only [rounded]
  exact exact.trans (Nat.mul_le_mul_right _ (Nat.add_le_add_left paid _))

end Trade

/-! ## Trades on words -/

section Words
open Checked
variable {E : Type} {w : Nat}

/-- An input without its fee, which is given in parts of the denominator. -/
def charge (fee denominator amountIn : BitVec w) : Outcome E (BitVec w) := do
  let kept ← sub denominator fee
  mulDiv amountIn kept denominator

def quote (input reserveIn reserveOut : BitVec w) : Outcome E (BitVec w) := do
  let numerator ← mul input reserveOut
  let denominator ← add reserveIn input
  div numerator denominator

@[simp] theorem charge_eq_ok {fee denominator amountIn result : BitVec w} :
    (charge fee denominator amountIn : Outcome E _) = .ok result ↔
      fee.toNat ≤ denominator.toNat ∧
        amountIn.toNat * (denominator.toNat - fee.toNat) < 2 ^ w ∧ 0 < denominator.toNat ∧
        result.toNat =
          amountIn.toNat * (denominator.toNat - fee.toNat) / denominator.toNat := by
  simp only [charge, bind_eq_ok, sub_eq_ok_iff_le, mulDiv_eq_ok]
  constructor
  · rintro ⟨kept, ⟨below, rfl⟩, rest⟩
    rw [BitVec.toNat_sub_of_le (BitVec.le_def.mpr below)] at rest
    exact ⟨below, rest⟩
  · rintro ⟨below, rest⟩
    refine ⟨_, ⟨below, rfl⟩, ?_⟩
    rw [BitVec.toNat_sub_of_le (BitVec.le_def.mpr below)]
    exact rest

@[simp] theorem quote_eq_ok {input reserveIn reserveOut result : BitVec w} :
    (quote input reserveIn reserveOut : Outcome E _) = .ok result ↔
      input.toNat * reserveOut.toNat < 2 ^ w ∧ reserveIn.toNat + input.toNat < 2 ^ w ∧
        0 < reserveIn.toNat + input.toNat ∧
        result.toNat = output input.toNat reserveIn.toNat reserveOut.toNat := by
  simp only [quote, bind_eq_ok, add_eq_ok_iff_fits, div_eq_ok]
  constructor
  · rintro ⟨numerator, product, _, ⟨fits, rfl⟩, positive, quotient⟩
    rw [mul_eq_ok] at product
    rw [BitVec.toNat_add_of_lt fits] at positive quotient
    rw [product] at quotient
    exact ⟨product ▸ numerator.isLt, fits, positive, quotient⟩
  · rintro ⟨wide, fits, positive, quotient⟩
    have product := BitVec.toNat_mul_of_lt wide
    rw [← BitVec.toNat_add_of_lt fits] at positive
    refine ⟨_, mul_eq_ok.mpr product, _, ⟨fits, rfl⟩, positive, ?_⟩
    rw [product, BitVec.toNat_add_of_lt fits]
    exact quotient

theorem charge_le {fee denominator amountIn result : BitVec w}
    (charged : (charge fee denominator amountIn : Outcome E _) = .ok result) :
    result.toNat ≤ amountIn.toNat := by
  obtain ⟨-, -, -, exact⟩ := charge_eq_ok.mp charged
  rw [exact]
  apply Nat.div_le_of_le_mul
  rw [Nat.mul_comm]
  exact Nat.mul_le_mul_right _ (Nat.sub_le _ _)

/-- Where nothing overflows there is an input without its fee. -/
theorem charge_exists {fee denominator amountIn : BitVec w} (rate : fee.toNat ≤ denominator.toNat)
    (fits : amountIn.toNat * (denominator.toNat - fee.toNat) < 2 ^ w)
    (positive : 0 < denominator.toNat) :
    ∃ result : BitVec w, (charge fee denominator amountIn : Outcome E _) = .ok result := by
  have small : amountIn.toNat * (denominator.toNat - fee.toNat) / denominator.toNat < 2 ^ w :=
    Nat.lt_of_le_of_lt (Nat.div_le_self _ _) fits
  exact ⟨BitVec.ofNatLT _ small, charge_eq_ok.mpr ⟨rate, fits, positive, rfl⟩⟩

theorem quote_exists {input reserveIn reserveOut : BitVec w}
    (wide : input.toNat * reserveOut.toNat < 2 ^ w)
    (fits : reserveIn.toNat + input.toNat < 2 ^ w) (positive : 0 < reserveIn.toNat) :
    ∃ result : BitVec w, (quote input reserveIn reserveOut : Outcome E _) = .ok result := by
  have small : output input.toNat reserveIn.toNat reserveOut.toNat < 2 ^ w :=
    Nat.lt_of_le_of_lt (Nat.div_le_self _ _) wide
  exact ⟨BitVec.ofNatLT _ small, quote_eq_ok.mpr ⟨wide, fits, by omega, rfl⟩⟩

theorem avoids_charge (fee : BitVec w) {denominator : BitVec w}
    (positive : 0 < denominator.toNat) (amountIn : BitVec w) :
    Avoids .divisionByZero (charge fee denominator amountIn : Outcome E _) :=
  (avoids_sub _ _).bind fun _ _ => avoids_mulDiv _ _ positive

theorem avoids_quote {reserveIn : BitVec w} (filled : 0 < reserveIn.toNat)
    (input reserveOut : BitVec w) :
    Avoids .divisionByZero (quote input reserveIn reserveOut : Outcome E _) := by
  refine (avoids_mul _ _).bind fun numerator _ => (avoids_add _ _).bind fun denominator total => ?_
  rw [add_eq_ok] at total
  exact avoids_div _ (by omega)

end Words

/-! ## Shares -/

section Shares
variable {shares total reserve : Nat}

theorem portion_mul_le : portion shares total reserve * total ≤ shares * reserve :=
  Nat.div_mul_le_self _ _

theorem portion_lt (partly : shares < total) (positive : 0 < reserve) :
    portion shares total reserve < reserve :=
  Nat.div_lt_of_lt_mul (Nat.mul_lt_mul_of_pos_right partly positive)

theorem portion_le (part : shares ≤ total) : portion shares total reserve ≤ reserve :=
  Nat.div_le_of_le_mul (Nat.mul_le_mul_right reserve part)

theorem reserve_mul_le_deposit {amount : Nat} (quoted : shares ≤ amount * total / reserve) :
    reserve * (total + shares) ≤ (reserve + amount) * total := by
  have rounded : shares * reserve ≤ amount * total :=
    (Nat.mul_le_mul_right reserve quoted).trans (Nat.div_mul_le_self _ _)
  nlinarith only [rounded]

/-- Shares minted for no more than the quote of a deposit are worth no more than it. -/
theorem portion_le_deposit {amount : Nat} (quoted : shares ≤ amount * total / reserve) :
    portion shares (total + shares) (reserve + amount) ≤ amount := by
  have rounded : shares * reserve ≤ amount * total :=
    (Nat.mul_le_mul_right reserve quoted).trans (Nat.div_mul_le_self _ _)
  -- the deposit itself adds as much to both sides of the bound
  have bound : shares * (reserve + amount) ≤ (total + shares) * amount := by
    rw [Nat.mul_add, Nat.add_mul, Nat.mul_comm total amount]
    exact Nat.add_le_add_right rounded _
  exact Nat.div_le_of_le_mul bound

theorem reserve_mul_le_withdrawal {reserve' total' : Nat}
    (left : reserve' + portion shares total reserve = reserve) (burned : total' + shares = total) :
    reserve * total' ≤ reserve' * total := by
  have rounded : portion shares total reserve * total ≤ shares * reserve := portion_mul_le
  -- the rounded portion is all that is known of what leaves
  generalize portion shares total reserve = out at *
  subst left
  subst burned
  nlinarith only [rounded]

/-- Reserves that fall no faster than the shares keep the product for each squared share. -/
theorem product_le_of_shares {reserveA reserveB reserveA' reserveB' total total' : Nat}
    (first : reserveA * total' ≤ reserveA' * total)
    (second : reserveB * total' ≤ reserveB' * total) :
    reserveA * reserveB * total' ^ 2 ≤ reserveA' * reserveB' * total ^ 2 :=
  calc reserveA * reserveB * total' ^ 2
      = (reserveA * total') * (reserveB * total') := by ring
    _ ≤ (reserveA' * total) * (reserveB' * total) := Nat.mul_le_mul first second
    _ = reserveA' * reserveB' * total ^ 2 := by ring

end Shares

/-! ## Pools -/

structure Pool where
  reserveA : Nat
  reserveB : Nat
  shares : Nat

namespace Pool

def product (pool : Pool) : Nat := pool.reserveA * pool.reserveB

/-- The same pool with its reserves named the other way round. -/
def mirror (pool : Pool) : Pool := ⟨pool.reserveB, pool.reserveA, pool.shares⟩

/-- A pool with shares has something in both reserves. -/
def Funded (pool : Pool) : Prop := 0 < pool.shares → 0 < pool.reserveA ∧ 0 < pool.reserveB

/-- The product for each squared share does not fall. -/
def Keeps (before after : Pool) : Prop :=
  before.product * after.shares ^ 2 ≤ after.product * before.shares ^ 2

/-- Amounts join both reserves. A first deposit mints only for two amounts, a later one
no more than either of them is worth. -/
structure Deposit (before after : Pool) (amountA amountB minted : Nat) : Prop where
  reserveA : after.reserveA = before.reserveA + amountA
  reserveB : after.reserveB = before.reserveB + amountB
  shares : after.shares = before.shares + minted
  first : before.shares = 0 → 0 < minted → 0 < amountA ∧ 0 < amountB
  quotedA : 0 < before.shares → minted ≤ amountA * before.shares / before.reserveA
  quotedB : 0 < before.shares → minted ≤ amountB * before.shares / before.reserveB

/-- Shares are burned for their portions. -/
structure Withdrawal (before after : Pool) (burned : Nat) : Prop where
  reserveA : after.reserveA + portion burned before.shares before.reserveA = before.reserveA
  reserveB : after.reserveB + portion burned before.shares before.reserveB = before.reserveB
  shares : after.shares + burned = before.shares

structure Trade (before after : Pool) (amountIn input : Nat) : Prop where
  paid : input ≤ amountIn
  reserveA : after.reserveA = before.reserveA + amountIn
  reserveB : after.reserveB + output input before.reserveA before.reserveB = before.reserveB
  shares : after.shares = before.shares

section Laws
variable {before after : Pool} {amountA amountB minted burned amountIn input : Nat}

theorem Deposit.keeps (deposit : Deposit before after amountA amountB minted)
    (positive : 0 < before.shares) : Keeps before after := by
  rw [Keeps, product, product, deposit.reserveA, deposit.reserveB, deposit.shares]
  exact product_le_of_shares (reserve_mul_le_deposit (deposit.quotedA positive))
    (reserve_mul_le_deposit (deposit.quotedB positive))

/-- The shares of a later deposit are worth no more than what joined with them. -/
theorem Deposit.portion_le (deposit : Deposit before after amountA amountB minted)
    (positive : 0 < before.shares) :
    portion minted after.shares after.reserveA ≤ amountA ∧
      portion minted after.shares after.reserveB ≤ amountB := by
  rw [deposit.reserveA, deposit.reserveB, deposit.shares]
  constructor
  · exact portion_le_deposit (deposit.quotedA positive)
  · exact portion_le_deposit (deposit.quotedB positive)

theorem Withdrawal.keeps (withdrawal : Withdrawal before after burned) : Keeps before after :=
  product_le_of_shares (reserve_mul_le_withdrawal withdrawal.reserveA withdrawal.shares)
    (reserve_mul_le_withdrawal withdrawal.reserveB withdrawal.shares)

theorem Trade.product_le (trade : Trade before after amountIn input) :
    before.product ≤ after.product := by
  rw [product, product, trade.reserveA]
  exact product_le_trade trade.paid trade.reserveB

theorem Trade.keeps (trade : Trade before after amountIn input) : Keeps before after := by
  rw [Keeps, trade.shares]
  exact Nat.mul_le_mul_right _ trade.product_le

theorem Keeps.of_mirror (keeps : Keeps before.mirror after.mirror) : Keeps before after := by
  rw [Keeps, product, product, Nat.mul_comm before.reserveA, Nat.mul_comm after.reserveA]
  exact keeps

theorem product_mirror (pool : Pool) : pool.mirror.product = pool.product :=
  Nat.mul_comm pool.reserveB pool.reserveA

theorem Funded.of_mirror {pool : Pool} (funded : pool.mirror.Funded) : pool.Funded :=
  fun positive => (funded positive).symm

theorem Deposit.funded (deposit : Deposit before after amountA amountB minted)
    (funded : before.Funded) : after.Funded := by
  intro positive
  rw [deposit.shares] at positive
  rw [deposit.reserveA, deposit.reserveB]
  rcases Nat.eq_zero_or_pos before.shares with zero | shared
  · obtain ⟨first, second⟩ := deposit.first zero (by omega)
    omega
  · obtain ⟨first, second⟩ := funded shared
    omega

theorem Withdrawal.funded (withdrawal : Withdrawal before after burned)
    (funded : before.Funded) : after.Funded := by
  intro positive
  have shares := withdrawal.shares
  obtain ⟨first, second⟩ := funded (by omega)
  -- some shares stay, and with them some of each reserve
  have partly : burned < before.shares := by omega
  have below := portion_lt partly first
  have below' := portion_lt partly second
  have left := withdrawal.reserveA
  have left' := withdrawal.reserveB
  omega

theorem Trade.funded (trade : Trade before after amountIn input) (funded : before.Funded) :
    after.Funded := by
  intro positive
  rw [trade.shares] at positive
  obtain ⟨first, second⟩ := funded positive
  have below : output input before.reserveA before.reserveB < before.reserveB :=
    output_lt first second
  have left := trade.reserveB
  rw [trade.reserveA]
  omega

/-- What can happen to a pool in one step. -/
inductive Move (before after : Pool) : Prop where
  | deposit (amountA amountB minted : Nat) (move : Deposit before after amountA amountB minted)
  | withdrawal (burned : Nat) (move : Withdrawal before after burned)
  | trade (amountIn input : Nat) (move : Trade before after amountIn input)
  | tradeBack (amountIn input : Nat) (move : Trade before.mirror after.mirror amountIn input)

theorem Move.funded (move : Move before after) (funded : before.Funded) : after.Funded := by
  cases move with
  | deposit amountA amountB minted move => exact move.funded funded
  | withdrawal burned move => exact move.funded funded
  | trade amountIn input move => exact move.funded funded
  | tradeBack amountIn input move =>
    exact (move.funded fun positive => (funded positive).symm).of_mirror

end Laws

end Pool

end ConstantProduct
