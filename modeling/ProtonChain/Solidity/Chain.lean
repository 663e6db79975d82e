import ProtonChain.Library.Checked
import ProtonChain.Types

/-! What a Solidity contract sees of the chain: addresses, the hash and the tokens.

Tokens are other contracts. They are known by what their calls do to balances; a call
that fails or answers `false` is `none`, as both make the caller revert.
-/

set_option autoImplicit false

namespace ProtonChain

/-! ## Addresses as numbers -/

namespace Address

/-- `address(0)`. -/
def zero : Address := ⟨List.Vector.replicate 20 0⟩

def bigEndian : Bytes → Nat
  | [] => 0
  | byte :: rest => byte.toNat * 256 ^ rest.length + bigEndian rest

/-- The number by which Solidity compares addresses. -/
def value (address : Address) : Nat := bigEndian address.asBytes.toList

theorem bigEndian_lt (bytes : Bytes) : bigEndian bytes < 256 ^ bytes.length := by
  induction bytes with
  | nil => exact Nat.one_pos
  | cons byte rest ih =>
    have digit : byte.toNat + 1 ≤ 256 := byte.toNat_lt
    have scaled := Nat.mul_le_mul_right (256 ^ rest.length) digit
    rw [bigEndian, List.length_cons, Nat.pow_succ']
    rw [Nat.add_mul, Nat.one_mul] at scaled
    omega

/-- On strings of one length the numbers are ordered as the strings are. -/
theorem bigEndian_lt_iff {first second : Bytes} (width : first.length = second.length) :
    bigEndian first < bigEndian second ↔ first < second := by
  induction first generalizing second with
  | nil =>
    obtain rfl := List.length_eq_zero_iff.mp width.symm
    simp
  | cons byte rest ih =>
    cases second with
    | nil => cases width
    | cons byte' rest' =>
      have widths : rest.length = rest'.length := Nat.succ.inj width
      have low := bigEndian_lt rest
      have low' := bigEndian_lt rest'
      rw [bigEndian, bigEndian, List.cons_lt_cons_iff, ← ih widths, UInt8.lt_iff_toNat_lt,
        ← UInt8.toNat_inj, widths]
      rw [widths] at low
      rcases Nat.lt_trichotomy byte.toNat byte'.toNat with less | same | more
      · -- the leading byte decides, as the rest stays below one of its units
        have scaled := Nat.mul_le_mul_right (256 ^ rest'.length) (Nat.succ_le_of_lt less)
        rw [Nat.succ_mul] at scaled
        exact iff_of_true (by omega) (.inl less)
      · rw [same]
        simp
      · have scaled := Nat.mul_le_mul_right (256 ^ rest'.length) (Nat.succ_le_of_lt more)
        rw [Nat.succ_mul] at scaled
        refine iff_of_false (by omega) ?_
        rintro (less | ⟨same, -⟩) <;> omega

theorem value_lt_iff (first second : Address) :
    first.value < second.value ↔ first.asBytes.toList < second.asBytes.toList :=
  bigEndian_lt_iff (by rw [List.Vector.toList_length, List.Vector.toList_length])

theorem bigEndian_inj {first second : Bytes} (width : first.length = second.length)
    (same : bigEndian first = bigEndian second) : first = second := by
  have notLess : ¬ first < second := by
    intro less
    have below := (bigEndian_lt_iff width).mpr less
    omega
  have notMore : ¬ second < first := by
    intro more
    have above := (bigEndian_lt_iff width.symm).mpr more
    omega
  exact List.le_antisymm notMore notLess

theorem value_injective : Function.Injective value := by
  intro first second same
  have widths : first.asBytes.toList.length = second.asBytes.toList.length := by
    rw [List.Vector.toList_length, List.Vector.toList_length]
  exact eq_of_bytes (bigEndian_inj widths same)

end Address

namespace Solidity

abbrev U256 := BitVec 256

/-! ## Tokens -/

/-- The calls of ERC-20 contracts, for every token address at once. -/
structure Erc20 (World : Type) where
  balanceOf : World → Address → Address → U256
  transfer : World → Address → Address → Address → U256 → Option World
  transferFrom : World → Address → Address → Address → Address → U256 → Option World

namespace Erc20

section Standard
variable {World : Type} (erc20 : Erc20 World)

/-- The amount has moved from sender to recipient, and nothing else has changed. What a
holder has sent and received is counted on the two sides, so the two may be one. -/
structure Moved (token sender recipient : Address) (amount : U256) (before after : World) :
    Prop where
  exact : ∀ holder,
    (erc20.balanceOf after token holder).toNat + (if holder = sender then amount.toNat else 0) =
      (erc20.balanceOf before token holder).toNat +
        if holder = recipient then amount.toNat else 0
  others : ∀ other holder, other ≠ token →
    erc20.balanceOf after other holder = erc20.balanceOf before other holder

/-- Transfers of the token move exactly the amount or revert. -/
structure Standard (token : Address) : Prop where
  transfer : ∀ before sender recipient amount after,
    erc20.transfer before token sender recipient amount = some after →
      erc20.Moved token sender recipient amount before after
  transferFrom : ∀ before spender owner recipient amount after,
    erc20.transferFrom before token spender owner recipient amount = some after →
      erc20.Moved token owner recipient amount before after

section Moved
variable {erc20} {token sender recipient : Address} {amount : U256} {before after : World}
  (moved : erc20.Moved token sender recipient amount before after) (holder other : Address)
include moved

theorem Moved.balance :
    (erc20.balanceOf after other holder).toNat +
        (if other = token ∧ holder = sender then amount.toNat else 0) =
      (erc20.balanceOf before other holder).toNat +
        if other = token ∧ holder = recipient then amount.toNat else 0 := by
  by_cases same : other = token
  · subst same
    simpa using moved.exact holder
  · rw [moved.others other holder same]
    simp [same]

/-- A holder who is not the sender. -/
theorem Moved.received (apart : holder ≠ sender) :
    (erc20.balanceOf after other holder).toNat =
      (erc20.balanceOf before other holder).toNat +
        if other = token ∧ holder = recipient then amount.toNat else 0 := by
  simpa [apart] using moved.balance holder other

/-- A holder who is not the recipient. -/
theorem Moved.sent (apart : holder ≠ recipient) :
    (erc20.balanceOf after other holder).toNat +
        (if other = token ∧ holder = sender then amount.toNat else 0) =
      (erc20.balanceOf before other holder).toNat := by
  simpa [apart] using moved.balance holder other

/-- Nobody loses more than the amount, and only of the token. -/
theorem Moved.loses :
    (erc20.balanceOf before other holder).toNat ≤
      (erc20.balanceOf after other holder).toNat +
        if other = token then amount.toNat else 0 := by
  have balance := moved.balance holder other
  by_cases same : other = token
  · simp only [same, true_and, if_true] at balance ⊢
    split at balance <;> split at balance <;> omega
  · simp only [same, false_and, if_false] at balance ⊢
    omega

end Moved

end Standard

end Erc20

structure Env (World : Type) where
  self : Address
  keccak256 : Bytes → List.Vector UInt8 32
  erc20 : Erc20 World

/-! ## Answers of other contracts -/

/-- `abi.decode(result, (bool))`, which reverts without a reason where there is no such word. -/
def decodeBool {E : Type} (result : Bytes) : Checked.Outcome E Bool := do
  Checked.ensure (32 ≤ result.length) (.reason "")
  let word := Address.bigEndian (result.take 32)
  Checked.ensure (word ≤ 1) (.reason "")
  return decide (word = 1)

/-- What a static call answers: it may fail, or return bytes that are no `bool`. -/
def staticAnswer {E : Type} : Option Bytes → Checked.Outcome E Bool
  | none => .ok false
  | some result => decodeBool result

/-- The word that is read as `true`. -/
def trueWord : Bytes := List.replicate 31 0 ++ [1]

theorem staticAnswer_trueWord {E : Type} :
    (staticAnswer (some trueWord) : Checked.Outcome E Bool) = .ok true := by
  have number : Address.bigEndian (trueWord.take 32) = 1 := by decide
  have width : trueWord.length = 32 := rfl
  simp [staticAnswer, decodeBool, number, width, Checked.ensure, Functor.map, Except.map]

/-! ## A concrete token contract -/

namespace Sample

structure Ledger where
  balances : HashMap (Address × Address) U256
  allowances : HashMap (Address × Address × Address) U256

namespace Ledger

def balanceOf (ledger : Ledger) (token holder : Address) : U256 :=
  (ledger.balances.lookup (token, holder)).getD 0

def setBalance (ledger : Ledger) (token holder : Address) (balance : U256) : Ledger :=
  { ledger with balances := ledger.balances.insert (token, holder) balance }

/-- A holder cannot send more than the balance; a balance does not pass its word. -/
def transfer (ledger : Ledger) (token sender recipient : Address) (amount : U256) :
    Option Ledger :=
  if amount.toNat ≤ (ledger.balanceOf token sender).toNat then
    let debited := ledger.setBalance token sender (ledger.balanceOf token sender - amount)
    if (debited.balanceOf token recipient).toNat + amount.toNat < 2 ^ 256 then
      some (debited.setBalance token recipient (debited.balanceOf token recipient + amount))
    else none
  else none

/-- The allowance is spent before the amount moves. -/
def transferFrom (ledger : Ledger) (token spender owner recipient : Address) (amount : U256) :
    Option Ledger :=
  let allowance := (ledger.allowances.lookup (token, owner, spender)).getD 0
  if amount.toNat ≤ allowance.toNat then
    transfer { ledger with
      allowances := ledger.allowances.insert (token, owner, spender) (allowance - amount) }
      token owner recipient amount
  else none

theorem balanceOf_setBalance (ledger : Ledger) (token holder : Address) (balance : U256)
    (token' holder' : Address) :
    (ledger.setBalance token holder balance).balanceOf token' holder' =
      if token' = token ∧ holder' = holder then balance else ledger.balanceOf token' holder' := by
  by_cases same : (token', holder') = (token, holder)
  · obtain ⟨rfl, rfl⟩ := Prod.mk.inj same
    simp [balanceOf, setBalance]
  · rw [balanceOf, setBalance, Finmap.lookup_insert_of_ne _ same, if_neg (by simpa using same)]
    rfl

end Ledger

def erc20 : Erc20 Ledger := ⟨Ledger.balanceOf, Ledger.transfer, Ledger.transferFrom⟩

theorem transfer_moved {before after : Ledger} {token sender recipient : Address} {amount : U256}
    (done : before.transfer token sender recipient amount = some after) :
    erc20.Moved token sender recipient amount before after := by
  simp only [Ledger.transfer, Option.ite_none_right_eq_some] at done
  obtain ⟨covered, fits, same⟩ := done
  obtain rfl := Option.some.inj same
  have debit := BitVec.toNat_sub_of_le (x := before.balanceOf token sender) (y := amount) covered
  constructor
  · intro holder
    simp only [erc20, Ledger.balanceOf_setBalance, true_and] at fits ⊢
    by_cases received : holder = recipient
    · subst received
      by_cases sent : holder = sender
      · -- the two are one, and the credit undoes the debit
        subst sent
        simp only [if_true] at fits ⊢
        rw [BitVec.toNat_add_of_lt fits, debit]
        omega
      · simp only [sent, if_true, if_false] at fits ⊢
        rw [BitVec.toNat_add_of_lt fits]
        omega
    · simp only [received, if_false]
      by_cases sent : holder = sender
      · subst sent
        simp only [if_true]
        omega
      · simp [sent]
  · intro other holder apart
    simp [erc20, Ledger.balanceOf_setBalance, apart]

theorem erc20_standard (token : Address) : erc20.Standard token where
  transfer _ _ _ _ _ done := transfer_moved done
  transferFrom before spender owner recipient amount after done := by
    simp only [erc20, Ledger.transferFrom, Option.ite_none_right_eq_some] at done
    exact ⟨(transfer_moved done.2).exact, (transfer_moved done.2).others⟩

end Sample

end Solidity

end ProtonChain
