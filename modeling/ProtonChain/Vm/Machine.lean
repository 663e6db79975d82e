import ProtonChain.Types
import ProtonChain.Library.FiniteMap

/-! Transaction execution of the virtual machine, on one state held by one machine.

Every transaction type updates the state and builds its change map by separate
code. Failed executions return an empty change map and the machine they were
given.
-/

set_option autoImplicit false

namespace ProtonChain.Vm

structure LogEntry where
  address : Address
  topics : List Hash
  data : Bytes
  deriving DecidableEq

structure AccountChange where
  balanceDelta : I128
  nonceDelta : I64
  storageChanges : HashMap Hash Bytes
  code : Option Bytes
  deriving DecidableEq

structure ExecutionResult where
  success : Bool
  gasUsed : U64
  returnData : Bytes
  logs : List LogEntry
  stateChanges : HashMap Address AccountChange
  error : Option String
  deriving DecidableEq

namespace ExecutionResult

def failure (gasUsed : U64) (error : String) : ExecutionResult where
  success := false
  gasUsed := gasUsed
  returnData := []
  logs := []
  stateChanges := ∅
  error := some error

def completed (gasUsed : U64) (returnData : Bytes)
    (stateChanges : HashMap Address AccountChange) : ExecutionResult where
  success := true
  gasUsed := gasUsed
  returnData := returnData
  logs := []
  stateChanges := stateChanges
  error := none

end ExecutionResult

inductive VMType where
  | wasm
  | evm
  | native
  deriving DecidableEq, Repr

structure ContractCode where
  code : Bytes
  abi : Bytes
  vmType : VMType
  deriving DecidableEq

structure BlockContext where
  height : U64
  timestamp : U64
  coinbase : Address
  difficulty : U64
  gasLimit : U64
  deriving DecidableEq

structure VMState where
  accounts : HashMap Address Account
  contracts : HashMap Address ContractCode
  storage : HashMap (Address × Hash) Bytes
  blockContext : BlockContext
  deriving DecidableEq

/-- `accounts.get(address).cloned().unwrap_or_default()`. -/
def VMState.account (state : VMState) (address : Address) : Account :=
  (state.accounts.lookup address).getD Account.default

structure GasSchedule where
  baseTxCost : U64
  storageLoad : U64
  storageStore : U64
  memoryPage : U64
  callCost : U64
  logCost : U64
  wasmInstruction : U64
  evmInstruction : U64
  deriving DecidableEq

def GasSchedule.default : GasSchedule where
  baseTxCost := 21000
  storageLoad := 200
  storageStore := 20000
  memoryPage := 100
  callCost := 700
  logCost := 375
  wasmInstruction := 1
  evmInstruction := 1

structure ProtonVM where
  state : VMState
  gasSchedule : GasSchedule
  deriving DecidableEq

/-- The balance and nonce casts keep the bits, so both updates are wrapping additions. -/
def AccountChange.applyTo (change : AccountChange) (account : Account) : Account :=
  { account with
    balance := account.balance + change.balanceDelta
    nonce := account.nonce + change.nonceDelta }

theorem AccountChange.applyTo_comm (first second : AccountChange) (account : Account) :
    first.applyTo (second.applyTo account) = second.applyTo (first.applyTo account) := by
  simp only [applyTo, Account.mk.injEq, and_true]
  constructor
  · rw [BitVec.add_assoc, BitVec.add_comm second.nonceDelta, BitVec.add_assoc]
  · rw [BitVec.add_assoc, BitVec.add_comm second.balanceDelta, BitVec.add_assoc]

/-- The loop over the change map at the end of a transfer. -/
def applyChanges (changes : HashMap Address AccountChange) (accounts : HashMap Address Account) :
    HashMap Address Account :=
  FiniteMap.changeAll AccountChange.applyTo Account.default AccountChange.applyTo_comm
    changes accounts

/-- Value and gas, as the sender's balance is checked against them. -/
def totalCost (tx : Transaction) : U128 := tx.value + tx.gasCost

def receiverAddr (tx : Transaction) : Address := tx.receiver.getD tx.sender

def senderChange (tx : Transaction) : AccountChange where
  balanceDelta := -totalCost tx
  nonceDelta := 1
  storageChanges := ∅
  code := none

def receiverChange (tx : Transaction) : AccountChange where
  balanceDelta := tx.value
  nonceDelta := 0
  storageChanges := ∅
  code := none

/-- The receiver is inserted last and replaces a sender with the same address. -/
def transferChanges (tx : Transaction) : HashMap Address AccountChange :=
  Finmap.insert (receiverAddr tx) (receiverChange tx)
    (Finmap.insert tx.sender (senderChange tx) ∅)

def executeTransfer (vm : ProtonVM) (tx : Transaction) (gasUsed : U64) :
    ExecutionResult × ProtonVM :=
  let sender := vm.state.account tx.sender
  -- the nonce of the transaction is not compared with the sender's
  if sender.balance < totalCost tx then
    (.failure gasUsed "Insufficient balance", vm)
  else
    let changes := transferChanges tx
    (.completed (gasUsed + vm.gasSchedule.baseTxCost) [] changes,
      { vm with state := { vm.state with
        accounts := applyChanges changes vm.state.accounts } })

section Deploy
variable (sha3 : Sha3)

/-- Derived from the sender and the nonce the transaction itself carries. -/
def contractAddr (tx : Transaction) : Address :=
  Address.new sha3 (tx.sender.asBytes.toList ++ toLeBytes tx.nonce)

def deployedCode (tx : Transaction) : ContractCode where
  code := tx.data
  abi := []
  vmType := .wasm

def deployedAccount (tx : Transaction) : Account :=
  { Account.default with
    isContract := true
    codeHash := some (Hash.new sha3 tx.data)
    balance := tx.value }

def deploySenderChange (tx : Transaction) : AccountChange where
  balanceDelta := -(tx.value + tx.gasCost)
  nonceDelta := 1
  storageChanges := ∅
  code := none

def deployContractChange (tx : Transaction) : AccountChange where
  balanceDelta := tx.value
  nonceDelta := 0
  storageChanges := ∅
  code := some tx.data

/-- The change map the deployment reports; nothing applies it. -/
def deployChanges (tx : Transaction) : HashMap Address AccountChange :=
  Finmap.insert (contractAddr sha3 tx) (deployContractChange tx)
    (Finmap.insert tx.sender (deploySenderChange tx) ∅)

def executeContractDeploy (vm : ProtonVM) (tx : Transaction) (gasUsed : U64) :
    ExecutionResult × ProtonVM :=
  let address := contractAddr sha3 tx
  -- neither the sender's balance nor an account already there is looked at
  (.completed (gasUsed + (vm.gasSchedule.baseTxCost + BitVec.ofNat 64 tx.data.length * 200)) []
      (deployChanges sha3 tx),
    { vm with state := { vm.state with
      contracts := vm.state.contracts.insert address (deployedCode tx)
      accounts := vm.state.accounts.insert address (deployedAccount sha3 tx) } })

end Deploy

def executeWasm (vm : ProtonVM) (code : Bytes) (gasUsed : U64) : ExecutionResult :=
  .completed (gasUsed + BitVec.ofNat 64 code.length * vm.gasSchedule.wasmInstruction) [1] ∅

def executeEvm (vm : ProtonVM) (code : Bytes) (gasUsed : U64) : ExecutionResult :=
  .completed (gasUsed + BitVec.ofNat 64 code.length * vm.gasSchedule.evmInstruction) [1] ∅

def executeNative (gasUsed : U64) : ExecutionResult :=
  .completed gasUsed [1] ∅

def executeContractCall (vm : ProtonVM) (tx : Transaction) (gasUsed : U64) :
    ExecutionResult × ProtonVM :=
  match vm.state.contracts.lookup (receiverAddr tx) with
  | none => (.failure gasUsed "Contract not found", vm)
  | some contract =>
    match contract.vmType with
    | .wasm => (executeWasm vm contract.code gasUsed, vm)
    | .evm => (executeEvm vm contract.code gasUsed, vm)
    | .native => (executeNative gasUsed, vm)

/-- A proof that is attached costs gas; it is not checked. -/
def executePrivateTransfer (vm : ProtonVM) (tx : Transaction) (gasUsed : U64) :
    ExecutionResult × ProtonVM :=
  match tx.zkProof with
  | some _ => executeTransfer vm tx (gasUsed + 100000)
  | none => executeTransfer vm tx gasUsed

def executeTransaction (sha3 : Sha3) (vm : ProtonVM) (tx : Transaction) :
    ExecutionResult × ProtonVM :=
  let gasUsed := vm.gasSchedule.baseTxCost
  match tx.txType with
  | .transfer => executeTransfer vm tx gasUsed
  | .contractDeploy => executeContractDeploy sha3 vm tx gasUsed
  | .contractCall => executeContractCall vm tx gasUsed
  | .privateTransfer => executePrivateTransfer vm tx gasUsed
  -- the wildcard arm of the source
  | .stake | .unstake | .crossChain =>
    (.failure gasUsed "Unsupported transaction type", vm)

end ProtonChain.Vm
