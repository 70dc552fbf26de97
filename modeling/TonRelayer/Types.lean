import TonRelayer.Cells

/-! Traces as the REST API reports them, with the fields that the parsers, the gas calculator
and the subscribers read. Amounts are the decimal strings of the source. -/
namespace Types

open Cells

structure MessageContent where
  body : String
  deriving DecidableEq, Repr

structure TransactionMessage where
  hash : String
  source : Option String := none
  destination : Option TonAddress := none
  value : Option String := none
  fwdFee : Option String := none
  opcode : Option UInt32 := none
  messageContent : MessageContent := ⟨""⟩
  deriving DecidableEq

structure ComputePhase where
  exitCode : Option ℤ
  deriving DecidableEq, Repr

structure Action where
  resultCode : ℤ
  deriving DecidableEq, Repr

structure TransactionDescription where
  computePh : Option ComputePhase := none
  action : Option Action := none
  deriving DecidableEq, Repr

structure AccountStateBalance where
  balance : Option String
  deriving DecidableEq, Repr

structure Transaction where
  account : TonAddress
  hash : String
  totalFees : UInt64 := 0
  description : TransactionDescription := {}
  inMsg : Option TransactionMessage := none
  outMsgs : List TransactionMessage := []
  accountStateBefore : AccountStateBalance := ⟨none⟩
  accountStateAfter : AccountStateBalance := ⟨none⟩
  deriving DecidableEq

structure Trace where
  isIncomplete : Bool
  startLt : ℤ
  endLt : ℤ
  traceId : String
  transactions : List Transaction
  deriving DecidableEq

end Types
