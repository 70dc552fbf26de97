import TonRelayer.ExceptRules
import TonRelayer.TransactionParsers

/-! A whole trace to its events.
`create_parsers` gives each transaction to the first parser that matches and sorts the parsers
into containers; `parse_trace` links gas payments and ITS logs to calls and lets every parser
make its event. The parser beside each event is kept for reasoning and dropped at the end. -/
namespace TraceParsing

open ExceptRules Cells ByteEncodings RelayerExecute MessageDecoders Types GasCalculator
open TransactionParsers

/-- The parsers of one transaction. -/
inductive ParserName where
  | callContract
  | messageExecuted
  | messageApproved
  | nativeGasPaid
  | nativeGasAdded
  | jettonGasAdded
  | jettonGasPaid
  | nativeGasRefunded
  | itsTokenMetadataRegistered
  | itsInterchainTokenDeploymentStarted
  | itsInterchainTransfer
  | itsLinkTokenStarted
  | signersRotated
  deriving DecidableEq, Repr

/-- The order in which `create_parsers` tries them. -/
def cascade : List ParserName :=
  [.callContract, .messageExecuted, .messageApproved, .nativeGasPaid, .nativeGasAdded,
    .jettonGasAdded, .jettonGasPaid, .nativeGasRefunded, .itsTokenMetadataRegistered,
    .itsInterchainTokenDeploymentStarted, .itsInterchainTransfer, .itsLinkTokenStarted,
    .signersRotated]

namespace ParserName

def Log : ParserName → Type
  | .callContract => CallContractMessage
  | .messageExecuted => NullifiedSuccessfullyMessage
  | .messageApproved => TonCCMessage
  | .nativeGasPaid => NativeGasPaidMessage
  | .nativeGasAdded => NativeGasAddedMessage
  | .jettonGasAdded => JettonGasAddedMessage
  | .jettonGasPaid => JettonGasPaidMessage
  | .nativeGasRefunded => NativeGasRefundedMessage
  | .itsTokenMetadataRegistered => LogTokenMetadataRegisteredMessage
  | .itsInterchainTokenDeploymentStarted => LogITSInterchainTokenDeploymentStartedMessage
  | .itsInterchainTransfer => LogITSInterchainTransferMessage
  | .itsLinkTokenStarted => LogITSLinkTokenStartedMessage
  | .signersRotated => LogSignersRotatedMessage

inductive Contract where
  | gateway
  | gasService
  | its
  deriving DecidableEq, Repr

/-- The contract whose transactions a parser accepts. -/
def contract : ParserName → Contract
  | .callContract | .messageExecuted | .messageApproved | .signersRotated => .gateway
  | .nativeGasPaid | .nativeGasAdded | .jettonGasAdded | .jettonGasPaid
  | .nativeGasRefunded => .gasService
  | .itsTokenMetadataRegistered | .itsInterchainTokenDeploymentStarted
  | .itsInterchainTransfer | .itsLinkTokenStarted => .its

variable {D : Type}

def checkMatch (lib : Libraries D) :
    (n : ParserName) → LogParser n.Log → Outcome (Bool × LogParser n.Log)
  | .callContract => ParserCallContract.checkMatch
  | .messageExecuted => ParserMessageExecuted.checkMatch
  | .messageApproved => ParserMessageApproved.checkMatch
  | .nativeGasPaid => ParserNativeGasPaid.checkMatch
  | .nativeGasAdded => ParserNativeGasAdded.checkMatch
  | .jettonGasAdded => ParserJettonGasAdded.checkMatch lib
  | .jettonGasPaid => ParserJettonGasPaid.checkMatch lib
  | .nativeGasRefunded => ParserNativeGasRefunded.checkMatch
  | .itsTokenMetadataRegistered => ParserITSTokenMetadataRegistered.checkMatch
  | .itsInterchainTokenDeploymentStarted => ParserITSInterchainTokenDeploymentStarted.checkMatch
  | .itsInterchainTransfer => ParserITSInterchainTransfer.checkMatch
  | .itsLinkTokenStarted => ParserITSLinkTokenStarted.checkMatch
  | .signersRotated => ParserSignersRotated.checkMatch

def parse (lib : Libraries D) :
    (n : ParserName) → LogParser n.Log → Outcome (LogParser n.Log)
  | .callContract => ParserCallContract.parse lib
  | .messageExecuted => ParserMessageExecuted.parse lib
  | .messageApproved => ParserMessageApproved.parse lib
  | .nativeGasPaid => ParserNativeGasPaid.parse lib
  | .nativeGasAdded => ParserNativeGasAdded.parse lib
  | .jettonGasAdded => ParserJettonGasAdded.parse lib
  | .jettonGasPaid => ParserJettonGasPaid.parse lib
  | .nativeGasRefunded => ParserNativeGasRefunded.parse lib
  | .itsTokenMetadataRegistered => ParserITSTokenMetadataRegistered.parse lib
  | .itsInterchainTokenDeploymentStarted => ParserITSInterchainTokenDeploymentStarted.parse lib
  | .itsInterchainTransfer => ParserITSInterchainTransfer.parse lib
  | .itsLinkTokenStarted => ParserITSLinkTokenStarted.parse lib
  | .signersRotated => ParserSignersRotated.parse lib

/-- Only calls, approvals and gas payments have a key. -/
def key : (n : ParserName) → LogParser n.Log → Outcome MessageMatchingKey
  | .callContract => ParserCallContract.key
  | .messageApproved => ParserMessageApproved.key
  | .nativeGasPaid => ParserNativeGasPaid.key
  | .jettonGasPaid => ParserJettonGasPaid.key
  | _ => fun _ => .error .panic

def messageId (lib : Libraries D) :
    (n : ParserName) → LogParser n.Log → Outcome (Option String)
  | .callContract => ParserCallContract.messageId lib
  | .nativeGasAdded => ParserNativeGasAdded.messageId
  | .jettonGasAdded => ParserJettonGasAdded.messageId
  | .nativeGasRefunded => ParserNativeGasRefunded.messageId
  | .signersRotated => ParserSignersRotated.messageId lib
  | _ => fun _ => .ok none

def event (t : TraceParser D) :
    (n : ParserName) → LogParser n.Log → Option String → Outcome Event
  | .callContract => fun p _ => ParserCallContract.event t p
  | .messageExecuted => fun p _ => ParserMessageExecuted.event t.lib p
  | .messageApproved => fun p _ => ParserMessageApproved.event t.lib p
  | .nativeGasPaid => ParserNativeGasPaid.event t.lib
  | .nativeGasAdded => fun p _ => ParserNativeGasAdded.event t.lib p
  | .jettonGasAdded => fun p _ => ParserJettonGasAdded.event t.lib p
  | .jettonGasPaid => ParserJettonGasPaid.event t.lib
  | .nativeGasRefunded => fun p _ => ParserNativeGasRefunded.event p
  | .itsTokenMetadataRegistered => ParserITSTokenMetadataRegistered.event t.lib
  | .itsInterchainTokenDeploymentStarted => ParserITSInterchainTokenDeploymentStarted.event t.lib
  | .itsInterchainTransfer => ParserITSInterchainTransfer.event t.lib
  | .itsLinkTokenStarted => ParserITSLinkTokenStarted.event t.lib
  | .signersRotated => fun p _ => ParserSignersRotated.event t.lib p

end ParserName


structure TxParser where
  name : ParserName
  parser : LogParser name.Log

variable {D : Type}

namespace TxParser

def tx (p : TxParser) : Transaction := p.parser.tx
def key (p : TxParser) : Outcome MessageMatchingKey := p.name.key p.parser

def messageId (lib : Libraries D) (p : TxParser) : Outcome (Option String) :=
  p.name.messageId lib p.parser

def event (t : TraceParser D) (p : TxParser) (messageId : Option String) : Outcome Event :=
  p.name.event t p.parser messageId

end TxParser

structure ParserExecuteInsufficientGas where
  trace : Trace
  allowedAddress : TonAddress
  log : Option RelayerExecuteWrappedMessage := none

namespace ParserExecuteInsufficientGas

def exitCodeInsufficientGas : ℤ := 106

/-- The gateway rejected, with the exit code for insufficient gas, a single execute message. -/
def exitCodeBranch (allowedAddress : TonAddress) (txs : List Transaction) : Bool :=
  match txs[1]?, txs[2]? with
  | some tx1, some tx2 =>
    let opcode := (tx1.outMsgs.head?.bind (·.opcode)).getD 0
    let exitCode := (tx2.description.computePh.bind (·.exitCode)).getD 0 % 2 ^ 32
    decide (tx2.account = allowedAddress) && decide (tx1.outMsgs.length = 1) &&
      decide (opcode = opRelayerExecute) && decide (exitCode = exitCodeInsufficientGas)
  | _, _ => false

/-- The last of five transactions was to nullify a message and failed in its actions. -/
def nullifiedBranch (txs : List Transaction) : Bool :=
  match txs[3]?, txs[4]? with
  | some tx3, some tx4 =>
    decide (txs.length = 5) && tx3.inMsg.isSome &&
      decide (tx4.inMsg.bind (·.opcode) = some opNullifiedSuccessfully) &&
      decide (tx4.description.action.map (·.resultCode) = some 37)
  | _, _ => false

def checkMatch (p : ParserExecuteInsufficientGas) : Bool :=
  exitCodeBranch p.allowedAddress p.trace.transactions || nullifiedBranch p.trace.transactions

/-- The message is read from the first message of the trace. -/
def parse (lib : Libraries D) (p : ParserExecuteInsufficientGas) :
    Outcome ParserExecuteInsufficientGas :=
  match p.log with
  | some _ => .ok p
  | none => match p.trace.transactions[0]?.bind (·.outMsgs[0]?) with
    | none => .error .panic
    | some msg =>
      match RelayerExecuteWrappedMessage.fromBocB64 lib.fromBocB64 msg.messageContent.body with
      | .ok log => .ok { p with log := some log }
      | .error e => fail (.bocParsing e)

def event (p : ParserExecuteInsufficientGas) : Outcome Event :=
  match p.log with
  | none => fail (.message "Missing log")
  | some log => .ok (.cannotExecuteMessageV2
      ⟨"CANNOT_EXECUTE_MESSAGE/V2", "cannot-execute-task-v2-" ++ toString p.trace.endLt, none⟩
      log.messageId log.sourceChain .insufficientGas p.trace.traceId)

end ParserExecuteInsufficientGas

/-- The parsers whose events stand for themselves. -/
inductive AnyParser where
  | transaction (p : TxParser)
  | executeInsufficientGas (p : ParserExecuteInsufficientGas)

def AnyParser.event (t : TraceParser D) : AnyParser → Outcome Event
  | .transaction p => p.event t none
  | .executeInsufficientGas p => p.event

def address (t : TraceParser D) : ParserName.Contract → TonAddress
  | .gateway => t.gatewayAddress
  | .gasService => t.gasServiceAddress
  | .its => t.itsAddress

def firstMatch (t : TraceParser D) (tx : Transaction) :
    List ParserName → Outcome (Option TxParser)
  | [] => .ok none
  | n :: rest => do
    let (isMatch, p) ← n.checkMatch t.lib { tx, allowedAddress := address t n.contract }
    if isMatch then
      let p ← n.parse t.lib p
      return some ⟨n, p⟩
    else firstMatch t tx rest

/-- The body of the loop over transactions, up to the container. -/
def createTxParser (t : TraceParser D) (tx : Transaction) : Outcome (Option TxParser) :=
  firstMatch t tx cascade

abbrev GasCreditMap := AList fun _ : MessageMatchingKey => TxParser

structure Containers where
  parsers : List AnyParser := []
  callContract : List TxParser := []
  gasCreditMap : GasCreditMap := ∅
  its : List TxParser := []
  messageApprovedCount : ℕ := 0

/-- A gas payment is inserted under its key, whatever was there before. -/
def route (c : Containers) (p : TxParser) : Outcome Containers :=
  match p.name with
  | .callContract => .ok { c with callContract := c.callContract ++ [p] }
  | .nativeGasPaid | .jettonGasPaid => do
    let key ← p.key
    return { c with gasCreditMap := c.gasCreditMap.insert key p }
  | .itsTokenMetadataRegistered | .itsInterchainTokenDeploymentStarted
  | .itsInterchainTransfer | .itsLinkTokenStarted => .ok { c with its := c.its ++ [p] }
  | .messageApproved =>
    .ok { c with
      parsers := c.parsers ++ [.transaction p]
      messageApprovedCount := c.messageApprovedCount + 1 }
  | .messageExecuted | .nativeGasAdded | .jettonGasAdded | .nativeGasRefunded
  | .signersRotated => .ok { c with parsers := c.parsers ++ [.transaction p] }

def addTransaction (t : TraceParser D) (c : Containers) (tx : Transaction) :
    Outcome Containers := do
  match ← createTxParser t tx with
  | none => return c
  | some p => route c p

def startContainers (t : TraceParser D) (trace : Trace) : Outcome Containers :=
  let parser : ParserExecuteInsufficientGas := { trace, allowedAddress := t.gatewayAddress }
  if parser.checkMatch then do
    let parser ← parser.parse t.lib
    return { parsers := [.executeInsufficientGas parser] }
  else .ok {}

def createParsers (t : TraceParser D) (trace : Trace) : Outcome Containers := do
  let start ← startContainers t trace
  trace.transactions.foldlM (addTransaction t) start

/-- The first loop of `parse_trace`: each call, and the payment found under its key, which is
taken out of the map. -/
def linkCalls (t : TraceParser D) :
    List TxParser → GasCreditMap → Outcome (List (AnyParser × Event))
  | [], _ => .ok []
  | cc :: rest, gasCreditMap => do
    let key ← cc.key
    let call ← cc.event t none
    match gasCreditMap.lookup key with
    | some parser =>
      let messageId ← requireId "Missing message_id" (← cc.messageId t.lib)
      let credit ← parser.event t (some messageId)
      let events ← linkCalls t rest (gasCreditMap.erase key)
      return (.transaction cc, call) :: (.transaction parser, credit) :: events
    | none =>
      let events ← linkCalls t rest gasCreditMap
      return (.transaction cc, call) :: events

/-- The second loop: the ITS logs take the message ids of the calls one after the other. -/
def linkIts (t : TraceParser D) :
    ℕ → List TxParser → List TxParser → Outcome (List (AnyParser × Event))
  | _, [], _ => .ok []
  | i, _ :: _, [] =>
    fail (.itsWithoutPair ("No matching call_contract for ITS index " ++ toString i))
  | i, its :: rest, cc :: calls => do
    let messageId ← cc.messageId t.lib
    let event ← its.event t messageId
    let events ← linkIts t (i + 1) rest calls
    return (.transaction its, event) :: events

section Conversion

/-- `BigUint::from_str`: digits, with an optional plus sign and underscores between them. -/
def parseBigUint (s : String) : Option ℕ :=
  let cs := match s.toList with
    | '+' :: '+' :: _ => s.toList
    | '+' :: cs => cs
    | cs => cs
  if cs.head? = some '_' then none
  else if cs = [] then none
  else (cs.filter (· ≠ '_')).foldlM (fun n c => (digit? c).map fun d => n * 10 + d) 0

def conversionError {α : Type} (text : String) : Outcome α :=
  fail (.generic (.conversionError text))

def convertJettonToNative (t : TraceParser D) (minter : String) (amount : ℕ) : Outcome ℕ :=
  match t.getPrice (minter ++ "/USD") with
  | .error e => conversionError e
  | .ok coinToUsd => match t.getPrice "TON/USD" with
    | .error e => conversionError e
    | .ok tonToUsd => match t.lib.decimalFromStr (toString amount) with
      | .error e => conversionError ("Invalid amount: " ++ e)
      | .ok amount => match (t.lib.decimalMul amount coinToUsd).bind
          fun usd => t.lib.decimalDiv usd tonToUsd with
        | none => .error .panic
        | some result => match parseBigUint (t.lib.decimalToString (t.lib.decimalRound result)) with
          | none => conversionError "invalid digit found in string"
          | some native => .ok native

/-- `add_gas_used_and_convert` for one event. -/
def convertEvent (t : TraceParser D) (totalGasUsed refundGasUsed messageApprovedCount : ℕ) :
    Event → Outcome Event
  | .gasCredit common messageId refundAddress payment => match payment.tokenId with
    | none => .ok (.gasCredit common messageId refundAddress payment)
    | some tokenId => match parseBigUint payment.amount with
      | none => fail (.generic (.conversionError "invalid digit found in string"))
      | some amount => do
        let native ← convertJettonToNative t tokenId amount
        return .gasCredit common messageId refundAddress ⟨none, toString native⟩
  | .messageApproved common message cost =>
    let per := if messageApprovedCount = 0 then 0 else totalGasUsed / messageApprovedCount
    .ok (.messageApproved common message { cost with amount := toString per })
  | .messageExecuted common messageId sourceChain status cost =>
    .ok (.messageExecuted common messageId sourceChain status
      { cost with amount := toString totalGasUsed })
  | .gasRefunded common messageId recipientAddress refundedAmount cost =>
    .ok (.gasRefunded common messageId recipientAddress refundedAmount
      { cost with amount := toString refundGasUsed })
  | e => .ok e

end Conversion

def gas {α : Type} (r : Except GasError α) : Outcome α := r.mapError fun e => .err (.gas e)

def gasUsed (t : TraceParser D) (trace : Trace) : Outcome (ℕ × ℕ) := do
  let totalGasUsed ← gas (calcMessageGas t.ourAddresses trace.transactions)
  let refundGasUsed ← gas (calcMessageGasNativeGasRefunded t.ourAddresses trace.transactions)
  return (totalGasUsed, refundGasUsed)

/-- The events before `add_gas_used_and_convert`, each with its parser. -/
def linkEvents (t : TraceParser D) (c : Containers) : Outcome (List (AnyParser × Event)) := do
  let calls ← linkCalls t c.callContract c.gasCreditMap
  let its ← linkIts t 0 c.its c.callContract
  let others ← c.parsers.mapM fun p => do return (p, ← p.event t)
  return calls ++ its ++ others

def parseTraceTagged (t : TraceParser D) (trace : Trace) :
    Outcome (List (AnyParser × Event)) := do
  let (totalGasUsed, refundGasUsed) ← gasUsed t trace
  let c ← createParsers t trace
  let events ← linkEvents t c
  events.mapM fun pe => do
    let event ← convertEvent t totalGasUsed refundGasUsed c.messageApprovedCount pe.2
    return (pe.1, event)

def parseTrace (t : TraceParser D) (trace : Trace) : Outcome (List Event) :=
  (parseTraceTagged t trace).map fun events => events.map Prod.snd

end TraceParsing
