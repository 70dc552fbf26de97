import TonRelayer.GasCalculator
import TonRelayer.MessageDecoders

/-! The parsers of single transactions, and the events they make.
All but the insufficient-gas parser look at one transaction: they check its account, look for
their log, decode it, and turn it into an event. An index out of range and a method that is not
implemented are panics. What comes from libraries is a parameter. -/
namespace TransactionParsers

open Cells ByteEncodings RelayerExecute MessageDecoders Types GasCalculator

section Events

structure EventMetadata where
  txId : Option String
  fromAddress : Option String := none
  finalized : Option Bool := none
  sourceContext : Option (List (String × String)) := none
  timestamp : String
  deriving DecidableEq, Repr

structure MessageApprovedEventMetadata where
  commonMeta : EventMetadata
  commandId : Option String := none
  deriving DecidableEq, Repr

structure MessageExecutedEventMetadata where
  commonMeta : EventMetadata
  commandId : Option String := none
  childMessageIds : Option (List String) := none
  revertReason : Option String := none
  deriving DecidableEq, Repr

structure SignersRotatedEventMetadata where
  commonMeta : EventMetadata
  signersHash : Option String
  epoch : Option UInt64
  deriving DecidableEq, Repr

structure CommonEventFields (M : Type) where
  type : String
  eventId : String
  metadata : Option M
  deriving DecidableEq, Repr

structure GatewayV2Message where
  messageId : String
  sourceChain : String
  sourceAddress : String
  destinationAddress : String
  payloadHash : String
  deriving DecidableEq, Repr

structure Amount where
  tokenId : Option String
  amount : String
  deriving DecidableEq, Repr

structure InterchainTokenDefinition where
  id : String
  name : String
  symbol : String
  decimals : ℕ
  deriving DecidableEq, Repr

inductive CannotExecuteMessageReason where
  | insufficientGas
  deriving DecidableEq, Repr

inductive MessageExecutionStatus where
  | successful
  deriving DecidableEq, Repr

inductive Event where
  | call (common : CommonEventFields EventMetadata) (message : GatewayV2Message)
    (destinationChain payload : String)
  | messageApproved (common : CommonEventFields MessageApprovedEventMetadata)
    (message : GatewayV2Message) (cost : Amount)
  | messageExecuted (common : CommonEventFields MessageExecutedEventMetadata)
    (messageId sourceChain : String) (status : MessageExecutionStatus) (cost : Amount)
  | signersRotated (common : CommonEventFields SignersRotatedEventMetadata)
    (messageId : String)
  | cannotExecuteMessageV2 (common : CommonEventFields EventMetadata)
    (messageId sourceChain : String) (reason : CannotExecuteMessageReason) (details : String)
  | gasCredit (common : CommonEventFields EventMetadata) (messageId refundAddress : String)
    (payment : Amount)
  | gasRefunded (common : CommonEventFields EventMetadata) (messageId recipientAddress : String)
    (refundedAmount cost : Amount)
  | itsTokenMetadataRegistered (common : CommonEventFields EventMetadata)
    (messageId address : String) (decimals : ℕ)
  | itsInterchainTokenDeploymentStarted (common : CommonEventFields EventMetadata)
    (messageId destinationChain : String) (token : InterchainTokenDefinition)
  | itsInterchainTransfer (common : CommonEventFields EventMetadata)
    (messageId destinationChain : String) (tokenSpent : Amount)
    (sourceAddress destinationAddress dataHash : String)
  | itsLinkTokenStarted (common : CommonEventFields EventMetadata)
    (messageId tokenId destinationChain sourceTokenAddress destinationTokenAddress : String)
    (tokenManagerType : TokenManagerType)
  deriving DecidableEq, Repr

end Events

inductive TransactionParsingError where
  | bocParsing (e : BocError)
  | message (text : String)
  | gas (e : GasError)
  | itsWithoutPair (text : String)
  | generic (e : GasError)
  deriving DecidableEq, Repr

inductive Failure where
  | err (e : TransactionParsingError)
  | panic
  deriving DecidableEq, Repr

abbrev Outcome := Except Failure

def fail {α : Type} (e : TransactionParsingError) : Outcome α := .error (.err e)

/-- What the parsers use of `tonlib`, `base64`, `tiny-keccak`, `chrono` and `rust_decimal`. A
decimal operation that panics gives `none`. -/
structure Libraries (D : Type) where
  fromBocB64 : String → Except CellError Cell
  base64Decode : String → Except String (List UInt8)
  base64Encode : List UInt8 → String
  keccak256 : List UInt8 → Bytes32
  now : String
  decimalFromStr : String → Except String D
  decimalMul : D → D → Option D
  decimalDiv : D → D → Option D
  decimalRound : D → D
  decimalToString : D → String

structure TraceParser (D : Type) where
  lib : Libraries D
  getPrice : String → Except String D
  gatewayAddress : TonAddress
  gasServiceAddress : TonAddress
  itsAddress : TonAddress
  ourAddresses : List TonAddress
  chainName : String

section Common

def isLogEmmittedInOpcode (tx : Transaction) (opCode : UInt32) (outMsgLogIndex : ℕ) : Bool :=
  match (tx.inMsg.bind (·.opcode)).filter (· = opCode) with
  | some _ => ((tx.outMsgs[outMsgLogIndex]?).map (·.destination.isNone)).getD false
  | none => false

def isLogEmitted (tx : Transaction) (opCode : UInt32) : ℤ :=
  match tx.outMsgs.findIdx? fun msg => msg.destination.isNone && msg.opcode == some opCode with
  | some i => i
  | none => -1

def hashToMessageId {D : Type} (lib : Libraries D) (hash : String) : Outcome String :=
  match lib.base64Decode hash with
  | .ok bytes => .ok ("0x" ++ (hexEncode bytes).toLower)
  | .error e => fail (.message ("DataError: " ++ e))

end Common

structure MessageMatchingKey where
  destinationChain : String
  destinationAddress : String
  payloadHash : Bytes32
  deriving DecidableEq

/-- A parser of one transaction, with the log it has decoded and where it found it. -/
structure LogParser (L : Type) where
  tx : Transaction
  allowedAddress : TonAddress
  log : Option L := none
  logPosition : ℤ := -1

variable {D L : Type}

section Family

/-- Every `check_match` starts by comparing the account. -/
def onAccount (p : LogParser L) (r : Outcome (Bool × LogParser L)) :
    Outcome (Bool × LogParser L) :=
  if p.tx.account ≠ p.allowedAddress then .ok (false, p) else r

/-- The log is the out message at a fixed index of a transaction with this op code. -/
def checkLog (opCode : UInt32) (index : ℕ) (p : LogParser L) : Outcome (Bool × LogParser L) :=
  onAccount p (.ok (isLogEmmittedInOpcode p.tx opCode index, p))

/-- The log is the first out message with this op code. -/
def checkEmittedLog (opCode : UInt32) (p : LogParser L) : Outcome (Bool × LogParser L) :=
  onAccount p
    (let pos := isLogEmitted p.tx opCode
     if pos ≥ 0 then .ok (true, { p with logPosition := pos }) else .ok (false, p))

/-- The log of a jetton transfer has no op code of its own: the parser tries to decode it. -/
def checkJettonLog (decode : String → Except BocError L) (p : LogParser L) :
    Outcome (Bool × LogParser L) :=
  onAccount p
    (if isLogEmmittedInOpcode p.tx opTransferNotification 0 then
      match p.tx.outMsgs[0]? with
      | none => .error .panic
      | some msg => .ok ((decode msg.messageContent.body).isOk, p)
    else .ok (false, p))

def setLog (decode : String → Except BocError L) (body : String) (p : LogParser L) :
    Outcome (LogParser L) :=
  match decode body with
  | .ok log => .ok { p with log := some log }
  | .error e => fail (.bocParsing e)

def parseLog (decode : String → Except BocError L) (index : ℕ) (p : LogParser L) :
    Outcome (LogParser L) :=
  match p.log with
  | some _ => .ok p
  | none => match p.tx.outMsgs[index]? with
    | none => .error .panic
    | some msg => setLog decode msg.messageContent.body p

def parseEmittedLog (decode : String → Except BocError L) (p : LogParser L) :
    Outcome (LogParser L) :=
  if p.logPosition < 0 then .ok p else parseLog decode p.logPosition.toNat p

def LogParser.getLog (p : LogParser L) : Outcome L :=
  match p.log with
  | some log => .ok log
  | none => fail (.message "Missing log")

def requireId (text : String) : Option String → Outcome String
  | some id => .ok id
  | none => fail (.message text)

def txMetadata (lib : Libraries D) (tx : Transaction) : EventMetadata :=
  { txId := some tx.hash, timestamp := lib.now }

def gasCreditEvent (lib : Libraries D) (tx : Transaction) (messageId : String)
    (refundAddress : TonAddress) (payment : Amount) : Event :=
  .gasCredit ⟨"GAS_CREDIT", tx.hash ++ "-gas", some (txMetadata lib tx)⟩ messageId
    (toHex refundAddress) payment

/-- An address without its `0:`. -/
def hexAddress (a : TonAddress) : String :=
  if a.workchain = 0 then "0x" ++ hexEncode a.hashPart.toList else toHex a

end Family

namespace ParserCallContract

def checkMatch (p : LogParser CallContractMessage) :=
  checkLog opCallContract 0 p

def parse (lib : Libraries D) (p : LogParser CallContractMessage) :=
  parseLog (fromBocB64 lib.fromBocB64 CallContractMessage.decode) 0 p

def key (p : LogParser CallContractMessage) : Outcome MessageMatchingKey := do
  let log ← p.getLog
  return ⟨log.destinationChain, log.destinationAddress, log.payloadHash⟩

def messageId (lib : Libraries D) (p : LogParser CallContractMessage) :
    Outcome (Option String) := do
  return some (← hashToMessageId lib p.tx.hash)

def event (t : TraceParser D) (p : LogParser CallContractMessage) : Outcome Event := do
  let log ← p.getLog
  let messageId ← requireId "Missing message id" (← messageId t.lib p)
  let sourceContext := [("source_address", toHex log.sourceAddress),
    ("destination_address", log.destinationAddress), ("destination_chain", log.destinationChain)]
  match hexDecode log.payload with
  | none => fail (.bocParsing (.bocParsingError (.text "Failed to decode payload")))
  | some decoded =>
    return .call
      ⟨"CALL", p.tx.hash, some { txMetadata t.lib p.tx with sourceContext := sourceContext }⟩
      ⟨messageId, t.chainName, toHex log.sourceAddress, log.destinationAddress,
        t.lib.base64Encode log.payloadHash.toList⟩
      log.destinationChain (t.lib.base64Encode decoded)

end ParserCallContract

namespace ParserMessageExecuted

/-- The log is the first or the second out message, and the other one executes the call. -/
def checkMatch (p : LogParser NullifiedSuccessfullyMessage) :
    Outcome (Bool × LogParser NullifiedSuccessfullyMessage) :=
  onAccount p
    (let firstLog := isLogEmmittedInOpcode p.tx opNullifiedSuccessfully 0
     let secondLog := !firstLog && isLogEmmittedInOpcode p.tx opNullifiedSuccessfully 1
     let msgIdx := if firstLog then 1 else 0
     if !secondLog && !firstLog then .ok (false, p)
     else .ok ((p.tx.outMsgs[msgIdx]?).bind (·.opcode) == some opGatewayExecute, p))

def parse (lib : Libraries D) (p : LogParser NullifiedSuccessfullyMessage) :
    Outcome (LogParser NullifiedSuccessfullyMessage) :=
  match p.log with
  | some _ => .ok p
  | none => match p.tx.inMsg with
    | none => fail (.message "Transaction has no in_msg")
    | some inMsg => setLog (fromBocB64 lib.fromBocB64 NullifiedSuccessfullyMessage.decode)
        inMsg.messageContent.body p

def event (lib : Libraries D) (p : LogParser NullifiedSuccessfullyMessage) : Outcome Event := do
  let log ← p.getLog
  return .messageExecuted
    ⟨"MESSAGE_EXECUTED", p.tx.hash, some { commonMeta := txMetadata lib p.tx }⟩
    log.messageId log.sourceChain .successful ⟨none, "0"⟩

end ParserMessageExecuted

namespace ParserMessageApproved

def checkMatch (p : LogParser TonCCMessage) := checkLog opMessageApproved 0 p

def parse (lib : Libraries D) (p : LogParser TonCCMessage) :=
  parseLog (fromBocB64 lib.fromBocB64 TonCCMessage.decode) 0 p

def key (p : LogParser TonCCMessage) : Outcome MessageMatchingKey := do
  let log ← p.getLog
  return ⟨log.destinationChain, log.destinationAddress, log.payloadHash⟩

def event (lib : Libraries D) (p : LogParser TonCCMessage) : Outcome Event := do
  let log ← p.getLog
  return .messageApproved
    ⟨"MESSAGE_APPROVED", p.tx.hash, some { commonMeta := txMetadata lib p.tx }⟩
    ⟨log.messageId, log.sourceChain, log.sourceAddress, log.destinationAddress,
      hexEncode log.payloadHash.toList⟩ ⟨none, "0"⟩

end ParserMessageApproved

namespace ParserNativeGasPaid

/-- Either op code. -/
def checkMatch (p : LogParser NativeGasPaidMessage) :
    Outcome (Bool × LogParser NativeGasPaidMessage) :=
  onAccount p
    (if isLogEmmittedInOpcode p.tx opPayNativeGasForContractCall 0 then .ok (true, p)
     else .ok (isLogEmmittedInOpcode p.tx opPayGas 0, p))

def parse (lib : Libraries D) (p : LogParser NativeGasPaidMessage) :=
  parseLog (fromBocB64 lib.fromBocB64 NativeGasPaidMessage.decode) 0 p

def key (p : LogParser NativeGasPaidMessage) : Outcome MessageMatchingKey := do
  let log ← p.getLog
  return ⟨log.destinationChain, log.destinationAddress, log.payloadHash⟩

def event (lib : Libraries D) (p : LogParser NativeGasPaidMessage) (messageId : Option String) :
    Outcome Event := do
  let messageId ← requireId "Missing message_id" messageId
  let log ← p.getLog
  return gasCreditEvent lib p.tx messageId log.refundAddress ⟨none, toString log.msgValue⟩

end ParserNativeGasPaid

namespace ParserNativeGasAdded

def checkMatch (p : LogParser NativeGasAddedMessage) := checkLog opAddNativeGas 0 p

def parse (lib : Libraries D) (p : LogParser NativeGasAddedMessage) :=
  parseLog (fromBocB64 lib.fromBocB64 NativeGasAddedMessage.decode) 0 p

def messageId (p : LogParser NativeGasAddedMessage) : Outcome (Option String) := do
  let log ← p.getLog
  return some ("0x" ++ hexEncode log.txHash.toList)

def event (lib : Libraries D) (p : LogParser NativeGasAddedMessage) : Outcome Event := do
  let log ← p.getLog
  let messageId ← requireId "Missing message id" (← messageId p)
  return gasCreditEvent lib p.tx messageId log.refundAddress ⟨none, toString log.msgValue⟩

end ParserNativeGasAdded

namespace ParserJettonGasAdded

def checkMatch (lib : Libraries D) (p : LogParser JettonGasAddedMessage) :=
  checkJettonLog (fromBocB64 lib.fromBocB64 JettonGasAddedMessage.decode) p

def parse (lib : Libraries D) (p : LogParser JettonGasAddedMessage) :=
  parseLog (fromBocB64 lib.fromBocB64 JettonGasAddedMessage.decode) 0 p

def messageId (p : LogParser JettonGasAddedMessage) : Outcome (Option String) := do
  let log ← p.getLog
  return some ("0x" ++ hexEncode log.txHash.toList)

def event (lib : Libraries D) (p : LogParser JettonGasAddedMessage) : Outcome Event := do
  let log ← p.getLog
  let messageId ← requireId "Missing message id" (← messageId p)
  return gasCreditEvent lib p.tx messageId log.refundAddress
    ⟨some (toHex log.minter), toString log.amount⟩

end ParserJettonGasAdded

namespace ParserJettonGasPaid

def checkMatch (lib : Libraries D) (p : LogParser JettonGasPaidMessage) :=
  checkJettonLog (fromBocB64 lib.fromBocB64 JettonGasPaidMessage.decode) p

def parse (lib : Libraries D) (p : LogParser JettonGasPaidMessage) :=
  parseLog (fromBocB64 lib.fromBocB64 JettonGasPaidMessage.decode) 0 p

def key (p : LogParser JettonGasPaidMessage) : Outcome MessageMatchingKey := do
  let log ← p.getLog
  return ⟨log.destinationChain, log.destinationAddress, log.payloadHash⟩

def event (lib : Libraries D) (p : LogParser JettonGasPaidMessage) (messageId : Option String) :
    Outcome Event := do
  let messageId ← requireId "Missing message_id" messageId
  let log ← p.getLog
  return gasCreditEvent lib p.tx messageId log.refundAddress
    ⟨some (toHex log.minter), toString log.amount⟩

end ParserJettonGasPaid

namespace ParserNativeGasRefunded

def checkMatch (p : LogParser NativeGasRefundedMessage) := checkLog opNativeRefund 1 p

def parse (lib : Libraries D) (p : LogParser NativeGasRefundedMessage) :=
  parseLog (fromBocB64 lib.fromBocB64 NativeGasRefundedMessage.decode) 1 p

/-- Here a missing log is no error of its own. -/
def messageId (p : LogParser NativeGasRefundedMessage) : Outcome (Option String) :=
  .ok (p.log.map fun log => "0x" ++ hexEncode log.txHash.toList)

def event (p : LogParser NativeGasRefundedMessage) : Outcome Event := do
  let log ← p.getLog
  let messageId ← requireId "Missing message id" (← messageId p)
  return .gasRefunded ⟨"GAS_REFUNDED", p.tx.hash, none⟩ messageId (toHex log.address)
    ⟨none, toString log.amount⟩ ⟨none, "0"⟩

end ParserNativeGasRefunded

namespace ParserITSTokenMetadataRegistered

def checkMatch (p : LogParser LogTokenMetadataRegisteredMessage) :=
  checkLog opRegisterTokenMetadata 0 p

def parse (lib : Libraries D) (p : LogParser LogTokenMetadataRegisteredMessage) :=
  parseLog (fromBocB64 lib.fromBocB64 LogTokenMetadataRegisteredMessage.decode) 0 p

def event (lib : Libraries D) (p : LogParser LogTokenMetadataRegisteredMessage)
    (messageId : Option String) : Outcome Event := do
  let messageId ← requireId "Missing message_id" messageId
  let log ← p.getLog
  return .itsTokenMetadataRegistered
    ⟨"ITS/TOKEN_METADATA_REGISTERED", p.tx.hash ++ "-its-metadata", some (txMetadata lib p.tx)⟩
    messageId (hexAddress log.address) log.decimals

end ParserITSTokenMetadataRegistered

namespace ParserITSInterchainTokenDeploymentStarted

def checkMatch (p : LogParser LogITSInterchainTokenDeploymentStartedMessage) :=
  checkEmittedLog opInterchainTokenDeploymentStartedLog p

def parse (lib : Libraries D) (p : LogParser LogITSInterchainTokenDeploymentStartedMessage) :=
  parseEmittedLog
    (fromBocB64 lib.fromBocB64 LogITSInterchainTokenDeploymentStartedMessage.decode) p

def event (lib : Libraries D) (p : LogParser LogITSInterchainTokenDeploymentStartedMessage)
    (messageId : Option String) : Outcome Event := do
  let messageId ← requireId "Missing message_id" messageId
  let log ← p.getLog
  return .itsInterchainTokenDeploymentStarted
    ⟨"ITS/INTERCHAIN_TOKEN_DEPLOYMENT_STARTED",
      p.tx.hash ++ "-its-interchain-token-deployment-started", some (txMetadata lib p.tx)⟩
    messageId log.destinationChain
    ⟨"0x" ++ toStrRadix16 log.tokenId, log.tokenName, log.tokenSymbol, log.decimals⟩

end ParserITSInterchainTokenDeploymentStarted

namespace ParserITSInterchainTransfer

def checkMatch (p : LogParser LogITSInterchainTransferMessage) :=
  checkEmittedLog opInterchainTransferLog p

def parse (lib : Libraries D) (p : LogParser LogITSInterchainTransferMessage) :=
  parseEmittedLog (fromBocB64 lib.fromBocB64 LogITSInterchainTransferMessage.decode) p

def event (lib : Libraries D) (p : LogParser LogITSInterchainTransferMessage)
    (messageId : Option String) : Outcome Event := do
  let messageId ← requireId "Missing message_id" messageId
  let log ← p.getLog
  let hash := if log.data = [] then String.ofList (List.replicate 32 '0')
    else toString (payloadHash lib.keccak256 log.data)
  return .itsInterchainTransfer
    ⟨"ITS/INTERCHAIN_TRANSFER", p.tx.hash ++ "-its-interchain-transfer",
      some (txMetadata lib p.tx)⟩
    messageId log.destinationChain
    ⟨some ("0x" ++ toStrRadix16 log.tokenId), toString log.jettonAmount⟩
    (toHex log.senderAddress) log.destinationAddress hash

end ParserITSInterchainTransfer

namespace ParserITSLinkTokenStarted

def checkMatch (p : LogParser LogITSLinkTokenStartedMessage) :=
  checkEmittedLog opLinkTokenStartedLog p

def parse (lib : Libraries D) (p : LogParser LogITSLinkTokenStartedMessage) :=
  parseEmittedLog (fromBocB64 lib.fromBocB64 LogITSLinkTokenStartedMessage.decode) p

def event (lib : Libraries D) (p : LogParser LogITSLinkTokenStartedMessage)
    (messageId : Option String) : Outcome Event := do
  let messageId ← requireId "Missing message_id" messageId
  let log ← p.getLog
  return .itsLinkTokenStarted
    ⟨"ITS/LINK_TOKEN_STARTED", p.tx.hash ++ "-its-link-token-started",
      some (txMetadata lib p.tx)⟩
    messageId ("0x" ++ toStrRadix16 log.tokenId) log.destinationChain
    (hexAddress log.sourceTokenAddress) log.destinationTokenAddress log.tokenManagerType

end ParserITSLinkTokenStarted

namespace ParserSignersRotated

def checkMatch (p : LogParser LogSignersRotatedMessage) :=
  checkEmittedLog opSignersRotatedLog p

def parse (lib : Libraries D) (p : LogParser LogSignersRotatedMessage) :=
  parseEmittedLog (fromBocB64 lib.fromBocB64 LogSignersRotatedMessage.decode) p

def messageId (lib : Libraries D) (p : LogParser LogSignersRotatedMessage) :
    Outcome (Option String) := do
  return some (← hashToMessageId lib p.tx.hash)

def event (lib : Libraries D) (p : LogParser LogSignersRotatedMessage) : Outcome Event := do
  let messageId ← requireId "Missing message id" (← messageId lib p)
  let log ← p.getLog
  return .signersRotated
    ⟨"SIGNERS_ROTATED", p.tx.hash ++ "-signers-rotated",
      some ⟨txMetadata lib p.tx, some log.signersHash, some log.epoch⟩⟩ messageId

end ParserSignersRotated

end TransactionParsers
