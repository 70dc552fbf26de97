import TonRelayer.HighLoadQueryIds
import TonRelayer.Interactions
import TonRelayer.MessageDecoders
import TonRelayer.RefundBroadcast

/-! The broadcasts of approvals, executions and refunds, with every call that they make.
A broadcast asks the gas estimator, the lock manager, the query-id wrapper, the clock and the
API. It ends with a result or an error; a panic leaves it where it stands. -/
namespace Broadcasts

open ExceptRules Cells ByteEncodings HighLoadQueryIds Interactions MessageDecoders RelayerExecute
open GasCalculator TransactionParsers TraceParsing
open RefundBroadcast (RefundTaskFields Wallet V3MessageResponse BroadcasterError WalletTonlib)
open RefundBroadcast (outgoingMessage alreadyExecuted NativeRefundMessage amountError refundDust)

inductive Estimate where
  | nativeGasRefundEstimate
  | executeSend (payload : ℕ)
  | executeEstimate (payload : ℕ)
  | approveSend (numMessage : ℕ)
  | highloadWalletSend (numActions : ℕ)
  deriving DecidableEq, Repr

inductive Call where
  | estimate (e : Estimate)
  | lock (key : String)
  | unlock (key : String)
  | nextQueryId (address : String) (timeout : UInt64) (forceShiftIncrease : Bool)
  | now
  | postV3Message (boc : String)
  deriving DecidableEq, Repr

def Answer : Call → Type
  | .estimate _ | .now => UInt64
  | .lock _ => Bool
  | .unlock _ => Unit
  | .nextQueryId _ _ _ => Except HighLoadQueryIdWrapperError HighLoadQueryId
  | .postV3Message _ => Except String V3MessageResponse

inductive Stop where
  | error (e : BroadcasterError)
  | panic (message : String)
  deriving DecidableEq, Repr

abbrev Async (α : Type) := Fallible Call Answer Stop α

section Calls

def call (c : Call) : Async (Answer c) := ExceptT.lift (ask c)

def estimate (e : Estimate) : Async UInt64 := call (.estimate e)
def lock (key : String) : Async Bool := call (.lock key)
def unlock (key : String) : Async Unit := call (.unlock key)
def now : Async UInt64 := call .now

def nextQueryId (address : String) (timeout : UInt64) (forceShiftIncrease : Bool) :
    Async (Except HighLoadQueryIdWrapperError HighLoadQueryId) :=
  call (.nextQueryId address timeout forceShiftIncrease)

def postV3Message (boc : String) : Async (Except String V3MessageResponse) :=
  call (.postV3Message boc)

/-- Go on with a result that was computed, or stop. -/
def stopping {α : Type} (r : Except Stop α) : Async α := ExceptT.mk (pure r)

def orFail {ε α : Type} (r : Except ε α) (e : ε → BroadcasterError) : Async α :=
  stopping (r.mapError fun x => .error (e x))

/-- The error of a task, as a value. A panic is not caught. -/
def caughtResult {α : Type} : Except Stop α → Except Stop (Except BroadcasterError α)
  | .ok a => .ok (.ok a)
  | .error (.error e) => .ok (.error e)
  | .error (.panic message) => .error (.panic message)

def caught {α : Type} (x : Async α) : Async (Except BroadcasterError α) :=
  ExceptT.mk (x.run >>= fun r => pure (caughtResult r))

end Calls

/-- What the broadcasts use of `tonlib`, `base64` and `sha3` beyond the wallet. -/
structure BroadcastTonlib extends WalletTonlib where
  /-- `str::parse::<TonAddress>` -/
  parseAddress : String → Except String TonAddress
  base64Decode : String → Except String (List UInt8)
  /-- The values of `load_dict(16, key_reader_u8, val_reader_ref_cell)`, in the map's order. -/
  loadDict : CellParser → Except CellError (List Cell)
  /-- `Arc::from_cell` -/
  arcFromCell : Cell → Except CellError Cell
  keccak256 : List UInt8 → Bytes32

structure TONBroadcaster where
  tonlib : BroadcastTonlib
  wallets : List Wallet
  gatewayAddress : TonAddress
  gasServiceAddress : TonAddress
  chainName : String

variable (B : TONBroadcaster)

def TONBroadcaster.key (wallet : Wallet) : String := B.tonlib.display wallet.address

section Sending

variable (wallet : Wallet) (actions : List OutAction)

/-- The wallet's message as it is posted. -/
def messageBoc (queryId value : ℕ) (createdAt : UInt64) : Except Stop String :=
  match outgoingMessage B.tonlib.toWalletTonlib wallet actions queryId value createdAt with
  | .error (.panic message) => .error (.panic message)
  | .error e => .error (.error (.genericError (.send e)))
  | .ok message => match B.tonlib.serialize message with
    | .error e => .error (.error (.genericError (.cell e)))
    | .ok tx => .ok (B.tonlib.base64Encode tx)

/-- `{e:?}` -/
def debugQueryIdError : HighLoadQueryIdWrapperError → String
  | .constructionError => "ConstructionError"
  | .noNextQueryId => "NoNextQueryId"
  | .databaseError => "DatabaseError"

def queryIdError (e : HighLoadQueryIdWrapperError) : BroadcasterError :=
  .genericError (.text ("Query Id acquiring failed: " ++ debugQueryIdError e))

/-- One attempt, up to the answer to its post. -/
def attempt (forced : Bool) : Async (Except String V3MessageResponse) := do
  let answer ← nextQueryId (B.key wallet) wallet.timeout forced
  let queryId ← orFail answer queryIdError
  let value ← estimate (.highloadWalletSend actions.length)
  let createdAt ← now
  let boc ← stopping (messageBoc B wallet actions queryId.queryId value.toNat createdAt)
  postV3Message boc

/-- A call of `send_to_chain`; `again` is the next one, if there are retries left. -/
def sendOnce (forced : Bool) (again : Option (Async V3MessageResponse)) :
    Async V3MessageResponse := do
  match ← attempt B wallet actions forced with
  | .ok response => return response
  | .error e => match (if alreadyExecuted e then again else none) with
    | some retry => retry
    | none => throw (.error (.rpcCallFailed e))

/-- With `Some(r)` retries left. -/
def sendRetries : ℕ → Async V3MessageResponse
  | 0 => sendOnce B wallet actions true none
  | r + 1 => sendOnce B wallet actions true (some (sendRetries r))

/-- `None` turns into `Some(10)`. -/
def sendToChain : Option ℕ → Async V3MessageResponse
  | some r => sendRetries B wallet actions r
  | none => sendOnce B wallet actions false (some (sendRetries B wallet actions 10))

end Sending

section Wallets

/-- The first wallet whose lock is obtained. -/
def acquire : List Wallet → Async Wallet
  | [] => throw (.error (.genericError (.text "Wallet acquire failed: NoAvailableWallet")))
  | wallet :: wallets => do
    if ← lock (B.key wallet) then return wallet
    else acquire wallets

/-- The wallet is released after whatever the task ends with, unless that is a panic. -/
def releasing {α : Type} (wallet : Wallet) (x : Async α) : Async α := do
  let result ← caught x
  unlock (B.key wallet)
  stopping (result.mapError .error)

end Wallets

section Approvals

structure ApproveMessage where
  messageId : String
  sourceChain : String
  sourceAddress : String
  destinationChain : String
  destinationAddress : List UInt8
  payloadHash : ℕ
  deriving DecidableEq, Repr

structure ApproveMessages where
  approveMessages : List ApproveMessage
  proof : Cell

def opApproveMessages : UInt32 := 0x00000028

def ApproveMessage.decode : Decoder ApproveMessage := do
  let payloadHash ← load (loadUint 256)
  let messageId ← loadString
  let sourceChain ← loadString
  let sourceAddress ← loadString
  let inner ← load nextReference
  let ((destinationAddress, destinationChain), _) ← StateT.lift ((do
    let destinationAddress ← loadBuffer
    let destinationChain ← loadString
    return (destinationAddress, destinationChain) : Decoder _) inner.parser)
  return ⟨messageId, sourceChain, sourceAddress, destinationChain, destinationAddress, payloadHash⟩

def ApproveMessages.fromBocHex (T : BroadcastTonlib) (boc : String) :
    Except BocError ApproveMessages :=
  fromBocB64 T.fromBocHex (do
    checkOpCode opApproveMessages
    let proof ← load nextReference
    let messages ← load nextReference
    let data ← StateT.lift (parsing (T.loadDict messages.parser))
    let approveMessages ← StateT.lift (data.mapM fun value => do
      let cell ← parsing (T.arcFromCell value)
      let (message, _) ← ApproveMessage.decode cell.parser
      return message)
    return ⟨approveMessages, proof⟩) boc

end Approvals

structure BroadcastResult where
  txHash : String
  messageId : Option String
  sourceChain : Option String
  status : Except BroadcasterError Unit

/-- An error of the sending becomes the status of the result. -/
def broadcastResult (messageId sourceChain : String)
    (res : Except BroadcasterError V3MessageResponse) : BroadcastResult where
  txHash := match res with
    | .ok response => response.messageHash
    | .error _ => ""
  messageId := some messageId
  sourceChain := some sourceChain
  status := res.map fun _ => ()

structure ExecuteTaskFields where
  message : GatewayV2Message
  payload : String
  availableGasBalance : Amount

/-- `u64::from_str`: digits after an optional plus sign, below `2^64`. -/
def u64FromStr (s : String) : Option ℕ :=
  let cs := match s.toList with
    | '+' :: cs => cs
    | cs => cs
  if cs = [] then none
  else (cs.foldlM (fun n c => (digit? c).map fun d => n * 10 + d) 0).filter (· < 2 ^ 64)

section Broadcasting

def broadcastProverMessage (txBlob : String) : Async BroadcastResult := do
  let approveMessages ← orFail (ApproveMessages.fromBocHex B.tonlib txBlob)
    fun e => .genericError (.boc e)
  match approveMessages.approveMessages with
  | [] => throw (.error (.genericError (.text "Missing approved message")))
  | message :: rest =>
    let value ← estimate (.approveSend (message :: rest).length)
    let action ← orFail (outAction B.tonlib.toTonlib txBlob value.toNat B.gatewayAddress)
      fun e => .genericError (.cell e)
    let wallet ← acquire B B.wallets
    releasing B wallet do
      let res ← caught (sendToChain B wallet [action] none)
      return broadcastResult message.messageId message.sourceChain res

def broadcastExecuteMessage (message : ExecuteTaskFields) : Async BroadcastResult := do
  let destinationAddress ← orFail (B.tonlib.parseAddress message.message.destinationAddress)
    fun e => .genericError (.text ("TonAddressParseError: " ++ e))
  let decodedBytes ← orFail (B.tonlib.base64Decode message.payload)
    fun e => .genericError (.text ("Failed decoding payload: " ++ e))
  let messageId := message.message.messageId
  let sourceChain := message.message.sourceChain
  let availableGas := (u64FromStr message.availableGasBalance.amount).getD 0
  let requiredGas ← estimate (.executeEstimate decodedBytes.length)
  if availableGas < requiredGas.toNat then
    return ⟨"", some messageId, some sourceChain,
      .error (.insufficientGas "Cannot proceed to execute")⟩
  else
    let wallet ← acquire B B.wallets
    releasing B wallet do
      let cell ← orFail (RelayerExecuteMessage.toCell B.tonlib.keccak256
        ⟨messageId, sourceChain, message.message.sourceAddress, B.chainName, destinationAddress,
          hexEncode decodedBytes, wallet.address⟩) fun e => .genericError (.boc e)
      let boc ← orFail (B.tonlib.toBocHex cell) fun e => .genericError (.cell e)
      let value ← estimate (.executeSend decodedBytes.length)
      let action ← orFail (outAction B.tonlib.toTonlib boc value.toNat B.gatewayAddress)
        fun e => .genericError (.cell e)
      let res ← caught (sendToChain B wallet [action] none)
      return broadcastResult messageId sourceChain res

def broadcastRefundMessage (refundTask : RefundTaskFields) : Async String := do
  if refundTask.remainingGasBalance.tokenId.isSome then
    throw (.error (.genericError (.text "Refund task with token_id is not supported")))
  else
    let cleanedHash := match refundTask.message.messageId.toList with
      | '0' :: 'x' :: rest => String.ofList rest
      | _ => refundTask.message.messageId
    let txHash ← orFail (B.tonlib.hashFromHex cleanedHash) fun e => .genericError (.text e)
    let address ← orFail (B.tonlib.addressFromHexStr refundTask.refundRecipientAddress)
      fun e => .genericError (.text e)
    match parseBigUint refundTask.remainingGasBalance.amount with
    | none => throw (.error (.genericError
        (.text (amountError refundTask.remainingGasBalance.amount))))
    | some originalAmount =>
      let gasEstimate ← estimate .nativeGasRefundEstimate
      if originalAmount < gasEstimate.toNat then
        throw (.error (.insufficientGas "Not enough balance to cover gas for refund"))
      else
        let cell ← orFail (NativeRefundMessage.toCell
          ⟨txHash, address, originalAmount - gasEstimate.toNat⟩) fun e => .genericError (.boc e)
        let boc ← orFail (B.tonlib.toBocHex cell) fun e => .genericError (.cell e)
        let wallet ← acquire B B.wallets
        releasing B wallet do
          let action ← orFail (outAction B.tonlib.toTonlib boc refundDust B.gasServiceAddress)
            fun e => .genericError (.cell e)
          let res ← caught (sendToChain B wallet [action] none)
          return match res with
            | .ok response => response.messageHash
            | .error _ => ""

end Broadcasting

section Rules

variable {α β : Type} {log : List (Interaction Call Answer)}

theorem runs_call {c : Call} {r : Except Stop (Answer c)} :
    Runs (call c).run log r ↔ ∃ a, log = [⟨c, a⟩] ∧ r = .ok a := by
  rw [call, runs_lift]
  simp only [runs_ask]

theorem runs_stopping {x : Except Stop α} {r : Except Stop α} :
    Runs (stopping x).run log r ↔ log = [] ∧ r = x := runs_pure

theorem runs_call_then {c : Call} {f : Answer c → Async β} {r : Except Stop β} :
    Runs (call c >>= f).run log r ↔ ∃ a after, log = ⟨c, a⟩ :: after ∧ Runs (f a).run after r := by
  rw [runs_then]
  constructor
  · rintro (⟨e, h, -⟩ | ⟨before, a, after, rfl, h, hf⟩)
    · obtain ⟨_, -, he⟩ := runs_call.mp h
      cases he
    · obtain ⟨_, rfl, ha⟩ := runs_call.mp h
      cases ha
      exact ⟨a, after, rfl, hf⟩
  · rintro ⟨a, after, rfl, hf⟩
    exact .inr ⟨_, a, after, rfl, runs_call.mpr ⟨a, rfl, rfl⟩, hf⟩

theorem runs_stopping_then {x : Except Stop α} {f : α → Async β} {r : Except Stop β} :
    Runs (stopping x >>= f).run log r ↔
      (∃ e, x = .error e ∧ log = [] ∧ r = .error e) ∨ ∃ a, x = .ok a ∧ Runs (f a).run log r := by
  rw [runs_then]
  constructor
  · rintro (⟨e, h, rfl⟩ | ⟨before, a, after, rfl, h, hf⟩)
    · obtain ⟨rfl, he⟩ := runs_stopping.mp h
      exact .inl ⟨e, he.symm, rfl, rfl⟩
    · obtain ⟨rfl, ha⟩ := runs_stopping.mp h
      exact .inr ⟨a, ha.symm, hf⟩
  · rintro (⟨e, rfl, rfl, rfl⟩ | ⟨a, rfl, hf⟩)
    · exact .inl ⟨e, runs_stopping.mpr ⟨rfl, rfl⟩, rfl⟩
    · exact .inr ⟨[], a, log, rfl, runs_stopping.mpr ⟨rfl, rfl⟩, hf⟩

theorem runs_caught {x : Async α} {r : Except Stop (Except BroadcasterError α)} :
    Runs (caught x).run log r ↔ ∃ r', Runs x.run log r' ∧ r = caughtResult r' := by
  rw [show (caught x).run = x.run >>= fun r => pure (caughtResult r) from rfl, runs_bind]
  constructor
  · rintro ⟨before, r', after, rfl, hx, hpure⟩
    obtain ⟨rfl, rfl⟩ := runs_pure.mp hpure
    exact ⟨r', by simpa using hx, rfl⟩
  · rintro ⟨r', hx, rfl⟩
    exact ⟨log, r', [], by simp, hx, runs_pure.mpr ⟨rfl, rfl⟩⟩

theorem caughtResult_panic {r : Except Stop α} {message : String} :
    caughtResult r = .error (.panic message) ↔ r = .error (.panic message) := by
  rcases r with (e | message') | a <;> simp [caughtResult]

variable {P : Interaction Call Answer → Prop}

theorem emits_call {c : Call} (h : ∀ r, P ⟨c, r⟩) : Emits P (call c).run :=
  emits_lift (emits_ask h)

theorem emits_stopping (x : Except Stop α) : Emits P (stopping x).run := by
  intro log r h
  obtain ⟨rfl, -⟩ := runs_stopping.mp h
  simp

theorem emits_orFail {ε : Type} (x : Except ε α) (e : ε → BroadcasterError) :
    Emits P (orFail x e).run := emits_stopping _

theorem emits_caught {x : Async α} (h : Emits P x.run) : Emits P (caught x).run := by
  intro log r hrun
  obtain ⟨r', hx, -⟩ := runs_caught.mp hrun
  exact h log r' hx

end Rules

end Broadcasts
