import TonRelayer.RelayerExecute
import TonRelayer.TraceParsing
import Mathlib.Data.Nat.Size
import Mathlib.Data.List.Infix

/-! A refund on its way to the chain.
The refund is packed into a native-refund message, that into an action of a highload wallet, and
the wallet's message is posted, again and again while the chain says that its query id was used.
The query-id wrapper, the locks, the clock and the API answer as they like. -/
namespace RefundBroadcast

open ExceptRules Cells ByteEncodings RelayerExecute TransactionParsers TraceParsing

structure RefundTaskFields where
  message : GatewayV2Message
  refundRecipientAddress : String
  remainingGasBalance : Amount

structure Wallet where
  address : TonAddress
  subwalletId : UInt32
  timeout : UInt64

structure V3MessageResponse where
  messageHash : String
  messageHashNorm : String
  deriving DecidableEq, Repr

/-- What stands in the text of a generic error. -/
inductive Cause where
  | text (message : String)
  | boc (e : BocError)
  | cell (e : CellError)
  | send (e : SendFailure)
  deriving DecidableEq, Repr

inductive BroadcasterError where
  | genericError (cause : Cause)
  | rpcCallFailed (message : String)
  | insufficientGas (message : String)
  deriving DecidableEq, Repr

/-- What the wallet and the broadcaster use of `tonlib`, `nacl` and `base64`. -/
structure WalletTonlib extends Tonlib where
  hashFromHex : String → Except String Bytes32
  addressFromHexStr : String → Except String TonAddress
  display : TonAddress → String
  storeInt : CellBuilder → ℕ → ℤ → Except CellError CellBuilder
  storeNumber : CellBuilder → ℕ → ℤ → Except CellError CellBuilder
  /-- The signature of the cell's hash with the key of the wallet. -/
  signature : Wallet → Cell → Except CellError (List UInt8)
  /-- `Message::new` with the info of an external message, written to a cell. -/
  externalMessage : TonAddress → Cell → Except CellError Cell
  /-- `BagOfCells::from_root(..).serialize(true)` -/
  serialize : Cell → Except CellError (List UInt8)
  base64Encode : List UInt8 → String

structure TONBroadcaster where
  tonlib : WalletTonlib
  wallets : List Wallet
  gasServiceAddress : TonAddress
  nativeGasRefundEstimate : ℕ
  highloadWalletSend : ℕ → ℕ

/-- The answers to the calls that a broadcast makes, by the number of the call. -/
structure Environment where
  lock : ℕ → Bool
  queryId : ℕ → String → UInt64 → Bool → Except String ℕ
  now : ℕ → UInt64
  post : ℕ → String → Except String V3MessageResponse

section Messages

def opNativeRefund : ℕ := 0x00000046
def refundDust : ℕ := 10000000

structure NativeRefundMessage where
  txHash : Bytes32
  address : TonAddress
  amount : ℕ

/-- A byte count in four bits, then the amount. -/
def storeCoins (b : CellBuilder) (amount : ℕ) : Except CellError CellBuilder := do
  let n := (Nat.size amount + 7) / 8
  let b ← b.storeUint 4 n
  b.storeUint (8 * n) amount

def NativeRefundMessage.toCell (m : NativeRefundMessage) : Except BocError Cell := do
  let b : CellBuilder := {}
  let b ← encoding (b.storeUint 32 opNativeRefund)
  let b ← encoding (storeBytes b m.txHash.toList)
  let b ← encoding (storeCoins (b.storeAddress m.address) m.amount)
  encoding b.build

/-- The body of the external message. Machine subtraction wraps where the clock is near zero. -/
def messageInner (T : WalletTonlib) (wallet : Wallet) (message : Cell) (queryId : ℕ)
    (now : UInt64) : Except CellError Cell := do
  let b : CellBuilder := {}
  let b ← b.storeUint 32 wallet.subwalletId.toNat
  let b ← b.storeReference message
  let b ← b.storeUint 8 sendModeIgnoreErrors.toNat
  let b ← T.storeInt b 23 queryId
  let b ← b.storeUint 64 (now - wallet.timeout / 60).toNat
  let b ← T.storeNumber b 22 wallet.timeout.toNat
  b.build

def signExternalBody (T : WalletTonlib) (wallet : Wallet) (externalBody : Cell) :
    Except CellError Cell := do
  let sign ← T.signature wallet externalBody
  let b ← storeBytes {} sign
  let b ← b.storeReference externalBody
  b.build

def outgoingMessage (T : WalletTonlib) (wallet : Wallet) (actions : List OutAction) (queryId : ℕ)
    (value : ℕ) (now : UInt64) : Except SendFailure Cell := do
  let body ← internalTransferBody T.toTonlib actions (UInt64.ofNat queryId)
  Except.mapError .cell do
    let transfer ← T.transferMessage (internalMessage value wallet.address) body
    let inner ← messageInner T wallet transfer queryId now
    let signedBody ← signExternalBody T wallet inner
    T.externalMessage wallet.address signedBody

end Messages

section Sending

structure Post where
  boc : String
  reply : Except String V3MessageResponse

/-- The posts of a `send_to_chain`, and what it returns. -/
structure Sending where
  posts : List Post
  result : Except BroadcasterError V3MessageResponse

def highloadWalletAlreadyExecuted : String := "THROWIF 36"

def alreadyExecuted (error : String) : Bool :=
  decide (highloadWalletAlreadyExecuted.toList <:+: error.toList)

variable (B : TONBroadcaster) (E : Environment) (wallet : Wallet) (actions : List OutAction)

/-- The message of the `i`-th attempt; only the first one leaves the query id unforced. -/
def messageBoc (forced : Bool) (i : ℕ) : Except BroadcasterError String :=
  match E.queryId i (B.tonlib.display wallet.address) wallet.timeout forced with
  | .error e => .error (.genericError (.text ("Query Id acquiring failed: " ++ e)))
  | .ok queryId =>
    match outgoingMessage B.tonlib wallet actions queryId (B.highloadWalletSend actions.length)
        (E.now i) with
    | .error e => .error (.genericError (.send e))
    | .ok message => match B.tonlib.serialize message with
      | .error e => .error (.genericError (.cell e))
      | .ok tx => .ok (B.tonlib.base64Encode tx)

/-- One call of `send_to_chain`; `again` is the next one, if there are retries left. -/
def sendOnce (forced : Bool) (i : ℕ) (again : Option Sending) : Sending :=
  match messageBoc B E wallet actions forced i with
  | .error e => ⟨[], .error e⟩
  | .ok boc => match E.post i boc with
    | .ok response => ⟨[⟨boc, .ok response⟩], .ok response⟩
    | .error e => match (if alreadyExecuted e then again else none) with
      | some rest => ⟨⟨boc, .error e⟩ :: rest.posts, rest.result⟩
      | none => ⟨[⟨boc, .error e⟩], .error (.rpcCallFailed e)⟩

/-- With `Some(r)` retries left. -/
def sendRetries : ℕ → ℕ → Sending
  | 0, i => sendOnce B E wallet actions true i none
  | r + 1, i => sendOnce B E wallet actions true i (some (sendRetries r (i + 1)))

/-- With `None` as `retries_left`, which turns into `Some(10)`. -/
def sendToChain : Sending :=
  sendOnce B E wallet actions false 0 (some (sendRetries B E wallet actions 10 1))

end Sending

section Broadcast

variable (B : TONBroadcaster) (E : Environment) (task : RefundTaskFields)

/-- The text of `ParseBigIntError`. -/
def amountError (amount : String) : String :=
  if amount = "" ∨ amount = "+" then "cannot parse integer from empty string"
  else "invalid digit found in string"

/-- What comes before the wallet is acquired: the refund as a bag of cells. -/
def refundBoc : Except BroadcasterError String :=
  if task.remainingGasBalance.tokenId.isSome then
    .error (.genericError (.text "Refund task with token_id is not supported"))
  else
    let cleanedHash := match task.message.messageId.toList with
      | '0' :: 'x' :: rest => String.ofList rest
      | _ => task.message.messageId
    match B.tonlib.hashFromHex cleanedHash with
    | .error e => .error (.genericError (.text e))
    | .ok txHash => match B.tonlib.addressFromHexStr task.refundRecipientAddress with
      | .error e => .error (.genericError (.text e))
      | .ok address => match parseBigUint task.remainingGasBalance.amount with
        | none => .error (.genericError (.text (amountError task.remainingGasBalance.amount)))
        | some original =>
          if original < B.nativeGasRefundEstimate then
            .error (.insufficientGas "Not enough balance to cover gas for refund")
          else match NativeRefundMessage.toCell
              ⟨txHash, address, original - B.nativeGasRefundEstimate⟩ with
            | .error e => .error (.genericError (.boc e))
            | .ok cell => match B.tonlib.toBocHex cell with
              | .error e => .error (.genericError (.cell e))
              | .ok boc => .ok boc

/-- The first wallet whose lock is obtained. -/
def acquire : Except BroadcasterError Wallet :=
  match B.wallets.zipIdx.find? fun w => E.lock w.2 with
  | some (wallet, _) => .ok wallet
  | none => .error (.genericError (.text "Wallet acquire failed: NoAvailableWallet"))

def refundAction (boc : String) : Except BroadcasterError OutAction :=
  (outAction B.tonlib.toTonlib boc refundDust B.gasServiceAddress).mapError
    fun e => .genericError (.cell e)

/-- What is sent: the wallet and the action for it. -/
def prepared : Except BroadcasterError (Wallet × OutAction) := do
  let boc ← refundBoc B task
  let wallet ← acquire B E
  let action ← refundAction B boc
  return (wallet, action)

/-- The call of `send_to_chain`, if the broadcast gets that far. -/
def sending : Except BroadcasterError Sending := do
  let (wallet, action) ← prepared B E task
  return sendToChain B E wallet [action]

/-- The status of the sending is dropped; releasing the wallet returns nothing. -/
def broadcastRefundMessage : Except BroadcasterError String := do
  let sent ← sending B E task
  match sent.result with
  | .ok response => return response.messageHash
  | .error _ => return ""

def posts : List Post :=
  match sending B E task with
  | .ok sent => sent.posts
  | .error _ => []

end Broadcast

section Attempts

variable {B : TONBroadcaster} {E : Environment} {wallet : Wallet} {actions : List OutAction}
variable {forced : Bool} {i : ℕ} {again : Option Sending} {response : V3MessageResponse}

/-- The attempt is posted and accepted. -/
def Accepts (B : TONBroadcaster) (E : Environment) (wallet : Wallet) (actions : List OutAction)
    (forced : Bool) (i : ℕ) : Prop :=
  ∃ boc response, messageBoc B E wallet actions forced i = .ok boc ∧ E.post i boc = .ok response

/-- The attempt is posted, and the answer names the exit code of a used query id. -/
def Executed (B : TONBroadcaster) (E : Environment) (wallet : Wallet) (actions : List OutAction)
    (forced : Bool) (i : ℕ) : Prop :=
  ∃ boc e, messageBoc B E wallet actions forced i = .ok boc ∧ E.post i boc = .error e ∧
    alreadyExecuted e = true

theorem sendOnce_cases (B : TONBroadcaster) (E : Environment) (wallet : Wallet)
    (actions : List OutAction) (forced : Bool) (i : ℕ) (again : Option Sending) :
    (∃ boc response, messageBoc B E wallet actions forced i = .ok boc ∧
      E.post i boc = .ok response ∧
      sendOnce B E wallet actions forced i again = ⟨[⟨boc, .ok response⟩], .ok response⟩) ∨
    (∃ boc e rest, messageBoc B E wallet actions forced i = .ok boc ∧ E.post i boc = .error e ∧
      alreadyExecuted e = true ∧ again = some rest ∧
      sendOnce B E wallet actions forced i again = ⟨⟨boc, .error e⟩ :: rest.posts, rest.result⟩) ∨
    (¬ Accepts B E wallet actions forced i ∧
      (Executed B E wallet actions forced i → again = none) ∧
      ∃ posts e, sendOnce B E wallet actions forced i again = ⟨posts, .error e⟩) := by
  rw [sendOnce]
  cases hboc : messageBoc B E wallet actions forced i with
  | error e =>
    refine .inr (.inr ⟨?_, ?_, [], e, rfl⟩)
    · rintro ⟨boc, response, hboc', -⟩
      cases hboc.symm.trans hboc'
    · rintro ⟨boc, e, hboc', -⟩
      cases hboc.symm.trans hboc'
  | ok boc =>
    dsimp only
    cases hpost : E.post i boc with
    | ok response => exact .inl ⟨boc, response, rfl, hpost, rfl⟩
    | error e =>
      have hnot : ¬ Accepts B E wallet actions forced i := by
        rintro ⟨boc', response, hboc', hpost'⟩
        cases hboc.symm.trans hboc'
        cases hpost.symm.trans hpost'
      by_cases he : alreadyExecuted e = true
      · cases again with
        | some rest => exact .inr (.inl ⟨boc, e, rest, rfl, hpost, he, rfl, by simp [he]⟩)
        | none =>
          refine .inr (.inr ⟨hnot, fun _ => rfl, [⟨boc, .error e⟩], .rpcCallFailed e, ?_⟩)
          simp
      · refine .inr (.inr ⟨hnot, ?_, [⟨boc, .error e⟩], .rpcCallFailed e, by simp [he]⟩)
        rintro ⟨boc', e', hboc', hpost', he'⟩
        cases hboc.symm.trans hboc'
        cases hpost.symm.trans hpost'
        exact absurd he' he

theorem sendOnce_ok_iff : (∃ r, (sendOnce B E wallet actions forced i again).result = .ok r) ↔
    Accepts B E wallet actions forced i ∨
      (Executed B E wallet actions forced i ∧ ∃ rest ∈ again, ∃ r, rest.result = .ok r) := by
  rcases sendOnce_cases B E wallet actions forced i again with
    ⟨boc, response, hboc, hpost, heq⟩ | ⟨boc, e, rest, hboc, hpost, he, hagain, heq⟩ |
      ⟨hnot, hnone, posts, e, heq⟩
  · rw [heq]
    exact ⟨fun _ => .inl ⟨boc, response, hboc, hpost⟩, fun _ => ⟨response, rfl⟩⟩
  · rw [heq, hagain]
    constructor
    · rintro ⟨r, hr⟩
      exact .inr ⟨⟨boc, e, hboc, hpost, he⟩, rest, rfl, r, hr⟩
    · rintro (⟨boc', response, hboc', hpost'⟩ | ⟨-, rest', hrest, hr⟩)
      · cases hboc.symm.trans hboc'
        cases hpost.symm.trans hpost'
      · cases hrest
        exact hr
  · rw [heq]
    constructor
    · rintro ⟨r, hr⟩
      cases hr
    · rintro (haccepts | ⟨hexecuted, rest, hrest, -⟩)
      · exact absurd haccepts hnot
      · rw [hnone hexecuted] at hrest
        cases hrest

/-- The end of a wait is now, or it is that of the wait from the next step on. -/
theorem wait_succ {P Q : ℕ → Prop} {n : ℕ} :
    (∃ k ≤ n + 1, (∀ j < k, Q j) ∧ P k) ↔
      P 0 ∨ (Q 0 ∧ ∃ k ≤ n, (∀ j < k, Q (j + 1)) ∧ P (k + 1)) := by
  constructor
  · rintro ⟨k, hk, hall, hP⟩
    cases k with
    | zero => exact .inl hP
    | succ k =>
      refine .inr ⟨hall 0 (by omega), k, by omega, ?_, hP⟩
      intro j hj
      exact hall (j + 1) (by omega)
  · rintro (hP | ⟨hQ, k, hk, hall, hP⟩)
    · exact ⟨0, by omega, by simp, hP⟩
    · refine ⟨k + 1, by omega, ?_, hP⟩
      intro j hj
      cases j with
      | zero => exact hQ
      | succ j => exact hall j (by omega)

/-- The sending succeeds with the first answer that is not an executed query id, if it is an
acceptance and comes in time. -/
theorem sendRetries_ok_iff (n i : ℕ) : (∃ r, (sendRetries B E wallet actions n i).result = .ok r) ↔
    ∃ k ≤ n, (∀ j < k, Executed B E wallet actions true (i + j)) ∧
      Accepts B E wallet actions true (i + k) := by
  induction n generalizing i with
  | zero =>
    rw [sendRetries, sendOnce_ok_iff]
    constructor
    · rintro (haccepts | ⟨-, rest, hrest, -⟩)
      · exact ⟨0, le_rfl, by simp, haccepts⟩
      · cases hrest
    · rintro ⟨k, hk, -, haccepts⟩
      obtain rfl : k = 0 := by omega
      exact .inl haccepts
  | succ n ih =>
    rw [sendRetries, sendOnce_ok_iff, wait_succ]
    simp only [Option.mem_some_iff, exists_eq_left', ih, Nat.add_zero, Nat.add_assoc,
      Nat.add_comm 1]

/-- One of the first twelve attempts is accepted, and those before it met a used query id. -/
def AcceptedInTime (B : TONBroadcaster) (E : Environment) (wallet : Wallet)
    (actions : List OutAction) : Prop :=
  ∃ k ≤ 11, (∀ j < k, Executed B E wallet actions (j != 0) j) ∧
    Accepts B E wallet actions (k != 0) k

theorem sendToChain_ok_iff : (∃ r, (sendToChain B E wallet actions).result = .ok r) ↔
    AcceptedInTime B E wallet actions := by
  have hforced (k : ℕ) : (k + 1 != 0) = true := by simp
  rw [sendToChain, sendOnce_ok_iff, AcceptedInTime, wait_succ]
  simp only [Option.mem_some_iff, exists_eq_left', sendRetries_ok_iff, hforced, Nat.add_comm 1]
  rfl

/-- What was accepted is what was posted last. -/
theorem sendOnce_posted {P : String → Prop}
    (hP : ∀ boc, messageBoc B E wallet actions forced i = .ok boc → P boc)
    (hagain : ∀ rest ∈ again, rest.result = .ok response →
      ∃ post ∈ rest.posts, P post.boc ∧ post.reply = .ok response)
    (h : (sendOnce B E wallet actions forced i again).result = .ok response) :
    ∃ post ∈ (sendOnce B E wallet actions forced i again).posts,
      P post.boc ∧ post.reply = .ok response := by
  rcases sendOnce_cases B E wallet actions forced i again with
    ⟨boc, response', hboc, -, heq⟩ | ⟨boc, e, rest, -, -, -, hrest, heq⟩ | ⟨-, -, posts, e, heq⟩
  · rw [heq] at h ⊢
    cases h
    exact ⟨_, List.mem_singleton_self _, hP boc hboc, rfl⟩
  · rw [heq] at h ⊢
    obtain ⟨post, hpost, hposted⟩ := hagain rest hrest h
    exact ⟨post, List.mem_cons_of_mem _ hpost, hposted⟩
  · rw [heq] at h
    cases h

/-- The text is the message of some attempt. -/
def Attempted (B : TONBroadcaster) (E : Environment) (wallet : Wallet) (actions : List OutAction)
    (boc : String) : Prop :=
  ∃ forced i, messageBoc B E wallet actions forced i = .ok boc

theorem sendRetries_posted (n i : ℕ)
    (h : (sendRetries B E wallet actions n i).result = .ok response) :
    ∃ post ∈ (sendRetries B E wallet actions n i).posts,
      Attempted B E wallet actions post.boc ∧ post.reply = .ok response := by
  induction n generalizing i with
  | zero =>
    rw [sendRetries] at h ⊢
    apply sendOnce_posted (fun boc hboc => ⟨true, i, hboc⟩) _ h
    intro rest hrest
    cases hrest
  | succ n ih =>
    rw [sendRetries] at h ⊢
    apply sendOnce_posted (fun boc hboc => ⟨true, i, hboc⟩) _ h
    intro rest hrest hresult
    cases hrest
    exact ih (i + 1) hresult

theorem sendToChain_posted (h : (sendToChain B E wallet actions).result = .ok response) :
    ∃ post ∈ (sendToChain B E wallet actions).posts,
      Attempted B E wallet actions post.boc ∧ post.reply = .ok response := by
  rw [sendToChain] at h ⊢
  apply sendOnce_posted (fun boc hboc => ⟨false, 0, hboc⟩) _ h
  intro rest hrest hresult
  cases hrest
  exact sendRetries_posted 10 1 hresult

end Attempts

section Reports

variable {B : TONBroadcaster} {E : Environment} {task : RefundTaskFields}

/-- The posted text is a wallet message with the action that holds the refund of this task. -/
def CarriesRefund (B : TONBroadcaster) (E : Environment) (task : RefundTaskFields)
    (boc : String) : Prop :=
  ∃ wallet action queryId now message tx, prepared B E task = .ok (wallet, action) ∧
    outgoingMessage B.tonlib wallet [action] queryId (B.highloadWalletSend 1) now = .ok message ∧
    B.tonlib.serialize message = .ok tx ∧ boc = B.tonlib.base64Encode tx

/-- A hash is reported only for a post that was accepted with it, and a failed sending is. -/
structure ReportsRefund (B : TONBroadcaster) (E : Environment) (task : RefundTaskFields) :
    Prop where
  accepted : ∀ h, broadcastRefundMessage B E task = .ok h → ∃ post ∈ posts B E task,
    CarriesRefund B E task post.boc ∧ ∃ response, post.reply = .ok response ∧
      response.messageHash = h
  failed : ∀ sent e, sending B E task = .ok sent → sent.result = .error e →
    ∃ e', broadcastRefundMessage B E task = .error e'

theorem messageBoc_carries {wallet : Wallet} {action : OutAction} {boc : String}
    (hprepared : prepared B E task = .ok (wallet, action))
    (h : Attempted B E wallet [action] boc) : CarriesRefund B E task boc := by
  obtain ⟨forced, i, h⟩ := h
  rw [messageBoc] at h
  cases hid : E.queryId i (B.tonlib.display wallet.address) wallet.timeout forced with
  | error e =>
    rw [hid] at h
    cases h
  | ok queryId =>
    rw [hid] at h
    dsimp only at h
    split at h
    · cases h
    · rename_i message hmessage
      split at h
      · cases h
      · rename_i tx htx
        cases h
        exact ⟨wallet, action, queryId, E.now i, message, tx, hprepared, hmessage, htx, rfl⟩

theorem broadcast_unprepared {e : BroadcasterError} (h : prepared B E task = .error e) :
    sending B E task = .error e ∧ broadcastRefundMessage B E task = .error e := by
  have hsending : sending B E task = .error e := by
    rw [sending, h]
    rfl
  refine ⟨hsending, ?_⟩
  rw [broadcastRefundMessage, hsending]
  rfl

/-- A prepared refund is sent, and some hash is reported for it. -/
theorem broadcast_prepared {wallet : Wallet} {action : OutAction}
    (h : prepared B E task = .ok (wallet, action)) :
    sending B E task = .ok (sendToChain B E wallet [action]) ∧
      broadcastRefundMessage B E task = .ok (match (sendToChain B E wallet [action]).result with
        | .ok response => response.messageHash
        | .error _ => "") := by
  have hsending : sending B E task = .ok (sendToChain B E wallet [action]) := by
    rw [sending, h]
    rfl
  refine ⟨hsending, ?_⟩
  rw [broadcastRefundMessage, hsending, ok_bind]
  cases (sendToChain B E wallet [action]).result <;> rfl

end Reports

section Sample

def sampleTask : RefundTaskFields where
  message := {
    messageId := "0x0707070707070707070707070707070707070707070707070707070707070707"
    sourceChain := "avalanche-fuji"
    destinationAddress := "0:b87a4a0f644b7a186ee71a1454634f70c22a62aca1a6ba676b5175c21d7fd930"
    sourceAddress := "ton2"
    payloadHash := "aea6524367000fb4a0aa20b1d4f63daad1ed9e9df70=" }
  refundRecipientAddress := "0:0505050505050505050505050505050505050505050505050505050505050505"
  remainingGasBalance := ⟨none, "1042"⟩

def bytes32FromHex (s : List Char) : Except String Bytes32 :=
  match hexDecodeChars s with
  | some bytes => if h : bytes.length = 32 then .ok ⟨bytes, h⟩ else .error "invalid length"
  | none => .error "invalid hex"

/-- Of the base workchain only. -/
def baseAddressFromHex : List Char → Except String TonAddress
  | '0' :: ':' :: hash => (bytes32FromHex hash).map (⟨0, ·⟩)
  | _ => .error "invalid address"

def sampleRefund : NativeRefundMessage :=
  ⟨List.Vector.replicate 32 7, ⟨0, List.Vector.replicate 32 5⟩, 1000⟩

def sampleRefundHex : String :=
  "b5ee9c7241010101004a00008f0000004607070707070707070707070707070707070707070707070707070707" ++
  "070707078000a0a0a0a0a0a0a0a0a0a0a0a0a0a0a0a0a0a0a0a0a0a0a0a0a0a0a0a0a0a0a0a407d1bc73b397"

/-- The wallet message is never built here. -/
def sampleWalletTonlib : WalletTonlib :=
  { sampleEncoder with
    toBocHex := fun _ => .ok sampleRefundHex
    fromBocHex := fun boc =>
      if boc = sampleRefundHex then sampleRefund.toCell.mapError fun _ => .badBoc
      else .error .badBoc
    hashFromHex := fun s => bytes32FromHex s.toList
    addressFromHexStr := fun s => baseAddressFromHex s.toList
    display := fun _ => "EQACAgICAgICAgICAgICAgICAgICAgICAgICAgICAgICAsoi"
    storeInt := fun b n x => b.storeUint n x.toNat
    storeNumber := fun b n x => b.storeUint n x.toNat
    signature := fun _ _ => .error .badBoc
    externalMessage := fun _ _ => .error .badBoc
    serialize := fun _ => .error .badBoc
    base64Encode := fun _ => "" }

def sampleBroadcaster : TONBroadcaster where
  tonlib := sampleWalletTonlib
  wallets := [⟨⟨0, List.Vector.replicate 32 2⟩, 698983, 3600⟩]
  gasServiceAddress := ⟨0, List.Vector.replicate 32 15⟩
  nativeGasRefundEstimate := 42
  highloadWalletSend := fun _ => 1024

/-- The wallet has used up its query ids. -/
def usedUp : Environment where
  lock := fun _ => true
  queryId := fun _ _ _ _ => .error "NoNextQueryId"
  now := fun _ => 1000000
  post := fun _ _ => .ok ⟨"abc", "ABC"⟩

end Sample

end RefundBroadcast
