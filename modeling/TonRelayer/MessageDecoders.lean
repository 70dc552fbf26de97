import TonRelayer.RelayerExecute
import Mathlib.Data.Nat.Digits.Defs

/-! The decoders of the logs and messages that the contracts emit.
A decoder reads the bits and the references of one cell, each from the front; reading a string
or a buffer follows the reference it takes. -/
namespace MessageDecoders

open ExceptRules Cells ByteEncodings

abbrev Decoder := StateT CellParser (Except BocError)

def load {α : Type} (parse : Parser α) : Decoder α := fun p => parsing (parse p)

def loadString : Decoder String := do
  let c ← load nextReference
  cellToString c

def loadBuffer : Decoder (List UInt8) := do
  let c ← load nextReference
  return cellToBuffer c

section Reading

variable {α β : Type} {refs : List Cell} {c : Cell}

theorem decoder_bind (x : Decoder α) (f : α → Decoder β) (p : CellParser) :
    (x >>= f) p = x p >>= fun r => f r.1 r.2 := rfl

theorem load_nextReference (bits : List Bool) :
    load nextReference ⟨bits, c :: refs⟩ = .ok (c, ⟨bits, refs⟩) := rfl

theorem load_loadUint {n : ℕ} {bits : List Bool} (h : n ≤ bits.length) :
    load (loadUint n) ⟨bits, refs⟩ = .ok (bitsToNat (bits.take n), ⟨bits.drop n, refs⟩) := by
  rw [load, loadUint_ok h]
  rfl

theorem load_parseCell {parse : Parser α} {a : α} {rest : CellParser}
    (h : parse c.parser = .ok (a, rest)) (p : CellParser) :
    load (parseCell c parse) p = .ok (a, p) := by
  rw [load, parseCell, h]
  rfl

theorem loadString_ok {text : String} (h : cellToString c = .ok text) (bits : List Bool) :
    loadString ⟨bits, c :: refs⟩ = .ok (text, ⟨bits, refs⟩) := by
  rw [loadString, decoder_bind, load_nextReference, ok_bind]
  dsimp only
  rw [h]
  rfl

theorem loadBuffer_ok (bits : List Bool) :
    loadBuffer ⟨bits, c :: refs⟩ = .ok (cellToBuffer c, ⟨bits, refs⟩) := rfl

/-- What was read, when reading succeeds. -/
theorem decoder_ok {x : Decoder α} {f : α → Decoder β} {p : CellParser} {r : β × CellParser}
    (h : (x >>= f) p = .ok r) : ∃ a p', x p = .ok (a, p') ∧ f a p' = .ok r := by
  obtain ⟨⟨a, p'⟩, hx, hf⟩ := bind_eq_ok.mp h
  exact ⟨a, p', hx, hf⟩

theorem loadUint_eq_ok {n v : ℕ} {p p' : CellParser} (h : load (loadUint n) p = .ok (v, p')) :
    v = bitsToNat (p.bits.take n) ∧ p' = ⟨p.bits.drop n, p.references⟩ := by
  by_cases hn : n ≤ p.bits.length
  · rw [load_loadUint hn] at h
    cases h
    exact ⟨rfl, rfl⟩
  · have hrun : loadUint n p = loadBits n p >>= fun r => .ok (bitsToNat r.1, r.2) := rfl
    rw [load, hrun, loadBits, if_neg hn] at h
    cases h

theorem nextReference_eq_ok {p p' : CellParser} (h : load nextReference p = .ok (c, p')) :
    p' = ⟨p.bits, p.references.tail⟩ := by
  obtain ⟨bits, refs⟩ := p
  cases refs with
  | nil => cases h
  | cons c' refs =>
    cases h
    rfl

end Reading

def fromBocB64 {α : Type} (boc : String → Except CellError Cell) (decode : Decoder α)
    (text : String) : Except BocError α := do
  let cell ← parsing (boc text)
  let (message, _) ← decode cell.parser
  return message

theorem fromBocB64_eq {α : Type} {boc : String → Except CellError Cell} {decode : Decoder α}
    {text : String} {c : Cell} (hboc : boc text = .ok c) :
    fromBocB64 boc decode text = decode c.parser >>= fun r => .ok r.1 := by
  rw [fromBocB64, hboc]
  rfl

/-- A message is read exactly when its decoder accepts the root cell. -/
theorem fromBocB64_eq_ok {α : Type} {boc : String → Except CellError Cell} {decode : Decoder α}
    {text : String} {c : Cell} {m : α} (hboc : boc text = .ok c) :
    fromBocB64 boc decode text = .ok m ↔ ∃ p, decode c.parser = .ok (m, p) := by
  rw [fromBocB64_eq hboc, bind_eq_ok]
  constructor
  · rintro ⟨⟨m', p⟩, hdecode, hm⟩
    cases hm
    exact ⟨p, hdecode⟩
  · rintro ⟨p, hdecode⟩
    exact ⟨(m, p), hdecode, rfl⟩

section OpCodes

def opNullifiedSuccessfully : UInt32 := 0x00000005
def opMessageApproved : UInt32 := 0x0000000D
def opGatewayExecute : UInt32 := 0x0000000C
def opCallContract : UInt32 := 0x00000009
def opPayGas : UInt32 := 0x00000045
def opPayNativeGasForContractCall : UInt32 := 0x0000001F
def opAddNativeGas : UInt32 := 0x00000036
def opNativeRefund : UInt32 := 0x00000046
def opTransferNotification : UInt32 := 0x7362d09c
def opTokenMetadataRegisteredLog : UInt32 := 0x00000104
def opRegisterTokenMetadata : UInt32 := 0x00000101
def opLinkTokenStartedLog : UInt32 := 0x00000105
def opInterchainTokenDeploymentStartedLog : UInt32 := 0x00000107
def opInterchainTransferLog : UInt32 := 0x00000110
def opSignersRotatedLog : UInt32 := 0x0000002A

/-- `{:08X}` -/
def format08X (n : UInt32) : String :=
  (String.ofList (List.leftpad 8 '0' (Nat.toDigits 16 n.toNat))).toUpper

def bytesToNat (bytes : List UInt8) : ℕ := bitsToNat (bytesBits bytes)

def compareOpCode (expected : UInt32) (opCode : List UInt8) : Bool :=
  decide (opCode.length = 4) && decide (bytesToNat opCode = expected.toNat)

def checkOpCode (expected : UInt32) : Decoder Unit := do
  let opCode ← load (loadBytes 4)
  if compareOpCode expected opCode then return ()
  else throw (.invalidOpCode
    ("Expected " ++ format08X expected ++ ", got " ++ hexEncode opCode))

theorem load_opCode {refs : List Cell} (n : ℕ) (body : List Bool) :
    load (loadBytes 4) ⟨natToBits 32 n ++ body, refs⟩ =
      .ok (bitsData (natToBits 32 n) 4, ⟨body, refs⟩) := by
  have hrun (p : CellParser) :
      loadBytes 4 p = loadBits (8 * 4) p >>= fun r => .ok (bitsData r.1 4, r.2) := rfl
  rw [load, hrun, loadBits_ok (by simp)]
  simp [ok_bind, parsing, Except.mapError]

/-- The op code of a log is recognised from its 32 bits. -/
theorem checkOpCode_ok {refs : List Cell} (expected : UInt32) (body : List Bool) :
    checkOpCode expected ⟨natToBits 32 expected.toNat ++ body, refs⟩ = .ok ((), ⟨body, refs⟩) := by
  have hcompare : compareOpCode expected (bitsData (natToBits 32 expected.toNat) 4) = true := by
    rw [compareOpCode, bytesToNat, bytesBits_bitsData (by simp), bitsData_length,
      bitsToNat_natToBits expected.toNat_lt]
    simp
  rw [checkOpCode, decoder_bind, load_opCode, ok_bind]
  simp only [hcompare, if_true]
  rfl

theorem checkOpCode_eq_ok {expected : UInt32} {p p' : CellParser} {u : Unit}
    (h : checkOpCode expected p = .ok (u, p')) : p' = ⟨p.bits.drop 32, p.references⟩ := by
  obtain ⟨opCode, p₁, hload, h⟩ := decoder_ok h
  have hp₁ : p₁ = ⟨p.bits.drop 32, p.references⟩ := by
    have hrun : loadBytes 4 p = loadBits 32 p >>= fun r => .ok (bitsData r.1 4, r.2) := rfl
    rw [load, parsing, mapError_eq_ok, hrun] at hload
    obtain ⟨r, hbits, hr⟩ := bind_eq_ok.mp hload
    rw [loadBits] at hbits
    split at hbits
    · cases hbits
      cases hr
      rfl
    · cases hbits
  split at h
  · cases h
    exact hp₁
  · cases h

end OpCodes

/-- `TonAddress::from_str` of `0:` and hex digits takes exactly 64 digits. -/
def addressFromHex (digits : String) : Except BocError TonAddress :=
  match hexDecode digits with
  | some bytes =>
    if h : bytes.length = 32 then .ok ⟨0, ⟨bytes, h⟩⟩ else .error (.bocParsingError .badAddress)
  | none => .error (.bocParsingError .badAddress)

/-- `BigUint::to_bytes_be` -/
def toBytesBe (n : ℕ) : List UInt8 :=
  if n = 0 then [0] else (Nat.digits 256 n).reverse.map UInt8.ofNat

structure CallContractMessage where
  destinationChain : String
  destinationAddress : String
  payload : String
  sourceAddress : TonAddress
  payloadHash : Bytes32

def CallContractMessage.decode : Decoder CallContractMessage := do
  let destinationChain ← loadString
  let destinationAddress ← loadString
  let payload ← loadBuffer
  let sourceAddress ← load loadAddress
  let payloadHash ← load loadBytes32
  return {
    destinationChain, destinationAddress, payload := hexEncode payload, sourceAddress,
    payloadHash }

structure TonCCMessage where
  messageId : String
  destinationAddress : String
  destinationChain : String
  sourceAddress : String
  sourceChain : String
  logEvent : String
  payloadHash : Bytes32

def TonCCMessage.decode : Decoder TonCCMessage := do
  let messageId ← loadString
  let sourceChain ← loadString
  let sourceAddress ← loadString
  let innerCell ← load nextReference
  let (payloadHash, inner) ← parsing (loadBytes32 innerCell.parser)
  let (destinationAddress, inner) ← parsing (nextReference inner)
  let destinationAddress := cellToBuffer destinationAddress
  if h : destinationAddress.length = 32 then
    let (destinationChain, _) ← parsing (nextReference inner)
    let destinationChain ← cellToString destinationChain
    return {
      messageId, sourceChain, sourceAddress, destinationChain,
      destinationAddress := toHex ⟨0, ⟨destinationAddress, h⟩⟩, logEvent := "", payloadHash }
  else throw (.bocParsingError (.text "Invalid hash length"))

structure LogITSInterchainTokenDeploymentStartedMessage where
  destinationChain : String
  tokenId : ℕ
  tokenName : String
  tokenSymbol : String
  decimals : ℕ

/-- The minter's reference has to be there; whether it holds an address is not looked at. -/
def LogITSInterchainTokenDeploymentStartedMessage.decode :
    Decoder LogITSInterchainTokenDeploymentStartedMessage := do
  checkOpCode opInterchainTokenDeploymentStartedLog
  let tokenId ← load (loadUint 256)
  let tokenName ← loadString
  let tokenSymbol ← loadString
  let decimals ← load (loadUint 8)
  let _ ← load nextReference
  let destinationChain ← loadString
  return { destinationChain, tokenId, tokenName, tokenSymbol, decimals }

structure LogITSInterchainTransferMessage where
  tokenId : ℕ
  senderAddress : TonAddress
  destinationChain : String
  destinationAddress : String
  jettonAmount : ℕ
  data : List UInt8

def LogITSInterchainTransferMessage.decode : Decoder LogITSInterchainTransferMessage := do
  checkOpCode opInterchainTransferLog
  let tokenId ← load (loadUint 256)
  let senderCell ← load nextReference
  let sender ← load (parseCell senderCell (loadUint 256))
  let senderAddress ← addressFromHex (toStrRadix16 sender)
  let destinationChain ← loadString
  let destinationAddress ← loadBuffer
  let jettonAmount ← load (loadUint 256)
  let dataCell ← load nextReference
  return {
    tokenId, senderAddress, destinationChain,
    destinationAddress := "0x" ++ hexEncode destinationAddress, jettonAmount,
    data := dataCell.data }

inductive TokenManagerType where
  | nativeInterchainToken
  | mintBurnFrom
  | lockUnlock
  | lockUnlockFee
  | mintBurn
  deriving DecidableEq, Repr

structure LogITSLinkTokenStartedMessage where
  tokenId : ℕ
  destinationChain : String
  sourceTokenAddress : TonAddress
  destinationTokenAddress : String
  tokenManagerType : TokenManagerType

def tokenManagerTypeOf : ℕ → Except BocError TokenManagerType
  | 0 => .ok .nativeInterchainToken
  | 1 => .ok .mintBurnFrom
  | 2 => .ok .lockUnlock
  | 3 => .ok .lockUnlockFee
  | 4 => .ok .mintBurn
  | other => .error (.bocParsingError (.text ("Invalid token manager type " ++ toString other)))

def LogITSLinkTokenStartedMessage.decode : Decoder LogITSLinkTokenStartedMessage := do
  checkOpCode opLinkTokenStartedLog
  let tokenId ← load (loadUint 256)
  let destinationChain ← loadString
  let sourceCell ← load nextReference
  let source ← load (parseCell sourceCell (loadUint 256))
  let sourceTokenAddress ← addressFromHex (toStrRadix16 source)
  let destinationTokenAddress ← loadBuffer
  let kind ← load (loadUint 8)
  let tokenManagerType ← tokenManagerTypeOf kind
  return {
    tokenId, destinationChain, sourceTokenAddress,
    destinationTokenAddress := "0x" ++ hexEncode destinationTokenAddress, tokenManagerType }

structure LogTokenMetadataRegisteredMessage where
  address : TonAddress
  decimals : ℕ

/-- The decimals are read as a signed byte and converted back to an unsigned one. -/
def LogTokenMetadataRegisteredMessage.decode : Decoder LogTokenMetadataRegisteredMessage := do
  checkOpCode opTokenMetadataRegisteredLog
  let address ← load loadAddress
  let decimals ← load (loadInt 8)
  return { address, decimals := (decimals % 256).toNat }

structure JettonGasAddedMessage where
  minter : TonAddress
  sender : TonAddress
  txHash : Bytes32
  amount : ℕ
  refundAddress : TonAddress

def JettonGasAddedMessage.decode : Decoder JettonGasAddedMessage := do
  let minter ← load loadAddress
  let sender ← load loadAddress
  let amount ← load loadCoins
  let txHash ← load loadBytes32
  let refundCell ← load nextReference
  let refundAddress ← load (parseCell refundCell loadAddress)
  return { minter, sender, txHash, amount, refundAddress }

structure JettonGasPaidMessage where
  minter : TonAddress
  payloadHash : Bytes32
  amount : ℕ
  refundAddress : TonAddress
  destinationChain : String
  destinationAddress : String

def JettonGasPaidMessage.decode : Decoder JettonGasPaidMessage := do
  let minter ← load loadAddress
  let amount ← load loadCoins
  let payloadHash ← load loadBytes32
  let refundCell ← load nextReference
  let refundAddress ← load (parseCell refundCell loadAddress)
  let destinationChain ← loadString
  let destinationAddress ← loadString
  return { minter, payloadHash, amount, refundAddress, destinationChain, destinationAddress }

structure NativeGasAddedMessage where
  txHash : Bytes32
  refundAddress : TonAddress
  msgValue : ℕ

def NativeGasAddedMessage.decode : Decoder NativeGasAddedMessage := do
  let txHash ← load loadBytes32
  let refundAddress ← load loadAddress
  let msgValue ← load loadBytes32
  return { txHash, refundAddress, msgValue := bytesToNat msgValue.toList }

structure NativeGasPaidMessage where
  sender : TonAddress
  payloadHash : Bytes32
  msgValue : ℕ
  refundAddress : TonAddress
  destinationChain : String
  destinationAddress : String

def NativeGasPaidMessage.decode : Decoder NativeGasPaidMessage := do
  let sender ← load loadAddress
  let payloadHash ← load loadBytes32
  let msgValue ← load loadBytes32
  let refundCell ← load nextReference
  let refundAddress ← load (parseCell refundCell loadAddress)
  let destinationChain ← loadString
  let destinationAddress ← loadString
  return {
    sender, payloadHash, msgValue := bytesToNat msgValue.toList, refundAddress,
    destinationChain, destinationAddress }

structure NativeGasRefundedMessage where
  txHash : Bytes32
  address : TonAddress
  amount : ℕ

def NativeGasRefundedMessage.decode : Decoder NativeGasRefundedMessage := do
  let txHash ← load loadBytes32
  let address ← load loadAddress
  let amount ← load loadCoins
  return { txHash, address, amount }

structure NullifiedSuccessfullyMessage where
  messageId : String
  sourceChain : String
  sourceAddress : String
  destinationChain : String
  destinationAddress : List UInt8
  payload : String

/-- The op code is compared as text: its hex digits against the `{:08X}` form. -/
def NullifiedSuccessfullyMessage.decode : Decoder NullifiedSuccessfullyMessage := do
  let opCode ← load (loadBytes 4)
  if hexEncode opCode ≠ format08X opNullifiedSuccessfully then
    throw (.invalidOpCode ("Expected " ++ toString opNullifiedSuccessfully.toNat ++
      ", got \"" ++ hexEncode opCode ++ "\""))
  let messageId ← loadString
  let sourceChain ← loadString
  let sourceAddress ← loadString
  let innerCell ← load nextReference
  let (payload, inner) ← parsing (nextReference innerCell.parser)
  let (destinationAddress, inner) ← parsing (nextReference inner)
  let (destinationChain, _) ← parsing (nextReference inner)
  let destinationChain ← cellToString destinationChain
  return {
    messageId, sourceChain, sourceAddress, destinationChain,
    destinationAddress := cellToBuffer destinationAddress,
    payload := hexEncode (cellToBuffer payload) }

structure LogSignersRotatedMessage where
  signersHash : String
  epoch : UInt64

def LogSignersRotatedMessage.decode : Decoder LogSignersRotatedMessage := do
  checkOpCode opSignersRotatedLog
  let _ ← load nextReference
  let signersHash ← load (loadUint 256)
  let epoch ← load (loadUint 256)
  if epoch < 2 ^ 64 then
    return { signersHash := "0x" ++ hexEncode (toBytesBe signersHash), epoch := .ofNat epoch }
  else throw (.bocParsingError .outOfRange)

end MessageDecoders
