import TonRelayer.ByteEncodings
import TonRelayer.ExceptRules

/-! The execute message the relayer sends, and reading it back.
The message cell is put into a transfer message, that into a list of out actions, and the
list into the body of a highload wallet's internal transfer. Bags of cells, transfer messages
and out lists are tonlib's; what is taken from it is a parameter. -/
namespace RelayerExecute

open ExceptRules Cells ByteEncodings

structure InternalMessage where
  ihrDisabled : Bool
  bounce : Bool
  bounced : Bool
  src : TonAddress
  dest : TonAddress
  value : ℕ
  ihrFee : ℕ
  fwdFee : ℕ
  createdLt : UInt64
  createdAt : UInt32

inductive OutAction where
  | sendMsg (mode : UInt8) (outMsg : Cell)

structure Tonlib where
  fromBocHex : String → Except CellError Cell
  fromBocB64 : String → Except CellError Cell
  toBocHex : Cell → Except CellError String
  toBocB64 : Cell → Except CellError String
  /-- `TransferMessage::new(common, body).build()` -/
  transferMessage : InternalMessage → Cell → Except CellError Cell
  /-- `OutList::new(actions)`, written to a cell -/
  outList : List OutAction → Except CellError Cell

structure RelayerExecuteMessage where
  messageId : String
  sourceChain : String
  sourceAddress : String
  destinationChain : String
  destinationAddress : TonAddress
  payload : String
  relayerAddress : TonAddress
  deriving DecidableEq

def opRelayerExecute : UInt32 := 0x00000008
def opInternalTransfer : ℕ := 0xae42e5a4
def sendModeIgnoreErrors : UInt8 := 2

/-- The Keccak digest, read as a big-endian number. -/
def payloadHash (keccak256 : List UInt8 → Bytes32) (payload : List UInt8) : ℕ :=
  bitsToNat (bytesBits (keccak256 payload).toList)

def RelayerExecuteMessage.toCell (keccak256 : List UInt8 → Bytes32)
    (m : RelayerExecuteMessage) : Except BocError Cell := do
  let messageId ← bufferToCell (asBytes m.messageId)
  let sourceChain ← bufferToCell (asBytes m.sourceChain)
  let sourceAddress ← bufferToCell (asBytes m.sourceAddress)
  let destinationChain ← bufferToCell (asBytes m.destinationChain)
  let destinationAddress ← bufferToCell m.destinationAddress.hashPart.toList
  let payloadBytes ← match hexDecode m.payload with
    | some bytes => .ok bytes
    | none => .error (.bocParsingError .notHex)
  let payload ← bufferToCell payloadBytes
  let inner : CellBuilder := {}
  let inner ← encoding (inner.storeReference payload)
  let inner ← encoding (inner.storeReference destinationAddress)
  let inner ← encoding (inner.storeReference destinationChain)
  let inner ← encoding (inner.storeUint 256 (payloadHash keccak256 payloadBytes))
  let inner ← parsing inner.build
  let message : CellBuilder := {}
  let message ← encoding (message.storeReference messageId)
  let message ← encoding (message.storeReference sourceChain)
  let message ← encoding (message.storeReference sourceAddress)
  let message ← encoding (message.storeReference inner)
  let message ← encoding message.build
  let outer : CellBuilder := {}
  let outer ← encoding (outer.storeUint 32 opRelayerExecute.toNat)
  let outer ← encoding (outer.storeReference message)
  encoding (outer.storeAddress m.relayerAddress).build

def internalMessage (value : ℕ) (destination : TonAddress) : InternalMessage where
  ihrDisabled := false
  bounce := true
  bounced := false
  src := TonAddress.null
  dest := destination
  value
  ihrFee := 0
  fwdFee := 0
  createdLt := 0
  createdAt := 0

def outAction (T : Tonlib) (bocHex : String) (value : ℕ) (destination : TonAddress) :
    Except CellError OutAction := do
  let body ← T.fromBocHex bocHex
  let tm ← T.transferMessage (internalMessage value destination) body
  return .sendMsg sendModeIgnoreErrors tm

inductive SendFailure where
  | boc (e : BocError)
  | cell (e : CellError)
  | panic (message : String)
  deriving DecidableEq, Repr

def internalTransferBody (T : Tonlib) (actions : List OutAction) (queryId : UInt64) :
    Except SendFailure Cell :=
  if actions.length > 254 then
    .error (.panic "Max allowed action count is 254. Use pack_actions instead.")
  else Except.mapError .cell do
    let actionsCell ← T.outList actions
    let b : CellBuilder := {}
    let b ← b.storeUint 32 opInternalTransfer
    let b ← b.storeUint 64 queryId.toNat
    let b ← b.storeReference actionsCell
    b.build

/-- The body of the wallet's internal transfer for one execute message, as
`broadcast_execute_message` and `outgoing_message` build it. -/
def sentBody (T : Tonlib) (keccak256 : List UInt8 → Bytes32) (m : RelayerExecuteMessage)
    (value : ℕ) (destination : TonAddress) (queryId : UInt64) : Except SendFailure Cell := do
  let cell ← (m.toCell keccak256).mapError .boc
  let boc ← (T.toBocHex cell).mapError .cell
  let action ← (outAction T boc value destination).mapError .cell
  internalTransferBody T [action] queryId

structure RelayerExecuteWrappedMessage where
  messageId : String
  sourceChain : String
  deriving DecidableEq, Repr

/-- The decoder once the bag of cells is read: it walks references by position. -/
def unwrapMessage (cell : Cell) : Except BocError RelayerExecuteWrappedMessage := do
  let (cell, _) ← parsing (nextReference cell.parser)
  let (_, parser) ← parsing (nextReference cell.parser)
  let (cell, _) ← parsing (nextReference parser)
  let (cell, _) ← parsing (nextReference cell.parser)
  let (cell, _) ← parsing (nextReference cell.parser)
  let (messageId, parser) ← parsing (nextReference cell.parser)
  let messageId ← cellToString messageId
  let (sourceChain, _) ← parsing (nextReference parser)
  let sourceChain ← cellToString sourceChain
  return ⟨messageId, sourceChain⟩

def RelayerExecuteWrappedMessage.fromBocB64 (fromBocB64 : String → Except CellError Cell)
    (boc : String) : Except BocError RelayerExecuteWrappedMessage := do
  unwrapMessage (← parsing (fromBocB64 boc))

theorem nextReference_cons {c : Cell} {rest : List Cell} (bits : List Bool) :
    nextReference ⟨bits, c :: rest⟩ = .ok (c, ⟨bits, rest⟩) := rfl

theorem payloadHash_lt (keccak256 : List UInt8 → Bytes32) (payload : List UInt8) :
    payloadHash keccak256 payload < 2 ^ 256 := by
  have h := bitsToNat_lt (bytesBits (keccak256 payload).toList)
  rwa [bytesBits_length, List.Vector.toList_length] at h

theorem encoding_storeReference {b : CellBuilder} (c : Cell) (h : b.references.length < 4) :
    encoding (b.storeReference c) = .ok ⟨b.bits, b.references ++ [c]⟩ :=
  encoding_ok (CellBuilder.storeReference_ok c h)

/-- What the cells of an execute message hold. -/
structure LaidOut (m : RelayerExecuteMessage) (bytes : List UInt8) (outer message inner : Cell) :
    Prop where
  outer : outer.references = [message]
  message : ∃ messageId sourceChain sourceAddress,
    message.references = [messageId, sourceChain, sourceAddress, inner] ∧
    cellToString messageId = .ok m.messageId ∧ cellToString sourceChain = .ok m.sourceChain ∧
    cellToString sourceAddress = .ok m.sourceAddress
  inner : ∃ payload destinationAddress destinationChain,
    inner.references = [payload, destinationAddress, destinationChain] ∧
    cellToBuffer payload = bytes ∧
    cellToBuffer destinationAddress = m.destinationAddress.hashPart.toList ∧
    cellToString destinationChain = .ok m.destinationChain

theorem toCell_laidOut (keccak256 : List UInt8 → Bytes32) {m : RelayerExecuteMessage}
    {bytes : List UInt8} (hbytes : hexDecode m.payload = some bytes) :
    ∃ outer message inner, m.toCell keccak256 = .ok outer ∧
      LaidOut m bytes outer message inner := by
  obtain ⟨messageId, hid, hidString⟩ := bufferToCell_string m.messageId
  obtain ⟨sourceChain, hchain, hchainString⟩ := bufferToCell_string m.sourceChain
  obtain ⟨sourceAddress, haddress, haddressString⟩ := bufferToCell_string m.sourceAddress
  obtain ⟨destinationChain, hdchain, hdchainString⟩ := bufferToCell_string m.destinationChain
  obtain ⟨destinationAddress, hdaddress, hdaddressBytes⟩ :=
    bufferToCell_ok m.destinationAddress.hashPart.toList
  obtain ⟨payload, hpay, hpayBytes⟩ := bufferToCell_ok bytes
  obtain ⟨inner, hinner, -, hinnerRefs⟩ := CellBuilder.build_ok
    (b := ⟨natToBits 256 (payloadHash keccak256 bytes),
      [payload, destinationAddress, destinationChain]⟩) (by simp) (by simp)
  obtain ⟨message, hmessage, -, hmessageRefs⟩ := CellBuilder.build_ok
    (b := ⟨[], [messageId, sourceChain, sourceAddress, inner]⟩) (by simp) (by simp)
  obtain ⟨c, hc, -, hrefs⟩ := CellBuilder.build_ok
    (b := CellBuilder.storeAddress ⟨natToBits 32 opRelayerExecute.toNat, [message]⟩
      m.relayerAddress) (le_trans (CellBuilder.storeAddress_bits _ _) (by simp)) (by simp)
  refine ⟨c, message, inner, ?_, by simpa using hrefs,
    ⟨_, _, _, hmessageRefs, hidString, hchainString, haddressString⟩,
    ⟨_, _, _, hinnerRefs, hpayBytes, hdaddressBytes, hdchainString⟩⟩
  have hhash : encoding (CellBuilder.storeUint
      ⟨[], [payload, destinationAddress, destinationChain]⟩ 256 (payloadHash keccak256 bytes)) =
      .ok ⟨natToBits 256 (payloadHash keccak256 bytes),
        [payload, destinationAddress, destinationChain]⟩ := by
    rw [encoding_ok (CellBuilder.storeUint_ok (payloadHash_lt keccak256 bytes)), List.nil_append]
  have hop : encoding (CellBuilder.storeUint {} 32 opRelayerExecute.toNat) =
      .ok ⟨natToBits 32 opRelayerExecute.toNat, []⟩ := by
    rw [encoding_ok (CellBuilder.storeUint_ok (by decide)), List.nil_append]
  rw [RelayerExecuteMessage.toCell, hid, ok_bind, hchain, ok_bind, haddress, ok_bind, hdchain,
    ok_bind, hdaddress, ok_bind, hbytes]
  dsimp only
  rw [ok_bind, hpay, ok_bind, encoding_storeReference _ (by simp), ok_bind,
    encoding_storeReference _ (by simp), ok_bind, encoding_storeReference _ (by simp), ok_bind]
  dsimp only [List.nil_append, List.cons_append]
  rw [hhash, ok_bind, parsing_ok hinner, ok_bind, encoding_storeReference _ (by simp), ok_bind,
    encoding_storeReference _ (by simp), ok_bind, encoding_storeReference _ (by simp), ok_bind,
    encoding_storeReference _ (by simp), ok_bind]
  dsimp only [List.nil_append, List.cons_append]
  rw [encoding_ok hmessage, ok_bind, hop, ok_bind, encoding_storeReference _ (by simp), ok_bind]
  exact encoding_ok hc

/-- The first reference of the message's cell holds the message id and the source chain
first. -/
theorem toCell_layout (keccak256 : List UInt8 → Bytes32) {m : RelayerExecuteMessage}
    (hpayload : (hexDecode m.payload).isSome) :
    ∃ c message messageId sourceChain rest, m.toCell keccak256 = .ok c ∧
      c.references = [message] ∧ message.references = messageId :: sourceChain :: rest ∧
      cellToString messageId = .ok m.messageId ∧
      cellToString sourceChain = .ok m.sourceChain := by
  obtain ⟨bytes, hbytes⟩ := Option.isSome_iff_exists.mp hpayload
  obtain ⟨outer, message, inner, houter, hlaid⟩ := toCell_laidOut keccak256 hbytes
  obtain ⟨messageId, sourceChain, sourceAddress, hrefs, hid, hchain, -⟩ := hlaid.message
  exact ⟨outer, message, messageId, sourceChain, _, houter, hlaid.outer, hrefs, hid, hchain⟩

theorem internalTransferBody_bits {T : Tonlib} {actions : List OutAction} {list : Cell}
    (hlength : actions.length ≤ 254) (h : T.outList actions = .ok list) (queryId : UInt64) :
    ∃ body, internalTransferBody T actions queryId = .ok body ∧
      body.bits = natToBits 32 opInternalTransfer ++ natToBits 64 queryId.toNat ∧
      body.references = [list] := by
  obtain ⟨body, hbody, hbits, hrefs⟩ := CellBuilder.build_ok
    (b := ⟨natToBits 32 opInternalTransfer ++ natToBits 64 queryId.toNat, [list]⟩)
    (by simp) (by simp)
  refine ⟨body, ?_, hbits, hrefs⟩
  have hop : CellBuilder.storeUint {} 32 opInternalTransfer =
      .ok ⟨natToBits 32 opInternalTransfer, []⟩ := by
    rw [CellBuilder.storeUint_ok (by decide), List.nil_append]
  simp (disch := simp) only [internalTransferBody, h, ok_bind, hop,
    CellBuilder.storeUint_ok queryId.toNat_lt, CellBuilder.storeReference_ok, List.nil_append]
  rw [if_neg (by omega), hbody]
  rfl

theorem internalTransferBody_ok {T : Tonlib} {action : OutAction} {list : Cell}
    (h : T.outList [action] = .ok list) (queryId : UInt64) :
    ∃ body, internalTransferBody T [action] queryId = .ok body ∧ body.references = [list] := by
  obtain ⟨body, hbody, -, hrefs⟩ := internalTransferBody_bits (by simp) h queryId
  exact ⟨body, hbody, hrefs⟩

/-- What tonlib does with this message: its cell survives the bag of cells, the transfer
message has the body as its first reference, an out list of one action refers to the previous
list and to the message, and the resulting body survives the bag of cells. -/
structure Carried (T : Tonlib) (keccak256 : List UInt8 → Bytes32) (m : RelayerExecuteMessage)
    (value : ℕ) (destination : TonAddress) (queryId : UInt64) : Prop where
  messageBoc : ∀ cell, m.toCell keccak256 = .ok cell →
    ∃ boc, T.toBocHex cell = .ok boc ∧ T.fromBocHex boc = .ok cell
  transfer : ∀ cell, m.toCell keccak256 = .ok cell →
    ∃ tm, T.transferMessage (internalMessage value destination) cell = .ok tm ∧
      tm.references.head? = some cell
  outList : ∀ mode tm, ∃ list previous, T.outList [.sendMsg mode tm] = .ok list ∧
    list.references = [previous, tm]
  bodyBoc : ∀ body, sentBody T keccak256 m value destination queryId = .ok body →
    ∃ boc, T.toBocB64 body = .ok boc ∧ T.fromBocB64 boc = .ok body

/-- The body that is sent wraps the message. -/
theorem sentBody_unwraps {T : Tonlib} {keccak256 : List UInt8 → Bytes32}
    {m : RelayerExecuteMessage} {value : ℕ} {destination : TonAddress} {queryId : UInt64}
    (hpayload : (hexDecode m.payload).isSome)
    (hT : Carried T keccak256 m value destination queryId) :
    ∃ body, sentBody T keccak256 m value destination queryId = .ok body ∧
      unwrapMessage body = .ok ⟨m.messageId, m.sourceChain⟩ := by
  obtain ⟨cell, message, messageId, sourceChain, rest, hcell, hcellRefs, hmessageRefs, hid,
    hchain⟩ := toCell_layout keccak256 hpayload
  obtain ⟨hex, htoHex, hfromHex⟩ := hT.messageBoc cell hcell
  obtain ⟨tm, htm, htmRefs⟩ := hT.transfer cell hcell
  obtain ⟨tmRest, htmRefs⟩ := List.head?_eq_some_iff.mp htmRefs
  obtain ⟨list, previous, hlist, hlistRefs⟩ := hT.outList sendModeIgnoreErrors tm
  obtain ⟨body, hbody, hbodyRefs⟩ := internalTransferBody_ok hlist queryId
  have hsent : sentBody T keccak256 m value destination queryId = .ok body := by
    simp only [sentBody, hcell, htoHex, outAction, hfromHex, htm, Except.mapError, ok_bind]
    exact hbody
  refine ⟨body, hsent, ?_⟩
  -- Down the references: out list, transfer message, message cell, message, its two strings.
  simp only [unwrapMessage, Cell.parser, hbodyRefs, hlistRefs, htmRefs, hcellRefs, hmessageRefs,
    nextReference_cons, parsing, Except.mapError, ok_bind, hid, hchain]
  rfl

/-- The relayer reads back, from the body it sends, the message id and the source chain of its
message, whatever their lengths. -/
theorem relayer_reads_back_message (T : Tonlib) (keccak256 : List UInt8 → Bytes32)
    (m : RelayerExecuteMessage) (value : ℕ) (destination : TonAddress) (queryId : UInt64)
    (hpayload : (hexDecode m.payload).isSome)
    (hT : Carried T keccak256 m value destination queryId) :
    ∃ body boc, sentBody T keccak256 m value destination queryId = .ok body ∧
      T.toBocB64 body = .ok boc ∧
      RelayerExecuteWrappedMessage.fromBocB64 T.fromBocB64 boc =
        .ok ⟨m.messageId, m.sourceChain⟩ := by
  obtain ⟨body, hsent, hunwrap⟩ := sentBody_unwraps hpayload hT
  obtain ⟨boc, htoB64, hfromB64⟩ := hT.bodyBoc body hsent
  refine ⟨body, boc, hsent, htoB64, ?_⟩
  rw [RelayerExecuteWrappedMessage.fromBocB64, parsing_ok hfromB64, ok_bind]
  exact hunwrap

section Sample

def sampleMessage : RelayerExecuteMessage where
  messageId := "0x2a-1"
  sourceChain := "avalanche"
  sourceAddress := "0xd7"
  destinationChain := "ton2"
  destinationAddress := ⟨0, List.Vector.replicate 32 1⟩
  payload := "2a"
  relayerAddress := ⟨0, List.Vector.replicate 32 2⟩

def sampleKeccak : List UInt8 → Bytes32 := fun _ =>
  ⟨[4, 153, 79, 103, 220, 85, 176, 158, 129, 74, 183, 255, 200, 223, 54, 134, 180, 175, 178,
    187, 83, 230, 14, 174, 151, 239, 4, 63, 224, 63, 184, 41], rfl⟩

def coinsBits (value : ℕ) : List Bool :=
  let n := if value = 0 then 0 else (Nat.log2 value + 8) / 8
  natToBits 4 n ++ natToBits (8 * n) value

/-- The bits of an internal message whose body is in a reference. -/
def transferBits (common : InternalMessage) : List Bool :=
  let header : CellBuilder := ⟨[false, common.ihrDisabled, common.bounce, common.bounced], []⟩
  ((header.storeAddress common.src).storeAddress common.dest).bits ++
    coinsBits common.value ++ [false] ++ coinsBits common.ihrFee ++ coinsBits common.fwdFee ++
    natToBits 64 common.createdLt.toNat ++ natToBits 32 common.createdAt.toNat ++ [false, true]

def emptyCell : Cell := .mk ⟨[], by simp⟩ 0 Fin.elim0

def outListBits (mode : UInt8) : List Bool :=
  natToBits 32 0x0ec3c86d ++ natToBits 8 mode.toNat

def sampleHex : String :=
  "b5ee9c7241010901009800014b0000000880004040404040404040404040404040404040404040404040404040" ++
  "40404040405001040002030405000c307832612d3100126176616c616e636865000830786437034004994f67dc" ++
  "55b09e814ab7ffc8df3686b4afb2bb53e60eae97ef043fe03fb82906070800022a004001010101010101010101" ++
  "010101010101010101010101010101010101010101010008746f6e3232e7a659"

def sampleB64 : String :=
  "te6cckEBDQEA6QABGK5C5aQAAAAAAAAEAQECCg7DyG0CAgMAAAFoIgABgYGBgYGBgYGBgYGBgYGBgYGBgYGBgYGBgYG" ++
  "BgYGBgaAvrwgAAAAAAAAAAAAAAAAAAQQBSwAAAAiAAEBAQEBAQEBAQEBAQEBAQEBAQEBAQEBAQEBAQEBAQEBQBQQABg" ++
  "cICQAMMHgyYS0xABJhdmFsYW5jaGUACDB4ZDcDQASZT2fcVbCegUq3/8jfNoa0r7K7U+YOrpfvBD/gP7gpCgsMAAIqA" ++
  "EABAQEBAQEBAQEBAQEBAQEBAQEBAQEBAQEBAQEBAQEBAQAIdG9uMgd7aYY="

def sampleEncoder : Tonlib where
  toBocHex := fun _ => .ok sampleHex
  fromBocHex := fun boc =>
    if boc = sampleHex then (sampleMessage.toCell sampleKeccak).mapError fun _ => .badBoc
    else .error .badBoc
  transferMessage := fun common body => CellBuilder.build ⟨transferBits common, [body]⟩
  outList := fun
    | [.sendMsg mode outMsg] => CellBuilder.build ⟨outListBits mode, [emptyCell, outMsg]⟩
    | _ => .error .badBoc
  toBocB64 := fun _ => .ok sampleB64
  fromBocB64 := fun _ => .error .badBoc

def sampleDestination : TonAddress := ⟨0, List.Vector.replicate 32 3⟩

def sampleTonlib : Tonlib :=
  { sampleEncoder with
    fromBocB64 := fun boc =>
      if boc = sampleB64 then
        (sentBody sampleEncoder sampleKeccak sampleMessage 100000000 sampleDestination
          1025).mapError fun _ => .badBoc
      else .error .badBoc }

theorem sentBody_fromBocB64 (T : Tonlib) (f : String → Except CellError Cell) :
    sentBody { T with fromBocB64 := f } = sentBody T := rfl

theorem sampleTonlib_fromBocHex : sampleTonlib.fromBocHex sampleHex =
    (sampleMessage.toCell sampleKeccak).mapError fun _ => .badBoc := by
  dsimp only [sampleTonlib, sampleEncoder]
  rw [if_pos rfl]

theorem sampleTonlib_fromBocB64 : sampleTonlib.fromBocB64 sampleB64 =
    (sentBody sampleEncoder sampleKeccak sampleMessage 100000000 sampleDestination
      1025).mapError fun _ => .badBoc := by
  dsimp only [sampleTonlib]
  rw [if_pos rfl]

theorem sampleTonlib_carries :
    Carried sampleTonlib sampleKeccak sampleMessage 100000000 sampleDestination 1025 where
  messageBoc := by
    intro cell hcell
    refine ⟨sampleHex, rfl, ?_⟩
    rw [sampleTonlib_fromBocHex, hcell]
    rfl
  transfer := by
    intro cell hcell
    have hbits : (transferBits (internalMessage 100000000 sampleDestination)).length ≤ 1023 := by
      decide +kernel
    obtain ⟨tm, htm, -, hrefs⟩ := CellBuilder.build_ok
      (b := ⟨transferBits (internalMessage 100000000 sampleDestination), [cell]⟩) hbits (by simp)
    exact ⟨tm, by simpa only [sampleTonlib, sampleEncoder] using htm, by rw [hrefs]; rfl⟩
  outList := by
    intro mode tm
    obtain ⟨list, hlist, -, hrefs⟩ := CellBuilder.build_ok
      (b := ⟨outListBits mode, [emptyCell, tm]⟩) (by simp [outListBits]) (by simp)
    exact ⟨list, emptyCell, by simpa only [sampleTonlib, sampleEncoder] using hlist, hrefs⟩
  bodyBoc := by
    intro body hbody
    rw [sampleTonlib, sentBody_fromBocB64] at hbody
    refine ⟨sampleB64, rfl, ?_⟩
    rw [sampleTonlib_fromBocB64, hbody]
    rfl

theorem relayer_reads_back_sample :
    ∃ body boc, sentBody sampleTonlib sampleKeccak sampleMessage 100000000 sampleDestination
        1025 = .ok body ∧ sampleTonlib.toBocB64 body = .ok boc ∧
      RelayerExecuteWrappedMessage.fromBocB64 sampleTonlib.fromBocB64 boc =
        .ok ⟨"0x2a-1", "avalanche"⟩ :=
  relayer_reads_back_message sampleTonlib sampleKeccak sampleMessage 100000000
    sampleDestination 1025 (by decide) sampleTonlib_carries

end Sample

end RelayerExecute
