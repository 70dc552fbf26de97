import TonRelayer.EventAuthenticity

/-! Which message an insufficient-gas event names.
The match looks at the execute message that the second transaction of the trace sent to the
gateway. The message id and the source chain of the event come from the first transaction: from
the message that the body of its first out message wraps. -/
namespace RejectedMessages

open ExceptRules Cells ByteEncodings RelayerExecute MessageDecoders Types GasCalculator
open TransactionParsers TraceParsing TraceEvents EventAuthenticity

variable {D : Type} {lib : Libraries D} {trace : Trace} {gateway : TonAddress}

/-- The message id and the source chain of a message in the layout of `to_cell`. -/
def readExecute (cell : Cell) : Except BocError RelayerExecuteWrappedMessage := do
  let (message, _) ← parsing (nextReference cell.parser)
  let (messageId, parser) ← parsing (nextReference message.parser)
  let messageId ← cellToString messageId
  let (sourceChain, _) ← parsing (nextReference parser)
  let sourceChain ← cellToString sourceChain
  return ⟨messageId, sourceChain⟩

/-- The body of the first action that an internal transfer carries. -/
def carriedBody (cell : Cell) : Except BocError Cell := do
  let (actions, _) ← parsing (nextReference cell.parser)
  let (_, parser) ← parsing (nextReference actions.parser)
  let (message, _) ← parsing (nextReference parser)
  let (body, _) ← parsing (nextReference message.parser)
  return body

theorem unwrapMessage_eq (cell : Cell) : unwrapMessage cell = carriedBody cell >>= readExecute := by
  simp only [unwrapMessage, carriedBody, readExecute, bind_assoc, pure_bind]

theorem toCell_reads {keccak256 : List UInt8 → Bytes32} {m : RelayerExecuteMessage} {cell : Cell}
    (h : m.toCell keccak256 = .ok cell) : readExecute cell = .ok ⟨m.messageId, m.sourceChain⟩ := by
  have hpayload : (hexDecode m.payload).isSome = true := by
    cases hdecode : hexDecode m.payload with
    | some bytes => rfl
    | none =>
      simp only [RelayerExecuteMessage.toCell, hdecode, bind_eq_ok] at h
      obtain ⟨_, -, _, -, _, -, _, -, _, -, _, h, -⟩ := h
      cases h
  obtain ⟨c, message, messageId, sourceChain, rest, hc, hrefs, hmessage, hid, hchain⟩ :=
    toCell_layout keccak256 hpayload
  cases h.symm.trans hc
  simp only [readExecute, Cell.parser, hrefs, hmessage, nextReference_cons, parsing,
    Except.mapError, ok_bind, hid, hchain]
  rfl

/-- The first out message of a transaction of the trace, as a cell. -/
def firstOutBody (lib : Libraries D) (trace : Trace) (i : ℕ) : Except BocError Cell :=
  match trace.transactions[i]?.bind (·.outMsgs[0]?) with
  | none => .error (.bocParsingError (.cell .badBoc))
  | some msg => parsing (lib.fromBocB64 msg.messageContent.body)

/-- The execute message that the gateway was sent. -/
def rejectedMessage (lib : Libraries D) (trace : Trace) :
    Except BocError RelayerExecuteWrappedMessage := do
  readExecute (← firstOutBody lib trace 1)

/-- The message that the first transaction asks to forward. -/
def wrappedMessage (lib : Libraries D) (trace : Trace) :
    Except BocError RelayerExecuteWrappedMessage := do
  readExecute (← carriedBody (← firstOutBody lib trace 0))

def named : Event → Option RelayerExecuteWrappedMessage
  | .cannotExecuteMessageV2 _ messageId sourceChain _ _ => some ⟨messageId, sourceChain⟩
  | _ => none

/-- The event names the message that the gateway rejected. -/
def NamesRejected (lib : Libraries D) (trace : Trace) (e : Event) : Prop :=
  ∃ m, named e = some m ∧ rejectedMessage lib trace = .ok m

/-- The execute message is the encoding of this one. -/
def Encodes (lib : Libraries D) (trace : Trace) (m : RelayerExecuteMessage) : Prop :=
  ∃ cell, firstOutBody lib trace 1 = .ok cell ∧ m.toCell lib.keccak256 = .ok cell

theorem rejectedMessage_encoded {m : RelayerExecuteMessage} (h : Encodes lib trace m) :
    rejectedMessage lib trace = .ok ⟨m.messageId, m.sourceChain⟩ := by
  obtain ⟨cell, hbody, hcell⟩ := h
  rw [rejectedMessage, hbody, ok_bind]
  exact toCell_reads hcell

/-- A wallet that forwards the message to the gateway unchanged wraps the one it sends. -/
theorem wrappedMessage_forwarded {wrapped body : Cell} (h : firstOutBody lib trace 0 = .ok wrapped)
    (hbody : firstOutBody lib trace 1 = .ok body) (hcarried : carriedBody wrapped = .ok body) :
    wrappedMessage lib trace = rejectedMessage lib trace := by
  rw [wrappedMessage, rejectedMessage, h, hbody, ok_bind, hcarried]

/-- What the parser decodes is the wrapped message. -/
theorem parse_wrapped {p : ParserExecuteInsufficientGas} {e : Event}
    (hparse : ParserExecuteInsufficientGas.parse lib { trace, allowedAddress := gateway } = .ok p)
    (hevent : p.event = .ok e) : ∃ m, named e = some m ∧ wrappedMessage lib trace = .ok m := by
  rw [ParserExecuteInsufficientGas.parse] at hparse
  dsimp only at hparse
  cases hmsg : trace.transactions[0]?.bind (·.outMsgs[0]?) with
  | none =>
    rw [hmsg] at hparse
    cases hparse
  | some msg =>
    rw [hmsg] at hparse
    dsimp only at hparse
    cases hlog : RelayerExecuteWrappedMessage.fromBocB64 lib.fromBocB64 msg.messageContent.body with
    | error err =>
      rw [hlog] at hparse
      cases hparse
    | ok log =>
      rw [hlog] at hparse
      cases hparse
      cases hevent
      refine ⟨log, rfl, ?_⟩
      rw [RelayerExecuteWrappedMessage.fromBocB64] at hlog
      simp only [unwrapMessage_eq] at hlog
      rw [wrappedMessage, firstOutBody, hmsg]
      exact hlog

/-- The event names the message that the gateway rejected exactly when the first transaction
wraps that message; which test matched the trace makes no difference. -/
theorem insufficient_gas_names_rejected_iff {p : ParserExecuteInsufficientGas} {e : Event}
    (hparse : ParserExecuteInsufficientGas.parse lib { trace, allowedAddress := gateway } = .ok p)
    (hevent : p.event = .ok e) :
    (NamesRejected lib trace e ↔ wrappedMessage lib trace = rejectedMessage lib trace) ∧
    ∀ m, Encodes lib trace m → (named e = some ⟨m.messageId, m.sourceChain⟩ ↔
      wrappedMessage lib trace = rejectedMessage lib trace) := by
  obtain ⟨w, hnamed, hwrapped⟩ := parse_wrapped hparse hevent
  have hiff : NamesRejected lib trace e ↔
      wrappedMessage lib trace = rejectedMessage lib trace := by
    rw [hwrapped]
    constructor
    · rintro ⟨m, hm, hrejected⟩
      rw [hnamed] at hm
      cases hm
      exact hrejected.symm
    · intro h
      exact ⟨w, hnamed, h.symm⟩
  refine ⟨hiff, ?_⟩
  intro m hm
  have hrejected := rejectedMessage_encoded hm
  rw [← hiff]
  constructor
  · intro h
    exact ⟨_, h, hrejected⟩
  · rintro ⟨m', hm', hrejected'⟩
    cases hrejected.symm.trans hrejected'
    exact hm'

section Samples

/-- The cell of the sample message 0x2a-1, as the body of the message to the gateway. -/
def executeText : String :=
  "te6cckEBCQEAmAABSwAAAAiAAEBAQEBAQEBAQEBAQEBAQEBAQEBAQEBAQEBAQEBAQEBQAQQAAgMEBQAMMHgyYS0xABJh" ++
  "dmFsYW5jaGUACDB4ZDcDQASZT2fcVbCegUq3/8jfNoa0r7K7U+YOrpfvBD/gP7gpBgcIAAIqAEABAQEBAQEBAQEBAQEB" ++
  "AQEBAQEBAQEBAQEBAQEBAQEBAQAIdG9uMjLnplk="

/-- The message id 0x2b-1 where the parser looks for it. -/
def forgedText : String :=
  "te6cckEBCAEAJgABAAECAAIDAAABAAQBAAUCAAYHAAwweDJiLTEAEmF2YWxhbmNoZUDqma0="

def forgedCell : Cell :=
  let wrap (c : Cell) := builtCell [] [c]
  let message := builtCell [] [builtText "0x2b-1", builtText "avalanche"]
  wrap (builtCell [] [emptyCell, wrap (wrap message)])

def gasLibraries : Libraries ℕ :=
  { sampleLibraries with
    fromBocB64 := fun boc =>
      if boc = executeText then (sampleMessage.toCell sampleKeccak).mapError fun _ => .badBoc
      else if boc = forgedText then .ok forgedCell
      else sampleTonlib.fromBocB64 boc }

/-- The sample message reaches the gateway and fails there for lack of gas; `body` is what the
first transaction was sent with. -/
def rejectedTrace (body : String) : Trace :=
  sampleTrace
    [{ account := account 8, hash := hashText 1
       outMsgs := [{ hash := "m", destination := some (account 8), messageContent := ⟨body⟩ }] },
     { account := account 8, hash := hashText 2
       outMsgs := [{ hash := "e", destination := some (account 1)
                     opcode := some opRelayerExecute, messageContent := ⟨executeText⟩ }] },
     { account := account 1, hash := hashText 3
       description := { computePh := some ⟨some 106⟩ } }]

def insufficientGasEvent (body : String) : Outcome Event :=
  ParserExecuteInsufficientGas.parse gasLibraries
    { trace := rejectedTrace body, allowedAddress := account 1 } >>= fun p => p.event

theorem gasLibraries_execute : gasLibraries.fromBocB64 executeText =
    (sampleMessage.toCell sampleKeccak).mapError fun _ => .badBoc := by
  dsimp only [gasLibraries]
  rw [if_pos rfl]

theorem gasLibraries_forged : gasLibraries.fromBocB64 forgedText = .ok forgedCell := by
  dsimp only [gasLibraries]
  rw [if_neg (by decide), if_pos rfl]

theorem gasLibraries_sample :
    gasLibraries.fromBocB64 sampleB64 = sampleTonlib.fromBocB64 sampleB64 := by
  dsimp only [gasLibraries]
  rw [if_neg (by decide), if_neg (by decide)]

theorem rejectedTrace_encodes (body : String) :
    Encodes gasLibraries (rejectedTrace body) sampleMessage := by
  obtain ⟨cell, -, -, -, -, hcell, -⟩ :=
    toCell_layout sampleKeccak (m := sampleMessage) (by decide)
  refine ⟨cell, ?_, hcell⟩
  change parsing (gasLibraries.fromBocB64 executeText) = .ok cell
  rw [gasLibraries_execute, hcell]
  rfl

theorem insufficientGasEvent_ok {body : String} {e : Event}
    (h : insufficientGasEvent body = .ok e) :
    ∃ p, ParserExecuteInsufficientGas.parse gasLibraries
      { trace := rejectedTrace body, allowedAddress := account 1 } = .ok p ∧ p.event = .ok e :=
  bind_eq_ok.mp h

def sampleEvent (messageId : String) : Event :=
  .cannotExecuteMessageV2 ⟨"CANNOT_EXECUTE_MESSAGE/V2", "cannot-execute-task-v2-2", none⟩
    messageId "avalanche" .insufficientGas "trace"

/-- The event names what the body wraps. -/
theorem insufficientGasEvent_wrapped {body messageId : String} {cell : Cell}
    (hboc : gasLibraries.fromBocB64 body = .ok cell)
    (hcell : unwrapMessage cell = .ok ⟨messageId, "avalanche"⟩) :
    insufficientGasEvent body = .ok (sampleEvent messageId) := by
  have hlog : RelayerExecuteWrappedMessage.fromBocB64 gasLibraries.fromBocB64 body =
      .ok ⟨messageId, "avalanche"⟩ := by
    rw [RelayerExecuteWrappedMessage.fromBocB64, parsing_ok hboc, ok_bind]
    exact hcell
  rw [insufficientGasEvent, ParserExecuteInsufficientGas.parse]
  dsimp only [rejectedTrace, sampleTrace]
  rw [List.getElem?_cons_zero, Option.bind_some, List.getElem?_cons_zero]
  dsimp only
  rw [hlog]
  rfl

theorem sampleB64_wraps : ∃ cell, gasLibraries.fromBocB64 sampleB64 = .ok cell ∧
    unwrapMessage cell = .ok ⟨"0x2a-1", "avalanche"⟩ := by
  obtain ⟨cell, hsent, hcell⟩ := sentBody_unwraps (by decide) sampleTonlib_carries
  refine ⟨cell, ?_, hcell⟩
  rw [sampleTonlib, sentBody_fromBocB64] at hsent
  rw [gasLibraries_sample, sampleTonlib_fromBocB64, hsent]
  rfl

theorem insufficient_gas_names_rejected_forwarded :
    ParserExecuteInsufficientGas.exitCodeBranch (account 1)
      (rejectedTrace sampleB64).transactions = true ∧
    insufficientGasEvent sampleB64 = .ok (sampleEvent "0x2a-1") ∧
    NamesRejected gasLibraries (rejectedTrace sampleB64) (sampleEvent "0x2a-1") := by
  obtain ⟨cell, hboc, hcell⟩ := sampleB64_wraps
  have hevent := insufficientGasEvent_wrapped hboc hcell
  obtain ⟨p, hparse, hp⟩ := insufficientGasEvent_ok hevent
  obtain ⟨m, hm, hwrapped⟩ := parse_wrapped hparse hp
  refine ⟨by decide +kernel, hevent, ?_⟩
  apply (insufficient_gas_names_rejected_iff hparse hp).1.mpr
  rw [rejectedMessage_encoded (rejectedTrace_encodes sampleB64), hwrapped]
  cases hm
  rfl

/-- The gateway rejects 0x2a-1 and the event names 0x2b-1. -/
theorem insufficient_gas_names_another_message :
    ParserExecuteInsufficientGas.exitCodeBranch (account 1)
      (rejectedTrace forgedText).transactions = true ∧
    Encodes gasLibraries (rejectedTrace forgedText) sampleMessage ∧
    insufficientGasEvent forgedText = .ok (sampleEvent "0x2b-1") ∧
    ¬ NamesRejected gasLibraries (rejectedTrace forgedText) (sampleEvent "0x2b-1") := by
  have hcell : unwrapMessage forgedCell = .ok ⟨"0x2b-1", "avalanche"⟩ := by decide +kernel
  refine ⟨by decide +kernel, rejectedTrace_encodes forgedText,
    insufficientGasEvent_wrapped gasLibraries_forged hcell, ?_⟩
  rintro ⟨m, hm, hrejected⟩
  rw [rejectedMessage_encoded (rejectedTrace_encodes forgedText)] at hrejected
  cases hrejected
  exact absurd hm (by decide)

end Samples

end RejectedMessages
