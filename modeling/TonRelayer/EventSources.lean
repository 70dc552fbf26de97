import TonRelayer.LogFormats
import TonRelayer.ReadableTraces

/-! What the events of a trace are read from.
A parser takes its log from one message of its transaction: the incoming one, the out message at
a fixed index, or the first out message with the op code of the log. The body of that message
starts with the log, laid out, and the event tells nothing else. -/
namespace EventSources

open ExceptRules Cells ByteEncodings RelayerExecute MessageDecoders Types GasCalculator
open TransactionParsers TraceParsing TraceEvents ReadableTraces ExactReaders LogFormats
open EventAuthenticity (sampleParser paidCall eventsOf parseTrace_eventsOf)

section Messages

/-- The first message without a destination that has this op code. -/
def emittedLog (tx : Transaction) (opCode : UInt32) : Option TransactionMessage :=
  tx.outMsgs.find? fun msg => msg.destination.isNone && msg.opcode == some opCode

/-- Where the log of a transaction is looked for. -/
def logMessage (tx : Transaction) : ParserName → Option TransactionMessage
  | .messageExecuted => tx.inMsg
  | .nativeGasRefunded => tx.outMsgs[1]?
  | .itsInterchainTokenDeploymentStarted => emittedLog tx opInterchainTokenDeploymentStartedLog
  | .itsInterchainTransfer => emittedLog tx opInterchainTransferLog
  | .itsLinkTokenStarted => emittedLog tx opLinkTokenStartedLog
  | .signersRotated => emittedLog tx opSignersRotatedLog
  | .callContract | .messageApproved | .nativeGasPaid | .nativeGasAdded | .jettonGasAdded
  | .jettonGasPaid | .itsTokenMetadataRegistered => tx.outMsgs[0]?

/-- The op codes of the incoming message; with none, the log has its own op code. -/
def triggers : ParserName → List UInt32
  | .callContract => [opCallContract]
  | .messageExecuted => [opNullifiedSuccessfully]
  | .messageApproved => [opMessageApproved]
  | .nativeGasPaid => [opPayNativeGasForContractCall, opPayGas]
  | .nativeGasAdded => [opAddNativeGas]
  | .jettonGasAdded | .jettonGasPaid => [opTransferNotification]
  | .nativeGasRefunded => [opNativeRefund]
  | .itsTokenMetadataRegistered => [opRegisterTokenMetadata]
  | .itsInterchainTokenDeploymentStarted | .itsInterchainTransfer | .itsLinkTokenStarted
  | .signersRotated => []

def Triggered (tx : Transaction) (n : ParserName) : Prop :=
  triggers n = [] ∨ ∃ opCode ∈ triggers n, tx.inMsg.bind (·.opcode) = some opCode

/-- A message in which `n`'s log is looked for. Only the log of an execution is no message to
the outside. -/
def Carries (tx : Transaction) (n : ParserName) (msg : TransactionMessage) : Prop :=
  logMessage tx n = some msg ∧ (n = .messageExecuted ∨ msg.destination = none)

variable {tx : Transaction} {opCode : UInt32} {index : ℕ}

theorem inMsg_opcode (h : isLogEmmittedInOpcode tx opCode index = true) :
    tx.inMsg.bind (·.opcode) = some opCode := by
  rw [isLogEmmittedInOpcode] at h
  split at h
  · rename_i op hop
    rw [Option.filter_eq_some_iff] at hop
    obtain ⟨hop, heq⟩ := hop
    rw [hop, of_decide_eq_true heq]
  · cases h

theorem outMsg_at (h : isLogEmmittedInOpcode tx opCode index = true) :
    ∃ msg, tx.outMsgs[index]? = some msg ∧ msg.destination = none := by
  rw [isLogEmmittedInOpcode] at h
  split at h
  · cases hmsg : tx.outMsgs[index]? with
    | none =>
      rw [hmsg] at h
      cases h
    | some msg =>
      rw [hmsg] at h
      exact ⟨msg, rfl, Option.isNone_iff_eq_none.mp h⟩
  · cases h

theorem emitted_at (h : isLogEmitted tx opCode ≥ 0) :
    ∃ msg, tx.outMsgs[(isLogEmitted tx opCode).toNat]? = some msg ∧
      emittedLog tx opCode = some msg ∧ msg.destination = none := by
  rw [isLogEmitted] at h ⊢
  split
  · rename_i i hi
    obtain ⟨hlt, hfound, hfirst⟩ := List.findIdx?_eq_some_iff_getElem.mp hi
    rw [Bool.and_eq_true] at hfound
    refine ⟨tx.outMsgs[i], List.getElem?_eq_getElem hlt, ?_,
      Option.isNone_iff_eq_none.mp hfound.1⟩
    rw [emittedLog, List.find?_eq_some_iff_getElem]
    refine ⟨by simpa using hfound, i, hlt, rfl, ?_⟩
    intro j hj
    rw [Bool.not_eq_true', Bool.eq_false_iff]
    exact hfirst j hj
  · rename_i hnone
    rw [hnone] at h
    cases h

end Messages

section Reading

variable {L D : Type} {lib : Libraries D} {p p₁ p₂ : LogParser L} {opCode : UInt32} {index : ℕ}
variable {decode : String → Except BocError L}

theorem parseLog_body {msg : TransactionMessage} (hp : p.log = none)
    (hmsg : p.tx.outMsgs[index]? = some msg) (h : parseLog decode index p = .ok p₂) :
    ∃ log, decode msg.messageContent.body = .ok log ∧ p₂.log = some log := by
  rw [parseLog, hp, hmsg] at h
  exact setLog_log h

theorem parseEmittedLog_body (hp : p.log = none) (hpos : isLogEmitted p.tx opCode ≥ 0)
    (h : parseEmittedLog decode { p with logPosition := isLogEmitted p.tx opCode } = .ok p₂) :
    ∃ msg log, emittedLog p.tx opCode = some msg ∧ msg.destination = none ∧
      decode msg.messageContent.body = .ok log ∧ p₂.log = some log := by
  obtain ⟨msg, hmsg, hfirst, hout⟩ := emitted_at hpos
  rw [parseEmittedLog, if_neg (not_lt.mpr hpos)] at h
  obtain ⟨log, hdecode, hlog⟩ := parseLog_body (p := { p with
    logPosition := isLogEmitted p.tx opCode }) hp hmsg h
  exact ⟨msg, log, hfirst, hout, hdecode, hlog⟩

theorem messageExecuted_body {p p₂ : LogParser NullifiedSuccessfullyMessage}
    {msg : TransactionMessage} (hp : p.log = none) (hmsg : p.tx.inMsg = some msg)
    (h : ParserMessageExecuted.parse lib p = .ok p₂) : ∃ log,
      fromBocB64 lib.fromBocB64 NullifiedSuccessfullyMessage.decode msg.messageContent.body =
        .ok log ∧ p₂.log = some log := by
  rw [ParserMessageExecuted.parse, hp, hmsg] at h
  exact setLog_log h

theorem checkLog_ok (h : checkLog opCode index p = .ok (true, p₁)) :
    p₁ = p ∧ isLogEmmittedInOpcode p.tx opCode index = true := by
  have hr := onAccount_ok h
  exact ⟨matched_eq hr, (Prod.mk.inj (Except.ok.inj hr)).1⟩

theorem checkJettonLog_ok (h : checkJettonLog decode p = .ok (true, p₁)) :
    p₁ = p ∧ isLogEmmittedInOpcode p.tx opTransferNotification 0 = true := by
  have hr := onAccount_ok h
  split at hr
  · rename_i hlog
    split at hr
    · cases hr
    · exact ⟨matched_eq hr, hlog⟩
  · cases hr

theorem checkEmittedLog_ok (h : checkEmittedLog opCode p = .ok (true, p₁)) :
    isLogEmitted p.tx opCode ≥ 0 ∧ p₁ = { p with logPosition := isLogEmitted p.tx opCode } := by
  have hr := onAccount_ok h
  by_cases hpos : isLogEmitted p.tx opCode ≥ 0
  · rw [if_pos hpos] at hr
    cases hr
    exact ⟨hpos, rfl⟩
  · rw [if_neg hpos] at hr
    cases hr

theorem nativeGasPaid_ok {p p₁ : LogParser NativeGasPaidMessage}
    (h : ParserNativeGasPaid.checkMatch p = .ok (true, p₁)) : p₁ = p ∧
      ∃ opCode ∈ triggers .nativeGasPaid, isLogEmmittedInOpcode p.tx opCode 0 = true := by
  have hr := onAccount_ok h
  split at hr
  · rename_i hlog
    exact ⟨matched_eq hr, _, List.mem_cons_self, hlog⟩
  · exact ⟨matched_eq hr, _, List.mem_cons_of_mem _ List.mem_cons_self,
      (Prod.mk.inj (Except.ok.inj hr)).1⟩

theorem messageExecuted_ok {p p₁ : LogParser NullifiedSuccessfullyMessage}
    (h : ParserMessageExecuted.checkMatch p = .ok (true, p₁)) : p₁ = p ∧
      ∃ index, isLogEmmittedInOpcode p.tx opNullifiedSuccessfully index = true := by
  have hr := onAccount_ok h
  dsimp only at hr
  split at hr
  · cases hr
  · rename_i hlogs
    refine ⟨matched_eq hr, ?_⟩
    by_cases hfirst : isLogEmmittedInOpcode p.tx opNullifiedSuccessfully 0 = true
    · exact ⟨0, hfirst⟩
    · refine ⟨1, ?_⟩
      simpa [hfirst] using hlogs

/-- The decoder of the log accepts the body of the message. -/
def Decodes (lib : Libraries D) (n : ParserName) (log : n.Log) (msg : TransactionMessage) : Prop :=
  fromBocB64 lib.fromBocB64 (decoder n) msg.messageContent.body = .ok log

/-- A parser that matched and parsed has read its log where it has to be. -/
theorem parsed_from {n : ParserName} {p p₁ p₂ : LogParser n.Log} (hp : p.log = none)
    (hmatch : n.checkMatch lib p = .ok (true, p₁)) (hparse : n.parse lib p₁ = .ok p₂) :
    Triggered p.tx n ∧ ∃ msg log, Carries p.tx n msg ∧ Decodes lib n log msg ∧
      p₂.log = some log := by
  cases n with
  | messageExecuted =>
    obtain ⟨rfl, index, hlog⟩ := messageExecuted_ok hmatch
    have hop := inMsg_opcode hlog
    refine ⟨.inr ⟨_, List.mem_singleton_self _, hop⟩, ?_⟩
    obtain ⟨msg, hmsg, -⟩ := Option.bind_eq_some_iff.mp hop
    obtain ⟨log, hdecode, hlog⟩ := messageExecuted_body hp hmsg hparse
    exact ⟨msg, log, ⟨hmsg, .inl rfl⟩, hdecode, hlog⟩
  | callContract | messageApproved | nativeGasAdded | nativeGasRefunded
  | itsTokenMetadataRegistered =>
    obtain ⟨rfl, hlog⟩ := checkLog_ok hmatch
    refine ⟨.inr ⟨_, List.mem_singleton_self _, inMsg_opcode hlog⟩, ?_⟩
    obtain ⟨msg, hmsg, hout⟩ := outMsg_at hlog
    obtain ⟨log, hdecode, hlog⟩ := parseLog_body hp hmsg hparse
    exact ⟨msg, log, ⟨hmsg, .inr hout⟩, hdecode, hlog⟩
  | jettonGasAdded | jettonGasPaid =>
    obtain ⟨rfl, hlog⟩ := checkJettonLog_ok hmatch
    refine ⟨.inr ⟨_, List.mem_singleton_self _, inMsg_opcode hlog⟩, ?_⟩
    obtain ⟨msg, hmsg, hout⟩ := outMsg_at hlog
    obtain ⟨log, hdecode, hlog⟩ := parseLog_body hp hmsg hparse
    exact ⟨msg, log, ⟨hmsg, .inr hout⟩, hdecode, hlog⟩
  | nativeGasPaid =>
    obtain ⟨rfl, opCode, hop, hlog⟩ := nativeGasPaid_ok hmatch
    refine ⟨.inr ⟨opCode, hop, inMsg_opcode hlog⟩, ?_⟩
    obtain ⟨msg, hmsg, hout⟩ := outMsg_at hlog
    obtain ⟨log, hdecode, hlog⟩ := parseLog_body hp hmsg hparse
    exact ⟨msg, log, ⟨hmsg, .inr hout⟩, hdecode, hlog⟩
  | itsInterchainTokenDeploymentStarted | itsInterchainTransfer | itsLinkTokenStarted
  | signersRotated =>
    obtain ⟨hpos, rfl⟩ := checkEmittedLog_ok hmatch
    obtain ⟨msg, log, hfirst, hout, hdecode, hlog⟩ := parseEmittedLog_body hp hpos hparse
    exact ⟨.inl rfl, msg, log, ⟨hfirst, .inr hout⟩, hdecode, hlog⟩

end Reading

section Wrapped

/-- A message id and a source chain, five cells down. -/
def wrapped : Format CellParser RelayerExecuteWrappedMessage :=
  inCell (inSequence [skipped reference, inCell (inCell (inCell (inSequence
    [field RelayerExecuteWrappedMessage.messageId string,
      field RelayerExecuteWrappedMessage.sourceChain string])))])

theorem parsing_reference {p p' : CellParser} {c : Cell} :
    parsing (nextReference p) = .ok (c, p') ↔ p = ⟨[], [c]⟩ * p' := by
  rw [parsing, mapError_eq_ok, nextReference_exact p c p']
  constructor
  · rintro ⟨piece, rfl, h⟩
    exact h
  · intro h
    exact ⟨_, rfl, h⟩

theorem starts_inCell {α : Type} {F : Format CellParser α} {a : α} {p : CellParser} :
    Starts (inCell F) a p ↔ ∃ c rest, p = ⟨[], [c]⟩ * rest ∧ Starts F a c.parser := by
  constructor
  · rintro ⟨_, rest, ⟨c, piece, rest', hc, hpiece, rfl⟩, rfl⟩
    exact ⟨c, rest, rfl, piece, rest', hpiece, hc⟩
  · rintro ⟨c, rest, rfl, piece, rest', hpiece, hc⟩
    exact ⟨_, rest, ⟨c, piece, rest', hc, hpiece, rfl⟩, rfl⟩

theorem starts_message {m : RelayerExecuteWrappedMessage} {p : CellParser} :
    Starts (inSequence [field RelayerExecuteWrappedMessage.messageId string,
      field RelayerExecuteWrappedMessage.sourceChain string]) m p ↔
    ∃ messageId sourceChain rest, p = ⟨[], [messageId]⟩ * (⟨[], [sourceChain]⟩ * rest) ∧
      cellToString messageId = .ok m.messageId ∧
      cellToString sourceChain = .ok m.sourceChain := by
  constructor
  · intro h
    obtain ⟨_, _, ⟨messageId, hid, rfl⟩, hrest, rfl⟩ := starts_cons.mp h
    obtain ⟨_, rest, ⟨sourceChain, hchain, rfl⟩, -, rfl⟩ := starts_cons.mp hrest
    exact ⟨messageId, sourceChain, rest, rfl, hid, hchain⟩
  · rintro ⟨messageId, sourceChain, rest, rfl, hid, hchain⟩
    exact starts_cons.mpr ⟨_, _, ⟨messageId, hid, rfl⟩,
      starts_cons.mpr ⟨_, rest, ⟨sourceChain, hchain, rfl⟩, starts_nil, rfl⟩, rfl⟩

theorem unwrapMessage_iff {m : RelayerExecuteWrappedMessage} {c : Cell} :
    unwrapMessage c = .ok m ↔ Starts wrapped m c.parser := by
  simp only [unwrapMessage, bind_eq_ok, Prod.exists, parsing_reference, pure_eq_ok]
  rw [wrapped, starts_inCell]
  constructor
  · rintro ⟨c₁, _, h₁, c', _, h₂, c₂, rest, rfl, c₃, _, h₃, c₄, _, h₄, messageId, _, h₅, _, hid,
      sourceChain, _, rfl, _, hchain, rfl⟩
    refine ⟨c₁, _, h₁, starts_cons.mpr ⟨_, _, ⟨c', rfl⟩, ?_, h₂⟩⟩
    obtain ⟨piece, rest', hpiece, hc₂⟩ := starts_inCell.mpr ⟨c₃, _, h₃, starts_inCell.mpr
      ⟨c₄, _, h₄, (starts_message (m := ⟨_, _⟩)).mpr
        ⟨messageId, sourceChain, _, h₅, hid, hchain⟩⟩⟩
    exact starts_cons.mpr ⟨_, rest, ⟨c₂, piece, rest', hc₂, hpiece, rfl⟩, starts_nil, rfl⟩
  · rintro ⟨c₁, rest₁, h₁, h⟩
    obtain ⟨_, _, ⟨c', rfl⟩, hrest, h₂⟩ := starts_cons.mp h
    obtain ⟨_, rest₂, ⟨c₂, piece, rest', hc₂, hpiece, rfl⟩, -, rfl⟩ := starts_cons.mp hrest
    obtain ⟨c₃, rest₃, h₃, hcell⟩ := starts_inCell.mp ⟨piece, rest', hpiece, hc₂⟩
    obtain ⟨c₄, rest₄, h₄, hmessage⟩ := starts_inCell.mp hcell
    obtain ⟨messageId, sourceChain, rest₅, h₅, hid, hchain⟩ := starts_message.mp hmessage
    exact ⟨c₁, _, h₁, c', _, h₂, c₂, _, rfl, c₃, _, h₃, c₄, _, h₄, messageId, _, h₅, _, hid,
      sourceChain, _, rfl, _, hchain, rfl⟩

end Wrapped

section Events

variable {D : Type} {t : TraceParser D} {trace : Trace} {events : List Event}

/-- The body of the message is a cell that starts with the value, laid out. -/
def Holds {α : Type} (lib : Libraries D) (F : Format CellParser α) (a : α)
    (msg : TransactionMessage) : Prop :=
  ∃ c, lib.fromBocB64 msg.messageContent.body = .ok c ∧ Starts F a c.parser

/-- What a parser that holds this log makes of it, with the amounts of the trace filled in. -/
def Tells (t : TraceParser D) (trace : Trace) (tx : Transaction) (n : ParserName) (log : n.Log)
    (e : Event) : Prop :=
  ∃ p : LogParser n.Log, p.tx = tx ∧ p.log = some log ∧ ∃ mid e₀ total refund c,
    n.event t p mid = .ok e₀ ∧ gasUsed t trace = .ok (total, refund) ∧
    createParsers t trace = .ok c ∧
    convertEvent t total refund c.messageApprovedCount e₀ = .ok e

/-- The event tells a log of this transaction, which is one of the log's contract. -/
structure ReadFrom (t : TraceParser D) (trace : Trace) (tx : Transaction) (n : ParserName)
    (log : n.Log) (e : Event) : Prop where
  contract : tx.account = address t n.contract
  trigger : Triggered tx n
  message : ∃ msg, Carries tx n msg ∧ Holds t.lib (layout n) log msg
  event : Tells t trace tx n log e

/-- The event tells that the message wrapped in the first out message of a matching trace was
not executed. -/
def ReadFromStart (t : TraceParser D) (trace : Trace) (e : Event) : Prop :=
  ParserExecuteInsufficientGas.checkMatch { trace, allowedAddress := t.gatewayAddress } = true ∧
  ∃ msg m, trace.transactions[0]?.bind (·.outMsgs[0]?) = some msg ∧ Holds t.lib wrapped m msg ∧
    e = .cannotExecuteMessageV2
      ⟨"CANNOT_EXECUTE_MESSAGE/V2", "cannot-execute-task-v2-" ++ toString trace.endLt, none⟩
      m.messageId m.sourceChain .insufficientGas trace.traceId

theorem readFromStart_of_parse {p : ParserExecuteInsufficientGas} {e : Event}
    (hmatch : ParserExecuteInsufficientGas.checkMatch
      { trace, allowedAddress := t.gatewayAddress } = true)
    (hparse : ParserExecuteInsufficientGas.parse t.lib
      { trace, allowedAddress := t.gatewayAddress } = .ok p)
    (hevent : p.event = .ok e) : ReadFromStart t trace e := by
  refine ⟨hmatch, ?_⟩
  rw [ParserExecuteInsufficientGas.parse] at hparse
  dsimp only at hparse
  split at hparse
  · cases hparse
  · rename_i msg hmsg
    split at hparse
    · rename_i m hm
      cases hparse
      cases hevent
      obtain ⟨c, hc, hunwrap⟩ := bind_eq_ok.mp hm
      rw [parsing, mapError_eq_ok] at hc
      exact ⟨msg, m, hmsg, ⟨c, hc, unwrapMessage_iff.mp hunwrap⟩, rfl⟩
    · cases hparse

end Events

end EventSources
