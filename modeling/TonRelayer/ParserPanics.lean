import TonRelayer.ReadableTraces

/-! Where parsing a trace can panic.
A parser indexes the message that its own `check_match` has looked at, and only parsers that
have a key are asked for one. The insufficient-gas parser is the exception: it tests later
transactions and then reads the first message of the first one, which need not be there. -/
namespace ParserPanics

open ExceptRules Cells ByteEncodings RelayerExecute MessageDecoders Types GasCalculator
open TransactionParsers TraceParsing TraceEvents ReadableTraces EventAuthenticity

abbrev NoPanic {α : Type} (r : Outcome α) : Prop := Avoids .panic r

/-- The call comes back with `Ok` or with `Err`. -/
def Returns {α : Type} (r : Outcome α) : Prop := (∃ a, r = .ok a) ∨ ∃ e, r = .error (.err e)

theorem returns_iff_noPanic {α : Type} {r : Outcome α} : Returns r ↔ NoPanic r := by
  constructor
  · rintro (⟨a, rfl⟩ | ⟨e, rfl⟩) h
    · cases h
    · cases h
  · intro h
    cases r with
    | ok a => exact .inl ⟨a, rfl⟩
    | error f =>
      cases f with
      | err e => exact .inr ⟨e, rfl⟩
      | panic => exact absurd rfl h

variable {D L : Type} {t : TraceParser D} {trace : Trace}

section Logs

variable {lib : Libraries D} {p p' : LogParser L} {decode : String → Except BocError L}

theorem fail_noPanic {α : Type} (e : TransactionParsingError) : NoPanic (fail e : Outcome α) := by
  apply avoids_error
  intro h
  cases h

/-- A log that was looked at is there. -/
theorem looked_at {tx : Transaction} {opCode : UInt32} {index : ℕ}
    (h : isLogEmmittedInOpcode tx opCode index = true) : ∃ msg, tx.outMsgs[index]? = some msg := by
  rw [isLogEmmittedInOpcode] at h
  split at h
  · cases hmsg : tx.outMsgs[index]? with
    | none =>
      rw [hmsg] at h
      cases h
    | some msg => exact ⟨msg, rfl⟩
  · cases h

theorem emitted_at {tx : Transaction} {opCode : UInt32} (h : isLogEmitted tx opCode ≥ 0) :
    ∃ msg, tx.outMsgs[(isLogEmitted tx opCode).toNat]? = some msg := by
  rw [isLogEmitted] at h ⊢
  split
  · rename_i i hi
    obtain ⟨hlt, -⟩ := List.findIdx?_eq_some_iff_getElem.mp hi
    exact ⟨_, List.getElem?_eq_getElem hlt⟩
  · rename_i hnone
    rw [hnone] at h
    cases h

theorem setLog_noPanic (body : String) (p : LogParser L) : NoPanic (setLog decode body p) := by
  rw [setLog]
  split
  · exact avoids_ok _
  · exact fail_noPanic _

theorem parseLog_noPanic {index : ℕ} (h : ∃ msg, p.tx.outMsgs[index]? = some msg) :
    NoPanic (parseLog decode index p) := by
  obtain ⟨msg, hmsg⟩ := h
  rw [parseLog, hmsg]
  split
  · exact avoids_ok _
  · exact setLog_noPanic _ p

theorem checkLog_looked {opCode : UInt32} {index : ℕ}
    (h : checkLog opCode index p = .ok (true, p')) :
    ∃ msg, p'.tx.outMsgs[index]? = some msg := by
  have hr := onAccount_ok h
  rw [matched_eq hr]
  exact looked_at (Prod.mk.inj (Except.ok.inj hr)).1

theorem checkJettonLog_looked (h : checkJettonLog decode p = .ok (true, p')) :
    ∃ msg, p'.tx.outMsgs[0]? = some msg := by
  have hr := onAccount_ok h
  split at hr
  · rename_i hlog
    split at hr
    · cases hr
    · rw [matched_eq hr]
      exact looked_at hlog
  · cases hr

theorem nativeGasPaid_looked {p p' : LogParser NativeGasPaidMessage}
    (h : ParserNativeGasPaid.checkMatch p = .ok (true, p')) :
    ∃ msg, p'.tx.outMsgs[0]? = some msg := by
  have hr := onAccount_ok h
  split at hr
  · rename_i hlog
    rw [matched_eq hr]
    exact looked_at hlog
  · rw [matched_eq hr]
    exact looked_at (Prod.mk.inj (Except.ok.inj hr)).1

theorem emitted_noPanic {opCode : UInt32} (h : checkEmittedLog opCode p = .ok (true, p')) :
    NoPanic (parseEmittedLog decode p') := by
  have hr := onAccount_ok h
  by_cases hpos : isLogEmitted p.tx opCode ≥ 0
  · rw [if_pos hpos] at hr
    cases hr
    rw [parseEmittedLog, if_neg (not_lt.mpr hpos)]
    exact parseLog_noPanic (emitted_at hpos)
  · rw [if_neg hpos] at hr
    cases hr

theorem onAccount_noPanic {r : Outcome (Bool × LogParser L)} (h : NoPanic r) :
    NoPanic (onAccount p r) := by
  rw [onAccount]
  split
  · exact avoids_ok _
  · exact h

/-- The jetton parsers read the log while they match, after they have looked at it. -/
theorem checkJettonLog_noPanic (p : LogParser L) : NoPanic (checkJettonLog decode p) := by
  apply onAccount_noPanic
  split
  · rename_i hlog
    obtain ⟨msg, hmsg⟩ := looked_at hlog
    rw [hmsg]
    exact avoids_ok _
  · exact avoids_ok _

theorem checkEmittedLog_noPanic (opCode : UInt32) (p : LogParser L) :
    NoPanic (checkEmittedLog opCode p) := by
  apply onAccount_noPanic
  dsimp only
  split
  · exact avoids_ok _
  · exact avoids_ok _

theorem checkMatch_noPanic (lib : Libraries D) (n : ParserName) (p : LogParser n.Log) :
    NoPanic (n.checkMatch lib p) := by
  cases n with
  | callContract | messageApproved | nativeGasAdded | nativeGasRefunded
  | itsTokenMetadataRegistered => exact onAccount_noPanic (avoids_ok _)
  | jettonGasAdded | jettonGasPaid => exact checkJettonLog_noPanic p
  | itsInterchainTokenDeploymentStarted | itsInterchainTransfer | itsLinkTokenStarted
  | signersRotated => exact checkEmittedLog_noPanic _ p
  | messageExecuted | nativeGasPaid =>
    apply onAccount_noPanic
    split
    · exact avoids_ok _
    · exact avoids_ok _

/-- This parser takes its log from the in message, and asks whether there is one. -/
theorem messageExecuted_noPanic (lib : Libraries D) (p : LogParser NullifiedSuccessfullyMessage) :
    NoPanic (ParserMessageExecuted.parse lib p) := by
  rw [ParserMessageExecuted.parse]
  split
  · exact avoids_ok _
  · split
    · exact fail_noPanic _
    · exact setLog_noPanic _ p

/-- A parser that matched finds what it reads. -/
theorem parse_noPanic {n : ParserName} {p p' : LogParser n.Log}
    (h : n.checkMatch lib p = .ok (true, p')) : NoPanic (n.parse lib p') := by
  cases n with
  | callContract | messageApproved | nativeGasAdded | nativeGasRefunded
  | itsTokenMetadataRegistered => exact parseLog_noPanic (checkLog_looked h)
  | jettonGasAdded | jettonGasPaid => exact parseLog_noPanic (checkJettonLog_looked h)
  | nativeGasPaid => exact parseLog_noPanic (nativeGasPaid_looked h)
  | itsInterchainTokenDeploymentStarted | itsInterchainTransfer | itsLinkTokenStarted
  | signersRotated => exact emitted_noPanic h
  | messageExecuted => exact messageExecuted_noPanic lib p'

end Logs

section Events

variable {p : LogParser L} {mid : Option String} {text : String}

theorem getLog_noPanic (p : LogParser L) : NoPanic p.getLog := by
  rw [LogParser.getLog]
  split
  · exact avoids_ok _
  · exact fail_noPanic _

theorem requireId_noPanic (text : String) (mid : Option String) : NoPanic (requireId text mid) := by
  cases mid with
  | none => exact fail_noPanic _
  | some id => exact avoids_ok id

theorem ofLog_noPanic {α : Type} (p : LogParser L) (f : L → α) :
    NoPanic (p.getLog >>= fun log => pure (f log)) := by
  apply avoids_bind (getLog_noPanic p)
  intro log _
  exact avoids_ok _

theorem hashToMessageId_noPanic (lib : Libraries D) (hash : String) :
    NoPanic (hashToMessageId lib hash) := by
  rw [hashToMessageId]
  split
  · exact avoids_ok _
  · exact fail_noPanic _

theorem ofHash_noPanic (lib : Libraries D) (hash : String) :
    NoPanic (hashToMessageId lib hash >>= fun id => pure (some id)) := by
  apply avoids_bind (hashToMessageId_noPanic lib hash)
  intro id _
  exact avoids_ok _

theorem messageId_noPanic (lib : Libraries D) (q : TxParser) : NoPanic (q.messageId lib) := by
  obtain ⟨n, p⟩ := q
  cases n with
  | callContract | signersRotated => exact ofHash_noPanic lib p.tx.hash
  | nativeGasAdded | jettonGasAdded => exact ofLog_noPanic p _
  | _ => exact avoids_ok _

theorem linked_noPanic {f : String → L → Event} :
    NoPanic (requireId text mid >>= fun id => p.getLog >>= fun log => pure (f id log)) := by
  apply avoids_bind (requireId_noPanic text mid)
  intro id _
  exact ofLog_noPanic p _

theorem ownId_noPanic {r : Outcome (Option String)} {f : String → L → Event} (hr : NoPanic r) :
    NoPanic (p.getLog >>= fun log => r >>= fun mid => requireId text mid >>= fun id =>
      pure (f id log)) := by
  apply avoids_bind (getLog_noPanic p)
  intro log _
  apply avoids_bind hr
  intro mid _
  apply avoids_bind (requireId_noPanic text mid)
  intro id _
  exact avoids_ok _

theorem call_noPanic (t : TraceParser D) (p : LogParser CallContractMessage) :
    NoPanic (ParserCallContract.event t p) := by
  apply avoids_bind (getLog_noPanic p)
  intro log _
  apply avoids_bind (ofHash_noPanic t.lib p.tx.hash)
  intro mid _
  apply avoids_bind (requireId_noPanic _ mid)
  intro id _
  dsimp only
  split
  · exact fail_noPanic _
  · exact avoids_ok _

theorem event_noPanic (t : TraceParser D) (q : TxParser) (mid : Option String) :
    NoPanic (q.event t mid) := by
  obtain ⟨n, p⟩ := q
  cases n with
  | callContract => exact call_noPanic t p
  | messageExecuted | messageApproved => exact ofLog_noPanic p _
  | nativeGasPaid | jettonGasPaid | itsTokenMetadataRegistered
  | itsInterchainTokenDeploymentStarted | itsInterchainTransfer | itsLinkTokenStarted =>
    exact linked_noPanic
  | nativeGasAdded | jettonGasAdded => exact ownId_noPanic (ofLog_noPanic p _)
  | nativeGasRefunded => exact ownId_noPanic (avoids_ok _)
  | signersRotated =>
    apply avoids_bind (ofHash_noPanic t.lib p.tx.hash)
    intro mid _
    exact linked_noPanic

theorem anyEvent_noPanic (t : TraceParser D) (p : AnyParser) : NoPanic (p.event t) := by
  cases p with
  | transaction q => exact event_noPanic t q none
  | executeInsufficientGas p =>
    rw [AnyParser.event, ParserExecuteInsufficientGas.event]
    split
    · exact fail_noPanic _
    · exact avoids_ok _

/-- The parsers that are asked for a key have one. -/
theorem key_noPanic {q : TxParser}
    (h : container q.name = .calls ∨ container q.name = .credits) : NoPanic q.key := by
  obtain ⟨n, p⟩ := q
  cases n with
  | callContract | nativeGasPaid | jettonGasPaid => exact ofLog_noPanic p _
  | _ => rcases h with h | h <;> cases h

end Events

section Linking

theorem route_noPanic (c : Containers) (q : TxParser) : NoPanic (route c q) := by
  obtain ⟨n, p⟩ := q
  cases n with
  | nativeGasPaid | jettonGasPaid =>
    apply avoids_bind (key_noPanic (.inr rfl))
    intro k _
    exact avoids_ok _
  | _ => exact avoids_ok _

theorem firstMatch_noPanic (t : TraceParser D) (tx : Transaction) (ns : List ParserName) :
    NoPanic (firstMatch t tx ns) := by
  induction ns with
  | nil => exact avoids_ok _
  | cons n rest ih =>
    rw [firstMatch]
    apply avoids_bind (checkMatch_noPanic t.lib n _)
    rintro ⟨isMatch, p⟩ hmatch
    cases isMatch with
    | false => exact ih
    | true =>
      apply avoids_bind (parse_noPanic hmatch)
      intro p' _
      exact avoids_ok _

theorem addTransaction_noPanic (t : TraceParser D) (c : Containers) (tx : Transaction) :
    NoPanic (TraceParsing.addTransaction t c tx) := by
  apply avoids_bind (firstMatch_noPanic t tx cascade)
  intro r _
  cases r with
  | none => exact avoids_ok c
  | some q => exact route_noPanic c q

theorem linkCalls_noPanic {calls : List TxParser} (h : ∀ cc ∈ calls, container cc.name = .calls)
    (m : GasCreditMap) : NoPanic (linkCalls t calls m) := by
  induction calls generalizing m with
  | nil => exact avoids_ok _
  | cons cc calls ih =>
    rw [List.forall_mem_cons] at h
    rw [linkCalls]
    apply avoids_bind (key_noPanic (.inl h.1))
    intro k _
    apply avoids_bind (event_noPanic t cc none)
    intro call _
    cases m.lookup k with
    | none =>
      apply avoids_bind (ih h.2 m)
      intro events _
      exact avoids_ok _
    | some q =>
      apply avoids_bind (messageId_noPanic t.lib cc)
      intro mid _
      apply avoids_bind (requireId_noPanic _ mid)
      intro id _
      apply avoids_bind (event_noPanic t q (some id))
      intro credit _
      apply avoids_bind (ih h.2 (m.erase k))
      intro events _
      exact avoids_ok _

theorem linkIts_noPanic (i : ℕ) (its calls : List TxParser) : NoPanic (linkIts t i its calls) := by
  induction its generalizing i calls with
  | nil =>
    rw [linkIts]
    exact avoids_ok _
  | cons q its ih =>
    cases calls with
    | nil => exact fail_noPanic _
    | cons cc calls =>
      rw [linkIts]
      apply avoids_bind (messageId_noPanic t.lib cc)
      intro mid _
      apply avoids_bind (event_noPanic t q mid)
      intro e _
      apply avoids_bind (ih (i + 1) calls)
      intro events _
      exact avoids_ok _

theorem linkEvents_noPanic {c : Containers}
    (h : ∀ cc ∈ c.callContract, container cc.name = .calls) : NoPanic (linkEvents t c) := by
  apply avoids_bind (linkCalls_noPanic h c.gasCreditMap)
  intro calls _
  apply avoids_bind (linkIts_noPanic 0 c.its c.callContract)
  intro its _
  apply avoids_bind
  · apply avoids_mapM
    intro p _
    apply avoids_bind (anyEvent_noPanic t p)
    intro e _
    exact avoids_ok _
  · intro others _
    exact avoids_ok _

end Linking

section Traces

/-- The insufficient-gas parser matches, and the first transaction has no out message. -/
def ReadsMissing (t : TraceParser D) (trace : Trace) : Prop :=
  ParserExecuteInsufficientGas.checkMatch { trace, allowedAddress := t.gatewayAddress } = true ∧
    ∃ tx, trace.transactions[0]? = some tx ∧ tx.outMsgs = []

/-- The decimal operations on this amount and on any prices of the view are defined. -/
def ConversionFits (t : TraceParser D) (minter : String) (amount : ℕ) : Prop :=
  ∀ coin ton d, t.getPrice (minter ++ "/USD") = .ok coin → t.getPrice "TON/USD" = .ok ton →
    t.lib.decimalFromStr (toString amount) = .ok d →
    ((t.lib.decimalMul d coin).bind fun usd => t.lib.decimalDiv usd ton).isSome = true

/-- Decimal arithmetic goes through for every jetton amount among the linked events. -/
def DecimalsFit (t : TraceParser D) (trace : Trace) : Prop :=
  ∀ c out, createParsers t trace = .ok c → linkEvents t c = .ok out → ∀ pe ∈ out,
    ∀ common id refundAddress minter text amount,
      pe.2 = .gasCredit common id refundAddress ⟨some minter, text⟩ →
      parseBigUint text = some amount → ConversionFits t minter amount

/-- Both tests look at the transactions behind the first, which is therefore there. -/
theorem matched_first {p : ParserExecuteInsufficientGas} (h : p.checkMatch = true) :
    ∃ tx, p.trace.transactions[0]? = some tx := by
  cases htxs : p.trace.transactions with
  | nil =>
    rw [ParserExecuteInsufficientGas.checkMatch, htxs] at h
    cases h
  | cons tx txs => exact ⟨tx, rfl⟩

theorem startContainers_missing (h : ReadsMissing t trace) :
    startContainers t trace = .error .panic := by
  obtain ⟨hmatch, tx, htx, hmsgs⟩ := h
  rw [startContainers, if_pos hmatch, ParserExecuteInsufficientGas.parse]
  dsimp only
  rw [htx, Option.bind_some, hmsgs]
  rfl

theorem startContainers_noPanic (h : ¬ ReadsMissing t trace) :
    NoPanic (startContainers t trace) := by
  rw [startContainers]
  split
  · rename_i hmatch
    apply avoids_bind
    · obtain ⟨tx, htx⟩ := matched_first hmatch
      rw [ParserExecuteInsufficientGas.parse]
      dsimp only at htx ⊢
      cases hmsgs : tx.outMsgs with
      | nil => exact absurd ⟨hmatch, tx, htx, hmsgs⟩ h
      | cons msg msgs =>
        rw [htx, Option.bind_some, hmsgs, List.getElem?_cons_zero]
        dsimp only
        split
        · exact avoids_ok _
        · exact fail_noPanic _
    · intro p _
      exact avoids_ok _
  · exact avoids_ok _

theorem createParsers_noPanic (h : ¬ ReadsMissing t trace) : NoPanic (createParsers t trace) := by
  apply avoids_bind (startContainers_noPanic h)
  intro start _
  apply avoids_foldlM
  intro tx _ c
  exact addTransaction_noPanic t c tx

/-- A native amount, or a `ConversionError`. -/
def ConvertsCleanly (t : TraceParser D) (minter : String) (amount : ℕ) : Prop :=
  (∃ native, convertJettonToNative t minter amount = .ok native) ∨
    ∃ text, convertJettonToNative t minter amount = conversionError text

theorem converts_of_fits {minter : String} {amount : ℕ} (h : ConversionFits t minter amount) :
    ConvertsCleanly t minter amount := by
  rw [ConvertsCleanly, convertJettonToNative]
  split
  · exact .inr ⟨_, rfl⟩
  · rename_i coin hcoin
    split
    · exact .inr ⟨_, rfl⟩
    · rename_i ton hton
      split
      · exact .inr ⟨_, rfl⟩
      · rename_i d hd
        obtain ⟨result, hresult⟩ := Option.isSome_iff_exists.mp (h coin ton d hcoin hton hd)
        rw [hresult]
        dsimp only
        split
        · exact .inr ⟨_, rfl⟩
        · exact .inl ⟨_, rfl⟩

theorem convertJettonToNative_noPanic {minter : String} {amount : ℕ}
    (h : ConvertsCleanly t minter amount) : NoPanic (convertJettonToNative t minter amount) := by
  rcases h with ⟨native, hnative⟩ | ⟨text, htext⟩
  · exact avoids_of_eq hnative
  · rw [htext]
    exact fail_noPanic _

theorem convertEvent_noPanic {total refund approved : ℕ} {e : Event}
    (h : ∀ common id refundAddress minter text amount,
      e = .gasCredit common id refundAddress ⟨some minter, text⟩ →
      parseBigUint text = some amount → ConversionFits t minter amount) :
    NoPanic (convertEvent t total refund approved e) := by
  cases e with
  | gasCredit common id refundAddress payment =>
    obtain ⟨tokenId, text⟩ := payment
    cases tokenId with
    | none => exact avoids_ok _
    | some minter =>
      rw [convertEvent]
      dsimp only
      split
      · exact fail_noPanic _
      · rename_i amount hamount
        apply avoids_bind
        · exact convertJettonToNative_noPanic
            (converts_of_fits (h common id refundAddress minter text amount rfl hamount))
        · intro native _
          exact avoids_ok _
  | _ => exact avoids_ok _

theorem parseTrace_missing (h : ReadsMissing t trace) : parseTrace t trace = .error .panic := by
  obtain ⟨⟨total, refund⟩, hgas⟩ := gasUsed_defined t trace
  rw [parseTrace, parseTraceTagged, hgas, ok_bind, createParsers, startContainers_missing h]
  rfl

theorem parseTrace_noPanic (h : ¬ ReadsMissing t trace) (hfit : DecimalsFit t trace) :
    NoPanic (parseTrace t trace) := by
  obtain ⟨⟨total, refund⟩, hgas⟩ := gasUsed_defined t trace
  intro hpanic
  have htagged := map_eq_error.mp hpanic
  rw [parseTraceTagged, hgas, ok_bind] at htagged
  refine avoids_bind (createParsers_noPanic h) ?_ htagged
  intro c hc
  obtain ⟨start, -, hs⟩ := createParsers_sorted hc
  apply avoids_bind (linkEvents_noPanic (sorted_calls hs))
  intro out hout
  apply avoids_mapM
  intro pe hpe
  apply avoids_bind (convertEvent_noPanic (hfit c out hc hout pe hpe))
  intro e _
  exact avoids_ok _

/-- Parsing returns, with events or with an error, exactly when no first message is missing
that the insufficient-gas parser then reads. -/
theorem parseTrace_returns_iff (h : DecimalsFit t trace) :
    Returns (parseTrace t trace) ↔ ¬ ReadsMissing t trace := by
  rw [returns_iff_noPanic]
  constructor
  · intro hpanic hmissing
    exact hpanic (parseTrace_missing hmissing)
  · intro hread
    exact parseTrace_noPanic hread h

end Traces

section Samples

/-- A nullification that failed in its actions, in a trace that starts with a message. -/
theorem foreign_failure_returns : Returns (parseTrace sampleParser foreignFailure) := by
  have hfit : DecimalsFit sampleParser foreignFailure := by
    intro c out _ _ pe _ common id refundAddress minter text amount _ _ coin ton d hcoin
    cases hcoin
  apply (parseTrace_returns_iff hfit).mpr
  rintro ⟨-, tx, htx, hmsgs⟩
  cases htx
  cases hmsgs

/-- The same failure, in a trace whose first transaction sends nothing. -/
def silentFailure : Trace :=
  let message : TransactionMessage := { hash := "m", destination := some (account 1) }
  let tx : Transaction := { account := account 1, hash := hashText 1, inMsg := some message }
  sampleTrace [tx, tx, tx, tx,
    { tx with
      inMsg := some { message with opcode := some opNullifiedSuccessfully }
      description := { action := some ⟨37⟩ } }]

theorem silent_failure_panics : parseTrace sampleParser silentFailure = .error .panic := by
  apply parseTrace_missing
  constructor
  · decide
  · exact ⟨_, rfl, rfl⟩

end Samples

end ParserPanics
