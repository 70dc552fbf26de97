import TonRelayer.EventAuthenticity

/-! Traces whose logs decode.
Once every parser that matches has read its log, and the hashes are base64, no step before the
pairing of ITS logs with calls can fail, and no later step reports a missing pair. -/
namespace ReadableTraces

open ExceptRules Cells ByteEncodings RelayerExecute MessageDecoders Types GasCalculator
open TransactionParsers TraceParsing TraceEvents

variable {D L : Type} {t : TraceParser D} {trace : Trace}

section Logs

variable {lib : Libraries D} {p p' : LogParser L} {r : Outcome (Bool × LogParser L)}
variable {decode : String → Except BocError L}

theorem onAccount_ok (h : onAccount p r = .ok (true, p')) : r = .ok (true, p') := by
  rw [onAccount] at h
  split at h
  · cases h
  · exact h

theorem matched_eq {b : Bool} (h : (.ok (b, p) : Outcome (Bool × LogParser L)) = .ok (true, p')) :
    p' = p := (Prod.mk.inj (Except.ok.inj h)).2.symm

theorem checkLog_log {opCode : UInt32} {index : ℕ}
    (h : checkLog opCode index p = .ok (true, p')) : p'.log = p.log := by
  rw [matched_eq (onAccount_ok h)]

theorem checkEmittedLog_log {opCode : UInt32} (h : checkEmittedLog opCode p = .ok (true, p')) :
    p'.log = p.log ∧ 0 ≤ p'.logPosition := by
  have hr := onAccount_ok h
  by_cases hpos : isLogEmitted p.tx opCode ≥ 0
  · rw [if_pos hpos] at hr
    cases hr
    exact ⟨rfl, hpos⟩
  · rw [if_neg hpos] at hr
    cases hr

theorem checkJettonLog_log (h : checkJettonLog decode p = .ok (true, p')) : p'.log = p.log := by
  have hr := onAccount_ok h
  split at hr
  · split at hr
    · cases hr
    · rw [matched_eq hr]
  · cases hr

theorem messageExecuted_log {p p' : LogParser NullifiedSuccessfullyMessage}
    (h : ParserMessageExecuted.checkMatch p = .ok (true, p')) : p'.log = p.log := by
  have hr := onAccount_ok h
  dsimp only at hr
  split at hr
  · cases hr
  · rw [matched_eq hr]

theorem nativeGasPaid_log {p p' : LogParser NativeGasPaidMessage}
    (h : ParserNativeGasPaid.checkMatch p = .ok (true, p')) : p'.log = p.log := by
  have hr := onAccount_ok h
  split at hr
  · rw [matched_eq hr]
  · rw [matched_eq hr]

theorem setLog_log {body : String} (h : setLog decode body p = .ok p') :
    ∃ log, decode body = .ok log ∧ p'.log = some log := by
  obtain ⟨log, hdecode, rfl⟩ := setLog_ok h
  exact ⟨log, hdecode, rfl⟩

theorem parseLog_log {index : ℕ} (hp : p.log = none) (h : parseLog decode index p = .ok p') :
    ∃ body log, decode body = .ok log ∧ p'.log = some log := by
  rw [parseLog, hp] at h
  dsimp only at h
  split at h
  · cases h
  · exact ⟨_, setLog_log h⟩

theorem parseEmittedLog_log (hp : p.log = none) (hpos : 0 ≤ p.logPosition)
    (h : parseEmittedLog decode p = .ok p') : ∃ log, p'.log = some log := by
  rw [parseEmittedLog, if_neg (not_lt.mpr hpos)] at h
  obtain ⟨_, log, -, hlog⟩ := parseLog_log hp h
  exact ⟨log, hlog⟩

theorem messageExecuted_parse_log {p p' : LogParser NullifiedSuccessfullyMessage}
    (hp : p.log = none) (h : ParserMessageExecuted.parse lib p = .ok p') :
    ∃ log, p'.log = some log := by
  rw [ParserMessageExecuted.parse, hp] at h
  dsimp only at h
  split at h
  · cases h
  · obtain ⟨log, -, hlog⟩ := setLog_log h
    exact ⟨log, hlog⟩

/-- A parser that matched and parsed has its log. -/
theorem parsed_log {n : ParserName} {p p₁ p₂ : LogParser n.Log} (hp : p.log = none)
    (hmatch : n.checkMatch lib p = .ok (true, p₁)) (hparse : n.parse lib p₁ = .ok p₂) :
    ∃ log, p₂.log = some log := by
  have hfixed {index : ℕ} {decode : String → Except BocError n.Log} (hlog : p₁.log = p.log)
      (h : parseLog decode index p₁ = .ok p₂) : ∃ log, p₂.log = some log := by
    obtain ⟨_, log, -, hlog⟩ := parseLog_log (hlog.trans hp) h
    exact ⟨log, hlog⟩
  cases n with
  | callContract | messageApproved | nativeGasAdded | nativeGasRefunded
  | itsTokenMetadataRegistered => exact hfixed (checkLog_log hmatch) hparse
  | jettonGasAdded | jettonGasPaid => exact hfixed (checkJettonLog_log hmatch) hparse
  | nativeGasPaid => exact hfixed (nativeGasPaid_log hmatch) hparse
  | messageExecuted =>
    exact messageExecuted_parse_log ((messageExecuted_log hmatch).trans hp) hparse
  | itsInterchainTokenDeploymentStarted | itsInterchainTransfer | itsLinkTokenStarted
  | signersRotated =>
    obtain ⟨hlog, hpos⟩ := checkEmittedLog_log hmatch
    exact parseEmittedLog_log (hlog.trans hp) hpos hparse

theorem callContract_payload {boc : String → Except CellError Cell} {text : String}
    {log : CallContractMessage}
    (h : fromBocB64 boc CallContractMessage.decode text = .ok log) :
    ∃ bytes, hexDecode log.payload = some bytes := by
  obtain ⟨cell, -, h⟩ := bind_eq_ok.mp h
  obtain ⟨⟨message, rest⟩, hdecode, h⟩ := bind_eq_ok.mp h
  cases pure_eq_ok.mp h
  obtain ⟨⟨chain, p₁⟩, -, hdecode⟩ := bind_eq_ok.mp hdecode
  obtain ⟨⟨address, p₂⟩, -, hdecode⟩ := bind_eq_ok.mp hdecode
  obtain ⟨⟨payload, p₃⟩, -, hdecode⟩ := bind_eq_ok.mp hdecode
  obtain ⟨⟨source, p₄⟩, -, hdecode⟩ := bind_eq_ok.mp hdecode
  obtain ⟨⟨hash, p₅⟩, -, hdecode⟩ := bind_eq_ok.mp hdecode
  cases pure_eq_ok.mp hdecode
  exact ⟨payload, hexDecode_hexEncode payload⟩

end Logs

section Parsers

variable {q : TxParser}

/-- The payload of a call is the hex of its bytes. -/
def PayloadReads : (n : ParserName) → n.Log → Prop
  | .callContract, log => (hexDecode (CallContractMessage.payload log)).isSome = true
  | _, _ => True

/-- The parser has read its log, and its hash is base64. -/
structure Ready (t : TraceParser D) (q : TxParser) : Prop where
  log : ∃ log, q.parser.log = some log ∧ PayloadReads q.name log
  hash : ∃ bytes, t.lib.base64Decode q.tx.hash = .ok bytes

theorem firstMatch_ready {tx : Transaction} {ns : List ParserName}
    (h : firstMatch t tx ns = .ok (some q))
    (hhash : ∃ bytes, t.lib.base64Decode tx.hash = .ok bytes) : Ready t q := by
  obtain ⟨p, hmatch, hparse⟩ := firstMatch_run h
  constructor
  · obtain ⟨n, p'⟩ := q
    obtain ⟨log, hlog⟩ := parsed_log rfl hmatch hparse
    refine ⟨log, hlog, ?_⟩
    cases n with
    | callContract =>
      have hunread : p.log = none := checkLog_log hmatch
      obtain ⟨text, log', hdecode, hlog'⟩ := parseLog_log hunread hparse
      obtain ⟨bytes, hbytes⟩ := callContract_payload hdecode
      cases hlog'.symm.trans hlog
      exact Option.isSome_iff_exists.mpr ⟨bytes, hbytes⟩
    | _ => exact trivial
  · rw [(firstMatch_ok h).1]
    exact hhash

theorem getLog_defined {p : LogParser L} {log : L} (h : p.log = some log) :
    p.getLog = .ok log := by
  rw [LogParser.getLog, h]

theorem hashToMessageId_defined {lib : Libraries D} {hash : String}
    (h : ∃ bytes, lib.base64Decode hash = .ok bytes) : ∃ id, hashToMessageId lib hash = .ok id := by
  obtain ⟨bytes, hbytes⟩ := h
  exact ⟨_, by rw [hashToMessageId, hbytes]⟩

theorem key_defined (h : Ready t q)
    (hq : container q.name = .calls ∨ container q.name = .credits) : ∃ k, q.key = .ok k := by
  obtain ⟨n, p⟩ := q
  obtain ⟨log, hlog, -⟩ := h.log
  have hget : p.getLog = .ok log := getLog_defined hlog
  cases n with
  | callContract | nativeGasPaid | jettonGasPaid =>
    exact ⟨_, congrArg (fun r => r >>= _) hget⟩
  | _ => rcases hq with hq | hq <;> cases hq

theorem messageId_defined (h : Ready t q) (hq : container q.name = .calls) :
    ∃ id, q.messageId t.lib = .ok (some id) := by
  obtain ⟨n, p⟩ := q
  obtain ⟨id, hid⟩ := hashToMessageId_defined h.hash
  cases n with
  | callContract => exact ⟨id, congrArg (fun r => r >>= _) hid⟩
  | _ => cases hq

theorem linked_defined {p : LogParser L} {log : L} {mid : Option String} {text : String}
    {f : String → L → Event} (hget : p.getLog = .ok log) (hmid : mid.isSome = true) :
    ∃ e, (requireId text mid >>= fun id => p.getLog >>= fun log => pure (f id log)) = .ok e := by
  obtain ⟨id, rfl⟩ := Option.isSome_iff_exists.mp hmid
  rw [hget]
  exact ⟨f id log, rfl⟩

theorem ownId_defined {p : LogParser L} {log : L} {mid : Outcome (Option String)} {id text : String}
    {f : String → L → Event} (hget : p.getLog = .ok log) (hmid : mid = .ok (some id)) :
    ∃ e, (p.getLog >>= fun log => mid >>= fun mid => requireId text mid >>= fun id =>
      pure (f id log)) = .ok e := by
  rw [hget, hmid]
  exact ⟨f id log, rfl⟩

theorem refunded_messageId {p : LogParser NativeGasRefundedMessage} {log : NativeGasRefundedMessage}
    (h : p.log = some log) : ∃ id, ParserNativeGasRefunded.messageId p = .ok (some id) := by
  rw [ParserNativeGasRefunded.messageId, h]
  exact ⟨_, rfl⟩

theorem call_defined {p : LogParser CallContractMessage} {log : CallContractMessage}
    (hget : p.getLog = .ok log) (hpayload : (hexDecode log.payload).isSome = true)
    (hhash : ∃ bytes, t.lib.base64Decode p.tx.hash = .ok bytes) :
    ∃ e, ParserCallContract.event t p = .ok e := by
  obtain ⟨id, hid⟩ := hashToMessageId_defined hhash
  obtain ⟨bytes, hbytes⟩ := Option.isSome_iff_exists.mp hpayload
  rw [ParserCallContract.event, ParserCallContract.messageId, hget, ok_bind, hid]
  dsimp only [bind, Except.bind, pure, Except.pure, requireId]
  rw [hbytes]
  exact ⟨_, rfl⟩

theorem event_defined {mid : Option String} (h : Ready t q)
    (hmid : takesCallId q.name = true → mid.isSome = true) : ∃ e, q.event t mid = .ok e := by
  obtain ⟨n, p⟩ := q
  obtain ⟨log, hlog, hpayload⟩ := h.log
  have hget : p.getLog = .ok log := getLog_defined hlog
  cases n with
  | nativeGasPaid | jettonGasPaid | itsTokenMetadataRegistered
  | itsInterchainTokenDeploymentStarted | itsInterchainTransfer | itsLinkTokenStarted =>
    exact linked_defined hget (hmid rfl)
  | callContract => exact call_defined hget hpayload h.hash
  | messageExecuted | messageApproved => exact ⟨_, congrArg (fun r => r >>= _) hget⟩
  | nativeGasAdded | jettonGasAdded =>
    exact ownId_defined hget (congrArg (fun r => r >>= _) hget)
  | nativeGasRefunded =>
    obtain ⟨id, hid⟩ := refunded_messageId hlog
    exact ownId_defined hget hid
  | signersRotated =>
    obtain ⟨id, hid⟩ := hashToMessageId_defined h.hash
    have hmessage : ParserSignersRotated.messageId t.lib p = .ok (some id) :=
      congrArg (fun r => r >>= _) hid
    change ∃ e, (ParserSignersRotated.messageId t.lib p >>= _) = .ok e
    rw [hmessage, ok_bind]
    exact linked_defined hget rfl

theorem given_event_defined (h : Ready t q) (id : String) : ∃ e, q.event t (some id) = .ok e := by
  apply event_defined h
  intro _
  rfl

end Parsers

section Traces

variable {c start : Containers} {calls its : List TxParser} {m : GasCreditMap}

/-- Every log that a parser of the trace reads is there and decodes. -/
structure LogsDecode (t : TraceParser D) (trace : Trace) : Prop where
  start : ∃ start, startContainers t trace = .ok start
  transactions : ∀ tx ∈ trace.transactions, ∃ r, createTxParser t tx = .ok r

def HashesDecode (t : TraceParser D) (trace : Trace) : Prop :=
  ∀ tx ∈ trace.transactions, ∃ bytes, t.lib.base64Decode tx.hash = .ok bytes

theorem classified_ready (h : HashesDecode t trace) :
    ∀ q ∈ classified t trace.transactions, Ready t q := by
  intro q hq
  obtain ⟨tx, htx, hmatch⟩ := mem_classified.mp hq
  exact firstMatch_ready hmatch (h tx htx)

theorem route_defined {q : TxParser} (h : Ready t q) (c : Containers) :
    ∃ c', route c q = .ok c' := by
  obtain ⟨n, p⟩ := q
  cases n with
  | nativeGasPaid | jettonGasPaid =>
    obtain ⟨k, hk⟩ := key_defined h (.inr rfl)
    exact ⟨_, congrArg (fun r => r >>= _) hk⟩
  | _ => exact ⟨_, rfl⟩

theorem createParsers_defined (hlogs : LogsDecode t trace) (hhashes : HashesDecode t trace) :
    ∃ c, createParsers t trace = .ok c := by
  obtain ⟨start, hstart⟩ := hlogs.start
  rw [createParsers, hstart, ok_bind]
  apply foldlM_defined
  intro tx htx c
  obtain ⟨r, hr⟩ := hlogs.transactions tx htx
  rw [TraceParsing.addTransaction, hr, ok_bind]
  cases r with
  | none => exact ⟨c, rfl⟩
  | some q => exact route_defined (firstMatch_ready hr (hhashes tx htx)) c

theorem linkCalls_defined (hc : ∀ cc ∈ calls, Ready t cc ∧ container cc.name = .calls)
    (hm : ∀ k q, m.lookup k = some q → Ready t q) : ∃ out, linkCalls t calls m = .ok out := by
  induction calls generalizing m with
  | nil => exact ⟨[], rfl⟩
  | cons cc calls ih =>
    obtain ⟨hready, hcalls⟩ := hc cc List.mem_cons_self
    have hrest : ∀ cc ∈ calls, Ready t cc ∧ container cc.name = .calls := by
      intro cc hcc
      exact hc cc (List.mem_cons_of_mem _ hcc)
    obtain ⟨k, hk⟩ := key_defined hready (.inl hcalls)
    have hown : takesCallId cc.name = true → (none : Option String).isSome = true := by
      intro htakes
      cases hname : cc.name <;> rw [hname] at hcalls htakes <;> cases hcalls
      cases htakes
    obtain ⟨call, hcall⟩ := event_defined hready hown
    rw [linkCalls, hk, ok_bind, hcall, ok_bind]
    cases hq : m.lookup k with
    | none =>
      obtain ⟨out, hout⟩ := ih hrest hm
      exact ⟨_, congrArg (fun r => r >>= _) hout⟩
    | some q =>
      obtain ⟨id, hid⟩ := messageId_defined hready hcalls
      obtain ⟨credit, hcredit⟩ := given_event_defined (hm k q hq) id
      have herased : ∀ k' q, (m.erase k).lookup k' = some q → Ready t q := by
        intro k' q hq
        exact hm k' q (lookup_erase_some hq).2
      obtain ⟨out, hout⟩ := ih hrest herased
      dsimp only
      rw [hid, ok_bind, requireId, ok_bind, hcredit, ok_bind, hout]
      exact ⟨_, rfl⟩

/-- One round of the loop over the ITS logs goes through. -/
theorem linkIts_round {q cc : TxParser} (hq : Ready t q)
    (hcc : Ready t cc ∧ container cc.name = .calls) (i : ℕ) (its calls : List TxParser) :
    ∃ e, linkIts t i (q :: its) (cc :: calls) =
      (linkIts t (i + 1) its calls).map fun out => (.transaction q, e) :: out := by
  obtain ⟨id, hid⟩ := messageId_defined hcc.1 hcc.2
  obtain ⟨e, he⟩ := given_event_defined hq id
  refine ⟨e, ?_⟩
  rw [linkIts, hid, ok_bind, he, ok_bind]
  rfl

theorem linkIts_defined {i : ℕ} (hi : ∀ q ∈ its, Ready t q)
    (hc : ∀ cc ∈ calls, Ready t cc ∧ container cc.name = .calls)
    (h : its.length ≤ calls.length) : ∃ out, linkIts t i its calls = .ok out := by
  induction its generalizing i calls with
  | nil => exact ⟨[], by rw [linkIts]⟩
  | cons q its ih =>
    cases calls with
    | nil => cases h
    | cons cc calls =>
      rw [List.forall_mem_cons] at hi hc
      obtain ⟨e, he⟩ := linkIts_round hi.1 hc.1 i its calls
      obtain ⟨out, hout⟩ := ih (i := i + 1) hi.2 hc.2 (Nat.le_of_succ_le_succ h)
      rw [he, hout]
      exact ⟨_, rfl⟩

theorem linkIts_unpaired {i : ℕ} (hi : ∀ q ∈ its, Ready t q)
    (hc : ∀ cc ∈ calls, Ready t cc ∧ container cc.name = .calls)
    (h : calls.length < its.length) :
    ∃ text, linkIts t i its calls = .error (.err (.itsWithoutPair text)) := by
  induction its generalizing i calls with
  | nil => cases h
  | cons q its ih =>
    cases calls with
    | nil => exact ⟨_, rfl⟩
    | cons cc calls =>
      rw [List.forall_mem_cons] at hi hc
      obtain ⟨e, he⟩ := linkIts_round hi.1 hc.1 i its calls
      obtain ⟨text, htext⟩ := ih (i := i + 1) hi.2 hc.2 (Nat.lt_of_succ_lt_succ h)
      rw [he, htext]
      exact ⟨text, rfl⟩

theorem start_event_defined (h : startContainers t trace = .ok start) {p : AnyParser}
    (hp : p ∈ start.parsers) : ∃ e, p.event t = .ok e := by
  rcases startContainers_cases h with ⟨-, rfl⟩ | ⟨-, p', hparse, rfl⟩
  · cases hp
  · rw [List.mem_singleton.mp hp, AnyParser.event, ParserExecuteInsufficientGas.event]
    rw [ParserExecuteInsufficientGas.parse] at hparse
    dsimp only at hparse
    split at hparse
    · cases hparse
    · split at hparse
      · cases hparse
        exact ⟨_, rfl⟩
      · cases hparse

theorem others_defined (hstart : startContainers t trace = .ok start)
    (hs : Sorted start (classified t trace.transactions) c) (hhashes : HashesDecode t trace) :
    ∃ others, (c.parsers.mapM fun p => do return (p, ← p.event t)) = .ok others := by
  apply mapM_defined
  intro p hp
  rw [hs.parsers, List.mem_append, List.mem_map] at hp
  have hevent : ∃ e, p.event t = .ok e := by
    rcases hp with hp | ⟨q, hq, rfl⟩
    · exact start_event_defined hstart hp
    · obtain ⟨hmem, hparsers⟩ := mem_only.mp hq
      apply event_defined (classified_ready hhashes q hmem)
      intro htakes
      cases hname : q.name <;> rw [hname] at hparsers htakes <;> cases hparsers <;> cases htakes
  obtain ⟨e, he⟩ := hevent
  rw [he]
  exact ⟨_, rfl⟩

/-- Only the pairing can fail, and it fails for want of a call. -/
theorem linkEvents_cases (hc : createParsers t trace = .ok c) (hhashes : HashesDecode t trace) :
    if (only .its (classified t trace.transactions)).length ≤
        (only .calls (classified t trace.transactions)).length then
      ∃ out, linkEvents t c = .ok out
    else ∃ text, linkEvents t c = .error (.err (.itsWithoutPair text)) := by
  obtain ⟨start, hstart, hs⟩ := createParsers_sorted hc
  have hready := classified_ready hhashes
  have hcalls : ∀ cc ∈ c.callContract, Ready t cc ∧ container cc.name = .calls := by
    intro cc hcc
    refine ⟨?_, sorted_calls hs cc hcc⟩
    rw [hs.calls] at hcc
    exact hready cc (mem_only.mp hcc).1
  have hits : ∀ q ∈ c.its, Ready t q := by
    intro q hq
    rw [hs.its] at hq
    exact hready q (mem_only.mp hq).1
  have hpaid : ∀ k q, c.gasCreditMap.lookup k = some q → Ready t q := by
    intro k q hq
    exact hready q (mem_only.mp (hs.paid k q hq).1).1
  obtain ⟨called, hcalled⟩ := linkCalls_defined hcalls hpaid
  obtain ⟨others, hothers⟩ := others_defined hstart hs hhashes
  rw [← hs.calls, ← hs.its]
  split
  · next hle =>
    obtain ⟨linked, hlinked⟩ := linkIts_defined (i := 0) hits hcalls hle
    rw [linkEvents, hcalled, ok_bind, hlinked, ok_bind, hothers]
    exact ⟨_, rfl⟩
  · next hlt =>
    obtain ⟨text, htext⟩ := linkIts_unpaired (i := 0) hits hcalls (not_le.mp hlt)
    rw [linkEvents, hcalled, ok_bind, htext]
    exact ⟨text, rfl⟩

/-- A conversion that fails does not report a missing pair. -/
theorem convertJettonToNative_error {minter text : String} {amount : ℕ} :
    Avoids (.err (.itsWithoutPair text)) (convertJettonToNative t minter amount) := by
  intro h
  rw [convertJettonToNative] at h
  repeat' (split at h)
  all_goals cases h

theorem convertEvent_error {total refund approved : ℕ} {e : Event} {text : String} :
    Avoids (.err (.itsWithoutPair text)) (convertEvent t total refund approved e) := by
  cases e with
  | gasCredit common id refundAddress payment =>
    rw [convertEvent]
    split
    · exact avoids_ok _
    · split
      · apply avoids_error
        intro h
        cases h
      · apply avoids_bind convertJettonToNative_error
        intro native _
        exact avoids_ok _
  | _ => exact avoids_ok _

/-- The gas calculator never fails. -/
theorem gasUsed_defined (t : TraceParser D) (trace : Trace) :
    ∃ used, gasUsed t trace = .ok used := by
  have hrefund : ∃ refund, calcMessageGasNativeGasRefunded t.ourAddresses trace.transactions =
      .ok refund := by
    rw [calcMessageGasNativeGasRefunded]
    split
    · exact ⟨_, rfl⟩
    · split
      · exact ⟨_, rfl⟩
      · exact ⟨_, rfl⟩
  obtain ⟨refund, hrefund⟩ := hrefund
  rw [gasUsed, hrefund]
  exact ⟨_, rfl⟩

theorem convert_error {total refund approved : ℕ} {pes : List (AnyParser × Event)} {text : String} :
    Avoids (.err (.itsWithoutPair text)) (pes.mapM fun pe => do
      let event ← convertEvent t total refund approved pe.2
      return (pe.1, event)) := by
  apply avoids_mapM
  intro pe _
  apply avoids_bind convertEvent_error
  intro e _
  exact avoids_ok _

/-- A readable trace lacks a pair exactly when it has more ITS logs than calls. -/
theorem parseTrace_unpaired_iff (hlogs : LogsDecode t trace) (hhashes : HashesDecode t trace) :
    (∃ text, parseTrace t trace = .error (.err (.itsWithoutPair text))) ↔
      (only .calls (classified t trace.transactions)).length <
        (only .its (classified t trace.transactions)).length := by
  obtain ⟨⟨total, refund⟩, hgas⟩ := gasUsed_defined t trace
  obtain ⟨c, hc⟩ := createParsers_defined hlogs hhashes
  have hlink := linkEvents_cases hc hhashes
  rw [parseTrace, parseTraceTagged, hgas, ok_bind]
  dsimp only
  rw [hc, ok_bind]
  by_cases hle : (only .its (classified t trace.transactions)).length ≤
      (only .calls (classified t trace.transactions)).length
  · rw [if_pos hle] at hlink
    obtain ⟨out, hout⟩ := hlink
    rw [hout, ok_bind]
    constructor
    · rintro ⟨text, htext⟩
      exact absurd (map_eq_error.mp htext) convert_error
    · intro hlt
      exact absurd hle (not_le.mpr hlt)
  · rw [if_neg hle] at hlink
    obtain ⟨text, htext⟩ := hlink
    rw [htext]
    exact ⟨fun _ => not_le.mp hle, fun _ => ⟨text, rfl⟩⟩

end Traces

end ReadableTraces
