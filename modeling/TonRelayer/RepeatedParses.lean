import TonRelayer.EventIds

/-! The same trace parsed again.
An item of the queue can be delivered more than once, and by then the clock and the prices have
moved on. Whenever both times succeed, the events are the same but for amounts and timestamps. -/
namespace RepeatedParses

open ExceptRules RelayerExecute MessageDecoders Types TransactionParsers TraceParsing
open TraceEvents EventIds

variable {D : Type}

/-- What a parser of traces looks up from outside when it runs. -/
structure Moment (D : Type) where
  now : String
  getPrice : String → Except String D

def atMoment (t : TraceParser D) (w : Moment D) : TraceParser D :=
  { t with
    lib := { t.lib with now := w.now }
    getPrice := w.getPrice }

/-- What is told apart from amounts, addresses and the metadata. -/
structure Gist where
  kind : EventKind
  eventId : String
  messageId : String
  deriving DecidableEq

def gist (e : Event) : Gist := ⟨kind e, eventId e, messageId e⟩

variable {t : TraceParser D} {w w' : Moment D} {trace : Trace} {e e' : Event}
variable {mid : Option String}

section Events

/-- Where the message id of an event comes from. -/
def HasId (lib : Libraries D) (mid : Option String) : (n : ParserName) → LogParser n.Log →
    String → Prop
  | .messageExecuted => fun p id => p.log.map NullifiedSuccessfullyMessage.messageId = some id
  | .messageApproved => fun p id => p.log.map TonCCMessage.messageId = some id
  | .nativeGasPaid | .jettonGasPaid | .itsTokenMetadataRegistered
  | .itsInterchainTokenDeploymentStarted | .itsInterchainTransfer | .itsLinkTokenStarted =>
    fun _ id => mid = some id
  | .callContract => fun p id => ParserCallContract.messageId lib p = .ok (some id)
  | .nativeGasAdded => fun p id => ParserNativeGasAdded.messageId p = .ok (some id)
  | .jettonGasAdded => fun p id => ParserJettonGasAdded.messageId p = .ok (some id)
  | .nativeGasRefunded => fun p id => ParserNativeGasRefunded.messageId p = .ok (some id)
  | .signersRotated => fun p id => ParserSignersRotated.messageId lib p = .ok (some id)

theorem getLog_eq_ok {L : Type} {p : LogParser L} {log : L} (h : p.getLog = .ok log) :
    p.log = some log := by
  rw [LogParser.getLog] at h
  split at h
  · rename_i log' hlog
    cases h
    exact hlog
  · cases h

/-- An id that the parser makes itself is asked for in the same way every time. -/
theorem ownId_ok {α β : Type} {r : Outcome (Option String)} {text : String} {s : Outcome β}
    {f : String → β → Outcome α} {a : α}
    (h : (r >>= fun mid => requireId text mid >>= fun id => s >>= f id) = .ok a) :
    ∃ id b, r = .ok (some id) ∧ s = .ok b ∧ f id b = .ok a := by
  obtain ⟨mid, hmid, h⟩ := bind_eq_ok.mp h
  obtain ⟨id, hid, h⟩ := bind_eq_ok.mp h
  obtain ⟨b, hb, h⟩ := bind_eq_ok.mp h
  rw [requireId_ok hid] at hmid
  exact ⟨id, b, hmid, hb, h⟩

theorem event_hasId {n : ParserName} {p : LogParser n.Log} (h : n.event t p mid = .ok e) :
    HasId t.lib mid n p (messageId e) := by
  cases n with
  | nativeGasPaid | jettonGasPaid | itsTokenMetadataRegistered
  | itsInterchainTokenDeploymentStarted | itsInterchainTransfer | itsLinkTokenStarted =>
    exact (linked_event rfl h).1
  | callContract => exact (call_event h).2
  | messageExecuted =>
    obtain ⟨log, hlog, h⟩ := bind_eq_ok.mp h
    cases pure_eq_ok.mp h
    exact congrArg (Option.map NullifiedSuccessfullyMessage.messageId) (getLog_eq_ok hlog)
  | messageApproved =>
    obtain ⟨log, hlog, h⟩ := bind_eq_ok.mp h
    cases pure_eq_ok.mp h
    exact congrArg (Option.map TonCCMessage.messageId) (getLog_eq_ok hlog)
  | nativeGasAdded | jettonGasAdded | nativeGasRefunded =>
    obtain ⟨log, -, h⟩ := bind_eq_ok.mp h
    obtain ⟨mid, hmid, h⟩ := bind_eq_ok.mp h
    obtain ⟨id, hid, h⟩ := bind_eq_ok.mp h
    cases pure_eq_ok.mp h
    rw [requireId_ok hid] at hmid
    exact hmid
  | signersRotated =>
    obtain ⟨id, log, hid, -, h⟩ := ownId_ok h
    cases pure_eq_ok.mp h
    exact hid

theorem hasId_unique {lib : Libraries D} {n : ParserName} {p : LogParser n.Log} {id id' : String}
    (h : HasId lib mid n p id) (h' : HasId lib mid n p id') : id = id' := by
  cases n with
  | messageExecuted | messageApproved | nativeGasPaid | jettonGasPaid
  | itsTokenMetadataRegistered | itsInterchainTokenDeploymentStarted | itsInterchainTransfer
  | itsLinkTokenStarted => exact Option.some.inj (h.symm.trans h')
  | callContract | nativeGasAdded | jettonGasAdded | nativeGasRefunded | signersRotated =>
    exact Option.some.inj (Except.ok.inj (h.symm.trans h'))

theorem hasId_moment {n : ParserName} {p : LogParser n.Log} {id : String} :
    HasId (atMoment t w).lib mid n p id ↔ HasId t.lib mid n p id := by
  cases n <;> exact Iff.rfl

theorem event_gist {q : TxParser} (h : q.event (atMoment t w) mid = .ok e)
    (h' : q.event (atMoment t w') mid = .ok e') : gist e = gist e' := by
  have hid : messageId e = messageId e' :=
    hasId_unique (hasId_moment.mp (event_hasId h)) (hasId_moment.mp (event_hasId h'))
  rw [gist, gist, event_kind h, event_kind h', event_id h, event_id h', hid]

theorem messageId_moment (q : TxParser) :
    q.messageId (atMoment t w).lib = q.messageId t.lib := by
  obtain ⟨n, p⟩ := q
  cases n <;> rfl

theorem convert_gist {total refund approved : ℕ}
    (h : convertEvent t total refund approved e = .ok e') : gist e' = gist e := by
  obtain ⟨hkind, hid⟩ := convertEvent_keeps h
  rw [gist, gist, hkind, convertEvent_id h, hid]

end Events

section Parsers

theorem checkMatch_moment (n : ParserName) (p : LogParser n.Log) :
    n.checkMatch (atMoment t w).lib p = n.checkMatch t.lib p := by
  cases n <;> rfl

theorem parse_moment (n : ParserName) (p : LogParser n.Log) :
    n.parse (atMoment t w).lib p = n.parse t.lib p := by
  cases n <;> rfl

theorem firstMatch_moment (tx : Transaction) (ns : List ParserName) :
    firstMatch (atMoment t w) tx ns = firstMatch t tx ns := by
  induction ns with
  | nil => rfl
  | cons n ns ih =>
    simp only [firstMatch, checkMatch_moment, parse_moment, ih]
    rfl

theorem createParsers_moment : createParsers (atMoment t w) trace = createParsers t trace := by
  have hadd : addTransaction (atMoment t w) = addTransaction t := by
    funext c tx
    rw [addTransaction, addTransaction, createTxParser, createTxParser, firstMatch_moment]
  rw [createParsers, createParsers, hadd]
  rfl

end Parsers

section Loops

def gists (out : List (AnyParser × Event)) : List Gist := out.map fun pe => gist pe.2

variable {calls its : List TxParser} {m : GasCreditMap} {out out' : List (AnyParser × Event)}

theorem linkCalls_gists (h : linkCalls (atMoment t w) calls m = .ok out)
    (h' : linkCalls (atMoment t w') calls m = .ok out') : gists out = gists out' := by
  induction calls generalizing m out out' with
  | nil =>
    cases h
    cases h'
    rfl
  | cons cc calls ih =>
    obtain ⟨k, call, hk, hcall, hout⟩ := linkCalls_cons h
    obtain ⟨k', call', hk', hcall', hout'⟩ := linkCalls_cons h'
    cases hk.symm.trans hk'
    have hgist := event_gist hcall hcall'
    rcases hout with ⟨hnone, rest, hrest, rfl⟩ | ⟨q, id, credit, rest, hq, hid, hcredit, hrest, rfl⟩
    · rcases hout' with ⟨-, rest', hrest', rfl⟩ | ⟨q', -, -, -, hq', -⟩
      · simp only [gists, List.map_cons] at ih ⊢
        rw [hgist, ih hrest hrest']
      · cases hnone.symm.trans hq'
    · rcases hout' with ⟨hnone, -⟩ | ⟨q', id', credit', rest', hq', hid', hcredit', hrest', rfl⟩
      · cases hnone.symm.trans hq
      · cases hq.symm.trans hq'
        rw [messageId_moment] at hid hid'
        cases hid.symm.trans hid'
        simp only [gists, List.map_cons] at ih ⊢
        rw [hgist, event_gist hcredit hcredit', ih hrest hrest']

theorem linkIts_gists {i : ℕ} (h : linkIts (atMoment t w) i its calls = .ok out)
    (h' : linkIts (atMoment t w') i its calls = .ok out') : gists out = gists out' := by
  induction its generalizing i calls out out' with
  | nil =>
    rw [linkIts] at h h'
    cases h
    cases h'
    rfl
  | cons q its ih =>
    obtain ⟨cc, rest, mid, e, tail, rfl, hmid, he, htail, rfl⟩ := linkIts_cons h
    obtain ⟨cc', rest', mid', e', tail', heq, hmid', he', htail', rfl⟩ := linkIts_cons h'
    cases heq
    rw [messageId_moment] at hmid hmid'
    cases hmid.symm.trans hmid'
    simp only [gists, List.map_cons] at ih ⊢
    rw [event_gist he he', ih htail htail']

theorem others_gists {ps : List AnyParser}
    (h : List.Forall₂ (fun p pe => pe.1 = p ∧ p.event (atMoment t w) = .ok pe.2) ps out)
    (h' : List.Forall₂ (fun p pe => pe.1 = p ∧ p.event (atMoment t w') = .ok pe.2) ps out') :
    gists out = gists out' := by
  induction h generalizing out' with
  | nil =>
    cases h'
    rfl
  | @cons p pe _ _ hpe _ ih =>
    cases h' with
    | cons hpe' hrest' =>
      have hgist : ∀ e', p.event (atMoment t w') = .ok e' → gist pe.2 = gist e' := by
        intro e' he'
        cases p with
        | transaction q => exact event_gist hpe.2 he'
        | executeInsufficientGas p => rw [Except.ok.inj (hpe.2.symm.trans he')]
      simp only [gists, List.map_cons] at ih ⊢
      rw [hgist _ hpe'.2, ih hrest']

theorem converted_gists {total refund approved : ℕ}
    (h : List.Forall₂ (fun pe pe' => pe'.1 = pe.1 ∧
      convertEvent (atMoment t w) total refund approved pe.2 = .ok pe'.2) out out') :
    gists out' = gists out := by
  induction h with
  | nil => rfl
  | cons hpe _ ih =>
    simp only [gists, List.map_cons] at ih ⊢
    rw [convert_gist hpe.2, ih]

/-- Whenever a trace is parsed, the same events come out, in the same order. -/
theorem parseTrace_gists {events events' : List Event}
    (h : parseTrace (atMoment t w) trace = .ok events)
    (h' : parseTrace (atMoment t w') trace = .ok events') : events.map gist = events'.map gist := by
  obtain ⟨tagged, htagged, rfl⟩ := parseTrace_ok h
  obtain ⟨tagged', htagged', rfl⟩ := parseTrace_ok h'
  obtain ⟨_, _, c, out, -, hc, hout, hconv⟩ := parseTraceTagged_ok htagged
  obtain ⟨_, _, c', out', -, hc', hout', hconv'⟩ := parseTraceTagged_ok htagged'
  rw [createParsers_moment] at hc hc'
  cases hc.symm.trans hc'
  obtain ⟨called, linked, others, hcalled, hlinked, hothers, rfl⟩ := linkEvents_ok hout
  obtain ⟨called', linked', others', hcalled', hlinked', hothers', rfl⟩ := linkEvents_ok hout'
  have hsame : gists (called ++ linked ++ others) = gists (called' ++ linked' ++ others') := by
    have h₁ := linkCalls_gists hcalled hcalled'
    have h₂ := linkIts_gists hlinked hlinked'
    have h₃ := others_gists hothers hothers'
    simp only [gists, List.map_append] at h₁ h₂ h₃ ⊢
    rw [h₁, h₂, h₃]
  have hfinal : gists tagged = gists tagged' :=
    ((converted_gists hconv).trans hsame).trans (converted_gists hconv').symm
  simpa [gists, Function.comp_def] using hfinal

end Loops

end RepeatedParses
