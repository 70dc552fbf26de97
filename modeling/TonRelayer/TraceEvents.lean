import TonRelayer.TraceParsing

/-! Where the events of a trace come from.
A transaction parser accepts only transactions of its own contract and makes events of one
kind; the loops sort the parsers into containers and run through them in a fixed order. -/
namespace TraceEvents

open ExceptRules Cells ByteEncodings RelayerExecute MessageDecoders Types GasCalculator
open TransactionParsers TraceParsing

variable {D L : Type}

section Accounts

variable {p p' : LogParser L} {b : Bool} {r : Outcome (Bool × LogParser L)}
variable {decode : String → Except BocError L}

/-- The parser accepts the transaction, which is one of the account it was made for. -/
def Accepted (p : LogParser L) (r : Outcome (Bool × LogParser L)) : Prop :=
  ∀ p', r = .ok (true, p') → p.tx.account = p.allowedAddress ∧ p'.tx = p.tx

theorem accepted_onAccount (hr : ∀ b p', r = .ok (b, p') → p'.tx = p.tx) :
    Accepted p (onAccount p r) := by
  intro p' h
  rw [onAccount] at h
  by_cases ha : p.tx.account = p.allowedAddress
  · rw [if_neg (not_not_intro ha)] at h
    exact ⟨ha, hr true p' h⟩
  · rw [if_pos ha] at h
    cases h

theorem accepted_checkLog (opCode : UInt32) (index : ℕ) (p : LogParser L) :
    Accepted p (checkLog opCode index p) := by
  apply accepted_onAccount
  intro b p' h
  cases h
  rfl

theorem accepted_checkEmittedLog (opCode : UInt32) (p : LogParser L) :
    Accepted p (checkEmittedLog opCode p) := by
  apply accepted_onAccount
  intro b p' h
  by_cases hpos : isLogEmitted p.tx opCode ≥ 0
  · rw [if_pos hpos] at h
    cases h
    rfl
  · rw [if_neg hpos] at h
    cases h
    rfl

theorem accepted_checkJettonLog (p : LogParser L) : Accepted p (checkJettonLog decode p) := by
  apply accepted_onAccount
  intro b p' h
  split at h
  · split at h
    · cases h
    · cases h
      rfl
  · cases h
    rfl

theorem accepted_messageExecuted (p : LogParser NullifiedSuccessfullyMessage) :
    Accepted p (ParserMessageExecuted.checkMatch p) := by
  apply accepted_onAccount
  intro b p' h
  dsimp only at h
  split at h
  · cases h
    rfl
  · cases h
    rfl

theorem accepted_nativeGasPaid (p : LogParser NativeGasPaidMessage) :
    Accepted p (ParserNativeGasPaid.checkMatch p) := by
  apply accepted_onAccount
  intro b p' h
  split at h
  · cases h
    rfl
  · cases h
    rfl

theorem accepted_checkMatch (lib : Libraries D) (n : ParserName) (p : LogParser n.Log) :
    Accepted p (n.checkMatch lib p) := by
  cases n with
  | messageExecuted => exact accepted_messageExecuted p
  | nativeGasPaid => exact accepted_nativeGasPaid p
  | jettonGasAdded | jettonGasPaid => exact accepted_checkJettonLog p
  | callContract | messageApproved | nativeGasAdded | nativeGasRefunded
  | itsTokenMetadataRegistered => exact accepted_checkLog _ _ p
  | itsInterchainTokenDeploymentStarted | itsInterchainTransfer | itsLinkTokenStarted
  | signersRotated => exact accepted_checkEmittedLog _ p

/-- The log that was decoded is kept, and nothing else changes. -/
theorem setLog_ok {body : String} (h : setLog decode body p = .ok p') :
    ∃ log, decode body = .ok log ∧ p' = { p with log := some log } := by
  rw [setLog] at h
  cases hd : decode body with
  | error e =>
    rw [hd] at h
    cases h
  | ok log =>
    rw [hd] at h
    cases h
    exact ⟨log, rfl, rfl⟩

theorem setLog_tx {body : String} (h : setLog decode body p = .ok p') : p'.tx = p.tx := by
  obtain ⟨log, -, rfl⟩ := setLog_ok h
  rfl

theorem parseLog_tx {index : ℕ} (h : parseLog decode index p = .ok p') : p'.tx = p.tx := by
  rw [parseLog] at h
  split at h
  · cases h
    rfl
  · split at h
    · cases h
    · exact setLog_tx h

theorem parseEmittedLog_tx (h : parseEmittedLog decode p = .ok p') : p'.tx = p.tx := by
  rw [parseEmittedLog] at h
  split at h
  · cases h
    rfl
  · exact parseLog_tx h

theorem messageExecuted_parse_tx {lib : Libraries D} {p p' : LogParser NullifiedSuccessfullyMessage}
    (h : ParserMessageExecuted.parse lib p = .ok p') : p'.tx = p.tx := by
  rw [ParserMessageExecuted.parse] at h
  split at h
  · cases h
    rfl
  · split at h
    · cases h
    · exact setLog_tx h

theorem parse_tx {lib : Libraries D} {n : ParserName} {p p' : LogParser n.Log}
    (h : n.parse lib p = .ok p') : p'.tx = p.tx := by
  cases n with
  | messageExecuted => exact messageExecuted_parse_tx h
  | itsInterchainTokenDeploymentStarted | itsInterchainTransfer | itsLinkTokenStarted
  | signersRotated => exact parseEmittedLog_tx h
  | callContract | messageApproved | nativeGasPaid | nativeGasAdded | jettonGasAdded
  | jettonGasPaid | nativeGasRefunded | itsTokenMetadataRegistered => exact parseLog_tx h

/-- The parser that is made for a transaction matched it and then read its log. -/
theorem firstMatch_run {t : TraceParser D} {tx : Transaction} {ns : List ParserName} {q : TxParser}
    (h : firstMatch t tx ns = .ok (some q)) :
    ∃ p, q.name.checkMatch t.lib { tx, allowedAddress := address t q.name.contract } =
      .ok (true, p) ∧ q.name.parse t.lib p = .ok q.parser := by
  induction ns with
  | nil => cases h
  | cons n rest ih =>
    rw [firstMatch, bind_eq_ok] at h
    obtain ⟨⟨isMatch, p⟩, hmatch, h⟩ := h
    cases isMatch with
    | false => exact ih h
    | true =>
      dsimp only at h
      rw [if_pos rfl, bind_eq_ok] at h
      obtain ⟨p', hparse, h⟩ := h
      rw [pure_eq_ok] at h
      cases h
      exact ⟨p, hmatch, hparse⟩

/-- A parser that was made for a transaction has it, and it is on the parser's contract. -/
theorem firstMatch_ok {t : TraceParser D} {tx : Transaction} {ns : List ParserName} {q : TxParser}
    (h : firstMatch t tx ns = .ok (some q)) :
    q.tx = tx ∧ tx.account = address t q.name.contract := by
  obtain ⟨p, hmatch, hparse⟩ := firstMatch_run h
  obtain ⟨haccount, htx⟩ := accepted_checkMatch t.lib q.name _ p hmatch
  exact ⟨(parse_tx hparse).trans htx, haccount⟩

end Accounts

section Kinds

inductive EventKind where
  | call
  | messageApproved
  | messageExecuted
  | signersRotated
  | cannotExecuteMessageV2
  | gasCredit
  | gasRefunded
  | itsTokenMetadataRegistered
  | itsInterchainTokenDeploymentStarted
  | itsInterchainTransfer
  | itsLinkTokenStarted
  deriving DecidableEq, Repr

def kind : Event → EventKind
  | .call .. => .call
  | .messageApproved .. => .messageApproved
  | .messageExecuted .. => .messageExecuted
  | .signersRotated .. => .signersRotated
  | .cannotExecuteMessageV2 .. => .cannotExecuteMessageV2
  | .gasCredit .. => .gasCredit
  | .gasRefunded .. => .gasRefunded
  | .itsTokenMetadataRegistered .. => .itsTokenMetadataRegistered
  | .itsInterchainTokenDeploymentStarted .. => .itsInterchainTokenDeploymentStarted
  | .itsInterchainTransfer .. => .itsInterchainTransfer
  | .itsLinkTokenStarted .. => .itsLinkTokenStarted

def messageId : Event → String
  | .call _ message _ _ => message.messageId
  | .messageApproved _ message _ => message.messageId
  | .messageExecuted _ messageId _ _ _ => messageId
  | .signersRotated _ messageId => messageId
  | .cannotExecuteMessageV2 _ messageId _ _ _ => messageId
  | .gasCredit _ messageId _ _ => messageId
  | .gasRefunded _ messageId _ _ _ => messageId
  | .itsTokenMetadataRegistered _ messageId _ _ => messageId
  | .itsInterchainTokenDeploymentStarted _ messageId _ _ => messageId
  | .itsInterchainTransfer _ messageId _ _ _ _ _ => messageId
  | .itsLinkTokenStarted _ messageId _ _ _ _ _ => messageId

/-- The contract that an event of this kind tells about. -/
def EventKind.contract : EventKind → ParserName.Contract
  | .call | .messageApproved | .messageExecuted | .signersRotated
  | .cannotExecuteMessageV2 => .gateway
  | .gasCredit | .gasRefunded => .gasService
  | .itsTokenMetadataRegistered | .itsInterchainTokenDeploymentStarted
  | .itsInterchainTransfer | .itsLinkTokenStarted => .its

def kindOf : ParserName → EventKind
  | .callContract => .call
  | .messageExecuted => .messageExecuted
  | .messageApproved => .messageApproved
  | .nativeGasPaid | .nativeGasAdded | .jettonGasAdded | .jettonGasPaid => .gasCredit
  | .nativeGasRefunded => .gasRefunded
  | .itsTokenMetadataRegistered => .itsTokenMetadataRegistered
  | .itsInterchainTokenDeploymentStarted => .itsInterchainTokenDeploymentStarted
  | .itsInterchainTransfer => .itsInterchainTransfer
  | .itsLinkTokenStarted => .itsLinkTokenStarted
  | .signersRotated => .signersRotated

theorem kindOf_contract (n : ParserName) : (kindOf n).contract = n.contract := by
  cases n <;> rfl

/-- The parsers whose events take the message id of a call. -/
def takesCallId : ParserName → Bool
  | .nativeGasPaid | .jettonGasPaid | .itsTokenMetadataRegistered
  | .itsInterchainTokenDeploymentStarted | .itsInterchainTransfer | .itsLinkTokenStarted => true
  | _ => false

variable {t : TraceParser D} {e : Event} {mid : Option String}

theorem requireId_ok {text id : String} (h : requireId text mid = .ok id) : mid = some id := by
  cases mid with
  | none => cases h
  | some id' =>
    cases h
    rfl

theorem linked_ok {p : LogParser L} {text : String} {f : String → L → Event}
    (h : (requireId text mid >>= fun id => p.getLog >>= fun log => pure (f id log)) = .ok e) :
    ∃ id log, mid = some id ∧ e = f id log := by
  obtain ⟨id, hid, h⟩ := bind_eq_ok.mp h
  obtain ⟨log, -, h⟩ := bind_eq_ok.mp h
  exact ⟨id, log, requireId_ok hid, (pure_eq_ok.mp h).symm⟩

theorem linked_event {n : ParserName} {p : LogParser n.Log} (hn : takesCallId n = true)
    (h : n.event t p mid = .ok e) : mid = some (messageId e) ∧ kind e = kindOf n := by
  cases n with
  | nativeGasPaid | jettonGasPaid | itsTokenMetadataRegistered
  | itsInterchainTokenDeploymentStarted | itsInterchainTransfer | itsLinkTokenStarted =>
    obtain ⟨id, log, rfl, rfl⟩ := linked_ok h
    exact ⟨rfl, rfl⟩
  | callContract | messageExecuted | messageApproved | nativeGasAdded | jettonGasAdded
  | nativeGasRefunded | signersRotated => cases hn

theorem call_event {p : LogParser CallContractMessage}
    (h : ParserCallContract.event t p = .ok e) :
    kind e = .call ∧ ParserCallContract.messageId t.lib p = .ok (some (messageId e)) := by
  obtain ⟨log, -, h⟩ := bind_eq_ok.mp h
  obtain ⟨mid, hmid, h⟩ := bind_eq_ok.mp h
  obtain ⟨id, hid, h⟩ := bind_eq_ok.mp h
  dsimp only at h
  split at h
  · cases h
  · have he := pure_eq_ok.mp h
    subst he
    rw [hmid, requireId_ok hid]
    exact ⟨rfl, rfl⟩

theorem event_kind {n : ParserName} {p : LogParser n.Log} (h : n.event t p mid = .ok e) :
    kind e = kindOf n := by
  cases n with
  | callContract => exact (call_event h).1
  | nativeGasPaid | jettonGasPaid | itsTokenMetadataRegistered
  | itsInterchainTokenDeploymentStarted | itsInterchainTransfer | itsLinkTokenStarted =>
    exact (linked_event rfl h).2
  | messageExecuted | messageApproved =>
    obtain ⟨log, -, h⟩ := bind_eq_ok.mp h
    cases pure_eq_ok.mp h
    rfl
  | nativeGasAdded | jettonGasAdded | nativeGasRefunded | signersRotated =>
    obtain ⟨_, -, h⟩ := bind_eq_ok.mp h
    obtain ⟨_, -, h⟩ := bind_eq_ok.mp h
    obtain ⟨_, -, h⟩ := bind_eq_ok.mp h
    cases pure_eq_ok.mp h
    rfl

theorem convertEvent_gasCredit {total refund approved : ℕ} {e' : Event}
    {common : CommonEventFields EventMetadata} {id refundAddress : String} {payment : Amount}
    (h : convertEvent t total refund approved (.gasCredit common id refundAddress payment) =
      .ok e') : ∃ payment', e' = .gasCredit common id refundAddress payment' := by
  rw [convertEvent] at h
  split at h
  · cases h
    exact ⟨_, rfl⟩
  · split at h
    · cases h
    · obtain ⟨native, -, h⟩ := bind_eq_ok.mp h
      exact ⟨_, (pure_eq_ok.mp h).symm⟩

/-- The conversion rewrites amounts only. -/
theorem convertEvent_keeps {total refund approved : ℕ} {e' : Event}
    (h : convertEvent t total refund approved e = .ok e') :
    kind e' = kind e ∧ messageId e' = messageId e := by
  cases e with
  | gasCredit common id refundAddress payment =>
    obtain ⟨payment', rfl⟩ := convertEvent_gasCredit h
    exact ⟨rfl, rfl⟩
  | _ =>
    cases h
    exact ⟨rfl, rfl⟩

end Kinds

section Classification

inductive Container where
  | calls
  | credits
  | its
  | parsers
  deriving DecidableEq, Repr

def container : ParserName → Container
  | .callContract => .calls
  | .nativeGasPaid | .jettonGasPaid => .credits
  | .itsTokenMetadataRegistered | .itsInterchainTokenDeploymentStarted
  | .itsInterchainTransfer | .itsLinkTokenStarted => .its
  | .messageExecuted | .messageApproved | .nativeGasAdded | .jettonGasAdded
  | .nativeGasRefunded | .signersRotated => .parsers

/-- The parsers that the loop over these transactions finds. -/
def classified (t : TraceParser D) (txs : List Transaction) : List TxParser :=
  txs.filterMap fun tx => (createTxParser t tx).toOption.join

def only (c : Container) (qs : List TxParser) : List TxParser :=
  qs.filter fun q => container q.name = c

variable {t : TraceParser D} {q : TxParser} {qs : List TxParser} {c c' start : Containers}

theorem mem_only {a : Container} : q ∈ only a qs ↔ q ∈ qs ∧ container q.name = a := by
  simp [only]

theorem only_concat (a : Container) (qs : List TxParser) (q : TxParser) :
    only a (qs ++ [q]) = only a qs ++ if container q.name = a then [q] else [] := by
  by_cases h : container q.name = a <;> simp [only, h]

theorem mem_classified {txs : List Transaction} :
    q ∈ classified t txs ↔ ∃ tx ∈ txs, createTxParser t tx = .ok (some q) := by
  have hok (r : Outcome (Option TxParser)) : r.toOption.join = some q ↔ r = .ok (some q) := by
    cases r <;> simp [Except.toOption]
  simp only [classified, List.mem_filterMap, hok]

theorem classified_concat {txs : List Transaction} {tx : Transaction} {r : Option TxParser}
    (h : createTxParser t tx = .ok r) :
    classified t (txs ++ [tx]) = classified t txs ++ r.toList := by
  cases r <;> simp [classified, h, Except.toOption]

/-- The parser goes to the container of its name. -/
theorem route_cases (h : route c q = .ok c') :
    (container q.name = .calls ∧ c' = { c with callContract := c.callContract ++ [q] }) ∨
    (container q.name = .credits ∧ ∃ k, q.key = .ok k ∧
      c' = { c with gasCreditMap := c.gasCreditMap.insert k q }) ∨
    (container q.name = .its ∧ c' = { c with its := c.its ++ [q] }) ∨
    (container q.name = .parsers ∧ ∃ n, c' = { c with
      parsers := c.parsers ++ [.transaction q]
      messageApprovedCount := n }) := by
  obtain ⟨n, p⟩ := q
  cases n with
  | callContract =>
    cases h
    exact .inl ⟨rfl, rfl⟩
  | nativeGasPaid | jettonGasPaid =>
    obtain ⟨k, hk, h⟩ := bind_eq_ok.mp h
    cases pure_eq_ok.mp h
    exact .inr (.inl ⟨rfl, k, hk, rfl⟩)
  | itsTokenMetadataRegistered | itsInterchainTokenDeploymentStarted | itsInterchainTransfer
  | itsLinkTokenStarted =>
    cases h
    exact .inr (.inr (.inl ⟨rfl, rfl⟩))
  | messageExecuted | messageApproved | nativeGasAdded | jettonGasAdded | nativeGasRefunded
  | signersRotated =>
    cases h
    exact .inr (.inr (.inr ⟨rfl, _, rfl⟩))

/-- What the containers hold once these parsers were sorted into them. -/
structure Sorted (start : Containers) (qs : List TxParser) (c : Containers) : Prop where
  calls : c.callContract = only .calls qs
  its : c.its = only .its qs
  parsers : c.parsers = start.parsers ++ (only .parsers qs).map AnyParser.transaction
  paid : ∀ k q, c.gasCreditMap.lookup k = some q → q ∈ only .credits qs ∧ q.key = .ok k
  payment : ∀ q ∈ only .credits qs, ∃ k, q.key = .ok k ∧ k ∈ c.gasCreditMap

/-- A parser that is no payment leaves the map, and what is known of it, as it was. -/
theorem sorted_other (hs : Sorted start qs c) (hq : container q.name ≠ .credits)
    (hmap : c'.gasCreditMap = c.gasCreditMap) (hcalls : c'.callContract = only .calls (qs ++ [q]))
    (hits : c'.its = only .its (qs ++ [q]))
    (hparsers : c'.parsers =
      start.parsers ++ (only .parsers (qs ++ [q])).map AnyParser.transaction) :
    Sorted start (qs ++ [q]) c' := by
  have hcredits : only .credits (qs ++ [q]) = only .credits qs := by
    rw [only_concat, if_neg hq, List.append_nil]
  refine ⟨hcalls, hits, hparsers, ?_, ?_⟩
  · rw [hmap, hcredits]
    exact hs.paid
  · rw [hmap, hcredits]
    exact hs.payment

theorem sorted_payment {k : MessageMatchingKey} (hs : Sorted start qs c)
    (hq : container q.name = .credits) (hk : q.key = .ok k) :
    Sorted start (qs ++ [q]) { c with gasCreditMap := c.gasCreditMap.insert k q } := by
  have hcredits : only .credits (qs ++ [q]) = only .credits qs ++ [q] := by
    rw [only_concat, if_pos hq]
  constructor
  · simp [only_concat, hq, hs.calls]
  · simp [only_concat, hq, hs.its]
  · simp [only_concat, hq, hs.parsers]
  · intro k' q' hq'
    rw [hcredits]
    by_cases hkk : k' = k
    · subst hkk
      rw [AList.lookup_insert] at hq'
      cases hq'
      exact ⟨by simp, hk⟩
    · rw [AList.lookup_insert_ne hkk] at hq'
      obtain ⟨hmem, hkey⟩ := hs.paid k' q' hq'
      exact ⟨List.mem_append_left _ hmem, hkey⟩
  · intro q' hq'
    rw [hcredits, List.mem_append, List.mem_singleton] at hq'
    rcases hq' with hq' | rfl
    · obtain ⟨k', hk', hmem⟩ := hs.payment q' hq'
      exact ⟨k', hk', (AList.mem_insert _).mpr (.inr hmem)⟩
    · exact ⟨k, hk, (AList.mem_insert _).mpr (.inl rfl)⟩

theorem sorted_route (hs : Sorted start qs c) (h : route c q = .ok c') :
    Sorted start (qs ++ [q]) c' := by
  rcases route_cases h with ⟨hq, rfl⟩ | ⟨hq, k, hk, rfl⟩ | ⟨hq, rfl⟩ | ⟨hq, n, rfl⟩
  · refine sorted_other hs (by rw [hq]; decide) rfl ?_ ?_ ?_
    · simp [only_concat, hq, hs.calls]
    · simp [only_concat, hq, hs.its]
    · simp [only_concat, hq, hs.parsers]
  · exact sorted_payment hs hq hk
  · refine sorted_other hs (by rw [hq]; decide) rfl ?_ ?_ ?_
    · simp [only_concat, hq, hs.calls]
    · simp [only_concat, hq, hs.its]
    · simp [only_concat, hq, hs.parsers]
  · refine sorted_other hs (by rw [hq]; decide) rfl ?_ ?_ ?_
    · simp [only_concat, hq, hs.calls]
    · simp [only_concat, hq, hs.its]
    · simp [only_concat, hq, hs.parsers]

theorem sorted_calls (hs : Sorted start qs c) :
    ∀ cc ∈ c.callContract, container cc.name = .calls := by
  intro cc hcc
  rw [hs.calls] at hcc
  exact (mem_only.mp hcc).2

theorem sorted_its (hs : Sorted start qs c) : ∀ q ∈ c.its, container q.name = .its := by
  intro q hq
  rw [hs.its] at hq
  exact (mem_only.mp hq).2

/-- Before the loop, only the insufficient-gas parser may be there. -/
theorem startContainers_cases {trace : Trace} (h : startContainers t trace = .ok start) :
    let p : ParserExecuteInsufficientGas := { trace, allowedAddress := t.gatewayAddress }
    (p.checkMatch = false ∧ start = {}) ∨
    (p.checkMatch = true ∧ ∃ p', p.parse t.lib = .ok p' ∧
      start = { parsers := [.executeInsufficientGas p'] }) := by
  intro p
  rw [startContainers] at h
  by_cases hp : p.checkMatch = true
  · rw [if_pos hp] at h
    obtain ⟨p', hp', h⟩ := bind_eq_ok.mp h
    exact .inr ⟨hp, p', hp', (pure_eq_ok.mp h).symm⟩
  · rw [if_neg hp] at h
    cases h
    exact .inl ⟨by simpa using hp, rfl⟩

theorem createParsers_sorted {trace : Trace} (h : createParsers t trace = .ok c) :
    ∃ start, startContainers t trace = .ok start ∧
      Sorted start (classified t trace.transactions) c := by
  obtain ⟨start, hstart, h⟩ := bind_eq_ok.mp h
  refine ⟨start, hstart, ?_⟩
  apply foldlM_ok (P := fun done c => Sorted start (classified t done) c) h
  · rcases startContainers_cases hstart with ⟨-, rfl⟩ | ⟨-, p', -, rfl⟩ <;>
      constructor <;> simp [classified, only]
  · intro done tx c₁ c₂ hs hstep
    obtain ⟨r, hr, hstep⟩ := bind_eq_ok.mp hstep
    rw [classified_concat hr]
    cases r with
    | none =>
      cases pure_eq_ok.mp hstep
      simpa using hs
    | some q => exact sorted_route hs hstep

end Classification

section Provenance

variable {t : TraceParser D} {trace : Trace} {c : Containers}
variable {calls its : List TxParser} {m : GasCreditMap} {out tagged : List (AnyParser × Event)}
variable {pe : AnyParser × Event}

/-- The event beside a transaction parser is one that it makes. -/
def MadeBy (t : TraceParser D) (q : TxParser) (pe : AnyParser × Event) : Prop :=
  pe.1 = .transaction q ∧ ∃ mid, q.event t mid = .ok pe.2

/-- What is found after a key was taken out was there before, under another key. -/
theorem lookup_erase_some {k k' : MessageMatchingKey} {q : TxParser}
    (h : (m.erase k).lookup k' = some q) : k' ≠ k ∧ m.lookup k' = some q := by
  by_cases hkk : k' = k
  · rw [hkk, AList.lookup_erase] at h
    cases h
  · rw [AList.lookup_erase_ne hkk] at h
    exact ⟨hkk, h⟩

/-- One round of the loop over the calls. -/
theorem linkCalls_cons {cc : TxParser} (h : linkCalls t (cc :: calls) m = .ok out) :
    ∃ k call, cc.key = .ok k ∧ cc.event t none = .ok call ∧
      ((m.lookup k = none ∧ ∃ rest, linkCalls t calls m = .ok rest ∧
        out = (.transaction cc, call) :: rest) ∨
      ∃ q id credit rest, m.lookup k = some q ∧ cc.messageId t.lib = .ok (some id) ∧
        q.event t (some id) = .ok credit ∧ linkCalls t calls (m.erase k) = .ok rest ∧
        out = (.transaction cc, call) :: (.transaction q, credit) :: rest) := by
  rw [linkCalls] at h
  obtain ⟨k, hk, h⟩ := bind_eq_ok.mp h
  obtain ⟨call, hcall, h⟩ := bind_eq_ok.mp h
  refine ⟨k, call, hk, hcall, ?_⟩
  cases hq : m.lookup k with
  | none =>
    rw [hq] at h
    obtain ⟨rest, hrest, h⟩ := bind_eq_ok.mp h
    exact .inl ⟨rfl, rest, hrest, (pure_eq_ok.mp h).symm⟩
  | some q =>
    rw [hq] at h
    obtain ⟨mid, hmid, h⟩ := bind_eq_ok.mp h
    obtain ⟨id, hid, h⟩ := bind_eq_ok.mp h
    obtain ⟨credit, hcredit, h⟩ := bind_eq_ok.mp h
    obtain ⟨rest, hrest, h⟩ := bind_eq_ok.mp h
    rw [requireId_ok hid] at hmid
    exact .inr ⟨q, id, credit, rest, rfl, hmid, hcredit, hrest, (pure_eq_ok.mp h).symm⟩

theorem linkCalls_made (h : linkCalls t calls m = .ok out) :
    ∀ pe ∈ out, ∃ q, MadeBy t q pe ∧ (q ∈ calls ∨ ∃ k, m.lookup k = some q) := by
  induction calls generalizing m out with
  | nil =>
    cases h
    simp
  | cons cc calls ih =>
    intro pe hpe
    obtain ⟨k, call, -, hcall, hout⟩ := linkCalls_cons h
    rcases hout with ⟨-, rest, hrest, rfl⟩ | ⟨q, id, credit, rest, hq, -, hcredit, hrest, rfl⟩
    · rcases List.mem_cons.mp hpe with rfl | hpe
      · exact ⟨cc, ⟨rfl, none, hcall⟩, .inl List.mem_cons_self⟩
      · obtain ⟨q, hq, hmem⟩ := ih hrest pe hpe
        exact ⟨q, hq, hmem.imp_left (List.mem_cons_of_mem _)⟩
    · rcases List.mem_cons.mp hpe with rfl | hpe
      · exact ⟨cc, ⟨rfl, none, hcall⟩, .inl List.mem_cons_self⟩
      · rcases List.mem_cons.mp hpe with rfl | hpe
        · exact ⟨q, ⟨rfl, some id, hcredit⟩, .inr ⟨k, hq⟩⟩
        · obtain ⟨q', hq', hmem⟩ := ih hrest pe hpe
          refine ⟨q', hq', ?_⟩
          rcases hmem with hmem | ⟨k', hk'⟩
          · exact .inl (List.mem_cons_of_mem _ hmem)
          · exact .inr ⟨k', (lookup_erase_some hk').2⟩

/-- One round of the loop over the ITS logs. -/
theorem linkIts_cons {i : ℕ} {q : TxParser} (h : linkIts t i (q :: its) calls = .ok out) :
    ∃ cc rest mid e out', calls = cc :: rest ∧ cc.messageId t.lib = .ok mid ∧
      q.event t mid = .ok e ∧ linkIts t (i + 1) its rest = .ok out' ∧
      out = (.transaction q, e) :: out' := by
  cases calls with
  | nil => cases h
  | cons cc rest =>
    rw [linkIts] at h
    obtain ⟨mid, hmid, h⟩ := bind_eq_ok.mp h
    obtain ⟨e, he, h⟩ := bind_eq_ok.mp h
    obtain ⟨out', hout, h⟩ := bind_eq_ok.mp h
    exact ⟨cc, rest, mid, e, out', rfl, hmid, he, hout, (pure_eq_ok.mp h).symm⟩

theorem linkIts_made {i : ℕ} (h : linkIts t i its calls = .ok out) :
    ∀ pe ∈ out, ∃ q ∈ its, MadeBy t q pe := by
  induction its generalizing i calls out with
  | nil =>
    rw [linkIts] at h
    cases h
    simp
  | cons q its ih =>
    intro pe hpe
    obtain ⟨cc, rest, mid, e, out', rfl, -, he, hout, rfl⟩ := linkIts_cons h
    rcases List.mem_cons.mp hpe with rfl | hpe
    · exact ⟨q, List.mem_cons_self, rfl, mid, he⟩
    · obtain ⟨q', hmem, hq'⟩ := ih hout pe hpe
      exact ⟨q', List.mem_cons_of_mem _ hmem, hq'⟩

theorem linkEvents_ok (h : linkEvents t c = .ok out) :
    ∃ called linked others, linkCalls t c.callContract c.gasCreditMap = .ok called ∧
      linkIts t 0 c.its c.callContract = .ok linked ∧
      List.Forall₂ (fun p pe => pe.1 = p ∧ p.event t = .ok pe.2) c.parsers others ∧
      out = called ++ linked ++ others := by
  obtain ⟨called, hcalled, h⟩ := bind_eq_ok.mp h
  obtain ⟨linked, hlinked, h⟩ := bind_eq_ok.mp h
  obtain ⟨others, hothers, h⟩ := bind_eq_ok.mp h
  refine ⟨called, linked, others, hcalled, hlinked, ?_, (pure_eq_ok.mp h).symm⟩
  apply (mapM_ok hothers).imp
  intro p pe hpe
  obtain ⟨e, he, hpe⟩ := bind_eq_ok.mp hpe
  cases pure_eq_ok.mp hpe
  exact ⟨rfl, he⟩

theorem parseTraceTagged_ok (h : parseTraceTagged t trace = .ok tagged) :
    ∃ total refund c out, gasUsed t trace = .ok (total, refund) ∧
      createParsers t trace = .ok c ∧ linkEvents t c = .ok out ∧
      List.Forall₂ (fun pe pe' => pe'.1 = pe.1 ∧
        convertEvent t total refund c.messageApprovedCount pe.2 = .ok pe'.2) out tagged := by
  obtain ⟨⟨total, refund⟩, hgas, h⟩ := bind_eq_ok.mp h
  obtain ⟨c, hc, h⟩ := bind_eq_ok.mp h
  obtain ⟨out, hout, h⟩ := bind_eq_ok.mp h
  refine ⟨total, refund, c, out, hgas, hc, hout, ?_⟩
  apply (mapM_ok h).imp
  intro pe pe' hpe
  obtain ⟨e, he, hpe⟩ := bind_eq_ok.mp hpe
  cases pure_eq_ok.mp hpe
  exact ⟨rfl, he⟩

theorem parseTrace_ok {events : List Event} (h : parseTrace t trace = .ok events) :
    ∃ tagged, parseTraceTagged t trace = .ok tagged ∧ events = tagged.map Prod.snd := by
  obtain ⟨tagged, htagged, h⟩ := map_eq_ok.mp h
  exact ⟨tagged, htagged, h.symm⟩

/-- Every event is made by a parser of one transaction, or by what was there before the loop. -/
theorem linkEvents_made {start : Containers} {qs : List TxParser} (hs : Sorted start qs c)
    (h : linkEvents t c = .ok out) :
    ∀ pe ∈ out, (∃ q ∈ qs, MadeBy t q pe) ∨ (pe.1 ∈ start.parsers ∧ pe.1.event t = .ok pe.2) := by
  intro pe hpe
  obtain ⟨called, linked, others, hcalled, hlinked, hothers, rfl⟩ := linkEvents_ok h
  rw [List.mem_append, List.mem_append] at hpe
  rcases hpe with (hpe | hpe) | hpe
  · obtain ⟨q, hmade, hq⟩ := linkCalls_made hcalled pe hpe
    refine .inl ⟨q, ?_, hmade⟩
    rcases hq with hq | ⟨k, hk⟩
    · rw [hs.calls] at hq
      exact (mem_only.mp hq).1
    · exact (mem_only.mp (hs.paid k q hk).1).1
  · obtain ⟨q, hq, hmade⟩ := linkIts_made hlinked pe hpe
    rw [hs.its] at hq
    exact .inl ⟨q, (mem_only.mp hq).1, hmade⟩
  · obtain ⟨p, hp, hpe, hevent⟩ := forall₂_mem_right hothers pe hpe
    subst hpe
    rw [hs.parsers, List.mem_append, List.mem_map] at hp
    rcases hp with hp | ⟨q, hq, hp⟩
    · exact .inr ⟨hp, hevent⟩
    · rw [← hp] at hevent
      exact .inl ⟨q, (mem_only.mp hq).1, hp.symm, none, hevent⟩

theorem linkEvents_start {start : Containers} {qs : List TxParser} {p : AnyParser}
    (hs : Sorted start qs c) (h : linkEvents t c = .ok out) (hp : p ∈ start.parsers) :
    ∃ pe ∈ out, p.event t = .ok pe.2 := by
  obtain ⟨called, linked, others, -, -, hothers, rfl⟩ := linkEvents_ok h
  have hpc : p ∈ c.parsers := by
    rw [hs.parsers]
    exact List.mem_append_left _ hp
  obtain ⟨pe, hpe, -, hevent⟩ := forall₂_mem_right hothers.flip p hpc
  exact ⟨pe, List.mem_append_right _ hpe, hevent⟩

end Provenance

end TraceEvents
