import TonRelayer.TraceEvents

/-! Events cannot be forged from other contracts, but for one test.
An event of a transaction parser is backed by a transaction on the contract it tells about. The
insufficient-gas parser tests positions of the trace, and its second test never looks at the
account. -/
namespace EventAuthenticity

open ExceptRules Cells ByteEncodings RelayerExecute MessageDecoders Types GasCalculator
open TransactionParsers TraceParsing TraceEvents

variable {D : Type} {t : TraceParser D} {trace : Trace} {events : List Event}

/-- The transaction whose failure the insufficient-gas parser tested. -/
def testedTransaction (t : TraceParser D) (trace : Trace) : Option Transaction :=
  if ParserExecuteInsufficientGas.exitCodeBranch t.gatewayAddress trace.transactions then
    trace.transactions[2]?
  else if ParserExecuteInsufficientGas.nullifiedBranch trace.transactions then
    trace.transactions[4]?
  else none

/-- The parser of this transaction makes the event, up to the amounts filled in later. -/
def Reports (t : TraceParser D) (tx : Transaction) (e : Event) : Prop :=
  ∃ q mid e₀ total refund approved, createTxParser t tx = .ok (some q) ∧
    q.event t mid = .ok e₀ ∧ convertEvent t total refund approved e₀ = .ok e

/-- A transaction of the trace, on the contract for this kind of event, stands behind it. -/
def Justified (t : TraceParser D) (trace : Trace) (e : Event) : Prop :=
  ∃ tx ∈ trace.transactions, tx.account = address t (kind e).contract ∧
    if kind e = .cannotExecuteMessageV2 then testedTransaction t trace = some tx
    else Reports t tx e

def Authentic (t : TraceParser D) (trace : Trace) (events : List Event) : Prop :=
  (∀ e ∈ events, Justified t trace e) ∧
    ((∀ tx ∈ trace.transactions, ∀ c, tx.account ≠ address t c) → events = [])

/-- Only the second test of the insufficient-gas parser matches, and its transaction is not one
of the gateway. -/
def ForeignNullification (t : TraceParser D) (trace : Trace) : Prop :=
  ParserExecuteInsufficientGas.exitCodeBranch t.gatewayAddress trace.transactions = false ∧
  ParserExecuteInsufficientGas.nullifiedBranch trace.transactions = true ∧
  ∃ tx, trace.transactions[4]? = some tx ∧ tx.account ≠ t.gatewayAddress

theorem exitCodeBranch_account {gateway : TonAddress} {txs : List Transaction}
    (h : ParserExecuteInsufficientGas.exitCodeBranch gateway txs = true) :
    ∃ tx, txs[2]? = some tx ∧ tx.account = gateway := by
  rw [ParserExecuteInsufficientGas.exitCodeBranch] at h
  split at h
  · rename_i tx1 tx2 _ h2
    simp only [Bool.and_eq_true, decide_eq_true_eq] at h
    exact ⟨tx2, h2, h.1.1.1⟩
  · cases h

theorem nullifiedBranch_fifth {txs : List Transaction}
    (h : ParserExecuteInsufficientGas.nullifiedBranch txs = true) : ∃ tx, txs[4]? = some tx := by
  rw [ParserExecuteInsufficientGas.nullifiedBranch] at h
  split at h
  · rename_i tx3 tx4 _ h4
    exact ⟨tx4, h4⟩
  · cases h

theorem insufficientGas_kind {p : ParserExecuteInsufficientGas} {e : Event}
    (h : p.event = .ok e) : kind e = .cannotExecuteMessageV2 := by
  rw [ParserExecuteInsufficientGas.event] at h
  split at h
  · cases h
  · cases h
    rfl

theorem justified_of_transaction {q : TxParser} {mid : Option String} {e e' : Event}
    {total refund approved : ℕ} (hq : q ∈ classified t trace.transactions)
    (he : q.event t mid = .ok e) (hc : convertEvent t total refund approved e = .ok e') :
    Justified t trace e' := by
  obtain ⟨tx, htx, hq⟩ := mem_classified.mp hq
  have haccount := (firstMatch_ok hq).2
  have hkind : kind e' = kindOf q.name := (convertEvent_keeps hc).1.trans (event_kind he)
  refine ⟨tx, htx, ?_, ?_⟩
  · rw [hkind, kindOf_contract, haccount]
  · have hne : kind e' ≠ .cannotExecuteMessageV2 := by
      rw [hkind]
      cases q.name <;> decide
    rw [if_neg hne]
    exact ⟨q, mid, e, total, refund, approved, hq, he, hc⟩

/-- The insufficient-gas event rests on a gateway transaction unless the second test was the
one that matched. -/
theorem justified_of_match {e : Event} (hk : kind e = .cannotExecuteMessageV2)
    (hm : ParserExecuteInsufficientGas.checkMatch
      { trace, allowedAddress := t.gatewayAddress } = true)
    (hf : ¬ ForeignNullification t trace) : Justified t trace e := by
  suffices h : ∃ tx, testedTransaction t trace = some tx ∧ tx ∈ trace.transactions ∧
      tx.account = t.gatewayAddress by
    obtain ⟨tx, htested, htx, haccount⟩ := h
    refine ⟨tx, htx, ?_, ?_⟩
    · rw [hk, haccount]
      rfl
    · rw [if_pos hk, htested]
  rw [ParserExecuteInsufficientGas.checkMatch] at hm
  rw [testedTransaction]
  by_cases hexit : ParserExecuteInsufficientGas.exitCodeBranch t.gatewayAddress
      trace.transactions = true
  · obtain ⟨tx, htx, haccount⟩ := exitCodeBranch_account hexit
    rw [if_pos hexit]
    exact ⟨tx, htx, List.mem_of_getElem? htx, haccount⟩
  · have hnull : ParserExecuteInsufficientGas.nullifiedBranch trace.transactions = true := by
      simpa [hexit] using hm
    obtain ⟨tx, htx⟩ := nullifiedBranch_fifth hnull
    rw [if_neg hexit, if_pos hnull]
    refine ⟨tx, htx, List.mem_of_getElem? htx, ?_⟩
    by_contra haccount
    exact hf ⟨by simpa using hexit, hnull, tx, htx, haccount⟩

theorem not_justified_of_foreign {e : Event} (hk : kind e = .cannotExecuteMessageV2)
    (hf : ForeignNullification t trace) : ¬ Justified t trace e := by
  obtain ⟨hexit, hnull, tx, htx, hforeign⟩ := hf
  rintro ⟨tx', -, haccount, htested⟩
  rw [if_pos hk, testedTransaction, hexit, if_neg Bool.false_ne_true, if_pos hnull, htx] at htested
  cases htested
  rw [hk] at haccount
  exact hforeign haccount

/-- What the assembled events say about their origin. -/
theorem event_cases {start c : Containers} {out : List (AnyParser × Event)}
    {pe : AnyParser × Event} (hstart : startContainers t trace = .ok start)
    (hs : Sorted start (classified t trace.transactions) c) (hout : linkEvents t c = .ok out)
    (hpe : pe ∈ out) :
    (∃ q ∈ classified t trace.transactions, ∃ mid, q.event t mid = .ok pe.2) ∨
    (ParserExecuteInsufficientGas.checkMatch { trace, allowedAddress := t.gatewayAddress } = true ∧
      kind pe.2 = .cannotExecuteMessageV2) := by
  rcases linkEvents_made hs hout pe hpe with ⟨q, hq, -, mid, hevent⟩ | ⟨hp, hevent⟩
  · exact .inl ⟨q, hq, mid, hevent⟩
  · rcases startContainers_cases hstart with ⟨-, rfl⟩ | ⟨hm, p', -, rfl⟩
    · cases hp
    · rw [List.mem_singleton.mp hp] at hevent
      exact .inr ⟨hm, insufficientGas_kind hevent⟩

/-- A foreign nullification makes the trace report that a message cannot be executed. -/
theorem foreign_reports {start c : Containers} {out : List (AnyParser × Event)}
    (hstart : startContainers t trace = .ok start)
    (hs : Sorted start (classified t trace.transactions) c) (hout : linkEvents t c = .ok out)
    (hf : ForeignNullification t trace) :
    ∃ pe ∈ out, kind pe.2 = .cannotExecuteMessageV2 := by
  rcases startContainers_cases hstart with ⟨hm, -⟩ | ⟨-, p', -, rfl⟩
  · rw [ParserExecuteInsufficientGas.checkMatch, Bool.or_eq_false_iff] at hm
    exact absurd (hm.2.symm.trans hf.2.1) Bool.false_ne_true
  · obtain ⟨pe, hpe, hevent⟩ := linkEvents_start hs hout List.mem_cons_self
    exact ⟨pe, hpe, insufficientGas_kind hevent⟩

/-- Every event of a trace is backed by a transaction of its own contract exactly when the
insufficient-gas parser does not take a failure elsewhere for one of the gateway. -/
theorem events_authentic_iff (h : parseTrace t trace = .ok events) :
    Authentic t trace events ↔ ¬ ForeignNullification t trace := by
  obtain ⟨tagged, htagged, rfl⟩ := parseTrace_ok h
  obtain ⟨total, refund, c, out, -, hc, hout, hconv⟩ := parseTraceTagged_ok htagged
  obtain ⟨start, hstart, hs⟩ := createParsers_sorted hc
  constructor
  · intro hauth hf
    obtain ⟨pe, hpe, hkind⟩ := foreign_reports hstart hs hout hf
    obtain ⟨pe', hpe', -, hconvert⟩ := forall₂_mem_right hconv.flip pe hpe
    have hkind' := (convertEvent_keeps hconvert).1.trans hkind
    exact not_justified_of_foreign hkind' hf (hauth.1 pe'.2 (List.mem_map_of_mem hpe'))
  · intro hf
    have hjust : ∀ e ∈ tagged.map Prod.snd, Justified t trace e := by
      intro e he
      obtain ⟨pe', hpe', rfl⟩ := List.mem_map.mp he
      obtain ⟨pe, hpe, -, hconvert⟩ := forall₂_mem_right hconv pe' hpe'
      rcases event_cases hstart hs hout hpe with ⟨q, hq, mid, hevent⟩ | ⟨hm, hkind⟩
      · exact justified_of_transaction hq hevent hconvert
      · exact justified_of_match ((convertEvent_keeps hconvert).1.trans hkind) hm hf
    refine ⟨hjust, ?_⟩
    intro hforeign
    rw [List.eq_nil_iff_forall_not_mem]
    intro e he
    obtain ⟨tx, htx, haccount, -⟩ := hjust e he
    exact hforeign tx htx _ haccount

section Samples

def sampleCell (bits : List Bool) (hb : bits.length ≤ 1023) (refs : List Cell)
    (hr : refs.length < 5) : Cell :=
  .mk ⟨bits, hb⟩ ⟨refs.length, hr⟩ refs.get

def textCell (text : String) (h : (bytesBits (asBytes text)).length ≤ 1023) : Cell :=
  sampleCell (bytesBits (asBytes text)) h [] (by decide)

/-- The cell a builder ends with, for samples that fit. -/
def builtCell (bits : List Bool) (refs : List Cell) : Cell :=
  (CellBuilder.build ⟨bits, refs⟩).toOption.getD emptyCell

theorem builtCell_ok {bits : List Bool} {refs : List Cell} (hb : bits.length ≤ 1023)
    (hr : refs.length ≤ 4) :
    (builtCell bits refs).bits = bits ∧ (builtCell bits refs).references = refs := by
  obtain ⟨c, hc, hbits, hrefs⟩ := CellBuilder.build_ok (b := ⟨bits, refs⟩) hb hr
  rw [builtCell, hc]
  exact ⟨hbits, hrefs⟩

def builtText (text : String) : Cell := builtCell (bytesBits (asBytes text)) []

def addressBits (a : TonAddress) : List Bool := (CellBuilder.storeAddress {} a).bits

/-- A message id and a source chain where the insufficient-gas parser looks for them. -/
def wrappedBody : String :=
  "te6cckEBCAEAJgABAAECAAIDAAABAAQBAAUCAAYHAAwweDJhLTEAEmF2YWxhbmNoZYoVkFE="

def wrappedCell : Cell :=
  let wrap (c : Cell) := sampleCell [] (by decide) [c] (by simp)
  let message := sampleCell [] (by decide)
    [textCell "0x2a-1" (by decide +kernel), textCell "avalanche" (by decide +kernel)] (by decide)
  wrap (sampleCell [] (by decide) [emptyCell, wrap (wrap message)] (by simp))

/-- A call log of the gateway: 0x2a to 0xd7 on avalanche. -/
def userCallBody : String :=
  "te6cckEBBAEAWwADg4ABAQEBAQEBAQEBAQEBAQEBAQEBAQEBAQEBAQEBAQEBAQCTKez7irYT0ClW//kb5tDWlfZXan" ++
  "zB1dL94If8B/cFMAECAwASYXZhbGFuY2hlAAgweGQ3AAIq0p4QFQ=="

def itsCallBody : String :=
  "te6cckEBBAEAWwADg4AAYGBgYGBgYGBgYGBgYGBgYGBgYGBgYGBgYGBgYGBgYGCTKez7irYT0ClW//kb5tDWlfZXan" ++
  "zB1dL94If8B/cFMAECAwASYXZhbGFuY2hlAAgweGQ3AAIqHZrMPg=="

def callCell (source : UInt8) : Except CellError Cell :=
  CellBuilder.build ⟨addressBits (account source) ++ bytesBits (sampleKeccak [42]).toList,
    [textCell "avalanche" (by decide +kernel), textCell "0xd7" (by decide +kernel),
      sampleCell (bytesBits [42]) (by decide) [] (by decide)]⟩

/-- A log of the gas service: 5 nanotons were paid for that call. -/
def paidBody : String :=
  "te6cckEBBAEAnAADw4ABAQEBAQEBAQEBAQEBAQEBAQEBAQEBAQEBAQEBAQEBAQCTKez7irYT0ClW//kb5tDWlfZXan" ++
  "zB1dL94If8B/cFIAAAAAAAAAAAAAAAAAAAAAAAAAAAAAAAAAAAAAAAAACwAQIDAEOAAQEBAQEBAQEBAQEBAQEBAQEB" ++
  "AQEBAQEBAQEBAQEBAQEQABJhdmFsYW5jaGUACDB4ZDdLx6Wt"

def paidCell : Except CellError Cell :=
  CellBuilder.build
    ⟨addressBits (account 8) ++ bytesBits (sampleKeccak [42]).toList ++
        List.replicate 248 false ++ natToBits 8 5,
      [sampleCell (addressBits (account 8)) (by decide +kernel) [] (by decide),
        textCell "avalanche" (by decide +kernel), textCell "0xd7" (by decide +kernel)]⟩

/-- A log of the ITS contract: metadata of a token with nine decimals was registered. -/
def metadataBody : String :=
  "te6cckEBAQEAKQAATQAAAQSAAODg4ODg4ODg4ODg4ODg4ODg4ODg4ODg4ODg4ODg4ODhMHcg7uE="

def metadataCell : Except CellError Cell :=
  CellBuilder.build ⟨natToBits 32 0x104 ++ addressBits (account 7) ++ natToBits 8 9, []⟩

def hashText (n : UInt8) : String :=
  if n = 1 then "AQEBAQEBAQEBAQEBAQEBAQEBAQEBAQEBAQEBAQEBAQE="
  else if n = 2 then "AgICAgICAgICAgICAgICAgICAgICAgICAgICAgICAgI="
  else if n = 3 then "AwMDAwMDAwMDAwMDAwMDAwMDAwMDAwMDAwMDAwMDAwM="
  else "BAQEBAQEBAQEBAQEBAQEBAQEBAQEBAQEBAQEBAQEBAQ="

/-- The libraries on the texts of the samples; no amount is converted there. -/
def sampleLibraries : Libraries ℕ where
  fromBocB64 := fun boc =>
    if boc = wrappedBody then .ok wrappedCell
    else if boc = userCallBody then callCell 8
    else if boc = itsCallBody then callCell 3
    else if boc = paidBody then paidCell
    else if boc = metadataBody then metadataCell
    else .error .badBoc
  base64Decode := fun text =>
    match [1, 2, 3, 4].find? fun n => text = hashText n with
    | some n => .ok (List.replicate 32 n)
    | none => .error "Invalid byte"
  base64Encode := fun bytes =>
    if bytes = [42] then "Kg==" else "BJlPZ9xVsJ6BSrf/yN82hrSvsrtT5g6ul+8EP+A/uCk="
  keccak256 := sampleKeccak
  now := "2025-06-01T00:00:00Z"
  decimalFromStr := fun _ => .error "Invalid decimal"
  decimalMul := fun a b => some (a * b)
  decimalDiv := fun a b => if b = 0 then none else some (a / b)
  decimalRound := id
  decimalToString := toString

def sampleParser : TraceParser ℕ where
  lib := sampleLibraries
  getPrice := fun _ => .error "no price"
  gatewayAddress := account 1
  gasServiceAddress := account 2
  itsAddress := account 3
  ourAddresses := [account 1, account 2, account 3]
  chainName := "ton2"

/-- A transaction that emits one log. -/
def logTransaction (contract n : UInt8) (opcode : UInt32) (body : String) : Transaction where
  account := account contract
  hash := hashText n
  inMsg := some { hash := "in", destination := some (account contract), opcode := some opcode }
  outMsgs := [{ hash := "log", messageContent := ⟨body⟩ }]

def sampleTrace (txs : List Transaction) : Trace :=
  { isIncomplete := false, startLt := 1, endLt := 2, traceId := "trace", transactions := txs }

def eventsOf (trace : Trace) : List Event :=
  ((parseTrace sampleParser trace).toOption).getD []

theorem parseTrace_eventsOf (trace : Trace) (h : (parseTrace sampleParser trace).isOk = true) :
    parseTrace sampleParser trace = .ok (eventsOf trace) := by
  rw [eventsOf]
  cases hr : parseTrace sampleParser trace with
  | error e =>
    rw [hr] at h
    cases h
  | ok events => rfl

def paidCall : Trace :=
  sampleTrace [logTransaction 1 1 opCallContract userCallBody,
    logTransaction 2 2 opPayGas paidBody]

/-- Five transactions of an account that is none of ours. -/
def foreignFailure : Trace :=
  let message : TransactionMessage := { hash := "m", destination := some (account 9) }
  let tx : Transaction := { account := account 9, hash := hashText 1, inMsg := some message }
  sampleTrace [{ tx with outMsgs := [{ message with messageContent := ⟨wrappedBody⟩ }] },
    tx, tx, tx,
    { tx with
      inMsg := some { message with opcode := some opNullifiedSuccessfully }
      description := { action := some ⟨37⟩ } }]

theorem events_authentic_paid_call :
    (eventsOf paidCall).map kind = [.call, .gasCredit] ∧
      Authentic sampleParser paidCall (eventsOf paidCall) := by
  obtain ⟨hok, hkinds⟩ : (parseTrace sampleParser paidCall).isOk = true ∧
      (eventsOf paidCall).map kind = [.call, .gasCredit] := by decide +kernel
  refine ⟨hkinds, (events_authentic_iff (parseTrace_eventsOf _ hok)).mpr ?_⟩
  intro h
  exact Bool.false_ne_true h.2.1

theorem foreign_failure_forges_event :
    (∀ tx ∈ foreignFailure.transactions, ∀ c, tx.account ≠ address sampleParser c) ∧
      ∃ events, parseTrace sampleParser foreignFailure = .ok events ∧
        ¬ Authentic sampleParser foreignFailure events := by
  have hforeign : ∀ tx ∈ foreignFailure.transactions, ∀ c,
      tx.account ≠ address sampleParser c := by
    intro tx htx c
    have haccount : ∀ tx ∈ foreignFailure.transactions, tx.account = account 9 := by decide
    rw [haccount tx htx]
    cases c <;> decide
  obtain ⟨hok, hone⟩ : (parseTrace sampleParser foreignFailure).isOk = true ∧
      (eventsOf foreignFailure).length = 1 := by decide +kernel
  refine ⟨hforeign, eventsOf foreignFailure, parseTrace_eventsOf _ hok, ?_⟩
  intro hauth
  rw [hauth.2 hforeign] at hone
  cases hone

end Samples

end EventAuthenticity
