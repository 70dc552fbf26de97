import Mathlib
import TonRelayer.TraceStructure
import TonRelayer.RejectedMessages

/-! The ids under which events reach the GMP API.
All but one are made of the hash of a transaction and a suffix for the kind of event. The
insufficient-gas event is named after the last logical time of its trace, which another trace
can have too. -/
namespace EventIds

open ExceptRules Cells ByteEncodings RelayerExecute MessageDecoders Types GasCalculator
open TransactionParsers TraceParsing TraceEvents EventAuthenticity EventLinking TraceStructure
open RejectedMessages

variable {D : Type} {t : TraceParser D} {trace : Trace} {tagged : List (AnyParser × Event)}
variable {e : Event} {mid : Option String}

section Shapes

def eventId : Event → String
  | .call common _ _ _ => common.eventId
  | .messageApproved common _ _ => common.eventId
  | .messageExecuted common _ _ _ _ => common.eventId
  | .signersRotated common _ => common.eventId
  | .cannotExecuteMessageV2 common _ _ _ _ => common.eventId
  | .gasCredit common _ _ _ => common.eventId
  | .gasRefunded common _ _ _ _ => common.eventId
  | .itsTokenMetadataRegistered common _ _ _ => common.eventId
  | .itsInterchainTokenDeploymentStarted common _ _ _ => common.eventId
  | .itsInterchainTransfer common _ _ _ _ _ _ => common.eventId
  | .itsLinkTokenStarted common _ _ _ _ _ _ => common.eventId

/-- What the event of a parser adds to the hash. -/
def suffix : ParserName → String
  | .callContract | .messageExecuted | .messageApproved | .nativeGasRefunded => ""
  | .nativeGasPaid | .nativeGasAdded | .jettonGasAdded | .jettonGasPaid => "-gas"
  | .itsTokenMetadataRegistered => "-its-metadata"
  | .itsInterchainTokenDeploymentStarted => "-its-interchain-token-deployment-started"
  | .itsInterchainTransfer => "-its-interchain-transfer"
  | .itsLinkTokenStarted => "-its-link-token-started"
  | .signersRotated => "-signers-rotated"

def hashId (q : TxParser) : String := q.tx.hash ++ suffix q.name

def timeId (trace : Trace) : String := "cannot-execute-task-v2-" ++ toString trace.endLt

def idOf : AnyParser → String
  | .transaction q => hashId q
  | .executeInsufficientGas p => timeId p.trace

theorem event_id {n : ParserName} {p : LogParser n.Log} (h : n.event t p mid = .ok e) :
    eventId e = p.tx.hash ++ suffix n := by
  cases n with
  | callContract =>
    obtain ⟨log, -, h⟩ := bind_eq_ok.mp h
    obtain ⟨mid, -, h⟩ := bind_eq_ok.mp h
    obtain ⟨id, -, h⟩ := bind_eq_ok.mp h
    dsimp only at h
    split at h
    · cases h
    · cases pure_eq_ok.mp h
      exact String.append_empty.symm
  | nativeGasPaid | jettonGasPaid | itsTokenMetadataRegistered
  | itsInterchainTokenDeploymentStarted | itsInterchainTransfer | itsLinkTokenStarted =>
    obtain ⟨id, log, rfl, rfl⟩ := linked_ok h
    rfl
  | messageExecuted | messageApproved =>
    obtain ⟨log, -, h⟩ := bind_eq_ok.mp h
    cases pure_eq_ok.mp h
    exact String.append_empty.symm
  | nativeGasRefunded =>
    obtain ⟨_, -, h⟩ := bind_eq_ok.mp h
    obtain ⟨_, -, h⟩ := bind_eq_ok.mp h
    obtain ⟨_, -, h⟩ := bind_eq_ok.mp h
    cases pure_eq_ok.mp h
    exact String.append_empty.symm
  | nativeGasAdded | jettonGasAdded | signersRotated =>
    obtain ⟨_, -, h⟩ := bind_eq_ok.mp h
    obtain ⟨_, -, h⟩ := bind_eq_ok.mp h
    obtain ⟨_, -, h⟩ := bind_eq_ok.mp h
    cases pure_eq_ok.mp h
    rfl

theorem insufficientGas_id {p : ParserExecuteInsufficientGas} (h : p.event = .ok e) :
    eventId e = timeId p.trace := by
  rw [ParserExecuteInsufficientGas.event] at h
  split at h
  · cases h
  · cases h
    rfl

theorem convertEvent_id {total refund approved : ℕ} {e' : Event}
    (h : convertEvent t total refund approved e = .ok e') : eventId e' = eventId e := by
  cases e with
  | gasCredit common id refundAddress payment =>
    obtain ⟨payment', rfl⟩ := convertEvent_gasCredit h
    rfl
  | _ =>
    cases h
    rfl

end Shapes

section OneTrace

def gasParser : AnyParser → Option ParserExecuteInsufficientGas
  | .transaction _ => none
  | .executeInsufficientGas p => some p

/-- The insufficient-gas parser matches the trace. -/
def rejects (t : TraceParser D) (trace : Trace) : Bool :=
  ParserExecuteInsufficientGas.checkMatch { trace, allowedAddress := t.gatewayAddress }

theorem ids_perm (tags : List AnyParser) : (tags.map idOf).Perm
    ((tags.filterMap txParser).map hashId ++
      ((tags.filterMap gasParser).map (·.trace)).map timeId) := by
  induction tags with
  | nil => exact .nil
  | cons p tags ih =>
    cases p with
    | transaction q => exact ih.cons (hashId q)
    | executeInsufficientGas p => exact (ih.cons (timeId p.trace)).trans List.perm_middle.symm

theorem parse_trace {lib : Libraries D} {p p' : ParserExecuteInsufficientGas}
    (h : p.parse lib = .ok p') : p'.trace = p.trace := by
  rw [ParserExecuteInsufficientGas.parse] at h
  split at h
  · cases h
    rfl
  · split at h
    · cases h
    · split at h
      · cases h
        rfl
      · cases h

theorem start_traces {start : Containers} (h : startContainers t trace = .ok start) :
    (start.parsers.filterMap gasParser).map (·.trace) =
      if rejects t trace then [trace] else [] := by
  rcases startContainers_cases h with ⟨hm, rfl⟩ | ⟨hm, p, hparse, rfl⟩
  · rw [rejects, hm]
    rfl
  · rw [rejects, hm]
    exact congrArg (fun trace => [trace]) (parse_trace hparse)

theorem linkEvents_ids {start c : Containers} {qs : List TxParser} {out : List (AnyParser × Event)}
    (hstart : startContainers t trace = .ok start) (hs : Sorted start qs c)
    (h : linkEvents t c = .ok out) : ∀ pe ∈ out, eventId pe.2 = idOf pe.1 := by
  intro pe hpe
  rcases linkEvents_made hs h pe hpe with ⟨q, -, htag, mid, hevent⟩ | ⟨hp, hevent⟩
  · rw [htag]
    exact event_id hevent
  · obtain ⟨p, hp⟩ := start_parsers hstart hp
    rw [hp] at hevent ⊢
    exact insufficientGas_id hevent

/-- Only what was there before the loop is no parser of a transaction. -/
theorem linkEvents_gas {start c : Containers} {qs : List TxParser} {out : List (AnyParser × Event)}
    (hs : Sorted start qs c) (h : linkEvents t c = .ok out) :
    (out.map Prod.fst).filterMap gasParser = start.parsers.filterMap gasParser := by
  obtain ⟨called, linked, others, hcalled, hlinked, hothers, rfl⟩ := linkEvents_ok h
  have hnone {made : List (AnyParser × Event)} (hmade : ∀ pe ∈ made, ∃ q, MadeBy t q pe) :
      (made.map Prod.fst).filterMap gasParser = [] := by
    rw [List.filterMap_eq_nil_iff]
    intro p hp
    obtain ⟨pe, hpe, rfl⟩ := List.mem_map.mp hp
    obtain ⟨q, htag, -⟩ := hmade pe hpe
    rw [htag]
    rfl
  have hcalls : (called.map Prod.fst).filterMap gasParser = [] := by
    apply hnone
    intro pe hpe
    obtain ⟨q, hq, -⟩ := linkCalls_made hcalled pe hpe
    exact ⟨q, hq⟩
  have hits : (linked.map Prod.fst).filterMap gasParser = [] := by
    apply hnone
    intro pe hpe
    obtain ⟨q, -, hq⟩ := linkIts_made hlinked pe hpe
    exact ⟨q, hq⟩
  have htags : others.map Prod.fst = c.parsers := by
    rw [← List.forall₂_eq_eq_eq, List.forall₂_map_left_iff]
    exact hothers.flip.imp fun pe p hpe => hpe.1
  have hloop : ((only .parsers qs).map AnyParser.transaction).filterMap gasParser = [] := by
    simp [gasParser]
  rw [List.map_append, List.map_append, List.filterMap_append, List.filterMap_append, hcalls, hits,
    htags, hs.parsers, List.filterMap_append, hloop, List.nil_append, List.nil_append,
    List.append_nil]

theorem tagged_ids (h : parseTraceTagged t trace = .ok tagged) :
    (tagged.map Prod.snd).map eventId = (tagged.map Prod.fst).map idOf ∧
    ((tagged.map Prod.fst).filterMap gasParser).map (·.trace) =
      if rejects t trace then [trace] else [] := by
  obtain ⟨total, refund, c, out, -, hc, hout, hconv⟩ := parseTraceTagged_ok h
  obtain ⟨start, hstart, hs⟩ := createParsers_sorted hc
  have htags : tagged.map Prod.fst = out.map Prod.fst := by
    rw [← List.forall₂_eq_eq_eq, List.forall₂_map_left_iff, List.forall₂_map_right_iff]
    exact hconv.flip.imp fun pe' pe hpe => hpe.1
  constructor
  · rw [List.map_map, List.map_map]
    apply List.map_congr_left
    intro pe' hpe'
    obtain ⟨pe, hpe, htag, hconvert⟩ := forall₂_mem_right hconv pe' hpe'
    have hid := linkEvents_ids hstart hs hout pe hpe
    rw [Function.comp, convertEvent_id hconvert, hid, Function.comp, htag]
  · rw [htags, linkEvents_gas hs hout, start_traces hstart]

/-- The ids of a trace: those of different transactions, and the one made of its last time. -/
theorem event_ids_perm {events : List Event} (h : parseTrace t trace = .ok events) :
    ∃ qs : List TxParser, (qs.map TxParser.tx).Subperm trace.transactions ∧
      (events.map eventId).Perm
        (qs.map hashId ++ (if rejects t trace then [trace] else []).map timeId) := by
  obtain ⟨tagged, htagged, rfl⟩ := parseTrace_ok h
  obtain ⟨hsub, -⟩ := parseTraceTagged_layout htagged
  obtain ⟨hids, htimes⟩ := tagged_ids htagged
  refine ⟨_, hsub, ?_⟩
  have htags : parsersOf (tagged.map summary) = (tagged.map Prod.fst).filterMap txParser := by
    rw [parsersOf, List.filterMap_map, List.filterMap_map]
    rfl
  rw [hids, htags, ← htimes]
  exact ids_perm _

end OneTrace

section ManyTraces

variable {runs : List (Trace × List Event)}

theorem runs_ids_perm (hruns : ∀ r ∈ runs, parseTrace t r.1 = .ok r.2) :
    ∃ qs : List TxParser,
      (qs.map TxParser.tx).Subperm (runs.flatMap fun r => r.1.transactions) ∧
      ((runs.flatMap fun r => r.2).map eventId).Perm
        (qs.map hashId ++ ((runs.map Prod.fst).filter (rejects t)).map timeId) := by
  induction runs with
  | nil => exact ⟨[], .refl _, .nil⟩
  | cons r runs ih =>
    rw [List.forall_mem_cons] at hruns
    obtain ⟨qs, hsub, hperm⟩ := event_ids_perm hruns.1
    obtain ⟨qs', hsub', hperm'⟩ := ih hruns.2
    refine ⟨qs ++ qs', ?_, ?_⟩
    · rw [List.map_append, List.flatMap_cons]
      exact hsub.append hsub'
    · have hfilter : ((r :: runs).map Prod.fst).filter (rejects t) =
          (if rejects t r.1 then [r.1] else []) ++ (runs.map Prod.fst).filter (rejects t) := by
        cases hr : rejects t r.1 <;> simp [hr]
      rw [List.flatMap_cons, List.map_append, hfilter, List.map_append, List.map_append]
      refine (hperm.append hperm').trans ?_
      rw [List.append_assoc, List.append_assoc]
      apply List.Perm.append_left
      rw [← List.append_assoc, ← List.append_assoc]
      exact List.perm_append_comm.append_right _

def base64Char (c : Char) : Bool := c.isAlphanum || c = '+' || c = '/' || c = '='

def IsBase64 (s : String) : Prop := s.toList.all base64Char = true

instance (s : String) : Decidable (IsBase64 s) := inferInstanceAs (Decidable (_ = true))

theorem suffix_cases (n : ParserName) : suffix n = "" ∨
    ∃ c rest, (suffix n).toList = '-' :: c :: rest ∧ c ≠ 'e' := by
  cases n with
  | callContract | messageExecuted | messageApproved | nativeGasRefunded => exact .inl rfl
  | _ => exact .inr ⟨_, _, rfl, by decide⟩

/-- The hash is what stands before the first dash. -/
theorem hash_of_id {hash : String} (h : IsBase64 hash) (n : ParserName) :
    (hash ++ suffix n).toList.takeWhile (· ≠ '-') = hash.toList := by
  have hdash : ∀ c ∈ hash.toList, decide (c ≠ '-') = true := by
    intro c hc
    have hchar := List.all_eq_true.mp h c hc
    rw [decide_eq_true_eq]
    rintro rfl
    exact absurd hchar (by decide)
  rw [String.toList_append, List.takeWhile_append_of_pos hdash]
  rcases suffix_cases n with hn | ⟨c, rest, hn, -⟩
  · simp [hn]
  · simp [hn]

theorem timeId_toList (trace : Trace) : ∃ rest,
    (timeId trace).toList = "cannot".toList ++ '-' :: 'e' :: rest := by
  have hdashes : "cannot-execute-task-v2-".toList =
      "cannot".toList ++ '-' :: 'e' :: "xecute-task-v2-".toList := by simp
  have happend : (timeId trace).toList =
      "cannot-execute-task-v2-".toList ++ (toString trace.endLt).toList := String.toList_append
  rw [happend, hdashes, List.append_assoc]
  exact ⟨_, rfl⟩

theorem timeId_ne_hashId {q : TxParser} {trace : Trace} (h : IsBase64 q.tx.hash) :
    hashId q ≠ timeId trace := by
  intro heq
  obtain ⟨rest, hrest⟩ := timeId_toList trace
  have hhash : "cannot".toList = q.tx.hash.toList := by
    rw [← hash_of_id h q.name, ← hashId, heq, hrest]
    simp
  have hsuffix : (suffix q.name).toList = '-' :: 'e' :: rest := by
    rw [← heq, hashId, String.toList_append, hhash] at hrest
    exact List.append_cancel_left hrest
  rcases suffix_cases q.name with hn | ⟨c, rest, hn, hc⟩
  · rw [hn] at hsuffix
    exact List.cons_ne_nil _ _ hsuffix.symm
  · rw [hn] at hsuffix
    exact hc (List.cons.inj (List.cons.inj hsuffix).2).1

theorem hashIds_nodup {qs : List TxParser} (h : (qs.map fun q => q.tx.hash).Nodup)
    (hbase64 : ∀ q ∈ qs, IsBase64 q.tx.hash) : (qs.map hashId).Nodup := by
  apply List.Nodup.of_map (fun id => String.ofList (id.toList.takeWhile (· ≠ '-')))
  rw [List.map_map]
  convert h using 1
  apply List.map_congr_left
  intro q hq
  rw [Function.comp, hashId, hash_of_id (hbase64 q hq), String.ofList_toList]

theorem timeIds_nodup_iff (traces : List Trace) :
    (traces.map timeId).Nodup ↔ (traces.map (·.endLt)).Nodup := by
  have hinjective : Function.Injective
      fun endLt : ℤ => "cannot-execute-task-v2-" ++ toString endLt := by
    intro a b hab
    have hlists := congrArg String.toList hab
    rw [String.toList_append, String.toList_append] at hlists
    exact Int.repr_injective (String.toList_injective (List.append_cancel_left hlists))
  rw [← List.nodup_map_iff hinjective, List.map_map]
  rfl

/-- The ids of all events are distinct exactly when the traces that the insufficient-gas parser
matches end at different logical times. -/
theorem event_ids_unique_iff (hruns : ∀ r ∈ runs, parseTrace t r.1 = .ok r.2)
    (hhashes : ((runs.flatMap fun r => r.1.transactions).map (·.hash)).Nodup)
    (hbase64 : ∀ tx ∈ runs.flatMap fun r => r.1.transactions, IsBase64 tx.hash) :
    ((runs.flatMap fun r => r.2).map eventId).Nodup ↔
      (((runs.map Prod.fst).filter (rejects t)).map (·.endLt)).Nodup := by
  obtain ⟨qs, hsub, hperm⟩ := runs_ids_perm hruns
  have hqs : ∀ q ∈ qs, IsBase64 q.tx.hash := by
    intro q hq
    exact hbase64 _ (hsub.subset (List.mem_map_of_mem hq))
  have hnodup : (qs.map hashId).Nodup := by
    apply hashIds_nodup ?_ hqs
    obtain ⟨txs, htxs, hsublist⟩ := hsub
    have hmap := (htxs.map (·.hash)).nodup_iff.mp (hhashes.sublist (hsublist.map _))
    rw [List.map_map] at hmap
    exact hmap
  rw [hperm.nodup_iff, List.nodup_append, ← timeIds_nodup_iff]
  constructor
  · rintro ⟨-, htimes, -⟩
    exact htimes
  · intro htimes
    refine ⟨hnodup, htimes, ?_⟩
    intro id hid id' hid' heq
    obtain ⟨q, hq, rfl⟩ := List.mem_map.mp hid
    obtain ⟨trace, -, rfl⟩ := List.mem_map.mp hid'
    exact timeId_ne_hashId (hqs q hq) heq

/-- The rejected trace under another id and with other hashes, ending at this time. -/
def rejectedAgain (endLt : ℤ) : Trace :=
  { rejectedTrace wrappedBody with
    endLt, traceId := "again"
    transactions := (rejectedTrace wrappedBody).transactions.map fun tx =>
      { tx with hash := "Z" ++ String.ofList tx.hash.toList.tail } }

def rejectedRuns (endLt : ℤ) : List (Trace × List Event) :=
  [rejectedTrace wrappedBody, rejectedAgain endLt].map fun trace => (trace, eventsOf trace)

theorem rejectedRuns_ok {endLt : ℤ}
    (h : (parseTrace sampleParser (rejectedAgain endLt)).isOk = true) :
    ∀ r ∈ rejectedRuns endLt, parseTrace sampleParser r.1 = .ok r.2 := by
  intro r hr
  obtain ⟨trace, htrace, rfl⟩ := List.mem_map.mp hr
  apply parseTrace_eventsOf
  rcases List.mem_cons.mp htrace with rfl | htrace
  · decide +kernel
  · rw [List.mem_singleton.mp htrace]
    exact h

theorem event_ids_unique_rejected_traces :
    ((rejectedRuns 3).flatMap fun r => r.2).map eventId =
      ["cannot-execute-task-v2-2", "cannot-execute-task-v2-3"] ∧
    (((rejectedRuns 3).flatMap fun r => r.2).map eventId).Nodup := by
  obtain ⟨hok, hids, hends, hhashes, hbase64⟩ :
      (parseTrace sampleParser (rejectedAgain 3)).isOk = true ∧
      ((rejectedRuns 3).flatMap fun r => r.2).map eventId =
        ["cannot-execute-task-v2-2", "cannot-execute-task-v2-3"] ∧
      ((((rejectedRuns 3).map Prod.fst).filter (rejects sampleParser)).map (·.endLt)).Nodup ∧
      (((rejectedRuns 3).flatMap fun r => r.1.transactions).map (·.hash)).Nodup ∧
      ∀ tx ∈ (rejectedRuns 3).flatMap fun r => r.1.transactions, IsBase64 tx.hash := by
    decide +kernel
  exact ⟨hids, (event_ids_unique_iff (rejectedRuns_ok hok) hhashes hbase64).mpr hends⟩

/-- Two traces end at the same logical time and both were rejected for lack of gas. -/
theorem rejected_traces_share_event_id :
    (rejectedTrace wrappedBody).traceId ≠ (rejectedAgain 2).traceId ∧
    (∀ r ∈ rejectedRuns 2, parseTrace sampleParser r.1 = .ok r.2) ∧
    (((rejectedRuns 2).flatMap fun r => r.1.transactions).map (·.hash)).Nodup ∧
    (∀ tx ∈ (rejectedRuns 2).flatMap fun r => r.1.transactions, IsBase64 tx.hash) ∧
    ¬ (((rejectedRuns 2).flatMap fun r => r.2).map eventId).Nodup := by
  obtain ⟨hok, hhashes, hbase64, hshared⟩ :
      (parseTrace sampleParser (rejectedAgain 2)).isOk = true ∧
      (((rejectedRuns 2).flatMap fun r => r.1.transactions).map (·.hash)).Nodup ∧
      (∀ tx ∈ (rejectedRuns 2).flatMap fun r => r.1.transactions, IsBase64 tx.hash) ∧
      ¬ (((rejectedRuns 2).flatMap fun r => r.2).map eventId).Nodup := by decide +kernel
  exact ⟨by decide, rejectedRuns_ok hok, hhashes, hbase64, hshared⟩

end ManyTraces

end EventIds
