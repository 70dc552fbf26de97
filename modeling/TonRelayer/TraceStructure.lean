import TonRelayer.EventLinking
import TonRelayer.ReadableTraces

/-! The shape of a parsed trace.
First the calls, each with the credit it is paid by, then the ITS events with the ids of the
first calls, then the trace-level event and the rest, all in the order of the transactions. A
transaction stands behind at most one of them. -/
namespace TraceStructure

open ExceptRules Cells ByteEncodings RelayerExecute MessageDecoders Types GasCalculator
open TransactionParsers TraceParsing TraceEvents EventAuthenticity EventLinking
open ReadableTraces

variable {D : Type} {t : TraceParser D} {trace : Trace} {c start : Containers}
variable {calls its qs : List TxParser} {m : GasCreditMap} {out tagged : List (AnyParser × Event)}

section Layouts

/-- The parser, the kind and the message id of an event. -/
abbrev Summary := AnyParser × EventKind × String

def txParser : AnyParser → Option TxParser
  | .transaction q => some q
  | .executeInsufficientGas _ => none

structure CallGroup where
  call : Summary
  credit : Option Summary

def CallGroup.events (g : CallGroup) : List Summary := g.call :: g.credit.toList

def CallGroup.payment (g : CallGroup) : Option TxParser := g.credit.bind fun s => txParser s.1

/-- The event of the call, and a credit from a payment with its key that carries its id. -/
structure GroupOf (t : TraceParser D) (cc : TxParser) (g : CallGroup) : Prop where
  call : ∃ id, cc.messageId t.lib = .ok (some id) ∧ g.call = (.transaction cc, .call, id)
  credit : ∀ s ∈ g.credit, ∃ q k, s = (.transaction q, .gasCredit, g.call.2.2) ∧
    container q.name = .credits ∧ q.key = .ok k ∧ cc.key = .ok k

/-- An event of this parser, of the kind it makes. -/
def EventOf (q : TxParser) (s : Summary) : Prop := s.1 = .transaction q ∧ s.2.1 = kindOf q.name

structure Layout where
  groups : List CallGroup
  its : List Summary
  cannotExecute : Option Summary
  others : List Summary

def Layout.events (l : Layout) : List Summary :=
  l.groups.flatMap CallGroup.events ++ l.its ++ l.cannotExecute.toList ++ l.others

/-- The parts follow the parsers that the loop over the transactions found. -/
structure Layout.Follows (t : TraceParser D) (qs : List TxParser) (l : Layout) : Prop where
  calls : List.Forall₂ (GroupOf t) (only .calls qs) l.groups
  its : List.Forall₂ EventOf (only .its qs) l.its
  itsIds : l.its.map (·.2.2) = (l.groups.take l.its.length).map (·.call.2.2)
  cannotExecute : ∀ s ∈ l.cannotExecute, txParser s.1 = none ∧ s.2.1 = .cannotExecuteMessageV2
  others : List.Forall₂ EventOf (only .parsers qs) l.others

end Layouts

section Groups

/-- The rounds of the loop over the calls, as groups; no two credits are for one key. -/
theorem linkCalls_groups (hm : Payments m) (hc : ∀ cc ∈ calls, container cc.name = .calls)
    (h : linkCalls t calls m = .ok out) :
    ∃ groups, out.map summary = groups.flatMap CallGroup.events ∧
      List.Forall₂ (GroupOf t) calls groups ∧
      (groups.filterMap CallGroup.payment).Pairwise (fun p q => p.key ≠ q.key) ∧
      ∀ q ∈ groups.filterMap CallGroup.payment, ∃ k, m.lookup k = some q := by
  induction calls generalizing m out with
  | nil =>
    cases h
    exact ⟨[], rfl, .nil, .nil, by simp⟩
  | cons cc calls ih =>
    have hcc : container cc.name = .calls := hc cc List.mem_cons_self
    have hcalls : ∀ cc ∈ calls, container cc.name = .calls := by
      intro cc hcc
      exact hc cc (List.mem_cons_of_mem _ hcc)
    obtain ⟨k, call, hk, hcall, hout⟩ := linkCalls_cons h
    have hkind : kind call = .call := (event_kind hcall).trans ((kindOf_call _).mpr hcc)
    have hid : cc.messageId t.lib = .ok (some (messageId call)) := call_messageId hcc hcall
    rcases hout with ⟨-, rest, hrest, rfl⟩ | ⟨q, id, credit, rest, hq, hid', hcredit, hrest, rfl⟩
    · obtain ⟨groups, hgroups, hof, hkeys, hpaid⟩ := ih hm hcalls hrest
      refine ⟨⟨(.transaction cc, .call, messageId call), none⟩ :: groups, ?_, ?_, hkeys, hpaid⟩
      · simp [summary, hkind, hgroups, CallGroup.events]
      · exact .cons ⟨⟨_, hid, rfl⟩, by simp⟩ hof
    · obtain ⟨groups, hgroups, hof, hkeys, hpaid⟩ := ih (payments_erase hm k) hcalls hrest
      obtain ⟨hcontainer, hkey⟩ := hm k q hq
      obtain ⟨hlinked, hcreditKind⟩ := linked_event (linked_credits hcontainer) hcredit
      have hsame : messageId credit = messageId call := by
        rw [hid] at hid'
        cases hid'
        exact (Option.some.inj hlinked).symm
      have hgas : kind credit = .gasCredit := hcreditKind.trans (kindOf_credit _ hcontainer)
      -- What is paid later was looked up after the key was taken out.
      have hlater : ∀ p ∈ groups.filterMap CallGroup.payment,
          ∃ k', k' ≠ k ∧ m.lookup k' = some p := by
        intro p hp
        obtain ⟨k', hk'⟩ := hpaid p hp
        exact ⟨k', lookup_erase_some hk'⟩
      refine ⟨⟨(.transaction cc, .call, messageId call),
        some (.transaction q, .gasCredit, messageId call)⟩ :: groups, ?_, ?_, ?_, ?_⟩
      · simp [summary, hkind, hgas, hsame, hgroups, CallGroup.events]
      · refine .cons ⟨⟨_, hid, rfl⟩, ?_⟩ hof
        intro s hs
        cases hs
        exact ⟨q, k, rfl, hcontainer, hkey, hk⟩
      · refine List.pairwise_cons.mpr ⟨?_, hkeys⟩
        intro p hp hpq
        obtain ⟨k', hne, hk'⟩ := hlater p hp
        rw [hkey, (hm k' p hk').2] at hpq
        cases hpq
        exact hne rfl
      · intro p hp
        rcases List.mem_cons.mp hp with rfl | hp
        · exact ⟨k, hq⟩
        · obtain ⟨k', -, hk'⟩ := hlater p hp
          exact ⟨k', hk'⟩

theorem linkIts_events {i : ℕ} (h : linkIts t i its calls = .ok out) :
    List.Forall₂ EventOf its (out.map summary) := by
  induction its generalizing i calls out with
  | nil =>
    rw [linkIts] at h
    cases h
    exact .nil
  | cons q its ih =>
    obtain ⟨cc, rest, mid, e, out', rfl, -, he, hout, rfl⟩ := linkIts_cons h
    exact .cons ⟨rfl, event_kind he⟩ (ih hout)

theorem groupOf_ids {groups : List CallGroup} (h : List.Forall₂ (GroupOf t) calls groups) :
    calls.map (TxParser.messageId t.lib) = groups.map fun g => .ok (some g.call.2.2) := by
  induction h with
  | nil => rfl
  | cons hg _ ih =>
    obtain ⟨id, hid, hcall⟩ := hg.call
    rw [List.map_cons, List.map_cons, ih, hid, hcall]

/-- The parsers of the first container are those from before the loop. -/
theorem parsers_events {others : List (AnyParser × Event)}
    (hstart : startContainers t trace = .ok start) (hs : Sorted start qs c)
    (h : List.Forall₂ (fun p pe => pe.1 = p ∧ p.event t = .ok pe.2) c.parsers others) :
    ∃ (cannot : Option Summary) (rest : List Summary),
      others.map summary = cannot.toList ++ rest ∧
      (∀ s ∈ cannot, txParser s.1 = none ∧ s.2.1 = .cannotExecuteMessageV2) ∧
      List.Forall₂ EventOf (only .parsers qs) rest := by
  rw [hs.parsers] at h
  have hrest {rest : List (AnyParser × Event)} (hrest : List.Forall₂
      (fun p pe => pe.1 = p ∧ p.event t = .ok pe.2)
      ((only .parsers qs).map AnyParser.transaction) rest) :
      List.Forall₂ EventOf (only .parsers qs) (rest.map summary) := by
    rw [List.forall₂_map_left_iff] at hrest
    rw [List.forall₂_map_right_iff]
    apply hrest.imp
    rintro q pe ⟨htag, hevent⟩
    exact ⟨htag, event_kind hevent⟩
  rcases startContainers_cases hstart with ⟨-, rfl⟩ | ⟨-, p, -, rfl⟩
  · exact ⟨none, others.map summary, rfl, by simp, hrest h⟩
  · rw [List.singleton_append, List.forall₂_cons_left_iff] at h
    obtain ⟨pe, rest, ⟨htag, hevent⟩, h, rfl⟩ := h
    refine ⟨some (summary pe), rest.map summary, rfl, ?_, hrest h⟩
    intro s hs
    cases hs
    rw [summary, htag]
    exact ⟨rfl, insufficientGas_kind hevent⟩

end Groups

section Assembly

/-- The payments behind the credits, none of them twice. -/
theorem linkEvents_layout (hstart : startContainers t trace = .ok start)
    (hs : Sorted start qs c) (h : linkEvents t c = .ok out) :
    ∃ l : Layout, out.map summary = l.events ∧ l.Follows t qs ∧
      (l.groups.filterMap CallGroup.payment).Subperm (only .credits qs) := by
  obtain ⟨called, linked, others, hcalled, hlinked, hothers, rfl⟩ := linkEvents_ok h
  obtain ⟨groups, hgroups, hof, hkeys, hpaid⟩ :=
    linkCalls_groups (payments_sorted hs) (sorted_calls hs) hcalled
  obtain ⟨cannot, rest, hrest, hcannot, hparsers⟩ := parsers_events hstart hs hothers
  obtain ⟨-, hlength, hids⟩ := linkIts_ids (sorted_its hs) hlinked
  refine ⟨⟨groups, linked.map summary, cannot, rest⟩, ?_, ?_, ?_⟩
  · simp [Layout.events, hgroups, hrest]
  · refine ⟨hs.calls ▸ hof, ?_, ?_, hcannot, hparsers⟩
    · rw [← hs.its]
      exact linkIts_events hlinked
    · have hsome : Function.Injective
          fun id : String => (.ok (some id) : Outcome (Option String)) := by
        intro a b hab
        cases hab
        rfl
      apply List.map_injective_iff.mpr hsome
      dsimp only
      rw [List.length_map, hlength, List.map_map, List.map_map, List.map_map, List.map_take]
      rw [List.map_take, groupOf_ids hof] at hids
      exact hids.symm
  · apply List.Nodup.subperm
    · exact hkeys.imp fun hne heq => hne (congrArg TxParser.key heq)
    · intro q hq
      obtain ⟨k, hk⟩ := hpaid q hq
      exact (hs.paid k q hk).1

theorem only_cons (a : Container) (q : TxParser) (qs : List TxParser) :
    only a (q :: qs) = if container q.name = a then q :: only a qs else only a qs := by
  by_cases h : container q.name = a <;> simp [only, h]

/-- Every parser is in one container. -/
theorem only_perm (qs : List TxParser) :
    (only .calls qs ++ only .credits qs ++ only .its qs ++ only .parsers qs).Perm qs := by
  induction qs with
  | nil => exact .nil
  | cons q qs ih =>
    have hq : (q :: (only .calls qs ++ only .credits qs ++ only .its qs ++ only .parsers qs)).Perm
        (q :: qs) := ih.cons q
    refine .trans ?_ hq
    simp only [only_cons]
    cases container q.name with
    | calls => simp
    | credits => simp
    | its =>
      have hits : ((only .calls qs ++ only .credits qs) ++
          q :: (only .its qs ++ only .parsers qs)).Perm
          (q :: ((only .calls qs ++ only .credits qs) ++ (only .its qs ++ only .parsers qs))) :=
        List.perm_middle
      simpa using hits
    | parsers =>
      have hparsers : ((only .calls qs ++ only .credits qs ++ only .its qs) ++
          q :: only .parsers qs).Perm
          (q :: ((only .calls qs ++ only .credits qs ++ only .its qs) ++ only .parsers qs)) :=
        List.perm_middle
      simpa using hparsers

def parsersOf (events : List Summary) : List TxParser := events.filterMap fun s => txParser s.1

theorem parsersOf_eventOf {events : List Summary} (h : List.Forall₂ EventOf qs events) :
    parsersOf events = qs := by
  induction h with
  | nil => rfl
  | cons hs _ ih =>
    rw [parsersOf, List.filterMap_cons, hs.1, txParser, ← parsersOf, ih]

theorem parsersOf_groups {groups : List CallGroup} (h : List.Forall₂ (GroupOf t) calls groups) :
    (parsersOf (groups.flatMap CallGroup.events)).Perm
      (calls ++ groups.filterMap CallGroup.payment) := by
  induction h with
  | nil => exact .nil
  | @cons cc g calls groups hg _ ih =>
    obtain ⟨id, -, hcall⟩ := hg.call
    have hsplit : parsersOf ((g :: groups).flatMap CallGroup.events) =
        cc :: (g.payment.toList ++ parsersOf (groups.flatMap CallGroup.events)) := by
      rw [parsersOf, List.flatMap_cons, CallGroup.events, List.cons_append, List.filterMap_cons,
        hcall, txParser, List.filterMap_append]
      cases hcredit : g.credit with
      | none => simp [CallGroup.payment, hcredit, parsersOf]
      | some s =>
        cases hs : txParser s.1 <;> simp [CallGroup.payment, hcredit, parsersOf, hs]
    rw [hsplit, List.cons_append]
    apply List.Perm.cons
    cases hpayment : g.payment with
    | none => simpa [hpayment] using ih
    | some q =>
      rw [List.filterMap_cons, hpayment]
      exact (ih.cons q).trans List.perm_middle.symm

/-- No parser stands behind two events. -/
theorem parsersOf_layout {l : Layout} (hl : l.Follows t qs)
    (hpaid : (l.groups.filterMap CallGroup.payment).Subperm (only .credits qs)) :
    (parsersOf l.events).Subperm qs := by
  have hcannot : parsersOf l.cannotExecute.toList = [] := by
    cases hs : l.cannotExecute with
    | none => rfl
    | some s => simp [parsersOf, (hl.cannotExecute s hs).1]
  have hsplit : parsersOf l.events = parsersOf (l.groups.flatMap CallGroup.events) ++
      only .its qs ++ only .parsers qs := by
    rw [Layout.events, parsersOf, List.filterMap_append, List.filterMap_append,
      List.filterMap_append, ← parsersOf, ← parsersOf, ← parsersOf, ← parsersOf, hcannot,
      parsersOf_eventOf hl.its, parsersOf_eventOf hl.others, List.append_nil]
  rw [hsplit]
  refine .trans ?_ (only_perm qs).subperm
  rw [List.subperm_append_right, List.subperm_append_right]
  exact (parsersOf_groups hl.calls).subperm.trans ((List.subperm_append_left _).mpr hpaid)

theorem classified_tx (t : TraceParser D) (txs : List Transaction) :
    ((classified t txs).map TxParser.tx).Sublist txs := by
  induction txs with
  | nil => exact .slnil
  | cons tx txs ih =>
    rw [classified, List.filterMap_cons, ← classified]
    cases hq : (createTxParser t tx).toOption.join with
    | none => exact ih.cons tx
    | some q =>
      have hmem : q ∈ classified t [tx] := by simp [classified, hq]
      obtain ⟨tx', htx', hok⟩ := mem_classified.mp hmem
      rw [List.mem_singleton.mp htx'] at hok
      rw [List.map_cons, (firstMatch_ok hok).1]
      exact ih.cons_cons tx

/-- The events of a trace in their order, and the transactions behind them. -/
theorem parseTraceTagged_layout (h : parseTraceTagged t trace = .ok tagged) :
    ((parsersOf (tagged.map summary)).map TxParser.tx).Subperm trace.transactions ∧
      ∃ l : Layout, tagged.map summary = l.events ∧
        l.Follows t (classified t trace.transactions) := by
  obtain ⟨start, c, out, hstart, hs, hout, hsummary⟩ := parseTraceTagged_assembled h
  obtain ⟨l, hevents, hfollows, hpaid⟩ := linkEvents_layout hstart hs hout
  rw [← hsummary]
  refine ⟨?_, l, hevents, hfollows⟩
  rw [hevents]
  obtain ⟨qs, hperm, hsub⟩ := parsersOf_layout hfollows hpaid
  have hmap : ((parsersOf l.events).map TxParser.tx).Subperm
      ((classified t trace.transactions).map TxParser.tx) := ⟨_, hperm.map _, hsub.map _⟩
  exact hmap.trans (classified_tx t _).subperm

/-- The events of a parsed trace are laid out as the containers are drained, and no transaction
stands behind two of them; a readable trace lacks a pair exactly when it has more ITS logs than
calls. -/
theorem parse_trace_structure (t : TraceParser D) (trace : Trace) :
    (∀ events, parseTrace t trace = .ok events →
      ∃ tagged, parseTraceTagged t trace = .ok tagged ∧ events = tagged.map Prod.snd ∧
        ((parsersOf (tagged.map summary)).map TxParser.tx).Subperm trace.transactions ∧
        ∃ l : Layout, tagged.map summary = l.events ∧
          l.Follows t (classified t trace.transactions)) ∧
    (LogsDecode t trace → HashesDecode t trace →
      ((∃ text, parseTrace t trace = .error (.err (.itsWithoutPair text))) ↔
        (only .calls (classified t trace.transactions)).length <
          (only .its (classified t trace.transactions)).length)) := by
  constructor
  · intro events hevents
    obtain ⟨tagged, htagged, rfl⟩ := parseTrace_ok hevents
    exact ⟨tagged, htagged, rfl, parseTraceTagged_layout htagged⟩
  · intro hlogs hhashes
    exact parseTrace_unpaired_iff hlogs hhashes

/-- A payment, a user's call, an ITS log and the call it belongs to. -/
def paidRegistration : Trace :=
  sampleTrace [logTransaction 2 1 opPayGas paidBody, logTransaction 1 2 opCallContract userCallBody,
    logTransaction 3 3 opRegisterTokenMetadata metadataBody,
    logTransaction 1 4 opCallContract itsCallBody]

/-- The ITS log alone. -/
def unpairedRegistration : Trace :=
  sampleTrace [logTransaction 3 3 opRegisterTokenMetadata metadataBody]

theorem parse_trace_structure_registration :
    (∃ (tagged : List (AnyParser × Event)) (l : Layout),
      parseTraceTagged sampleParser paidRegistration = .ok tagged ∧
      tagged.map summary = l.events ∧
      l.Follows sampleParser (classified sampleParser paidRegistration.transactions) ∧
      l.events.map (fun s => s.2.1) =
        [.call, .gasCredit, .call, .itsTokenMetadataRegistered]) ∧
    ∃ text, parseTrace sampleParser unpairedRegistration =
      .error (.err (.itsWithoutPair text)) := by
  constructor
  · obtain ⟨hok, hkinds⟩ : (parseTrace sampleParser paidRegistration).isOk = true ∧
        (eventsOf paidRegistration).map kind =
          [.call, .gasCredit, .call, .itsTokenMetadataRegistered] := by decide +kernel
    have hparse := parseTrace_eventsOf paidRegistration hok
    obtain ⟨tagged, htagged, hevents, -, l, hl, hfollows⟩ :=
      (parse_trace_structure sampleParser paidRegistration).1 _ hparse
    refine ⟨tagged, l, htagged, hl, hfollows, ?_⟩
    rw [← hl, List.map_map, ← hkinds, hevents, List.map_map]
    rfl
  · obtain ⟨hunpaired, hstart, hlog, hhash⟩ :
        (only .calls (classified sampleParser unpairedRegistration.transactions)).length <
          (only .its (classified sampleParser unpairedRegistration.transactions)).length ∧
        (startContainers sampleParser unpairedRegistration).isOk = true ∧
        (∀ tx ∈ unpairedRegistration.transactions,
          (createTxParser sampleParser tx).isOk = true) ∧
        ∀ tx ∈ unpairedRegistration.transactions,
          (sampleParser.lib.base64Decode tx.hash).isOk = true := by decide +kernel
    apply ((parse_trace_structure sampleParser unpairedRegistration).2 ?_ ?_).mpr
    · exact hunpaired
    · constructor
      · exact exists_ok hstart
      · intro tx htx
        exact exists_ok (hlog tx htx)
    · intro tx htx
      exact exists_ok (hhash tx htx)

end Assembly

end TraceStructure
