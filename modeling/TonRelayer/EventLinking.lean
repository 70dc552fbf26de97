import TonRelayer.EventAuthenticity
import Mathlib.Data.List.Perm.Subperm

/-! Which message id a gas payment or an ITS log ends up with.
Payments wait in a map that holds one of them for each key; ITS logs go by position, the first
to the first call of the trace, whoever made it. -/
namespace EventLinking

open ExceptRules Cells ByteEncodings RelayerExecute MessageDecoders Types GasCalculator
open TransactionParsers TraceParsing TraceEvents EventAuthenticity

variable {D : Type} {t : TraceParser D} {trace : Trace} {c start : Containers}
variable {calls its qs : List TxParser} {m : GasCreditMap} {out tagged : List (AnyParser × Event)}

section Tags

def tagContainer : AnyParser → Container
  | .transaction q => container q.name
  | .executeInsufficientGas _ => .parsers

/-- The events whose parser was in this container. -/
def inside (a : Container) (out : List (AnyParser × Event)) : List (AnyParser × Event) :=
  out.filter fun pe => tagContainer pe.1 = a

theorem inside_append (a : Container) (l r : List (AnyParser × Event)) :
    inside a (l ++ r) = inside a l ++ inside a r := List.filter_append ..

theorem inside_cons (a : Container) (q : TxParser) (e : Event) (l : List (AnyParser × Event)) :
    inside a ((.transaction q, e) :: l) =
      if container q.name = a then (.transaction q, e) :: inside a l else inside a l := by
  by_cases h : container q.name = a <;> simp [inside, tagContainer, h]

theorem inside_eq_nil {a : Container} (h : ∀ pe ∈ out, tagContainer pe.1 ≠ a) :
    inside a out = [] := by
  simpa [inside] using h

theorem inside_eq_self {a : Container} (h : ∀ pe ∈ out, tagContainer pe.1 = a) :
    inside a out = out := by
  simpa [inside] using h

theorem linked_its {n : ParserName} (h : container n = .its) : takesCallId n = true := by
  cases n <;> first | rfl | cases h

theorem linked_credits {n : ParserName} (h : container n = .credits) : takesCallId n = true := by
  cases n <;> first | rfl | cases h

/-- The map holds payments, each under its own key. -/
def Payments (m : GasCreditMap) : Prop :=
  ∀ k q, m.lookup k = some q → container q.name = .credits ∧ q.key = .ok k

theorem payments_erase (hm : Payments m) (k : MessageMatchingKey) : Payments (m.erase k) := by
  intro k' q hq
  exact hm k' q (lookup_erase_some hq).2

theorem payments_sorted (hs : Sorted start qs c) : Payments c.gasCreditMap := by
  intro k q hq
  obtain ⟨hmem, hkey⟩ := hs.paid k q hq
  exact ⟨(mem_only.mp hmem).2, hkey⟩

end Tags

section Calls

def eventId (pe : AnyParser × Event) : Outcome (Option String) := .ok (some (messageId pe.2))

theorem call_messageId {cc : TxParser} {e : Event} (hcc : container cc.name = .calls)
    (h : cc.event t none = .ok e) : cc.messageId t.lib = .ok (some (messageId e)) := by
  obtain ⟨n, p⟩ := cc
  cases n <;> cases hcc
  exact (call_event h).2

/-- The calls go through the loop one by one, each with its own event. -/
theorem linkCalls_ids (hm : Payments m) (hc : ∀ cc ∈ calls, container cc.name = .calls)
    (h : linkCalls t calls m = .ok out) :
    calls.map (TxParser.messageId t.lib) = (inside .calls out).map eventId := by
  induction calls generalizing m out with
  | nil =>
    cases h
    rfl
  | cons cc calls ih =>
    have hcc : container cc.name = .calls := hc cc List.mem_cons_self
    have hcalls : ∀ cc ∈ calls, container cc.name = .calls := by
      intro cc hcc
      exact hc cc (List.mem_cons_of_mem _ hcc)
    obtain ⟨k, call, -, hcall, hout⟩ := linkCalls_cons h
    rcases hout with ⟨-, rest, hrest, rfl⟩ | ⟨q, id, credit, rest, hq, -, -, hrest, rfl⟩
    · rw [inside_cons, if_pos hcc, List.map_cons, List.map_cons, ih hm hcalls hrest,
        call_messageId hcc hcall, eventId]
    · have hcredit : container q.name ≠ .calls := by
        rw [(hm k q hq).1]
        decide
      rw [inside_cons, if_pos hcc, inside_cons, if_neg hcredit, List.map_cons, List.map_cons,
        ih (payments_erase hm k) hcalls hrest, call_messageId hcc hcall, eventId]

def hasKey (k : MessageMatchingKey) (q : TxParser) : Bool := decide (q.key.toOption = some k)

theorem hasKey_iff {k : MessageMatchingKey} {q : TxParser} :
    hasKey k q = true ↔ q.key = .ok k := by
  rw [hasKey, decide_eq_true_eq]
  cases q.key <;> simp [Except.toOption]

def tagHasKey (k : MessageMatchingKey) : AnyParser → Bool
  | .transaction q => hasKey k q
  | .executeInsufficientGas _ => false

/-- The events made from the payments with this key. -/
def creditsFor (k : MessageMatchingKey) (out : List (AnyParser × Event)) :
    List (AnyParser × Event) :=
  (inside .credits out).filter fun pe => tagHasKey k pe.1

theorem creditsFor_cons (k : MessageMatchingKey) (q : TxParser) (e : Event) :
    creditsFor k ((.transaction q, e) :: out) =
      if container q.name = .credits ∧ q.key = .ok k then
        (.transaction q, e) :: creditsFor k out
      else creditsFor k out := by
  rw [creditsFor, inside_cons]
  by_cases hq : container q.name = .credits
  · by_cases hk : q.key = .ok k
    · simp [tagHasKey, hasKey_iff, hq, hk, creditsFor]
    · simp [tagHasKey, hasKey_iff, hq, hk, creditsFor]
  · simp [hq, creditsFor]

/-- The calls that get a credit: the first one with the key, if the map holds a payment. -/
def payers (k : MessageMatchingKey) (m : GasCreditMap) (calls : List TxParser) : List TxParser :=
  if k ∈ m then (calls.filter (hasKey k)).take 1 else []

theorem payers_absent {k : MessageMatchingKey} (h : m.lookup k = none) :
    payers k m calls = [] := if_neg (AList.lookup_eq_none.mp h)

theorem payers_cons_ne {k : MessageMatchingKey} {cc : TxParser} (h : cc.key ≠ .ok k) :
    payers k m (cc :: calls) = payers k m calls := by
  have hcc : ¬ hasKey k cc = true := fun hk => h (hasKey_iff.mp hk)
  rw [payers, List.filter_cons_of_neg hcc, ← payers]

theorem payers_cons_eq {k : MessageMatchingKey} {cc q : TxParser} (h : cc.key = .ok k)
    (hq : m.lookup k = some q) : payers k m (cc :: calls) = [cc] := by
  have hk : k ∈ m := AList.lookup_isSome.mp (by rw [hq]; rfl)
  rw [payers, if_pos hk, List.filter_cons_of_pos (hasKey_iff.mpr h), List.take_succ_cons,
    List.take_zero]

theorem payers_erase_ne {k k' : MessageMatchingKey} (h : k ≠ k') :
    payers k (m.erase k') calls = payers k m calls := by
  have hiff : k ∈ m.erase k' ↔ k ∈ m := by
    rw [AList.mem_erase]
    exact and_iff_right h
  simp only [payers, hiff]

/-- Each credit is made from the payment in the map, with the id of its call. -/
theorem linkCalls_credits (hm : Payments m) (hc : ∀ cc ∈ calls, container cc.name = .calls)
    (h : linkCalls t calls m = .ok out) (k : MessageMatchingKey) :
    List.Forall₂ (fun cc pe => ∃ q id, m.lookup k = some q ∧ pe.1 = .transaction q ∧
        cc.messageId t.lib = .ok (some id) ∧ q.event t (some id) = .ok pe.2)
      (payers k m calls) (creditsFor k out) := by
  induction calls generalizing m out with
  | nil =>
    cases h
    simp [payers, creditsFor, inside]
  | cons cc calls ih =>
    have hcc : ¬ (container cc.name = .credits ∧ cc.key = .ok k) := by
      rw [hc cc List.mem_cons_self]
      rintro ⟨h, -⟩
      cases h
    have hcalls : ∀ cc ∈ calls, container cc.name = .calls := by
      intro cc hcc
      exact hc cc (List.mem_cons_of_mem _ hcc)
    obtain ⟨k', call, hk', -, hout⟩ := linkCalls_cons h
    rcases hout with ⟨hnone, rest, hrest, rfl⟩ |
      ⟨q, id, credit, rest, hq, hid, hcredit, hrest, rfl⟩
    · rw [creditsFor_cons, if_neg hcc]
      have hih := ih hm hcalls hrest
      by_cases hkk : k = k'
      · subst hkk
        rw [payers_absent hnone] at hih ⊢
        exact hih
      · rw [payers_cons_ne (by rw [hk']; intro h; cases h; exact hkk rfl)]
        exact hih
    · rw [creditsFor_cons, if_neg hcc, creditsFor_cons]
      have hih := ih (payments_erase hm k') hcalls hrest
      obtain ⟨hqc, hqk⟩ := hm k' q hq
      by_cases hkk : k = k'
      · -- The payment is taken out of the map, so the rest makes no credit for this key.
        subst hkk
        rw [payers_absent (AList.lookup_erase ..)] at hih
        rw [payers_cons_eq hk' hq, if_pos ⟨hqc, hqk⟩, List.forall₂_nil_left_iff.mp hih]
        exact .cons ⟨q, id, hq, rfl, hid, hcredit⟩ .nil
      · have hne : ¬ (container q.name = .credits ∧ q.key = .ok k) := by
          rintro ⟨-, h⟩
          rw [hqk] at h
          cases h
          exact hkk rfl
        rw [payers_cons_ne (by rw [hk']; intro h; cases h; exact hkk rfl), if_neg hne]
        rw [payers_erase_ne hkk, AList.lookup_erase_ne hkk] at hih
        exact hih

end Calls

section Its

/-- The logs of the ITS contract take the ids of the first calls, in order. -/
theorem linkIts_ids {i : ℕ} (hi : ∀ q ∈ its, container q.name = .its)
    (h : linkIts t i its calls = .ok out) :
    (∀ pe ∈ out, tagContainer pe.1 = .its) ∧ out.length = its.length ∧
      (calls.take its.length).map (TxParser.messageId t.lib) =
        out.map eventId := by
  induction its generalizing i calls out with
  | nil =>
    rw [linkIts] at h
    cases h
    simp
  | cons q its ih =>
    have hq : container q.name = .its := hi q List.mem_cons_self
    obtain ⟨cc, rest, mid, e, out', rfl, hmid, he, hout, rfl⟩ := linkIts_cons h
    obtain ⟨htags, hlength, hids⟩ := ih (fun q hq => hi q (List.mem_cons_of_mem _ hq)) hout
    have hid : mid = some (messageId e) := (linked_event (linked_its hq) he).1
    refine ⟨?_, ?_, ?_⟩
    · intro pe hpe
      rcases List.mem_cons.mp hpe with rfl | hpe
      · exact hq
      · exact htags pe hpe
    · rw [List.length_cons, List.length_cons, hlength]
    · rw [List.length_cons, List.take_succ_cons, List.map_cons, List.map_cons, hids, hmid, hid,
        eventId]

end Its

section Assembly

/-- What the conversion of amounts leaves alone. -/
def summary (pe : AnyParser × Event) : AnyParser × EventKind × String :=
  (pe.1, kind pe.2, messageId pe.2)

theorem summary_filter {P : AnyParser → Bool} (h : out.map summary = tagged.map summary) :
    (out.filter fun pe => P pe.1).map summary = (tagged.filter fun pe => P pe.1).map summary := by
  have hfilter (l : List (AnyParser × Event)) :
      (l.filter fun pe => P pe.1).map summary = (l.map summary).filter fun s => P s.1 := by
    rw [List.filter_map]
    rfl
  rw [hfilter, hfilter, h]

theorem summary_inside (a : Container) (h : out.map summary = tagged.map summary) :
    (inside a out).map summary = (inside a tagged).map summary :=
  summary_filter (P := fun p => tagContainer p = a) h

theorem summary_creditsFor (k : MessageMatchingKey) (h : out.map summary = tagged.map summary) :
    (creditsFor k out).map summary = (creditsFor k tagged).map summary :=
  summary_filter (P := tagHasKey k) (summary_inside .credits h)

/-- The kind of the event and the container of its parser agree. -/
structure Fits (pe : AnyParser × Event) : Prop where
  call : kind pe.2 = .call ↔ tagContainer pe.1 = .calls
  its : (kind pe.2).contract = .its ↔ tagContainer pe.1 = .its
  credit : tagContainer pe.1 = .credits → kind pe.2 = .gasCredit

theorem kindOf_call (n : ParserName) : kindOf n = .call ↔ container n = .calls := by
  cases n <;> decide

theorem kindOf_its (n : ParserName) : (kindOf n).contract = .its ↔ container n = .its := by
  cases n <;> decide

theorem kindOf_credit (n : ParserName) : container n = .credits → kindOf n = .gasCredit := by
  cases n <;> decide

theorem fits_of_made {q : TxParser} {pe : AnyParser × Event} (h : MadeBy t q pe) : Fits pe := by
  obtain ⟨p, e⟩ := pe
  obtain ⟨rfl, mid, he⟩ := h
  have hkind : kind e = kindOf q.name := event_kind he
  constructor
  · rw [hkind]
    exact kindOf_call q.name
  · rw [hkind]
    exact kindOf_its q.name
  · rw [hkind]
    exact kindOf_credit q.name

theorem fits_of_insufficientGas {p : ParserExecuteInsufficientGas} {e : Event}
    (h : p.event = .ok e) : Fits (.executeInsufficientGas p, e) := by
  constructor <;> simp [insufficientGas_kind h, tagContainer, EventKind.contract]

theorem start_parsers (h : startContainers t trace = .ok start) {p : AnyParser}
    (hp : p ∈ start.parsers) : ∃ p', p = .executeInsufficientGas p' := by
  rcases startContainers_cases h with ⟨-, rfl⟩ | ⟨-, p', -, rfl⟩
  · cases hp
  · exact ⟨p', List.mem_singleton.mp hp⟩

theorem linkEvents_fits (hstart : startContainers t trace = .ok start) (hs : Sorted start qs c)
    (h : linkEvents t c = .ok out) : ∀ pe ∈ out, Fits pe := by
  intro pe hpe
  rcases linkEvents_made hs h pe hpe with ⟨q, -, hmade⟩ | ⟨hp, hevent⟩
  · exact fits_of_made hmade
  · obtain ⟨p, e⟩ := pe
    obtain ⟨p', rfl⟩ := start_parsers hstart hp
    exact fits_of_insufficientGas hevent

theorem linkCalls_tags (hs : Sorted start qs c)
    (h : linkCalls t c.callContract c.gasCreditMap = .ok out) :
    ∀ pe ∈ out, tagContainer pe.1 ≠ .its := by
  intro pe hpe
  obtain ⟨q, ⟨htag, -⟩, hq⟩ := linkCalls_made h pe hpe
  rw [htag, tagContainer]
  rcases hq with hq | ⟨k, hk⟩
  · rw [sorted_calls hs q hq]
    decide
  · rw [(payments_sorted hs k q hk).1]
    decide

theorem parsers_tags (hstart : startContainers t trace = .ok start) (hs : Sorted start qs c) :
    ∀ p ∈ c.parsers, tagContainer p = .parsers := by
  intro p hp
  rw [hs.parsers, List.mem_append, List.mem_map] at hp
  rcases hp with hp | ⟨q, hq, rfl⟩
  · obtain ⟨p', rfl⟩ := start_parsers hstart hp
    rfl
  · exact (mem_only.mp hq).2

/-- The containers of the events follow each other. -/
theorem linkEvents_inside (hstart : startContainers t trace = .ok start)
    (hs : Sorted start qs c) (h : linkEvents t c = .ok out) :
    ∃ called linked, linkCalls t c.callContract c.gasCreditMap = .ok called ∧
      linkIts t 0 c.its c.callContract = .ok linked ∧
      inside .calls out = inside .calls called ∧ inside .credits out = inside .credits called ∧
      inside .its out = linked := by
  obtain ⟨called, linked, others, hcalled, hlinked, hothers, rfl⟩ := linkEvents_ok h
  have hlinkedTags := (linkIts_ids (sorted_its hs) hlinked).1
  have hlinkedOther (a : Container) (ha : a ≠ .its) : inside a linked = [] := by
    apply inside_eq_nil
    intro pe hpe
    rw [hlinkedTags pe hpe]
    exact ha.symm
  have hothersOther (a : Container) (ha : a ≠ .parsers) : inside a others = [] := by
    apply inside_eq_nil
    intro pe hpe
    obtain ⟨p, hp, htag, -⟩ := forall₂_mem_right hothers pe hpe
    rw [htag, parsers_tags hstart hs p hp]
    exact ha.symm
  refine ⟨called, linked, hcalled, hlinked, ?_, ?_, ?_⟩
  · rw [inside_append, inside_append, hlinkedOther _ (by decide), hothersOther _ (by decide),
      List.append_nil, List.append_nil]
  · rw [inside_append, inside_append, hlinkedOther _ (by decide), hothersOther _ (by decide),
      List.append_nil, List.append_nil]
  · rw [inside_append, inside_append, inside_eq_nil (linkCalls_tags hs hcalled),
      inside_eq_self hlinkedTags, hothersOther _ (by decide), List.append_nil, List.nil_append]

/-- The containers, the events in them and the events of the trace. -/
theorem parseTraceTagged_assembled (h : parseTraceTagged t trace = .ok tagged) :
    ∃ start c out, startContainers t trace = .ok start ∧
      Sorted start (classified t trace.transactions) c ∧ linkEvents t c = .ok out ∧
      out.map summary = tagged.map summary := by
  obtain ⟨total, refund, c, out, -, hc, hout, hconv⟩ := parseTraceTagged_ok h
  obtain ⟨start, hstart, hs⟩ := createParsers_sorted hc
  refine ⟨start, c, out, hstart, hs, hout, ?_⟩
  rw [← List.forall₂_eq_eq_eq, List.forall₂_map_left_iff, List.forall₂_map_right_iff]
  apply hconv.imp
  intro pe pe' hpe
  obtain ⟨htag, hconvert⟩ := hpe
  obtain ⟨hkind, hid⟩ := convertEvent_keeps hconvert
  rw [summary, summary, htag, hkind, hid]

theorem fits_of_summary (hfits : ∀ pe ∈ out, Fits pe) (h : out.map summary = tagged.map summary) :
    ∀ pe ∈ tagged, Fits pe := by
  intro pe hpe
  have hmem : summary pe ∈ out.map summary := by
    rw [h]
    exact List.mem_map_of_mem hpe
  obtain ⟨pe', hpe', hsummary⟩ := List.mem_map.mp hmem
  obtain ⟨htag, hkind, -⟩ : pe'.1 = pe.1 ∧ kind pe'.2 = kind pe.2 ∧
      messageId pe'.2 = messageId pe.2 := by simpa [summary] using hsummary
  obtain ⟨hcall, hits, hcredit⟩ := hfits pe' hpe'
  rw [htag, hkind] at hcall hits hcredit
  exact ⟨hcall, hits, hcredit⟩

end Assembly

section GasCredits

def callsFor (t : TraceParser D) (trace : Trace) (k : MessageMatchingKey) : List TxParser :=
  (only .calls (classified t trace.transactions)).filter (hasKey k)

def paymentsFor (t : TraceParser D) (trace : Trace) (k : MessageMatchingKey) : List TxParser :=
  (only .credits (classified t trace.transactions)).filter (hasKey k)

/-- With this key, every payment that has a call to pay for becomes a credit, and the credits
carry the ids of different calls. -/
structure Conserved (t : TraceParser D) (trace : Trace) (tagged : List (AnyParser × Event))
    (k : MessageMatchingKey) : Prop where
  count : (creditsFor k tagged).length =
    min (callsFor t trace k).length (paymentsFor t trace k).length
  source : ∀ pe ∈ creditsFor k tagged, kind pe.2 = .gasCredit ∧
    ∃ q ∈ paymentsFor t trace k, pe.1 = .transaction q
  ids : ∃ paid : List TxParser, paid.Subperm (callsFor t trace k) ∧
    paid.map (TxParser.messageId t.lib) = (creditsFor k tagged).map eventId

theorem ids_eq_map {l r : List (AnyParser × Event)} (h : l.map summary = r.map summary) :
    l.map eventId = r.map eventId := by
  have hids (l : List (AnyParser × Event)) :
      l.map eventId = (l.map summary).map fun s => .ok (some s.2.2) := by
    rw [List.map_map]
    rfl
  rw [hids, hids, h]

/-- The map has a payment under the key exactly when the trace has one. -/
theorem mem_gasCreditMap (hs : Sorted start (classified t trace.transactions) c)
    (k : MessageMatchingKey) : k ∈ c.gasCreditMap ↔ paymentsFor t trace k ≠ [] := by
  constructor
  · intro hk
    obtain ⟨q, hq⟩ := Option.isSome_iff_exists.mp (AList.lookup_isSome.mpr hk)
    obtain ⟨hmem, hkey⟩ := hs.paid k q hq
    exact List.ne_nil_of_mem (List.mem_filter.mpr ⟨hmem, hasKey_iff.mpr hkey⟩)
  · intro hp
    obtain ⟨q, hq⟩ := List.exists_mem_of_ne_nil _ hp
    obtain ⟨hmem, hkey⟩ := List.mem_filter.mp hq
    obtain ⟨k', hk', hmap⟩ := hs.payment q hmem
    rw [hasKey_iff.mp hkey] at hk'
    cases hk'
    exact hmap

theorem payers_eq (hs : Sorted start (classified t trace.transactions) c)
    (k : MessageMatchingKey) : payers k c.gasCreditMap c.callContract =
      if paymentsFor t trace k ≠ [] then (callsFor t trace k).take 1 else [] := by
  rw [payers, hs.calls]
  exact if_congr (mem_gasCreditMap hs k) rfl rfl

/-- Which credits there are before the amounts are converted: at most one for each key. -/
theorem linkEvents_credits (hstart : startContainers t trace = .ok start)
    (hs : Sorted start (classified t trace.transactions) c) (h : linkEvents t c = .ok out)
    (k : MessageMatchingKey) :
    List.Forall₂ (fun cc pe => ∃ q ∈ paymentsFor t trace k, pe.1 = .transaction q ∧
        cc.messageId t.lib = eventId pe)
      (if paymentsFor t trace k ≠ [] then (callsFor t trace k).take 1 else [])
      (creditsFor k out) := by
  obtain ⟨called, linked, hcalled, -, -, hcredits, -⟩ := linkEvents_inside hstart hs h
  have hsame : creditsFor k out = creditsFor k called := by rw [creditsFor, hcredits, creditsFor]
  have hlinked := linkCalls_credits (payments_sorted hs) (sorted_calls hs) hcalled k
  rw [payers_eq hs k, ← hsame] at hlinked
  apply hlinked.imp
  rintro cc pe ⟨q, id, hq, htag, hid, hevent⟩
  obtain ⟨hcredit, hkey⟩ := hs.paid k q hq
  have hlink := (linked_event (linked_credits (mem_only.mp hcredit).2) hevent).1
  refine ⟨q, List.mem_filter.mpr ⟨hcredit, hasKey_iff.mpr hkey⟩, htag, ?_⟩
  rw [hid, hlink, eventId]

theorem credits_ids (h : parseTraceTagged t trace = .ok tagged) (k : MessageMatchingKey) :
    (if paymentsFor t trace k ≠ [] then (callsFor t trace k).take 1 else []).map
      (TxParser.messageId t.lib) = (creditsFor k tagged).map eventId := by
  obtain ⟨start, c, out, hstart, hs, hout, hsummary⟩ := parseTraceTagged_assembled h
  rw [← ids_eq_map (summary_creditsFor k hsummary), ← List.forall₂_eq_eq_eq,
    List.forall₂_map_left_iff, List.forall₂_map_right_iff]
  apply (linkEvents_credits hstart hs hout k).imp
  rintro cc pe ⟨q, -, -, hid⟩
  exact hid

theorem credits_source (h : parseTraceTagged t trace = .ok tagged) (k : MessageMatchingKey) :
    ∀ pe ∈ creditsFor k tagged, kind pe.2 = .gasCredit ∧
      ∃ q ∈ paymentsFor t trace k, pe.1 = .transaction q := by
  intro pe hpe
  obtain ⟨start, c, out, hstart, hs, hout, hsummary⟩ := parseTraceTagged_assembled h
  have hfits := fits_of_summary (linkEvents_fits hstart hs hout) hsummary
  obtain ⟨hinside, -⟩ := List.mem_filter.mp hpe
  obtain ⟨hmem, htag⟩ := List.mem_filter.mp hinside
  refine ⟨(hfits pe hmem).credit (of_decide_eq_true htag), ?_⟩
  have hpe' : summary pe ∈ (creditsFor k out).map summary := by
    rw [summary_creditsFor k hsummary]
    exact List.mem_map_of_mem hpe
  obtain ⟨pe', hpe', heq⟩ := List.mem_map.mp hpe'
  obtain ⟨cc, -, q, hq, htransaction, -⟩ :=
    forall₂_mem_right (linkEvents_credits hstart hs hout k) pe' hpe'
  refine ⟨q, hq, ?_⟩
  rw [← htransaction]
  exact (congrArg Prod.fst heq).symm

theorem credits_length (h : parseTraceTagged t trace = .ok tagged) (k : MessageMatchingKey) :
    (creditsFor k tagged).length =
      min (callsFor t trace k).length (min (paymentsFor t trace k).length 1) := by
  have hids := congrArg List.length (credits_ids h k)
  rw [List.length_map, List.length_map] at hids
  rw [← hids]
  by_cases hp : paymentsFor t trace k = []
  · simp [hp]
  · have hpos : 0 < (paymentsFor t trace k).length := List.length_pos_iff.mpr hp
    rw [if_pos hp, List.length_take]
    omega

/-- Gas payments are conserved exactly for the keys with at most one call or at most one
payment: the map keeps only the last payment under a key. -/
theorem gas_payments_conserved_iff {events : List Event} (h : parseTrace t trace = .ok events) :
    ∃ tagged, parseTraceTagged t trace = .ok tagged ∧ events = tagged.map Prod.snd ∧
      ∀ k, Conserved t trace tagged k ↔
        (callsFor t trace k).length ≤ 1 ∨ (paymentsFor t trace k).length ≤ 1 := by
  obtain ⟨tagged, htagged, hevents⟩ := parseTrace_ok h
  refine ⟨tagged, htagged, hevents, ?_⟩
  intro k
  have hlength := credits_length htagged k
  constructor
  · intro hconserved
    have hcount := hconserved.count
    omega
  · intro hk
    refine ⟨by omega, credits_source htagged k, _, ?_, credits_ids htagged k⟩
    by_cases hp : paymentsFor t trace k = []
    · simp [hp]
    · rw [if_pos hp]
      exact (List.take_sublist 1 _).subperm

def sampleKey : MessageMatchingKey := ⟨"avalanche", "0xd7", sampleKeccak [42]⟩

theorem gas_payments_conserved_paid_call :
    ∃ tagged, parseTraceTagged sampleParser paidCall = .ok tagged ∧
      eventsOf paidCall = tagged.map Prod.snd ∧
      Conserved sampleParser paidCall tagged sampleKey := by
  have hrun : (parseTrace sampleParser paidCall).isOk = true ∧
      (callsFor sampleParser paidCall sampleKey).length ≤ 1 := by decide +kernel
  obtain ⟨tagged, htagged, hevents, hconserved⟩ :=
    gas_payments_conserved_iff (parseTrace_eventsOf paidCall hrun.1)
  exact ⟨tagged, htagged, hevents, (hconserved sampleKey).mpr (.inl hrun.2)⟩

/-- Two calls with the same destination and payload, and a payment for each. -/
def twicePaidCalls : Trace :=
  sampleTrace [logTransaction 1 1 opCallContract userCallBody,
    logTransaction 1 2 opCallContract userCallBody, logTransaction 2 3 opPayGas paidBody,
    logTransaction 2 4 opPayGas paidBody]

theorem second_payment_dropped :
    ∃ tagged, parseTraceTagged sampleParser twicePaidCalls = .ok tagged ∧
      parseTrace sampleParser twicePaidCalls = .ok (tagged.map Prod.snd) ∧
      ¬ Conserved sampleParser twicePaidCalls tagged sampleKey := by
  obtain ⟨hok, hcalls, hpayments⟩ : (parseTrace sampleParser twicePaidCalls).isOk = true ∧
      (callsFor sampleParser twicePaidCalls sampleKey).length = 2 ∧
      (paymentsFor sampleParser twicePaidCalls sampleKey).length = 2 := by decide +kernel
  have hparse := parseTrace_eventsOf twicePaidCalls hok
  obtain ⟨tagged, htagged, hevents⟩ := parseTrace_ok hparse
  refine ⟨tagged, htagged, by rw [hparse, hevents], ?_⟩
  intro hconserved
  have hcount := hconserved.count
  rw [credits_length htagged, hcalls, hpayments] at hcount
  cases hcount

end GasCredits

section ItsLogs

variable {events : List Event}

def sourceAddress : Event → Option String
  | .call _ message _ _ => some message.sourceAddress
  | _ => none

def callEvents (events : List Event) : List Event := events.filter fun e => kind e = .call

def itsEvents (events : List Event) : List Event :=
  events.filter fun e => (kind e).contract = .its

/-- The ITS events carry the ids of different calls that the ITS contract made. -/
def LinkedToIts (t : TraceParser D) (events : List Event) : Prop :=
  ∃ linked : List Event, linked.Subperm (callEvents events) ∧
    linked.map messageId = (itsEvents events).map messageId ∧
    ∀ call ∈ linked, sourceAddress call = some (toHex t.itsAddress)

theorem callEvents_tagged (hfits : ∀ pe ∈ tagged, Fits pe) :
    callEvents (tagged.map Prod.snd) = (inside .calls tagged).map Prod.snd := by
  rw [callEvents, List.filter_map, inside]
  congr 1
  apply List.filter_congr
  intro pe hpe
  exact decide_eq_decide.mpr (hfits pe hpe).call

theorem itsEvents_tagged (hfits : ∀ pe ∈ tagged, Fits pe) :
    itsEvents (tagged.map Prod.snd) = (inside .its tagged).map Prod.snd := by
  rw [itsEvents, List.filter_map, inside]
  congr 1
  apply List.filter_congr
  intro pe hpe
  exact decide_eq_decide.mpr (hfits pe hpe).its

theorem its_ids (h : parseTraceTagged t trace = .ok tagged) :
    (∀ pe ∈ tagged, Fits pe) ∧
      (inside .its tagged).map eventId =
        ((inside .calls tagged).map eventId).take (inside .its tagged).length := by
  obtain ⟨start, c, out, hstart, hs, hout, hsummary⟩ := parseTraceTagged_assembled h
  obtain ⟨called, linked, hcalled, hlinked, hcalls, -, hits⟩ := linkEvents_inside hstart hs hout
  refine ⟨fits_of_summary (linkEvents_fits hstart hs hout) hsummary, ?_⟩
  have hcallIds : c.callContract.map (TxParser.messageId t.lib) =
      (inside .calls tagged).map eventId := by
    rw [← ids_eq_map (summary_inside .calls hsummary), hcalls]
    exact linkCalls_ids (payments_sorted hs) (sorted_calls hs) hcalled
  obtain ⟨-, hlength, hids⟩ := linkIts_ids (sorted_its hs) hlinked
  have hlength' : (inside .its tagged).length = c.its.length := by
    have hsame := congrArg List.length (summary_inside .its hsummary)
    rw [List.length_map, List.length_map, hits, hlength] at hsame
    exact hsame.symm
  calc (inside .its tagged).map eventId
      = linked.map eventId := by rw [← ids_eq_map (summary_inside .its hsummary), hits]
    _ = (c.callContract.take c.its.length).map (TxParser.messageId t.lib) := hids.symm
    _ = ((inside .calls tagged).map eventId).take (inside .its tagged).length := by
      rw [List.map_take, hcallIds, hlength']

/-- ITS events take the ids of the calls by position, so no two take the same call; they are
linked to calls of the ITS contract when the first calls of the trace are. -/
theorem its_events_follow_calls (h : parseTrace t trace = .ok events) :
    (itsEvents events).length ≤ (callEvents events).length ∧
    (itsEvents events).map messageId =
      ((callEvents events).take (itsEvents events).length).map messageId ∧
    ((∀ call ∈ (callEvents events).take (itsEvents events).length,
        sourceAddress call = some (toHex t.itsAddress)) → LinkedToIts t events) := by
  obtain ⟨tagged, htagged, rfl⟩ := parseTrace_ok h
  obtain ⟨hfits, hids⟩ := its_ids htagged
  have hevents (l : List (AnyParser × Event)) :
      l.map eventId = ((l.map Prod.snd).map messageId).map fun id => .ok (some id) := by
    rw [List.map_map, List.map_map]
    rfl
  have hinjective : Function.Injective
      fun id : String => (.ok (some id) : Outcome (Option String)) := by
    intro a b hab
    cases hab
    rfl
  have hmap : (itsEvents (tagged.map Prod.snd)).map messageId =
      ((callEvents (tagged.map Prod.snd)).take
        (itsEvents (tagged.map Prod.snd)).length).map messageId := by
    rw [callEvents_tagged hfits, itsEvents_tagged hfits, List.length_map]
    apply List.map_injective_iff.mpr hinjective
    rw [List.map_take, List.map_take, ← hevents, ← hevents, hids]
  refine ⟨?_, hmap, ?_⟩
  · have hlength := congrArg List.length hmap
    rw [List.length_map, List.length_map, List.length_take] at hlength
    omega
  · intro hsource
    exact ⟨_, (List.take_sublist _ _).subperm, hmap.symm, hsource⟩

def itsRegistration : Trace :=
  sampleTrace [logTransaction 1 1 opCallContract itsCallBody,
    logTransaction 3 2 opRegisterTokenMetadata metadataBody]

theorem its_events_follow_calls_registration :
    (itsEvents (eventsOf itsRegistration)).length = 1 ∧
      LinkedToIts sampleParser (eventsOf itsRegistration) := by
  obtain ⟨hok, hone, hsource⟩ : (parseTrace sampleParser itsRegistration).isOk = true ∧
      (itsEvents (eventsOf itsRegistration)).length = 1 ∧
      ∀ call ∈ (callEvents (eventsOf itsRegistration)).take
        (itsEvents (eventsOf itsRegistration)).length,
        sourceAddress call = some (toHex sampleParser.itsAddress) := by decide +kernel
  exact ⟨hone, (its_events_follow_calls (parseTrace_eventsOf _ hok)).2.2 hsource⟩

/-- A user's own call comes before the call of the ITS contract. -/
def mixedCalls : Trace :=
  sampleTrace [logTransaction 1 1 opCallContract userCallBody,
    logTransaction 1 2 opCallContract itsCallBody,
    logTransaction 3 3 opRegisterTokenMetadata metadataBody]

theorem its_event_linked_to_user_call :
    parseTrace sampleParser mixedCalls = .ok (eventsOf mixedCalls) ∧
      ¬ LinkedToIts sampleParser (eventsOf mixedCalls) := by
  obtain ⟨hok, hone, hnone⟩ : (parseTrace sampleParser mixedCalls).isOk = true ∧
      (itsEvents (eventsOf mixedCalls)).length = 1 ∧
      ∀ call ∈ callEvents (eventsOf mixedCalls),
        messageId call ∈ (itsEvents (eventsOf mixedCalls)).map messageId →
        sourceAddress call ≠ some (toHex sampleParser.itsAddress) := by decide +kernel
  refine ⟨parseTrace_eventsOf _ hok, ?_⟩
  rintro ⟨linked, hsub, hids, hsource⟩
  have hlength : linked.length = 1 := by simpa [hone] using congrArg List.length hids
  obtain ⟨call, hcall⟩ := List.exists_mem_of_length_pos (by omega : 0 < linked.length)
  apply hnone call (hsub.subset hcall) ?_ (hsource call hcall)
  rw [← hids]
  exact List.mem_map_of_mem hcall

end ItsLogs

end EventLinking
