import Mathlib
import TonRelayer.TraceStructure

/-! What the approvals and executions of a trace are said to cost.
An approval is charged its share of the gas of the trace, an execution all of it, however many
of them there are. -/
namespace MessageCosts

open ExceptRules Cells ByteEncodings RelayerExecute MessageDecoders Types GasCalculator
open TransactionParsers TraceParsing TraceEvents EventAuthenticity EventLinking TraceStructure

variable {D : Type} {t : TraceParser D} {trace : Trace} {events : List Event}

section Counting

variable {qs : List TxParser} {c c' : Containers}

def approvals (qs : List TxParser) : ℕ := qs.countP fun q => q.name = .messageApproved

def executions (qs : List TxParser) : ℕ := qs.countP fun q => q.name = .messageExecuted

theorem route_count {q : TxParser} (h : route c q = .ok c') :
    c'.messageApprovedCount = c.messageApprovedCount + approvals [q] := by
  obtain ⟨n, p⟩ := q
  cases n with
  | nativeGasPaid | jettonGasPaid =>
    obtain ⟨k, -, h⟩ := bind_eq_ok.mp h
    cases pure_eq_ok.mp h
    rfl
  | _ =>
    cases h
    rfl

theorem approvals_append (qs qs' : List TxParser) :
    approvals (qs ++ qs') = approvals qs + approvals qs' := List.countP_append

/-- The loop counts the approvals that it finds. -/
theorem createParsers_count (h : createParsers t trace = .ok c) :
    c.messageApprovedCount = approvals (classified t trace.transactions) := by
  obtain ⟨start, hstart, h⟩ := bind_eq_ok.mp h
  apply foldlM_ok (P := fun done c => c.messageApprovedCount = approvals (classified t done)) h
  · rcases startContainers_cases hstart with ⟨-, rfl⟩ | ⟨-, p', -, rfl⟩ <;> rfl
  · intro done tx c₁ c₂ hc₁ hstep
    obtain ⟨r, hr, hstep⟩ := bind_eq_ok.mp hstep
    rw [classified_concat hr, approvals_append, ← hc₁]
    cases r with
    | none =>
      cases pure_eq_ok.mp hstep
      rfl
    | some q => exact route_count hstep

end Counting

section Kinds

variable {l : Layout} {qs : List TxParser} {k : EventKind}

theorem count_eventOf {summaries : List Summary} (h : List.Forall₂ EventOf qs summaries)
    (k : EventKind) :
    (summaries.map fun s => s.2.1).count k = qs.countP fun q => kindOf q.name = k := by
  induction h with
  | nil => rfl
  | @cons q s qs summaries hs _ ih =>
    rw [List.map_cons, hs.2, List.count_cons, List.countP_cons, ih]
    by_cases hk : kindOf q.name = k <;> simp [hk]

theorem countP_only (a : Container) (h : ∀ n, kindOf n = k → container n = a)
    (qs : List TxParser) :
    ((only a qs).countP fun q => kindOf q.name = k) = qs.countP fun q => kindOf q.name = k := by
  rw [only, List.countP_filter]
  apply List.countP_congr
  intro q _
  constructor
  · intro hq
    exact (Bool.and_eq_true_iff.mp hq).1
  · intro hq
    exact Bool.and_eq_true_iff.mpr ⟨hq, decide_eq_true (h q.name (of_decide_eq_true hq))⟩

theorem count_zero {summaries : List Summary} (h : ∀ s ∈ summaries, s.2.1 ≠ k) :
    (summaries.map fun s => s.2.1).count k = 0 := by
  rw [List.count_eq_zero, List.mem_map]
  rintro ⟨s, hs, rfl⟩
  exact h s hs rfl

theorem groups_kind {groups : List CallGroup} {calls : List TxParser}
    (h : List.Forall₂ (GroupOf t) calls groups) :
    ∀ s ∈ groups.flatMap CallGroup.events, s.2.1 = .call ∨ s.2.1 = .gasCredit := by
  intro s hs
  obtain ⟨g, hg, hs⟩ := List.mem_flatMap.mp hs
  obtain ⟨cc, -, hof⟩ := forall₂_mem_right h g hg
  rcases List.mem_cons.mp hs with rfl | hs
  · obtain ⟨id, -, hcall⟩ := hof.call
    rw [hcall]
    exact .inl rfl
  · obtain ⟨q, k, hcredit, -⟩ := hof.credit s (Option.mem_toList.mp hs)
    rw [hcredit]
    exact .inr rfl

/-- There is an event of this kind for each parser that makes one, if it is not linked. -/
theorem layout_count (hl : l.Follows t qs) (hk : ∀ n, kindOf n = k → container n = .parsers)
    (hcannot : k ≠ .cannotExecuteMessageV2) :
    (l.events.map fun s => s.2.1).count k = qs.countP fun q => kindOf q.name = k := by
  have hnot (n : ParserName) (hn : container n ≠ .parsers) : kindOf n ≠ k := by
    intro h
    exact hn (hk n h)
  have hgroups : ((l.groups.flatMap CallGroup.events).map fun s => s.2.1).count k = 0 := by
    apply count_zero
    intro s hs heq
    rcases groups_kind hl.calls s hs with hcall | hcredit
    · exact hnot .callContract (by decide) (hcall.symm.trans heq)
    · exact hnot .nativeGasPaid (by decide) (hcredit.symm.trans heq)
  have hits : (l.its.map fun s => s.2.1).count k = 0 := by
    apply count_zero
    intro s hs heq
    obtain ⟨q, hq, -, hkind⟩ := forall₂_mem_right hl.its s hs
    apply hnot q.name
    · rw [(mem_only.mp hq).2]
      decide
    · exact hkind.symm.trans heq
  have htrace : (l.cannotExecute.toList.map fun s => s.2.1).count k = 0 := by
    apply count_zero
    intro s hs heq
    exact hcannot (heq.symm.trans (hl.cannotExecute s (Option.mem_toList.mp hs)).2)
  rw [Layout.events, List.map_append, List.map_append, List.map_append, List.count_append,
    List.count_append, List.count_append, hgroups, hits, htrace, count_eventOf hl.others,
    countP_only .parsers hk, zero_add, zero_add, zero_add]

theorem kinds_count (h : parseTrace t trace = .ok events)
    (hk : ∀ n, kindOf n = k → container n = .parsers) (hcannot : k ≠ .cannotExecuteMessageV2) :
    (events.map kind).count k =
      (classified t trace.transactions).countP fun q => kindOf q.name = k := by
  obtain ⟨tagged, htagged, rfl⟩ := parseTrace_ok h
  obtain ⟨-, l, hl, hfollows⟩ := parseTraceTagged_layout htagged
  rw [← layout_count hfollows hk hcannot, ← hl, List.map_map, List.map_map]
  rfl

theorem approved_count (h : parseTrace t trace = .ok events) :
    (events.map kind).count .messageApproved = approvals (classified t trace.transactions) := by
  rw [kinds_count h (by intro n; cases n <;> decide) (by decide), approvals]
  congr 1
  funext q
  cases q.name <;> rfl

theorem executed_count (h : parseTrace t trace = .ok events) :
    (events.map kind).count .messageExecuted = executions (classified t trace.transactions) := by
  rw [kinds_count h (by intro n; cases n <;> decide) (by decide), executions]
  congr 1
  funext q
  cases q.name <;> rfl

end Kinds

section Costs

variable {total refund count : ℕ} {e e' : Event}

/-- The amount of the cost of an approval or an execution. -/
def costAmount : Event → ℕ
  | .messageApproved _ _ cost => (cost.amount.toNat?).getD 0
  | .messageExecuted _ _ _ _ cost => (cost.amount.toNat?).getD 0
  | _ => 0

def costSum (events : List Event) : ℕ := (events.map costAmount).sum

def share (total count : ℕ) : EventKind → ℕ
  | .messageApproved => total / count
  | .messageExecuted => total
  | _ => 0

theorem convertEvent_cost (h : convertEvent t total refund count e = .ok e') :
    costAmount e' = share total count (kind e') := by
  cases e with
  | gasCredit common id refundAddress payment =>
    obtain ⟨payment', rfl⟩ := convertEvent_gasCredit h
    rfl
  | messageApproved common message cost =>
    cases h
    have hamount : (if count = 0 then 0 else total / count) = total / count := by
      split
      · next hcount => rw [hcount, Nat.div_zero]
      · rfl
    simp only [costAmount, hamount]
    exact congrArg (fun n => n.getD 0) (Nat.toNat?_repr _)
  | messageExecuted common id chain status cost =>
    cases h
    exact congrArg (fun n => n.getD 0) (Nat.toNat?_repr _)
  | _ =>
    cases h
    rfl

theorem share_sum (total count : ℕ) (kinds : List EventKind) :
    (kinds.map (share total count)).sum =
      kinds.count .messageApproved * (total / count) + kinds.count .messageExecuted * total := by
  induction kinds with
  | nil => simp
  | cons k kinds ih =>
    rw [List.map_cons, List.sum_cons, ih]
    cases k <;> simp [share] <;> ring

/-- The approvals share what every execution is charged. -/
theorem costSum_eq (h : parseTrace t trace = .ok events) :
    ∃ total, calcMessageGas t.ourAddresses trace.transactions = .ok total ∧
      costSum events = approvals (classified t trace.transactions) *
          (total / approvals (classified t trace.transactions)) +
        executions (classified t trace.transactions) * total := by
  have happroved := approved_count h
  have hexecuted := executed_count h
  obtain ⟨tagged, htagged, rfl⟩ := parseTrace_ok h
  obtain ⟨total, refund, c, out, hgas, hc, hout, hconv⟩ := parseTraceTagged_ok htagged
  have htotal : calcMessageGas t.ourAddresses trace.transactions = .ok total := by
    obtain ⟨total', htotal, hgas⟩ := bind_eq_ok.mp hgas
    obtain ⟨refund', -, hgas⟩ := bind_eq_ok.mp hgas
    cases pure_eq_ok.mp hgas
    exact mapError_eq_ok.mp htotal
  refine ⟨total, htotal, ?_⟩
  have hcosts : (tagged.map Prod.snd).map costAmount =
      ((tagged.map Prod.snd).map kind).map (share total c.messageApprovedCount) := by
    rw [List.map_map, List.map_map, List.map_map]
    apply List.map_congr_left
    intro pe' hpe'
    obtain ⟨pe, -, -, hconvert⟩ := forall₂_mem_right hconv pe' hpe'
    exact convertEvent_cost hconvert
  rw [costSum, hcosts, share_sum, happroved, hexecuted, createParsers_count hc]

theorem shares_lt {n : ℕ} (hn : 1 ≤ n) : total < n * (total / n) + n := by
  have hmod := Nat.mod_lt total hn
  have hdiv := Nat.div_add_mod total n
  omega

theorem charged_once_iff (total a x : ℕ) : a * (total / a) + x * total ≤ total ↔
    total = 0 ∨ x = 0 ∨ (x = 1 ∧ (a = 0 ∨ total < a)) := by
  have hshare : a * (total / a) ≤ total := Nat.mul_div_le total a
  have hzero : a * (total / a) = 0 ↔ a = 0 ∨ total < a := by
    rw [Nat.mul_eq_zero, Nat.div_eq_zero_iff]
    omega
  constructor
  · intro h
    by_cases hx : 2 ≤ x
    · have hmul : 2 * total ≤ x * total := Nat.mul_le_mul_right total hx
      exact .inl (by omega)
    · obtain rfl | rfl : x = 0 ∨ x = 1 := by omega
      · exact .inr (.inl rfl)
      · exact .inr (.inr ⟨rfl, hzero.mp (by omega)⟩)
  · rintro (rfl | rfl | ⟨rfl, ha⟩)
    · simp
    · omega
    · rw [hzero.mpr ha]
      omega

/-- The messages of a trace are charged no more than it cost, and approvals alone all of it but
for the rounding. -/
def ChargedOnce (total : ℕ) (events : List Event) : Prop :=
  costSum events ≤ total ∧
    (1 ≤ (events.map kind).count .messageApproved →
      (events.map kind).count .messageExecuted = 0 →
      total < costSum events + (events.map kind).count .messageApproved)

/-- The cost is charged once exactly when there is nothing to charge, no message was executed, or
just one was and no approval gets a share. -/
theorem charged_once_parse_iff (h : parseTrace t trace = .ok events) :
    ∃ total, calcMessageGas t.ourAddresses trace.transactions = .ok total ∧
      (ChargedOnce total events ↔
        total = 0 ∨ executions (classified t trace.transactions) = 0 ∨
          (executions (classified t trace.transactions) = 1 ∧
            (approvals (classified t trace.transactions) = 0 ∨
              total < approvals (classified t trace.transactions)))) := by
  obtain ⟨total, htotal, hsum⟩ := costSum_eq h
  refine ⟨total, htotal, ?_⟩
  rw [← charged_once_iff, ← hsum]
  constructor
  · intro hcharged
    exact hcharged.1
  · intro hle
    refine ⟨hle, ?_⟩
    intro happroved hexecuted
    rw [approved_count h] at happroved ⊢
    rw [executed_count h] at hexecuted
    rw [hsum, hexecuted, Nat.zero_mul, Nat.add_zero]
    exact shares_lt happroved

end Costs

section Samples

/-- The message 0x2a-1 from avalanche was executed. -/
def executedText : String :=
  "te6cckEBCAEANAAECAAAAAUBAgMEAAwweDJhLTEAEmF2YWxhbmNoZQAIMHhkNwMABQYHAAIqAALXAAh0b24yTjB9AQ=="

def executedCell : Cell :=
  builtCell (natToBits 32 opNullifiedSuccessfully.toNat)
    [builtText "0x2a-1", builtText "avalanche", builtText "0xd7",
      builtCell [] [builtCell (bytesBits [42]) [], builtCell (bytesBits [0xd7]) [],
        builtText "ton2"]]

def costParser : TraceParser ℕ :=
  { sampleParser with
    lib := { sampleLibraries with
      fromBocB64 := fun boc =>
        if boc = executedText then .ok executedCell else sampleLibraries.fromBocB64 boc } }

def executedTransaction (n : UInt8) : Transaction where
  account := account 1
  hash := hashText n
  totalFees := 5
  inMsg := some
    { hash := "in", destination := some (account 1), opcode := some opNullifiedSuccessfully
      messageContent := ⟨executedText⟩ }
  outMsgs := [{ hash := "log" },
    { hash := "out", destination := some (account 8), opcode := some opGatewayExecute }]

theorem charged_once_parse_one_execution :
    ∃ events, parseTrace costParser (sampleTrace [executedTransaction 1]) = .ok events ∧
      ChargedOnce 5 events := by
  obtain ⟨hok, hexecutions, happrovals, hfive⟩ :
      (parseTrace costParser (sampleTrace [executedTransaction 1])).isOk = true ∧
      executions (classified costParser (sampleTrace [executedTransaction 1]).transactions) = 1 ∧
      approvals (classified costParser (sampleTrace [executedTransaction 1]).transactions) = 0 ∧
      calcMessageGas costParser.ourAddresses
        (sampleTrace [executedTransaction 1]).transactions = .ok 5 := by
    decide +kernel
  obtain ⟨events, hparse⟩ := exists_ok hok
  refine ⟨events, hparse, ?_⟩
  obtain ⟨total, htotal, hiff⟩ := charged_once_parse_iff hparse
  cases hfive.symm.trans htotal
  exact hiff.mpr (.inr (.inr ⟨hexecutions, .inl happrovals⟩))

/-- Two executions in a trace that costs ten are charged twenty. -/
theorem two_executions_charged_twice :
    ∃ events, parseTrace costParser (sampleTrace [executedTransaction 1, executedTransaction 2]) =
        .ok events ∧
      calcMessageGas costParser.ourAddresses
        (sampleTrace [executedTransaction 1, executedTransaction 2]).transactions = .ok 10 ∧
      costSum events = 20 ∧ ¬ ChargedOnce 10 events := by
  obtain ⟨hok, hexecutions, happrovals, hten⟩ :
      (parseTrace costParser
        (sampleTrace [executedTransaction 1, executedTransaction 2])).isOk = true ∧
      executions (classified costParser
        (sampleTrace [executedTransaction 1, executedTransaction 2]).transactions) = 2 ∧
      approvals (classified costParser
        (sampleTrace [executedTransaction 1, executedTransaction 2]).transactions) = 0 ∧
      calcMessageGas costParser.ourAddresses
        (sampleTrace [executedTransaction 1, executedTransaction 2]).transactions = .ok 10 := by
    decide +kernel
  obtain ⟨events, hparse⟩ := exists_ok hok
  obtain ⟨total, htotal, hsum⟩ := costSum_eq hparse
  cases hten.symm.trans htotal
  rw [happrovals, hexecutions] at hsum
  have htwenty : costSum events = 20 := hsum
  refine ⟨events, hparse, hten, htwenty, ?_⟩
  intro hcharged
  have hle := hcharged.1
  omega

end Samples

end MessageCosts
