import Mathlib
import TonRelayer.EventAuthenticity
import TonRelayer.GasFormula

/-! What a refund is said to cost.
The parser finds a refund wherever it stands in a trace; the calculator takes the first message
of the third transaction for the refunded amount and subtracts it. -/
namespace RefundCosts

open ExceptRules Cells ByteEncodings RelayerExecute MessageDecoders Types GasCalculator
open TransactionParsers TraceParsing TraceEvents EventAuthenticity GasFormula

def zeroValue (tx : Transaction) : Transaction :=
  { tx with outMsgs := tx.outMsgs.modifyHead fun msg => { msg with value := some "0" } }

/-- The trace in which the refund of the transaction at `i` carries nothing. -/
def withoutRefund (txs : List Transaction) (i : ℕ) : List Transaction := txs.modify i zeroValue

/-- What `cost` counts for the value of a message, its fee apart. -/
def countedValue (our : List TonAddress) (tx : Transaction) (msg : TransactionMessage) : ℤ :=
  match msg.destination with
  | none => 0
  | some dest =>
    if tx.account ∈ our then if dest ∈ our then 0 else extractMsgValue msg
    else if dest ∈ our then -extractMsgValue msg else 0

/-- What `cost` counts for the refund of `r`. -/
def counted (our : List TonAddress) (r : Transaction) : ℤ :=
  (r.outMsgs.head?.map (countedValue our r)).getD 0

/-- What the calculator subtracts, if there is a third transaction that sends something. -/
def deducted (txs : List Transaction) : Option ℤ :=
  (txs[2]?.bind (·.outMsgs.head?)).map extractMsgValue

/-- No gas is left of the total: the rest is not positive, or `as u64` drops it. -/
def NothingLeft (total amount : ℤ) : Prop :=
  wrapI128 (total - amount) ≤ 0 ∨ 2 ^ 64 ∣ total - amount

/-- The third transaction sends as much as was counted of the refund, up to `as u64`; or
nothing is left of the cost either way. -/
def Deducts (our : List TonAddress) (txs : List Transaction) (r : Transaction) : Prop :=
  match deducted txs with
  | none => NothingLeft (closedCost our txs) (counted our r)
  | some amount =>
    amount = counted our r ∨
    (NothingLeft (closedCost our txs) amount ∧
      NothingLeft (closedCost our txs) (counted our r)) ∨
    (¬ NothingLeft (closedCost our txs) amount ∧
      ¬ NothingLeft (closedCost our txs) (counted our r) ∧ 2 ^ 64 ∣ amount - counted our r)

section Rounding

variable {x y : ℤ}

theorem wrapI128_emod (x : ℤ) : wrapI128 x % 2 ^ 64 = x % 2 ^ 64 := by
  rw [wrapI128, Int.bmod_def]
  split <;> omega

theorem positivePart_wrap (x : ℤ) :
    positivePart (wrapI128 x) = if 0 < wrapI128 x then (x % 2 ^ 64).toNat else 0 := by
  rw [positivePart, wrapI128_emod]

theorem positivePart_eq_zero {total amount : ℤ} :
    positivePart (wrapI128 (total - amount)) = 0 ↔ NothingLeft total amount := by
  rw [positivePart_wrap, NothingLeft, Int.dvd_iff_emod_eq_zero]
  have hnonneg : 0 ≤ (total - amount) % 2 ^ 64 := Int.emod_nonneg _ (by norm_num)
  by_cases h : 0 < wrapI128 (total - amount)
  · rw [if_pos h]
    omega
  · rw [if_neg h]
    omega

theorem positivePart_eq_iff {total a b : ℤ} :
    positivePart (wrapI128 (total - a)) = positivePart (wrapI128 (total - b)) ↔
      (NothingLeft total a ∧ NothingLeft total b) ∨
      (¬ NothingLeft total a ∧ ¬ NothingLeft total b ∧ 2 ^ 64 ∣ a - b) := by
  by_cases ha : NothingLeft total a
  · rw [positivePart_eq_zero.mpr ha, eq_comm, positivePart_eq_zero]
    simp only [ha, true_and, not_true, false_and, or_false]
  · by_cases hb : NothingLeft total b
    · rw [positivePart_eq_zero.mpr hb, positivePart_eq_zero]
      simp only [ha, hb, false_and, not_true, and_false, or_false]
    · have hpos {c : ℤ} (hc : ¬ NothingLeft total c) :
          positivePart (wrapI128 (total - c)) = ((total - c) % 2 ^ 64).toNat := by
        rw [positivePart_wrap, if_pos]
        by_contra hle
        exact hc (.inl (by omega))
      rw [hpos ha, hpos hb]
      simp only [ha, hb, false_and, not_false_iff, true_and, false_or]
      have ha₀ : 0 ≤ (total - a) % 2 ^ 64 := Int.emod_nonneg _ (by norm_num)
      have hb₀ : 0 ≤ (total - b) % 2 ^ 64 := Int.emod_nonneg _ (by norm_num)
      omega

end Rounding

section Deduction

variable {our : List TonAddress} {txs : List Transaction} {r : Transaction}

theorem sum_map_modify {α : Type} {l : List α} {i : ℕ} {x : α} (f : α → α) (c : α → ℤ)
    (h : l[i]? = some x) : ((l.modify i f).map c).sum = (l.map c).sum + (c (f x) - c x) := by
  induction l generalizing i with
  | nil => cases h
  | cons y l ih =>
    cases i with
    | zero =>
      cases h
      rw [List.modify_zero_cons, List.map_cons, List.map_cons, List.sum_cons, List.sum_cons]
      ring
    | succ i =>
      rw [List.modify_succ_cons, List.map_cons, List.map_cons, List.sum_cons, List.sum_cons,
        ih h, add_assoc]

theorem messageCost_split (our : List TonAddress) (tx : Transaction) (msg : TransactionMessage) :
    messageCost our tx msg =
      (if tx.account ∈ our then extractFwdFee msg else 0) + countedValue our tx msg := rfl

theorem amount_zero : amount (some "0") = 0 := by decide

theorem messageCost_zero (our : List TonAddress) (tx : Transaction) (msg : TransactionMessage) :
    messageCost our tx { msg with value := some "0" } =
      messageCost our tx msg - countedValue our tx msg := by
  have hzero : countedValue our tx { msg with value := some "0" } = 0 := by
    rw [countedValue]
    have hvalue : extractMsgValue { msg with value := some "0" } = 0 := amount_zero
    split
    · rfl
    · rw [hvalue]
      by_cases ha : tx.account ∈ our <;> simp [ha]
  rw [messageCost_split, messageCost_split, hzero]
  ring_nf
  rfl

theorem transactionCost_zeroValue (our : List TonAddress) (r : Transaction) :
    transactionCost our (zeroValue r) = transactionCost our r - counted our r := by
  have hsame : messageCost our (zeroValue r) = messageCost our r := rfl
  rw [transactionCost, transactionCost, hsame, counted, zeroValue]
  cases r.outMsgs with
  | nil => simp
  | cons msg msgs =>
    simp only [List.modifyHead_cons, List.map_cons, List.sum_cons, messageCost_zero,
      List.head?_cons, Option.map_some, Option.getD_some]
    ring

/-- The cost of the trace without the refund is lower by what was counted of it. -/
theorem withoutRefund_gas {i : ℕ} (hi : txs[i]? = some r) :
    calcMessageGas our (withoutRefund txs i) =
      .ok (positivePart (wrapI128 (closedCost our txs - counted our r))) := by
  have hsum : ((withoutRefund txs i).map (transactionCost our)).sum =
      closedCost our txs - counted our r := by
    rw [withoutRefund, sum_map_modify _ _ hi, transactionCost_zeroValue, sum_eq_closedCost]
    ring
  rw [calcMessageGas, cost_eq, hsum]
  rfl

/-- What the calculator returns for the refunds of a trace. -/
def refundGas (our : List TonAddress) (txs : List Transaction) : ℕ :=
  match deducted txs with
  | none => 0
  | some amount => positivePart (wrapI128 (closedCost our txs - amount))

theorem nativeGasRefunded_eq (our : List TonAddress) (txs : List Transaction) :
    calcMessageGasNativeGasRefunded our txs = .ok (refundGas our txs) := by
  rw [calcMessageGasNativeGasRefunded, refundGas, deducted]
  cases txs[2]? with
  | none => rfl
  | some tx2 =>
    cases hhead : tx2.outMsgs.head? with
    | none => simp [hhead]
    | some msg =>
      have hwrap (x : ℤ) : wrapI128 (wrapI128 (closedCost our txs) - x) =
          wrapI128 (closedCost our txs - x) := by
        rw [sub_eq_add_neg, wrapI128_wrap_add, ← sub_eq_add_neg]
      simp only [hhead, Option.bind_some, Option.map_some, cost_eq, sum_eq_closedCost,
        extractMsgValue]
      cases msg.value with
      | none =>
        rw [amount_unreadable rfl, ← hwrap]
        rfl
      | some value =>
        rw [← hwrap]
        rfl

theorem refundGas_eq_iff : positivePart (wrapI128 (closedCost our txs - counted our r)) =
    refundGas our txs ↔ Deducts our txs r := by
  rw [refundGas, Deducts]
  cases deducted txs with
  | none => exact positivePart_eq_zero
  | some amount =>
    rw [eq_comm]
    by_cases h : amount = counted our r
    · simp [h]
    · rw [positivePart_eq_iff]
      simp [h]

end Deduction

section Events

variable {D : Type} {t : TraceParser D} {trace : Trace} {tagged : List (AnyParser × Event)}
variable {pe : AnyParser × Event}

theorem refund_event {p : LogParser NativeGasRefundedMessage} {e : Event}
    (h : ParserNativeGasRefunded.event p = .ok e) :
    ∃ common id recipient refunded, e = .gasRefunded common id recipient refunded ⟨none, "0"⟩ := by
  obtain ⟨log, -, h⟩ := bind_eq_ok.mp h
  obtain ⟨mid, -, h⟩ := bind_eq_ok.mp h
  obtain ⟨id, -, h⟩ := bind_eq_ok.mp h
  cases pure_eq_ok.mp h
  exact ⟨_, _, _, _, rfl⟩

/-- A refund event comes from the refund parser of a gas service transaction; its cost is what
the calculator returns, wherever the transaction stands. -/
theorem refund_made (h : parseTraceTagged t trace = .ok tagged) (hpe : pe ∈ tagged)
    (hk : kind pe.2 = .gasRefunded) :
    ∃ p : LogParser NativeGasRefundedMessage, ∃ common id recipient refunded,
      pe = (.transaction ⟨.nativeGasRefunded, p⟩, .gasRefunded common id recipient refunded
        ⟨none, toString (refundGas t.ourAddresses trace.transactions)⟩) ∧
      p.tx ∈ trace.transactions ∧ p.tx.account = t.gasServiceAddress := by
  obtain ⟨total, refund, c, out, hgas, hc, hout, htagged⟩ := parseTraceTagged_ok h
  obtain ⟨start, hstart, hs⟩ := createParsers_sorted hc
  obtain ⟨pe₀, hpe₀, hsame, hconvert⟩ := forall₂_mem_right htagged pe hpe
  have hk₀ : kind pe₀.2 = .gasRefunded := (convertEvent_keeps hconvert).1.symm.trans hk
  have hrefund : refund = refundGas t.ourAddresses trace.transactions := by
    obtain ⟨total', -, hgas⟩ := bind_eq_ok.mp hgas
    rw [nativeGasRefunded_eq] at hgas
    cases hgas
    rfl
  rcases linkEvents_made hs hout pe₀ hpe₀ with ⟨⟨n, p⟩, hq, hp, mid, hevent⟩ | ⟨hp, hevent⟩
  · have hn : kindOf n = .gasRefunded := (event_kind hevent).symm.trans hk₀
    cases n with
    | nativeGasRefunded =>
      obtain ⟨common, id, recipient, refunded, he⟩ := refund_event hevent
      obtain ⟨tx, htx, hmatch⟩ := mem_classified.mp hq
      have hfirst := firstMatch_ok hmatch
      have htx' : p.tx = tx := hfirst.1
      refine ⟨p, common, id, recipient, refunded, ?_, htx' ▸ htx, htx' ▸ hfirst.2⟩
      rw [he, hrefund] at hconvert
      exact Prod.ext (hsame.trans hp) (Except.ok.inj hconvert).symm
    | _ => cases hn
  · rcases startContainers_cases hstart with ⟨-, rfl⟩ | ⟨-, p', -, rfl⟩
    · cases hp
    · rw [List.mem_singleton.mp hp] at hevent
      rw [insufficientGas_kind hevent] at hk₀
      cases hk₀

/-- The cost of a refund leaves out exactly the refunded amount when, and only when, the first
message of the third transaction stands for what was counted of the refund. -/
theorem refund_cost_iff (h : parseTraceTagged t trace = .ok tagged) (hpe : pe ∈ tagged)
    (hk : kind pe.2 = .gasRefunded) :
    ∃ p : LogParser NativeGasRefundedMessage, ∃ common id recipient refunded cost,
      pe = (.transaction ⟨.nativeGasRefunded, p⟩,
        .gasRefunded common id recipient refunded cost) ∧
      p.tx.account = t.gasServiceAddress ∧ (∃ i : ℕ, trace.transactions[i]? = some p.tx) ∧
      ∀ i : ℕ, trace.transactions[i]? = some p.tx →
        ((calcMessageGas t.ourAddresses (withoutRefund trace.transactions i)).map toString =
            .ok cost.amount ↔
          Deducts t.ourAddresses trace.transactions p.tx) := by
  obtain ⟨p, common, id, recipient, refunded, rfl, hmem, haccount⟩ := refund_made h hpe hk
  refine ⟨p, common, id, recipient, refunded, _, rfl, haccount, List.mem_iff_getElem?.mp hmem, ?_⟩
  intro i hi
  rw [withoutRefund_gas hi, ← refundGas_eq_iff]
  change Except.ok (toString _) = Except.ok (toString _) ↔ _
  rw [Except.ok.injEq]
  exact ⟨fun heq => Nat.repr_injective heq, congrArg toString⟩

end Events

section Samples

/-- A log of the gas service: 100 nanotons were refunded to the account 9, or to 3. -/
def refundBody : String :=
  "te6cckEBAQEARQAAhaqqqqqqqqqqqqqqqqqqqqqqqqqqqqqqqqqqqqqqqqqqgAEhISEhISEhISEhISEhISEhISEhIS" ++
  "EhISEhISEhISEhISEhIslOOzkv"

def selfRefundBody : String :=
  "te6cckEBAQEARQAAhaqqqqqqqqqqqqqqqqqqqqqqqqqqqqqqqqqqqqqqqqqqgABgYGBgYGBgYGBgYGBgYGBgYGBgYG" ++
  "BgYGBgYGBgYGBgYsmc496z"

def refundCell (recipient : UInt8) : Except CellError Cell :=
  CellBuilder.build ⟨bytesBits (List.replicate 32 170) ++ addressBits (account recipient) ++
    natToBits 4 1 ++ natToBits 8 100, []⟩

def refundParser : TraceParser ℕ :=
  { sampleParser with
    lib := { sampleLibraries with
      fromBocB64 := fun boc =>
        if boc = refundBody then refundCell 9
        else if boc = selfRefundBody then refundCell 3
        else .error .badBoc } }

/-- The gas service refunds 100 and logs it, for a fee of 7. -/
def refundTransaction (recipient : UInt8) (body : String) : Transaction :=
  { account := account 2
    hash := hashText 3
    totalFees := 7
    inMsg := some { hash := "in", destination := some (account 2), opcode := some opNativeRefund }
    outMsgs := [{ hash := "refund", destination := some (account recipient), value := some "100" },
      { hash := "log", messageContent := ⟨body⟩ }] }

/-- A refund in the third place, after two transactions of somebody else. -/
def refundTrace (recipient : UInt8) (body : String) : Trace :=
  let outside : Transaction := { account := account 9, hash := hashText 1 }
  sampleTrace [outside, outside, refundTransaction recipient body]

theorem refund_parsed {trace : Trace}
    (h : (parseTrace refundParser trace).map (·.map kind) = .ok [.gasRefunded]) :
    ∃ tagged pe, parseTraceTagged refundParser trace = .ok tagged ∧ pe ∈ tagged ∧
      kind pe.2 = .gasRefunded := by
  obtain ⟨events, hparse, hkinds⟩ := map_eq_ok.mp h
  obtain ⟨tagged, htagged, rfl⟩ := parseTrace_ok hparse
  obtain ⟨e, he, hk⟩ : ∃ e ∈ tagged.map Prod.snd, kind e = .gasRefunded := by
    rw [← List.mem_map, hkinds]
    exact List.mem_singleton_self _
  obtain ⟨pe, hpe, rfl⟩ := List.mem_map.mp he
  exact ⟨tagged, pe, htagged, hpe, hk⟩

/-- The refund goes to somebody else, and stands third. -/
theorem refund_cost_outsider :
    ∃ tagged, parseTraceTagged refundParser (refundTrace 9 refundBody) = .ok tagged ∧
      ∃ q common id recipient refunded cost,
        (AnyParser.transaction q, Event.gasRefunded common id recipient refunded cost) ∈ tagged ∧
        (calcMessageGas refundParser.ourAddresses
          (withoutRefund (refundTrace 9 refundBody).transactions 2)).map toString =
            .ok cost.amount := by
  obtain ⟨tagged, pe, htagged, hpe, hk⟩ :=
    refund_parsed (show (parseTrace refundParser (refundTrace 9 refundBody)).map (·.map kind) =
      .ok [.gasRefunded] by decide +kernel)
  obtain ⟨p, common, id, recipient, refunded, cost, rfl, haccount, ⟨i, hi⟩, hiff⟩ :=
    refund_cost_iff htagged hpe hk
  have hours : ∀ tx ∈ (refundTrace 9 refundBody).transactions, tx.account = account 2 →
      tx = refundTransaction 9 refundBody := by decide
  have hthird : some p.tx = some (refundTransaction 9 refundBody) :=
    congrArg some (hours p.tx (List.mem_of_getElem? hi) haccount)
  refine ⟨tagged, htagged, _, _, _, _, _, _, hpe, (hiff 2 hthird.symm).mpr (.inl ?_)⟩
  rw [Option.some.inj hthird]
  decide

/-- The refund goes to one of our own contracts, so that nothing was counted of it: the cost of
7 is reported as nothing. -/
theorem self_refund_hides_cost :
    ∃ tagged, parseTraceTagged refundParser (refundTrace 3 selfRefundBody) = .ok tagged ∧
      ∃ p : LogParser NativeGasRefundedMessage, ∃ common id recipient refunded cost,
        (AnyParser.transaction ⟨.nativeGasRefunded, p⟩,
          Event.gasRefunded common id recipient refunded cost) ∈ tagged ∧
        (refundTrace 3 selfRefundBody).transactions[2]? = some p.tx ∧ cost.amount = "0" ∧
        calcMessageGas refundParser.ourAddresses
          (withoutRefund (refundTrace 3 selfRefundBody).transactions 2) = .ok 7 := by
  obtain ⟨tagged, pe, htagged, hpe, hk⟩ :=
    refund_parsed (show (parseTrace refundParser (refundTrace 3 selfRefundBody)).map (·.map kind) =
      .ok [.gasRefunded] by decide +kernel)
  obtain ⟨p, common, id, recipient, refunded, rfl, hmem, haccount⟩ := refund_made htagged hpe hk
  have hours : ∀ tx ∈ (refundTrace 3 selfRefundBody).transactions, tx.account = account 2 →
      tx = refundTransaction 3 selfRefundBody := by decide
  refine ⟨tagged, htagged, p, common, id, recipient, refunded, _, hpe, ?_, ?_, ?_⟩
  · rw [hours p.tx hmem haccount]
    rfl
  · have hgas : refundGas refundParser.ourAddresses
        (refundTrace 3 selfRefundBody).transactions = 0 := by decide
    rw [hgas]
    rfl
  · decide

end Samples

end RefundCosts
