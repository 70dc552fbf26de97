import TonRelayer.Types
import Mathlib.Algebra.BigOperators.Group.List.Basic
import Mathlib.Data.Int.Order.Basic
import Mathlib.Data.List.AList
import Mathlib.Data.List.Count
import Mathlib.Tactic.Linarith
import Mathlib.Tactic.Ring

/-! What a trace costs the relayer, from the messages of its transactions.
The source keeps a signed balance for each of our accounts; a balance is touched only for
accounts that are in the map from the start. `i128` arithmetic wraps, as in a release build. -/
namespace GasCalculator

open Cells Types

def digit? (c : Char) : Option ℕ :=
  if '0' ≤ c ∧ c ≤ '9' then some (c.toNat - '0'.toNat) else none

def parseDigits (cs : List Char) : Option ℕ :=
  if cs = [] then none
  else cs.foldlM (fun n c => (digit? c).map fun d => n * 10 + d) 0

/-- `str::parse::<i128>`: an optional sign, digits, and a value in range. -/
def parseI128 (s : String) : Option ℤ :=
  match s.toList with
  | '-' :: cs => (parseDigits cs).bind fun n => if n ≤ 2 ^ 127 then some (-n) else none
  | '+' :: cs | cs => (parseDigits cs).bind fun n => if n < 2 ^ 127 then some n else none

def wrapI128 (x : ℤ) : ℤ := Int.bmod x (2 ^ 128)

/-- A missing or unreadable amount counts as zero. -/
def amount (s : Option String) : ℤ := (parseI128 (s.getD "0")).getD 0

def extractFwdFee (msg : TransactionMessage) : ℤ := amount msg.fwdFee
def extractMsgValue (msg : TransactionMessage) : ℤ := amount msg.value

abbrev Balances := AList fun _ : TonAddress => ℤ

def addCost (balances : Balances) (account : TonAddress) (cost : ℤ) : Balances :=
  balances.insert account (wrapI128 ((balances.lookup account).getD 0 + cost))

def isOurTransaction (balances : Balances) (tx : Transaction) : Bool :=
  decide (tx.account ∈ balances)

def usReceiving (balances : Balances) (tx : Transaction) (dest : TonAddress) : Bool :=
  !decide (tx.account ∈ balances) && decide (dest ∈ balances)

def usSending (balances : Balances) (tx : Transaction) (dest : TonAddress) : Bool :=
  decide (tx.account ∈ balances) && !decide (dest ∈ balances)

/-- The body of the loop over `out_msgs`. -/
def addMessage (tx : Transaction) (balances : Balances) (msg : TransactionMessage) : Balances :=
  let balances :=
    if isOurTransaction balances tx then addCost balances tx.account (extractFwdFee msg)
    else balances
  match msg.destination with
  | none => balances
  | some dest =>
    let value := extractMsgValue msg
    let balances :=
      if usSending balances tx dest then addCost balances tx.account value else balances
    if usReceiving balances tx dest then addCost balances dest (wrapI128 (0 - value))
    else balances

def addTransaction (balances : Balances) (tx : Transaction) : Balances :=
  let balances :=
    if isOurTransaction balances tx then addCost balances tx.account tx.totalFees.toNat
    else balances
  tx.outMsgs.foldl (addMessage tx) balances

inductive GasError where
  | conversionError (message : String)
  | gasCalculationError (message : String)
  deriving DecidableEq, Repr

def startBalances (ourAddresses : List TonAddress) : Balances :=
  ourAddresses.foldl (fun balances a => balances.insert a 0) ∅

def cost (ourAddresses : List TonAddress) (transactions : List Transaction) :
    Except GasError ℤ :=
  let balances := transactions.foldl addTransaction (startBalances ourAddresses)
  .ok ((balances.entries.map (·.2)).foldl (fun total x => wrapI128 (total + x)) 0)

/-- `as u64` of a positive total. -/
def positivePart (total : ℤ) : ℕ := if total > 0 then (total % 2 ^ 64).toNat else 0

def calcMessageGas (ourAddresses : List TonAddress) (transactions : List Transaction) :
    Except GasError ℕ := do
  let total ← cost ourAddresses transactions
  return positivePart total

def calcMessageGasNativeGasRefunded (ourAddresses : List TonAddress)
    (transactions : List Transaction) : Except GasError ℕ :=
  match transactions[2]? with
  | none => .ok 0
  | some tx2 => match tx2.outMsgs.head? with
    | none => .ok 0
    | some outMsg => do
      let refund := match outMsg.value with
        | some value => (parseI128 value).getD 0
        | none => 0
      let balanceDiff ← cost ourAddresses transactions
      return positivePart (wrapI128 (balanceDiff - refund))

section Wrapping

theorem wrapI128_add_wrap (x y : ℤ) : wrapI128 (x + wrapI128 y) = wrapI128 (x + y) :=
  Int.add_bmod_bmod

theorem wrapI128_wrap_add (x y : ℤ) : wrapI128 (wrapI128 x + y) = wrapI128 (x + y) :=
  Int.bmod_add_bmod

theorem wrapI128_wrap (x : ℤ) : wrapI128 (wrapI128 x) = wrapI128 x := Int.bmod_bmod

theorem wrapI128_eq {x : ℤ} (h : -2 ^ 127 ≤ x) (h' : x < 2 ^ 127) : wrapI128 x = x := by
  apply Int.bmod_eq_of_le <;> norm_num <;> linarith

theorem foldl_wrapI128 (l : List ℤ) (x : ℤ) :
    l.foldl (fun total x => wrapI128 (total + x)) (wrapI128 x) = wrapI128 (x + l.sum) := by
  induction l generalizing x with
  | nil => simp
  | cons y l ih =>
    rw [List.foldl_cons, wrapI128_wrap_add, ih, List.sum_cons, add_assoc]

end Wrapping

/-- The sum the source returns for a map of balances. -/
def total (balances : Balances) : ℤ := wrapI128 ((balances.entries.map (·.2)).sum)

/-- `balances` are those of exactly our accounts. -/
def KeysAre (ourAddresses : List TonAddress) (balances : Balances) : Prop :=
  ∀ a, a ∈ balances ↔ a ∈ ourAddresses

theorem sum_insert {balances : Balances} {a : TonAddress} (h : a ∈ balances) (v : ℤ) :
    ((balances.insert a v).entries.map (·.2)).sum =
      (balances.entries.map (·.2)).sum - (balances.lookup a).getD 0 + v := by
  obtain ⟨old, l₁, l₂, hl₁, heq, herase⟩ := List.exists_of_kerase (a := a) h
  have hlookup : balances.lookup a = some old := by
    rw [AList.lookup, heq, List.dlookup_append, (List.dlookup_eq_none).mpr hl₁]
    simp
  simp only [AList.insert, List.kinsert_def, herase, hlookup, List.map_cons, List.map_append,
    List.sum_cons, List.sum_append, Option.getD_some]
  rw [heq]
  simp only [List.map_append, List.map_cons, List.sum_append, List.sum_cons]
  ring

theorem addCost_keys {our : List TonAddress} {balances : Balances} (h : KeysAre our balances)
    {a : TonAddress} (ha : a ∈ our) (c : ℤ) : KeysAre our (addCost balances a c) := by
  intro b
  rw [addCost, AList.mem_insert, h b]
  exact ⟨fun hb => hb.elim (· ▸ ha) id, .inr⟩

theorem addCost_total {balances : Balances} {a : TonAddress} (h : a ∈ balances) (c : ℤ) :
    total (addCost balances a c) = wrapI128 (total balances + c) := by
  rw [total, addCost, sum_insert h, wrapI128_add_wrap, total, wrapI128_wrap_add]
  congr 1
  ring

/-- The balances a step leads to: still ours, and the total has moved by `c`. -/
def Moved (our : List TonAddress) (balances next : Balances) (c : ℤ) : Prop :=
  KeysAre our next ∧ total next = wrapI128 (total balances + c)

theorem moved_refl {our : List TonAddress} {balances : Balances} (h : KeysAre our balances) :
    Moved our balances balances 0 :=
  ⟨h, by rw [add_zero, total, wrapI128_wrap]⟩

theorem moved_trans {our : List TonAddress} {b₁ b₂ b₃ : Balances} {c d : ℤ}
    (h : Moved our b₁ b₂ c) (h' : Moved our b₂ b₃ d) : Moved our b₁ b₃ (c + d) :=
  ⟨h'.1, by rw [h'.2, h.2, wrapI128_wrap_add, add_assoc]⟩

theorem moved_addCost {our : List TonAddress} {balances : Balances}
    (h : KeysAre our balances) {a : TonAddress} (ha : a ∈ our) (c : ℤ) :
    Moved our balances (addCost balances a c) c :=
  ⟨addCost_keys h ha c, addCost_total ((h a).mpr ha) c⟩

/-- A step of the source that charges an account of ours under a condition. -/
theorem moved_if {our : List TonAddress} {balances : Balances} (h : KeysAre our balances)
    {p : Bool} {a : TonAddress} (ha : p = true → a ∈ our) (c : ℤ) :
    Moved our balances (if p then addCost balances a c else balances) (if p then c else 0) := by
  cases p with
  | true => exact moved_addCost h (ha rfl) c
  | false => exact moved_refl h

def messageCost (our : List TonAddress) (tx : Transaction) (msg : TransactionMessage) : ℤ :=
  (if tx.account ∈ our then extractFwdFee msg else 0) +
    match msg.destination with
    | none => 0
    | some dest =>
      if tx.account ∈ our then if dest ∈ our then 0 else extractMsgValue msg
      else if dest ∈ our then -extractMsgValue msg else 0

def transactionCost (our : List TonAddress) (tx : Transaction) : ℤ :=
  (if tx.account ∈ our then (tx.totalFees.toNat : ℤ) else 0) +
    (tx.outMsgs.map (messageCost our tx)).sum

theorem wrapI128_congr_right {x y z : ℤ} (h : wrapI128 y = wrapI128 z) :
    wrapI128 (x + y) = wrapI128 (x + z) := by
  rw [← wrapI128_add_wrap, h, wrapI128_add_wrap]

theorem addMessage_moved {our : List TonAddress} {balances : Balances}
    (h : KeysAre our balances) (tx : Transaction) (msg : TransactionMessage) :
    Moved our balances (addMessage tx balances msg) (messageCost our tx msg) := by
  have hours : isOurTransaction balances tx = decide (tx.account ∈ our) := by
    simp [isOurTransaction, h tx.account]
  have hfee := moved_if h (p := isOurTransaction balances tx) (a := tx.account)
    (by simp [hours]) (extractFwdFee msg)
  rw [addMessage, messageCost]
  cases hdest : msg.destination with
  | none => simpa [hours] using hfee
  | some dest =>
    obtain ⟨b₁, hb₁⟩ : ∃ b, b = if isOurTransaction balances tx then
      addCost balances tx.account (extractFwdFee msg) else balances := ⟨_, rfl⟩
    simp only [← hb₁] at hfee ⊢
    have hsend := moved_if hfee.1 (p := usSending b₁ tx dest) (a := tx.account)
      (by simp +contextual [usSending, hfee.1 tx.account]) (extractMsgValue msg)
    obtain ⟨b₂, hb₂⟩ : ∃ b, b = if usSending b₁ tx dest then
      addCost b₁ tx.account (extractMsgValue msg) else b₁ := ⟨_, rfl⟩
    simp only [← hb₂] at hsend ⊢
    have hreceive := moved_if hsend.1 (p := usReceiving b₂ tx dest) (a := dest)
      (by simp +contextual [usReceiving, hsend.1 dest]) (wrapI128 (0 - extractMsgValue msg))
    have hmoved := moved_trans (moved_trans hfee hsend) hreceive
    refine ⟨hmoved.1, hmoved.2.trans (wrapI128_congr_right ?_)⟩
    simp only [hours, usSending, usReceiving, hfee.1 tx.account, hfee.1 dest,
      hsend.1 tx.account, hsend.1 dest, decide_eq_true_eq]
    by_cases ha : tx.account ∈ our <;> by_cases hd : dest ∈ our <;>
      simp [ha, hd, wrapI128_wrap]

theorem foldl_moved {α : Type*} {our : List TonAddress} {step : Balances → α → Balances}
    {c : α → ℤ} (hstep : ∀ b x, KeysAre our b → Moved our b (step b x) (c x))
    (l : List α) {balances : Balances} (h : KeysAre our balances) :
    Moved our balances (l.foldl step balances) (l.map c).sum := by
  induction l generalizing balances with
  | nil => exact moved_refl h
  | cons x l ih =>
    rw [List.foldl_cons, List.map_cons, List.sum_cons]
    exact moved_trans (hstep balances x h) (ih (hstep balances x h).1)

theorem addTransaction_moved {our : List TonAddress} {balances : Balances}
    (h : KeysAre our balances) (tx : Transaction) :
    Moved our balances (addTransaction balances tx) (transactionCost our tx) := by
  have hours : isOurTransaction balances tx = decide (tx.account ∈ our) := by
    simp [isOurTransaction, h tx.account]
  have hfees := moved_if h (p := isOurTransaction balances tx) (a := tx.account)
    (by simp [hours]) tx.totalFees.toNat
  have hmsgs := foldl_moved (fun b msg hb => addMessage_moved hb tx msg) tx.outMsgs hfees.1
  rw [addTransaction, transactionCost]
  simpa [hours] using moved_trans hfees hmsgs

theorem startBalances_keys (our : List TonAddress) : KeysAre our (startBalances our) := by
  suffices ∀ balances : Balances, ∀ a,
      a ∈ our.foldl (fun b a => b.insert a 0) balances ↔ a ∈ our ∨ a ∈ balances by
    intro a
    rw [startBalances, this ∅ a]
    simp
  induction our with
  | nil => simp
  | cons x our ih =>
    intro balances a
    rw [List.foldl_cons, ih, AList.mem_insert, List.mem_cons]
    tauto

theorem startBalances_total (our : List TonAddress) : total (startBalances our) = 0 := by
  suffices ∀ balances : Balances, (∀ e ∈ balances.entries, e.2 = 0) →
      ∀ e ∈ (our.foldl (fun b a => b.insert a 0) balances).entries, e.2 = 0 by
    have hzero := this ∅ (by simp)
    rw [total, List.sum_eq_zero]
    · rfl
    · intro x hx
      obtain ⟨e, he, rfl⟩ := List.mem_map.mp hx
      exact hzero e he
  induction our with
  | nil => exact fun _ h => h
  | cons x our ih =>
    intro balances h
    refine ih _ fun e he => ?_
    rcases List.mem_cons.mp he with rfl | he
    · rfl
    · exact h e ((List.kerase_sublist x balances.entries).subset he)

/-- The cost is the sum of what each message and each fee moves, whatever the intermediate
balances were. -/
theorem cost_eq (our : List TonAddress) (txs : List Transaction) :
    cost our txs = .ok (wrapI128 (txs.map (transactionCost our)).sum) := by
  have hmoved := (foldl_moved (fun b tx hb => addTransaction_moved hb tx) txs
    (startBalances_keys our)).2
  rw [startBalances_total, zero_add] at hmoved
  rw [cost, ← hmoved, total]
  have hfold := foldl_wrapI128
    ((txs.foldl addTransaction (startBalances our)).entries.map (·.2)) 0
  rw [zero_add] at hfold
  exact congrArg Except.ok hfold

def ourTransactions (our : List TonAddress) (txs : List Transaction) : List Transaction :=
  txs.filter fun tx => tx.account ∈ our

def balanceLoss (our : List TonAddress) (txs : List Transaction) : ℤ :=
  ((ourTransactions our txs).map fun tx =>
    amount tx.accountStateBefore.balance - amount tx.accountStateAfter.balance).sum

def outMessages (txs : List Transaction) : List TransactionMessage := txs.flatMap (·.outMsgs)

/-- The messages that our transactions process. -/
def inMessages (our : List TonAddress) (txs : List Transaction) : List TransactionMessage :=
  (ourTransactions our txs).filterMap (·.inMsg)

def toOurs (our : List TonAddress) (msg : TransactionMessage) : Bool :=
  msg.destination.any fun dest => decide (dest ∈ our)

def inValue (tx : Transaction) : ℤ := (tx.inMsg.map extractMsgValue).getD 0

def sentValue (tx : Transaction) : ℤ :=
  (tx.outMsgs.map fun msg => extractMsgValue msg + extractFwdFee msg).sum

/-- The chain's accounting of our transactions, over a whole trace: every message to us is
processed once, and every value we are handed was sent once, within the trace. -/
structure CompleteTrace (our : List TonAddress) (txs : List Transaction) : Prop where
  accounting : ∀ tx ∈ ourTransactions our txs,
    amount tx.accountStateBefore.balance - amount tx.accountStateAfter.balance =
      tx.totalFees.toNat + sentValue tx - inValue tx
  processed : ∀ msg ∈ outMessages txs, toOurs our msg → (inMessages our txs).count msg = 1
  sent : ∀ msg ∈ inMessages our txs, extractMsgValue msg ≠ 0 → (outMessages txs).count msg = 1

/-- Value moves only in addressed messages: what we send has a destination, and what our
transactions process was sent to us. -/
structure ValueAddressed (our : List TonAddress) (txs : List Transaction) : Prop where
  sent : ∀ tx ∈ ourTransactions our txs, ∀ msg ∈ tx.outMsgs, extractMsgValue msg ≠ 0 →
    msg.destination ≠ none
  processed : ∀ msg ∈ inMessages our txs, extractMsgValue msg ≠ 0 → toOurs our msg

def receivedValue (our : List TonAddress) (msgs : List TransactionMessage) : ℤ :=
  ((msgs.filter (toOurs our)).map extractMsgValue).sum

theorem messageCost_eq {our : List TonAddress} {tx : Transaction} {msg : TransactionMessage}
    (h : tx.account ∈ our → extractMsgValue msg ≠ 0 → msg.destination ≠ none) :
    messageCost our tx msg =
      (if tx.account ∈ our then extractMsgValue msg + extractFwdFee msg else 0) -
        if toOurs our msg then extractMsgValue msg else 0 := by
  rw [messageCost, toOurs]
  cases hdest : msg.destination with
  | none =>
    by_cases ha : tx.account ∈ our
    · have hzero : extractMsgValue msg = 0 := by
        by_contra hne
        exact h ha hne hdest
      simp [ha, hzero]
    · simp [ha]
  | some dest =>
    by_cases ha : tx.account ∈ our <;> by_cases hd : dest ∈ our <;> simp [ha, hd]
    ring

theorem transactionCost_eq {our : List TonAddress} {tx : Transaction}
    (h : tx.account ∈ our → ∀ msg ∈ tx.outMsgs, extractMsgValue msg ≠ 0 →
      msg.destination ≠ none) :
    transactionCost our tx =
      (if tx.account ∈ our then (tx.totalFees.toNat : ℤ) + sentValue tx else 0) -
        receivedValue our tx.outMsgs := by
  have hmsgs : (tx.outMsgs.map (messageCost our tx)).sum =
      (if tx.account ∈ our then sentValue tx else 0) - receivedValue our tx.outMsgs := by
    rw [sentValue, receivedValue]
    generalize tx.outMsgs = msgs at h
    induction msgs with
    | nil => simp
    | cons msg msgs ih =>
      have hmsg : messageCost our tx msg = _ := messageCost_eq fun ha => h ha msg (by simp)
      have hrest := ih fun ha m hm => h ha m (List.mem_cons_of_mem _ hm)
      rw [List.map_cons, List.sum_cons, hmsg, hrest]
      by_cases ha : tx.account ∈ our <;> cases ht : toOurs our msg <;> simp [ha, ht] <;> ring
  rw [transactionCost, hmsgs]
  split <;> ring

/-- Only messages that carry value count in a sum of values. -/
theorem sum_values (msgs : List TransactionMessage) : (msgs.map extractMsgValue).sum =
    ((msgs.filter fun msg => extractMsgValue msg ≠ 0).map extractMsgValue).sum := by
  induction msgs with
  | nil => rfl
  | cons msg msgs ih => by_cases h : extractMsgValue msg = 0 <;> simp [h, ih]

/-- What was sent to us is what our transactions processed: the same messages, each once. -/
theorem received_eq_processed {our : List TonAddress} {txs : List Transaction}
    (h : CompleteTrace our txs) (ha : ValueAddressed our txs) :
    receivedValue our (outMessages txs) = ((inMessages our txs).map extractMsgValue).sum := by
  rw [receivedValue, sum_values, sum_values (inMessages our txs)]
  refine (List.Perm.map _ (List.perm_iff_count.mpr fun msg => ?_)).sum_eq
  by_cases hvalue : extractMsgValue msg = 0
  · rw [List.count_eq_zero_of_not_mem (by simp [hvalue]),
      List.count_eq_zero_of_not_mem (by simp [hvalue])]
  · have hcount (l : List TransactionMessage) :
        (l.filter fun m => extractMsgValue m ≠ 0).count msg = l.count msg :=
      List.count_filter (by simpa using hvalue)
    rw [hcount, hcount]
    by_cases hours : toOurs our msg
    · rw [List.count_filter hours]
      by_cases hin : msg ∈ inMessages our txs
      · have hout := h.sent msg hin hvalue
        rw [hout, h.processed msg (List.count_pos_iff.mp (by omega)) hours]
      · have hout : msg ∉ outMessages txs := fun hout => hin <|
          List.count_pos_iff.mp (by rw [h.processed msg hout hours]; omega)
        rw [List.count_eq_zero_of_not_mem hin, List.count_eq_zero_of_not_mem hout]
    · have hin : msg ∉ inMessages our txs := fun hin => hours (ha.processed msg hin hvalue)
      rw [List.count_eq_zero_of_not_mem hin, List.count_eq_zero_of_not_mem (by simp [hours])]

theorem sum_transactionCost {our : List TonAddress} {txs : List Transaction}
    (h : ∀ tx ∈ ourTransactions our txs, ∀ msg ∈ tx.outMsgs, extractMsgValue msg ≠ 0 →
      msg.destination ≠ none) :
    (txs.map (transactionCost our)).sum =
      ((ourTransactions our txs).map fun tx => (tx.totalFees.toNat : ℤ) + sentValue tx).sum -
        receivedValue our (outMessages txs) := by
  induction txs with
  | nil => simp [ourTransactions, outMessages, receivedValue]
  | cons tx txs ih =>
    have htx : transactionCost our tx = _ := transactionCost_eq fun hour =>
      h tx (by simp [ourTransactions, hour])
    have hrest := ih fun t ht => h t (by
      simp only [ourTransactions, List.mem_filter, List.mem_cons] at ht ⊢
      exact ⟨.inr ht.1, ht.2⟩)
    rw [List.map_cons, List.sum_cons, htx, hrest]
    by_cases hour : tx.account ∈ our <;>
      simp [ourTransactions, outMessages, receivedValue, hour] <;> ring

theorem balanceLoss_eq {our : List TonAddress} {txs : List Transaction}
    (h : CompleteTrace our txs) : balanceLoss our txs =
      ((ourTransactions our txs).map fun tx => (tx.totalFees.toNat : ℤ) + sentValue tx).sum -
        ((inMessages our txs).map extractMsgValue).sum := by
  have hacc := h.accounting
  rw [balanceLoss, inMessages]
  generalize ourTransactions our txs = ours at hacc
  induction ours with
  | nil => simp
  | cons tx ours ih =>
    have hrest := ih fun t ht => hacc t (List.mem_cons_of_mem _ ht)
    rw [List.map_cons, List.sum_cons, hrest, hacc tx (by simp), inValue]
    cases hin : tx.inMsg <;> simp [hin] <;> ring

/-- When value moves only in addressed messages, the reported cost of a complete trace is what
our accounts lost, and the gas is the positive part of it. -/
theorem cost_is_balance_loss (our : List TonAddress) (txs : List Transaction)
    (h : CompleteTrace our txs) (ha : ValueAddressed our txs)
    (hrange : -2 ^ 127 ≤ balanceLoss our txs ∧ balanceLoss our txs < 2 ^ 64) :
    cost our txs = .ok (balanceLoss our txs) ∧
      calcMessageGas our txs = .ok (balanceLoss our txs).toNat := by
  have hcost : cost our txs = .ok (balanceLoss our txs) := by
    rw [cost_eq, sum_transactionCost ha.sent, received_eq_processed h ha, ← balanceLoss_eq h,
      wrapI128_eq hrange.1 (by linarith [hrange.2])]
  refine ⟨hcost, ?_⟩
  rw [calcMessageGas, hcost]
  change Except.ok (positivePart _) = _
  rw [positivePart]
  split
  · rw [Int.emod_eq_of_lt (by omega) hrange.2]
  · rw [Int.toNat_of_nonpos (by omega)]

def account (n : UInt8) : TonAddress := ⟨0, ⟨List.replicate 32 n, rfl⟩⟩

/-- An outsider sends 100 to the first of our two accounts, which passes 70 on to the second;
the second sends 20 away. -/
def relayedTransfer : List Transaction :=
  let first : TransactionMessage :=
    { hash := "a", destination := account 1, value := "100", fwdFee := "1" }
  let second : TransactionMessage :=
    { hash := "b", destination := account 2, value := "70", fwdFee := "2" }
  let third : TransactionMessage :=
    { hash := "c", destination := account 9, value := "20", fwdFee := "3" }
  [{ account := account 9, hash := "t0", totalFees := 5, outMsgs := [first] },
    { account := account 1, hash := "t1", totalFees := 5, inMsg := first, outMsgs := [second],
      accountStateBefore := ⟨"1000"⟩, accountStateAfter := ⟨"1023"⟩ },
    { account := account 2, hash := "t2", totalFees := 200, inMsg := second,
      outMsgs := [third], accountStateBefore := ⟨"1000"⟩, accountStateAfter := ⟨"847"⟩ }]

theorem cost_is_balance_loss_relayed :
    balanceLoss [account 1, account 2] relayedTransfer = 130 ∧
      calcMessageGas [account 1, account 2] relayedTransfer = .ok 130 :=
  ⟨by decide, (cost_is_balance_loss [account 1, account 2] relayedTransfer
    ⟨by decide, by decide, by decide⟩ ⟨by decide, by decide⟩ (by decide)).2⟩

/-- One of our accounts sends 5 in a message without destination. -/
def unaddressedMessage : List Transaction :=
  [{ account := account 1, hash := "t", outMsgs := [{ hash := "a", value := "5" }],
      accountStateBefore := ⟨"5"⟩, accountStateAfter := ⟨"0"⟩ }]

/-- One of our accounts processes a message of 5 that was sent to somebody else. -/
def misdirectedMessage : List Transaction :=
  let msg : TransactionMessage := { hash := "a", destination := account 9, value := "5" }
  [{ account := account 8, hash := "t", outMsgs := [msg] },
    { account := account 1, hash := "u", inMsg := msg,
      accountStateBefore := ⟨"0"⟩, accountStateAfter := ⟨"5"⟩ }]

theorem cost_misses_unaddressed_value :
    (CompleteTrace [account 1] unaddressedMessage ∧
      balanceLoss [account 1] unaddressedMessage = 5 ∧
      cost [account 1] unaddressedMessage = .ok 0) ∧
    (CompleteTrace [account 1] misdirectedMessage ∧
      balanceLoss [account 1] misdirectedMessage = -5 ∧
      cost [account 1] misdirectedMessage = .ok 0) :=
  ⟨⟨⟨by decide, by decide, by decide⟩, by decide, rfl⟩,
    ⟨by decide, by decide, by decide⟩, by decide, rfl⟩

end GasCalculator
