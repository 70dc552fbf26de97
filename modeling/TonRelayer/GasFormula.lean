import TonRelayer.GasCalculator

/-! What the gas calculator returns, as one sum over the trace. The order of the transactions,
of their messages and of our accounts plays no part in it. -/
namespace GasFormula

open Cells Types GasCalculator

def toOthers (our : List TonAddress) (msg : TransactionMessage) : Bool :=
  msg.destination.any fun dest => decide (dest ∉ our)

def otherTransactions (our : List TonAddress) (txs : List Transaction) : List Transaction :=
  txs.filter fun tx => tx.account ∉ our

def values (msgs : List TransactionMessage) : ℤ := (msgs.map extractMsgValue).sum

def totalFees (our : List TonAddress) (txs : List Transaction) : ℤ :=
  ((ourTransactions our txs).map fun tx => (tx.totalFees.toNat : ℤ)).sum

def fwdFees (our : List TonAddress) (txs : List Transaction) : ℤ :=
  ((outMessages (ourTransactions our txs)).map extractFwdFee).sum

def sentToOthers (our : List TonAddress) (txs : List Transaction) : ℤ :=
  values ((outMessages (ourTransactions our txs)).filter (toOthers our))

def receivedFromOthers (our : List TonAddress) (txs : List Transaction) : ℤ :=
  values ((outMessages (otherTransactions our txs)).filter (toOurs our))

def closedCost (our : List TonAddress) (txs : List Transaction) : ℤ :=
  totalFees our txs + fwdFees our txs + sentToOthers our txs - receivedFromOthers our txs

theorem values_append (msgs msgs' : List TransactionMessage) :
    values (msgs ++ msgs') = values msgs + values msgs' := by
  rw [values, List.map_append, List.sum_append, values, values]

theorem ourMessages_cost {our : List TonAddress} {tx : Transaction} (h : tx.account ∈ our)
    (msgs : List TransactionMessage) :
    (msgs.map (messageCost our tx)).sum =
      (msgs.map extractFwdFee).sum + values (msgs.filter (toOthers our)) := by
  induction msgs with
  | nil => rfl
  | cons msg msgs ih =>
    rw [List.map_cons, List.sum_cons, ih, List.map_cons, List.sum_cons, messageCost, if_pos h]
    cases hdest : msg.destination with
    | none => simp [toOthers, hdest, add_assoc]
    | some dest =>
      by_cases hd : dest ∈ our
      · simp [toOthers, hdest, h, hd, add_assoc]
      · have hother : toOthers our msg = true := by simp [toOthers, hdest, hd]
        simp only [if_pos h, if_neg hd, List.filter_cons_of_pos hother, values, List.map_cons,
          List.sum_cons]
        ring

theorem otherMessages_cost {our : List TonAddress} {tx : Transaction} (h : tx.account ∉ our)
    (msgs : List TransactionMessage) :
    (msgs.map (messageCost our tx)).sum = -values (msgs.filter (toOurs our)) := by
  induction msgs with
  | nil => rfl
  | cons msg msgs ih =>
    rw [List.map_cons, List.sum_cons, ih, messageCost, if_neg h]
    cases hdest : msg.destination with
    | none => simp [toOurs, hdest]
    | some dest =>
      by_cases hd : dest ∈ our
      · have hours : toOurs our msg = true := by simp [toOurs, hdest, hd]
        simp only [if_neg h, if_pos hd, List.filter_cons_of_pos hours, values, List.map_cons,
          List.sum_cons]
        ring
      · simp [toOurs, hdest, h, hd]

/-- The sum over all transactions splits by whose the transaction is. -/
theorem sum_eq_closedCost (our : List TonAddress) (txs : List Transaction) :
    (txs.map (transactionCost our)).sum = closedCost our txs := by
  induction txs with
  | nil => rfl
  | cons tx txs ih =>
    rw [List.map_cons, List.sum_cons, ih, transactionCost]
    by_cases h : tx.account ∈ our
    · rw [ourMessages_cost h, if_pos h]
      simp only [closedCost, totalFees, fwdFees, sentToOthers, receivedFromOthers,
        ourTransactions, otherTransactions, outMessages, h, List.filter_cons, decide_true,
        decide_not, Bool.not_true, if_true, Bool.false_eq_true, if_false, List.map_cons,
        List.sum_cons, List.flatMap_cons, List.map_append, List.sum_append,
        List.filter_append, values_append]
      ring
    · rw [otherMessages_cost h, if_neg h]
      simp only [closedCost, totalFees, fwdFees, sentToOthers, receivedFromOthers,
        ourTransactions, otherTransactions, outMessages, h, List.filter_cons, decide_false,
        decide_not, Bool.not_false, if_true, Bool.false_eq_true, if_false, List.flatMap_cons,
        List.filter_append, values_append]
      ring

theorem amount_unreadable {s : Option String} (h : s.bind parseI128 = none) : amount s = 0 := by
  cases s with
  | none => rfl
  | some text => simp only [amount, Option.getD_some, show parseI128 text = none from h,
      Option.getD_none]

/-- The same transaction with its messages in another order. -/
def SameMessages (tx tx' : Transaction) : Prop :=
  ∃ msgs, tx.outMsgs.Perm msgs ∧ tx' = { tx with outMsgs := msgs }

def Reordered (txs txs' : List Transaction) : Prop :=
  ∃ mid, txs.Perm mid ∧ List.Forall₂ SameMessages mid txs'

theorem transactionCost_sameMessages {our : List TonAddress} {tx tx' : Transaction}
    (h : SameMessages tx tx') : transactionCost our tx' = transactionCost our tx := by
  obtain ⟨msgs, hperm, rfl⟩ := h
  have hsame : messageCost our { tx with outMsgs := msgs } = messageCost our tx := rfl
  rw [transactionCost, transactionCost, hsame]
  exact congrArg _ (hperm.map _).sum_eq.symm

theorem sum_reordered {our : List TonAddress} {txs txs' : List Transaction}
    (h : Reordered txs txs') :
    (txs'.map (transactionCost our)).sum = (txs.map (transactionCost our)).sum := by
  obtain ⟨mid, hperm, hmsgs⟩ := h
  rw [(hperm.map _).sum_eq]
  clear hperm
  induction hmsgs with
  | nil => rfl
  | cons hsame _ ih =>
    rw [List.map_cons, List.map_cons, List.sum_cons, List.sum_cons, ih,
      transactionCost_sameMessages hsame]

theorem transactionCost_congr {our our' : List TonAddress} (h : ∀ a, a ∈ our' ↔ a ∈ our) :
    transactionCost our' = transactionCost our := by
  funext tx
  have hmsg : messageCost our' tx = messageCost our tx := by
    funext msg
    simp only [messageCost, h]
  simp only [transactionCost, hmsg, h]

theorem cost_reordered {our our' : List TonAddress} {txs txs' : List Transaction}
    (hour : ∀ a, a ∈ our' ↔ a ∈ our) (h : Reordered txs txs') :
    cost our' txs' = cost our txs := by
  rw [cost_eq, cost_eq, transactionCost_congr hour, sum_reordered h]

/-- The loop over the balances returns the closed sum when it fits; amounts that are missing or
do not parse count nothing, and only the members of the lists matter, never their order. -/
theorem cost_closed_form (our : List TonAddress) (txs : List Transaction)
    (hrange : -2 ^ 127 ≤ closedCost our txs ∧ closedCost our txs < 2 ^ 127) :
    cost our txs = .ok (closedCost our txs) ∧
      (∀ msg : TransactionMessage,
        (msg.value.bind parseI128 = none → extractMsgValue msg = 0) ∧
        (msg.fwdFee.bind parseI128 = none → extractFwdFee msg = 0)) ∧
      ∀ our' txs', (∀ a, a ∈ our' ↔ a ∈ our) → Reordered txs txs' →
        cost our' txs' = cost our txs := by
  refine ⟨?_, fun msg => ⟨amount_unreadable, amount_unreadable⟩,
    fun our' txs' => cost_reordered⟩
  rw [cost_eq, sum_eq_closedCost, wrapI128_eq hrange.1 hrange.2]

/-- The relayed transfer: fees 205, forwarding 5, 20 sent out and 100 taken in; its accounts
are listed once, then twice and the other way round. -/
theorem cost_closed_form_relayed :
    cost [account 1, account 2] relayedTransfer = .ok 130 ∧
      cost [account 2, account 1, account 2] relayedTransfer.reverse = .ok 130 := by
  have h := cost_closed_form [account 1, account 2] relayedTransfer (by decide)
  have hcost : cost [account 1, account 2] relayedTransfer = .ok 130 := h.1
  refine ⟨hcost, (h.2.2 _ _ (by simp) ?_).trans hcost⟩
  exact ⟨_, (List.reverse_perm relayedTransfer).symm,
    List.forall₂_same.mpr fun tx _ => ⟨tx.outMsgs, .rfl, rfl⟩⟩

end GasFormula
