import TonRelayer.Broadcasts

/-! A wallet that a broadcast acquires is released, whatever the calls answer.
Query ids are taken and messages posted only between the two. -/
namespace WalletRelease

open Interactions RelayerExecute Broadcasts
open RefundBroadcast (Wallet V3MessageResponse RefundTaskFields alreadyExecuted)

abbrev Log := List (Interaction Call Answer)

/-- Nothing is acquired, released, posted or issued. -/
def Quiet : Interaction Call Answer → Prop
  | ⟨.estimate _, _⟩ | ⟨.now, _⟩ => True
  | ⟨.lock _, locked⟩ => locked = false
  | ⟨.unlock _, _⟩ | ⟨.nextQueryId _ _ _, _⟩ | ⟨.postV3Message _, _⟩ => False

/-- While a wallet is held no lock changes, and ids are taken for that wallet. -/
def Inside (key : String) : Interaction Call Answer → Prop
  | ⟨.estimate _, _⟩ | ⟨.now, _⟩ | ⟨.postV3Message _, _⟩ => True
  | ⟨.lock _, _⟩ | ⟨.unlock _, _⟩ => False
  | ⟨.nextQueryId address _ _, _⟩ => address = key

/-- No wallet is acquired, or one is, and its release is the last call. -/
inductive Balanced (B : TONBroadcaster) (log : Log) : Prop where
  | untaken (h : ∀ i ∈ log, Quiet i)
  | released (wallet : Wallet) (before inside : Log) (hwallet : wallet ∈ B.wallets)
      (hlog : log = before ++ ⟨.lock (B.key wallet), true⟩ ::
        (inside ++ [⟨.unlock (B.key wallet), ()⟩]))
      (hbefore : ∀ i ∈ before, Quiet i) (hinside : ∀ i ∈ inside, Inside (B.key wallet) i)

/-- Every run to completion is balanced: it ends with a result or an error. -/
def Balances {α : Type} (B : TONBroadcaster) (x : Async α) : Prop :=
  ∀ log r, Runs x.run log r → (∀ message, r ≠ .error (.panic message)) → Balanced B log

variable {B : TONBroadcaster} {α β : Type}

theorem balances_quiet {x : Async α} (h : Emits Quiet x.run) : Balances B x :=
  fun log r hrun _ => .untaken (h log r hrun)

theorem balances_then {x : Async α} {f : α → Async β} (hx : Emits Quiet x.run)
    (hf : ∀ a, Balances B (f a)) : Balances B (x >>= f) := by
  intro log r h hr
  rcases runs_then.mp h with ⟨e, hrun, -⟩ | ⟨before, a, after, rfl, hrun, hrest⟩
  · exact .untaken (hx log _ hrun)
  · have hquiet := hx before _ hrun
    rcases hf a after r hrest hr with hafter | ⟨wallet, before', inside, hwallet, rfl, hb, hi⟩
    · refine .untaken fun i hi => ?_
      rcases List.mem_append.mp hi with hi | hi
      · exact hquiet i hi
      · exact hafter i hi
    · refine .released wallet (before ++ before') inside hwallet (by simp) (fun i hi => ?_) hi
      rcases List.mem_append.mp hi with hi | hi
      · exact hquiet i hi
      · exact hb i hi

/-- Locks that were refused, and then perhaps one that was obtained. -/
theorem acquire_runs {wallets : List Wallet} {log : Log} {r : Except Stop Wallet}
    (h : Runs (acquire B wallets).run log r) :
    (∃ e, r = .error e ∧ ∀ i ∈ log, Quiet i) ∨
    ∃ wallet ∈ wallets, ∃ refused, r = .ok wallet ∧ (∀ i ∈ refused, Quiet i) ∧
      log = refused ++ [⟨.lock (B.key wallet), true⟩] := by
  induction wallets generalizing log with
  | nil =>
    obtain ⟨rfl, rfl⟩ := runs_throw.mp h
    exact .inl ⟨_, rfl, by simp⟩
  | cons wallet wallets ih =>
    rw [acquire] at h
    obtain ⟨locked, after, rfl, hrest⟩ := (runs_call_then (c := .lock (B.key wallet))).mp h
    cases locked with
    | true =>
      obtain ⟨rfl, rfl⟩ := runs_ok.mp hrest
      exact .inr ⟨wallet, by simp, [], rfl, by simp, rfl⟩
    | false =>
      rcases ih hrest with ⟨e, he, hquiet⟩ | ⟨w, hw, refused, hr, hquiet, rfl⟩
      · refine .inl ⟨e, he, fun i hi => ?_⟩
        rcases List.mem_cons.mp hi with rfl | hi
        · rfl
        · exact hquiet i hi
      · refine .inr ⟨w, List.mem_cons_of_mem _ hw, _ :: refused, hr, fun i hi => ?_, rfl⟩
        rcases List.mem_cons.mp hi with rfl | hi
        · rfl
        · exact hquiet i hi

/-- The release follows every end of the task that is not a panic. -/
theorem releasing_runs {wallet : Wallet} {x : Async α} {log : Log} {r : Except Stop α}
    (h : Runs (releasing B wallet x).run log r) (hr : ∀ message, r ≠ .error (.panic message)) :
    ∃ inside r', Runs x.run inside r' ∧ log = inside ++ [⟨.unlock (B.key wallet), ()⟩] := by
  rw [releasing] at h
  rcases runs_then.mp h with ⟨e, hrun, rfl⟩ | ⟨inside, result, after, rfl, hrun, hrest⟩
  · obtain ⟨r', -, hr'⟩ := runs_caught.mp hrun
    rcases r' with (e' | message) | a
    · cases hr'
    · cases hr'
      exact absurd rfl (hr message)
    · cases hr'
  · obtain ⟨r', hx, -⟩ := runs_caught.mp hrun
    refine ⟨inside, r', hx, ?_⟩
    obtain ⟨u, rest, rfl, hend⟩ := (runs_call_then (c := .unlock (B.key wallet))).mp hrest
    obtain ⟨rfl, -⟩ := runs_stopping.mp hend
    rfl

theorem balances_acquire {f : Wallet → Async α}
    (hf : ∀ wallet, Emits (Inside (B.key wallet)) (f wallet).run) :
    Balances B (acquire B B.wallets >>= fun wallet => releasing B wallet (f wallet)) := by
  intro log r h hr
  rcases runs_then.mp h with ⟨e, hrun, -⟩ | ⟨before, wallet, after, rfl, hrun, hrest⟩
  · rcases acquire_runs hrun with ⟨e', -, hquiet⟩ | ⟨w, -, refused, hw, -⟩
    · exact .untaken hquiet
    · cases hw
  · rcases acquire_runs hrun with ⟨e', he, -⟩ | ⟨w, hmem, refused, hw, hquiet, rfl⟩
    · cases he
    · cases hw
      obtain ⟨inside, r', hx, rfl⟩ := releasing_runs hrest hr
      exact .released wallet refused inside hmem (by simp) hquiet (hf wallet inside r' hx)

section Inside

variable {wallet : Wallet} {actions : List OutAction}

theorem attempt_inside (forced : Bool) :
    Emits (Inside (B.key wallet)) (attempt B wallet actions forced).run := by
  rw [attempt]
  refine emits_then (emits_call fun _ => rfl) fun answer => ?_
  refine emits_then (emits_orFail _ _) fun queryId => ?_
  refine emits_then (emits_call fun _ => trivial) fun value => ?_
  refine emits_then (emits_call fun _ => trivial) fun createdAt => ?_
  exact emits_then (emits_stopping _) fun boc => emits_call fun _ => trivial

theorem sendOnce_inside (forced : Bool) {again : Option (Async V3MessageResponse)}
    (h : ∀ retry ∈ again, Emits (Inside (B.key wallet)) retry.run) :
    Emits (Inside (B.key wallet)) (sendOnce B wallet actions forced again).run := by
  rw [sendOnce]
  refine emits_then (attempt_inside forced) fun answer => ?_
  cases answer with
  | ok response => exact emits_ok response
  | error e =>
    dsimp only
    split
    · rename_i retry hretry
      by_cases he : alreadyExecuted e
      · rw [if_pos he] at hretry
        exact h retry hretry
      · rw [if_neg he] at hretry
        cases hretry
    · exact emits_throw _

theorem sendRetries_inside (r : ℕ) :
    Emits (Inside (B.key wallet)) (sendRetries B wallet actions r).run := by
  induction r with
  | zero => exact sendOnce_inside true (by simp)
  | succ r ih => exact sendOnce_inside true (by simpa using ih)

theorem sendToChain_inside (retriesLeft : Option ℕ) :
    Emits (Inside (B.key wallet)) (sendToChain B wallet actions retriesLeft).run := by
  cases retriesLeft with
  | some r => exact sendRetries_inside r
  | none => exact sendOnce_inside false (by simpa using sendRetries_inside 10)

end Inside

theorem prover_balances (B : TONBroadcaster) (txBlob : String) :
    Balances B (broadcastProverMessage B txBlob) := by
  rw [broadcastProverMessage]
  refine balances_then (emits_orFail _ _) fun approveMessages => ?_
  split
  · exact balances_quiet (emits_throw _)
  · refine balances_then (emits_call fun _ => trivial) fun value => ?_
    refine balances_then (emits_orFail _ _) fun action => balances_acquire fun wallet => ?_
    exact emits_then (emits_caught (sendToChain_inside none)) fun res => emits_ok _

theorem execute_balances (B : TONBroadcaster) (message : ExecuteTaskFields) :
    Balances B (broadcastExecuteMessage B message) := by
  rw [broadcastExecuteMessage]
  refine balances_then (emits_orFail _ _) fun destinationAddress => ?_
  refine balances_then (emits_orFail _ _) fun decodedBytes => ?_
  refine balances_then (emits_call fun _ => trivial) fun requiredGas => ?_
  split
  · exact balances_quiet (emits_ok _)
  · refine balances_acquire fun wallet => ?_
    refine emits_then (emits_orFail _ _) fun cell => ?_
    refine emits_then (emits_orFail _ _) fun boc => ?_
    refine emits_then (emits_call fun _ => trivial) fun value => ?_
    refine emits_then (emits_orFail _ _) fun action => ?_
    exact emits_then (emits_caught (sendToChain_inside none)) fun res => emits_ok _

theorem refund_balances (B : TONBroadcaster) (refundTask : RefundTaskFields) :
    Balances B (broadcastRefundMessage B refundTask) := by
  rw [broadcastRefundMessage]
  split
  · exact balances_quiet (emits_throw _)
  · refine balances_then (emits_orFail _ _) fun txHash => ?_
    refine balances_then (emits_orFail _ _) fun address => ?_
    split
    · exact balances_quiet (emits_throw _)
    · refine balances_then (emits_call fun _ => trivial) fun gasEstimate => ?_
      split
      · exact balances_quiet (emits_throw _)
      · refine balances_then (emits_orFail _ _) fun cell => ?_
        refine balances_then (emits_orFail _ _) fun boc => balances_acquire fun wallet => ?_
        refine emits_then (emits_orFail _ _) fun action => ?_
        exact emits_then (emits_caught (sendToChain_inside none)) fun res => emits_ok _

theorem wallets_released (B : TONBroadcaster) :
    (∀ txBlob, Balances B (broadcastProverMessage B txBlob)) ∧
    (∀ message, Balances B (broadcastExecuteMessage B message)) ∧
    ∀ refundTask, Balances B (broadcastRefundMessage B refundTask) :=
  ⟨prover_balances B, execute_balances B, refund_balances B⟩

end WalletRelease
