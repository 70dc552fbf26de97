import TonRelayer.SendRetries

/-! The refunds of `RefundBroadcast` are runs of the program with calls.
There the answers are given beforehand and the locks only tried; here every answer is a call,
and the wallet is released. Same result, whatever the answers are. -/
namespace RefundRuns

open ExceptRules Interactions HighLoadQueryIds RelayerExecute Broadcasts SendRetries
open RefundBroadcast (RefundTaskFields Wallet V3MessageResponse BroadcasterError Environment)

variable {α β : Type}

def Reaches (x : Async α) (r : Except Stop α) : Prop := ∃ log, Runs x.run log r

section Reaching

variable {x : Async α} {f : α → Async β} {r : Except Stop β}

theorem reaches_then {a : α} (hx : Reaches x (.ok a)) (hf : Reaches (f a) r) :
    Reaches (x >>= f) r := by
  obtain ⟨before, hx⟩ := hx
  obtain ⟨after, hf⟩ := hf
  exact ⟨_, runs_then.mpr (.inr ⟨before, a, after, rfl, hx, hf⟩)⟩

theorem reaches_stop {e : Stop} (hx : Reaches x (.error e)) : Reaches (x >>= f) (.error e) := by
  obtain ⟨log, hx⟩ := hx
  exact ⟨log, runs_then.mpr (.inl ⟨e, hx, rfl⟩)⟩

theorem reaches_ok (a : α) : Reaches (pure a) (.ok a) := ⟨[], runs_ok.mpr ⟨rfl, rfl⟩⟩

theorem reaches_throw (e : Stop) : Reaches (throw e : Async α) (.error e) :=
  ⟨[], runs_throw.mpr ⟨rfl, rfl⟩⟩

theorem reaches_stopping (x : Except Stop α) : Reaches (stopping x) x :=
  ⟨[], runs_stopping.mpr ⟨rfl, rfl⟩⟩

theorem reaches_call {c : Call} (a : Answer c) : Reaches (call c) (.ok a) :=
  ⟨_, runs_call.mpr ⟨a, rfl, rfl⟩⟩

theorem reaches_caught {r : Except Stop α} (h : Reaches x r) :
    Reaches (caught x) (caughtResult r) := by
  obtain ⟨log, h⟩ := h
  exact ⟨log, runs_caught.mpr ⟨r, h, rfl⟩⟩

variable {ε : Type} {e : ε → BroadcasterError}

theorem reaches_failed (x : ε) : Reaches (orFail (.error x) e >>= f) (.error (.error (e x))) :=
  reaches_stop (reaches_stopping _)

theorem reaches_computed {a : α} (h : Reaches (f a) r) :
    Reaches (orFail (.ok a) e >>= f) r := reaches_then (reaches_stopping _) h

end Reaching

variable {B : TONBroadcaster} {E : Environment} {gas value : UInt64}

theorem releasing_reaches {wallet : Wallet} {x : Async α} {s : Except BroadcasterError α}
    (h : Reaches x (s.mapError .error)) : Reaches (releasing B wallet x) (s.mapError .error) := by
  have hcaught : caughtResult (s.mapError .error) = .ok s := by
    cases s <;> rfl
  refine reaches_then (hcaught ▸ reaches_caught h) ?_
  exact reaches_then (reaches_call (c := .unlock _) ()) (reaches_stopping _)

/-- The locks of the environment are tried in order. -/
theorem acquire_reaches (lock : ℕ → Bool) (wallets : List Wallet) (i : ℕ) :
    Reaches (acquire B wallets) (match (wallets.zipIdx i).find? fun w => lock w.2 with
      | some (wallet, _) => .ok wallet
      | none => .error (.error (.genericError
          (.text "Wallet acquire failed: NoAvailableWallet")))) := by
  induction wallets generalizing i with
  | nil => exact reaches_throw _
  | cons wallet wallets ih =>
    refine reaches_then (reaches_call (c := .lock (B.key wallet)) (lock i)) ?_
    rw [List.zipIdx_cons, List.find?_cons]
    dsimp only
    cases lock i with
    | true => exact reaches_ok wallet
    | false => exact ih (i + 1)

/-- One action is sent without a panic, so the older model's error is the caught one. -/
theorem sending_reaches {ids : ℕ → Except HighLoadQueryIdWrapperError HighLoadQueryId}
    (hE : GivesIds E ids) (wallet : Wallet) (action : OutAction) :
    Reaches (caught (sendToChain B wallet [action] none)) (.ok
      (RefundBroadcast.sendToChain (withEstimates B gas value) E wallet [action]).result) := by
  obtain ⟨attempts, rest, -, hrun⟩ := sendToChain_simulated B wallet [action] gas value hE
  have hcaught : caughtResult ((RefundBroadcast.sendToChain (withEstimates B gas value) E wallet
      [action]).result.mapError stopOf) =
        .ok (RefundBroadcast.sendToChain (withEstimates B gas value) E wallet [action]).result := by
    obtain ⟨attempts', rest', -, hsent⟩ := sendToChain_sent.mp hrun
    have hpanic := sent_no_panic (by simp) hsent
    revert hpanic
    generalize (RefundBroadcast.sendToChain (withEstimates B gas value) E wallet
      [action]).result = r
    intro hpanic
    cases r with
    | ok response => rfl
    | error e =>
      simp only [Except.mapError, stopOf]
      split
      · exact absurd rfl (hpanic _)
      · rfl
  exact hcaught ▸ reaches_caught ⟨_, hrun⟩

/-- What the older model does with the packed refund. -/
def sendPacked (B : RefundBroadcast.TONBroadcaster) (E : Environment) (boc : String) :
    Except BroadcasterError String := do
  let wallet ← RefundBroadcast.acquire B E
  let action ← RefundBroadcast.refundAction B boc
  return match (RefundBroadcast.sendToChain B E wallet [action]).result with
    | .ok response => response.messageHash
    | .error _ => ""

theorem refund_eq_sendPacked (B : RefundBroadcast.TONBroadcaster) (E : Environment)
    (task : RefundTaskFields) : RefundBroadcast.broadcastRefundMessage B E task =
      RefundBroadcast.refundBoc B task >>= sendPacked B E := by
  rw [RefundBroadcast.broadcastRefundMessage, RefundBroadcast.sending, RefundBroadcast.prepared]
  cases RefundBroadcast.refundBoc B task with
  | error e => rfl
  | ok boc =>
    rw [ok_bind, ok_bind, sendPacked]
    cases RefundBroadcast.acquire B E with
    | error e => rfl
    | ok wallet =>
      cases RefundBroadcast.refundAction B boc with
      | error e => rfl
      | ok action =>
        simp only [ok_bind, pure, Except.pure]
        cases (RefundBroadcast.sendToChain B E wallet [action]).result <;> rfl

/-- From the packed refund on: acquire, send, release. -/
theorem packed_reaches {ids : ℕ → Except HighLoadQueryIdWrapperError HighLoadQueryId}
    (hE : GivesIds E ids) (boc : String) :
    Reaches (acquire B B.wallets >>= fun wallet => releasing B wallet do
        let action ← orFail (outAction B.tonlib.toTonlib boc RefundBroadcast.refundDust
          B.gasServiceAddress) fun e => .genericError (.cell e)
        let res ← caught (sendToChain B wallet [action] none)
        return match res with
          | .ok response => response.messageHash
          | .error _ => "")
      ((sendPacked (withEstimates B gas value) E boc).mapError .error) := by
  have hacquire := acquire_reaches (B := B) E.lock B.wallets 0
  have hold : RefundBroadcast.acquire (withEstimates B gas value) E =
      match (B.wallets.zipIdx 0).find? fun w => E.lock w.2 with
      | some (wallet, _) => .ok wallet
      | none => .error (.genericError (.text "Wallet acquire failed: NoAvailableWallet")) := rfl
  rw [sendPacked, hold]
  cases hfind : (B.wallets.zipIdx 0).find? fun w => E.lock w.2 with
  | none =>
    rw [hfind] at hacquire
    exact reaches_stop hacquire
  | some w =>
    rw [hfind] at hacquire
    refine reaches_then hacquire (releasing_reaches ?_)
    dsimp only
    rw [ok_bind, RefundBroadcast.refundAction]
    dsimp only [withEstimates]
    cases outAction B.tonlib.toTonlib boc RefundBroadcast.refundDust B.gasServiceAddress with
    | error e => exact reaches_failed e
    | ok action =>
      exact reaches_computed (reaches_then (sending_reaches hE w.1 action) (reaches_ok _))

/-- Both models fail at the same check, or both pack the same refund. -/
theorem refund_reaches {ids : ℕ → Except HighLoadQueryIdWrapperError HighLoadQueryId}
    (hE : GivesIds E ids) (task : RefundTaskFields) :
    Reaches (broadcastRefundMessage B task)
      ((RefundBroadcast.broadcastRefundMessage (withEstimates B gas value) E task).mapError
        .error) := by
  rw [refund_eq_sendPacked, RefundBroadcast.refundBoc, broadcastRefundMessage]
  by_cases htoken : task.remainingGasBalance.tokenId.isSome = true
  · rw [if_pos htoken, if_pos htoken]
    exact reaches_throw _
  rw [if_neg htoken, if_neg htoken]
  rw [show (withEstimates B gas value).tonlib = B.tonlib.toWalletTonlib from rfl]
  dsimp only
  generalize B.tonlib.hashFromHex _ = hash
  cases hash with
  | error e => exact reaches_failed e
  | ok txHash =>
    refine reaches_computed ?_
    cases B.tonlib.addressFromHexStr task.refundRecipientAddress with
    | error e => exact reaches_failed e
    | ok address =>
      refine reaches_computed ?_
      cases TraceParsing.parseBigUint task.remainingGasBalance.amount with
      | none => exact reaches_throw _
      | some original =>
        refine reaches_then (reaches_call (c := .estimate .nativeGasRefundEstimate) gas) ?_
        dsimp only
        by_cases hgas : original < gas.toNat
        · have hold : original < (withEstimates B gas value).nativeGasRefundEstimate := hgas
          rw [if_pos hgas, if_pos hold]
          exact reaches_throw _
        have hold : ¬ original < (withEstimates B gas value).nativeGasRefundEstimate := hgas
        rw [if_neg hgas, if_neg hold,
          show (withEstimates B gas value).nativeGasRefundEstimate = gas.toNat from rfl]
        cases RefundBroadcast.NativeRefundMessage.toCell
            ⟨txHash, address, original - gas.toNat⟩ with
        | error e => exact reaches_failed e
        | ok cell =>
          refine reaches_computed ?_
          dsimp only
          cases B.tonlib.toBocHex cell with
          | error e => exact reaches_failed e
          | ok boc => exact reaches_computed (packed_reaches hE boc)

end RefundRuns
