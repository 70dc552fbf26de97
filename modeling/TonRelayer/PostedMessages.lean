import TonRelayer.SendRetries

/-! What the broadcasts put into their messages.
The gas estimator computes with machine numbers, which wrap. Every message that a broadcast
posts, at the first attempt or a later one, carries the one action made of its task. -/
namespace PostedMessages

open ExceptRules Cells ByteEncodings HighLoadQueryIds Interactions RelayerExecute Broadcasts
open TraceParsing SendRetries
open RefundBroadcast (RefundTaskFields Wallet V3MessageResponse BroadcasterError refundDust)
open RefundBroadcast (alreadyExecuted NativeRefundMessage)
open WalletRelease (Log acquire_runs)

section Estimator

structure GasEstimates where
  nativeGasRefund : UInt64
  nativeGasRefundStorageSlippage : UInt64
  executeSendMin : UInt64
  executeBase : UInt64
  executePayload : UInt64
  executeStorageSlippage : UInt64
  approveSend : UInt64
  highloadWalletSend : UInt64
  itsExecuteMinimum : UInt64
  deriving DecidableEq, Repr

namespace TONGasEstimator

variable (config : GasEstimates)

def nativeGasRefundEstimate : UInt64 :=
  config.nativeGasRefund + config.nativeGasRefundStorageSlippage

def executeEstimate (payload : ℕ) : UInt64 :=
  max (config.executeBase + config.executePayload * UInt64.ofNat payload +
    config.executeStorageSlippage) config.itsExecuteMinimum

def executeSend (payload : ℕ) : UInt64 :=
  max config.executeSendMin (executeEstimate config payload)

def highloadWalletSend (numActions : ℕ) : UInt64 :=
  config.highloadWalletSend * UInt64.ofNat numActions

def approveSend (_numMessages : ℕ) : UInt64 := config.approveSend

def answer : Estimate → UInt64
  | .nativeGasRefundEstimate => nativeGasRefundEstimate config
  | .executeSend payload => executeSend config payload
  | .executeEstimate payload => executeEstimate config payload
  | .approveSend numMessage => approveSend config numMessage
  | .highloadWalletSend numActions => highloadWalletSend config numActions

variable {config}

theorem le_max (a b : UInt64) : a ≤ max a b ∧ b ≤ max a b := by
  rw [show max a b = if a ≤ b then b else a from rfl]
  split
  · rename_i h
    exact ⟨h, UInt64.le_refl b⟩
  · rename_i h
    exact ⟨UInt64.le_refl a, UInt64.le_of_lt (UInt64.not_le.mp h)⟩

/-- Whatever wraps, an execution is sent with no less than it was checked for. -/
theorem executeEstimate_le_send (payload : ℕ) :
    executeEstimate config payload ≤ executeSend config payload := (le_max _ _).2

end TONGasEstimator

end Estimator

section Courses

variable (B : TONBroadcaster) {α β : Type}

/-- The answers that were given to posts, in order. -/
def postReplies (log : Log) : List (Except String V3MessageResponse) :=
  log.filterMap fun
    | ⟨.postV3Message _, reply⟩ => some reply
    | _ => none

def acceptedPosts (log : Log) : List V3MessageResponse :=
  (postReplies log).filterMap Except.toOption

/-- How a broadcast goes: it stops with nothing posted, or declines, or one wallet sends the one
action, and what the sending ends with is reported. -/
inductive Course (action : Wallet → OutAction → Prop) (declined : α → Prop)
    (report : Except BroadcasterError V3MessageResponse → α → Prop) :
    Log → Except Stop α → Prop where
  | stopped {log : Log} (e : BroadcasterError) (hquiet : postReplies log = []) :
    Course action declined report log (.error (.error e))
  | declined {log : Log} (a : α) (hquiet : postReplies log = []) (ha : declined a) :
    Course action declined report log (.ok a)
  | sent (before : Log) {rest : Log} {attempts : List Attempt} {wallet : Wallet} {a : OutAction}
      {s : Except BroadcasterError V3MessageResponse} {result : α} (hwallet : wallet ∈ B.wallets)
      (ha : action wallet a) (hquiet : postReplies before = [])
      (hsent : Sent B wallet [a] false 11 attempts rest (s.mapError .error))
      (hresult : report s result) :
    Course action declined report
      (before ++ (attempts.flatMap (Attempt.log B wallet [a]) ++ rest) ++
        [⟨.unlock (B.key wallet), ()⟩]) (.ok result)

variable {B}

theorem postReplies_append (log log' : Log) :
    postReplies (log ++ log') = postReplies log ++ postReplies log' := List.filterMap_append

theorem postReplies_quiet {log : Log} (h : ∀ i ∈ log, WalletRelease.Quiet i) :
    postReplies log = [] := by
  rw [postReplies, List.filterMap_eq_nil_iff]
  rintro ⟨c, r⟩ hi
  cases c with
  | postV3Message boc => exact (h _ hi).elim
  | estimate | lock | unlock | nextQueryId | now => rfl

theorem runs_orFail_then {ε : Type} {x : Except ε α} {e : ε → BroadcasterError}
    {f : α → Async β} {log : Log} {r : Except Stop β} (h : Runs (orFail x e >>= f).run log r) :
    (∃ e', log = [] ∧ r = .error (.error e')) ∨ ∃ a, x = .ok a ∧ Runs (f a).run log r := by
  rcases runs_stopping_then.mp h with ⟨stop, hstop, rfl, rfl⟩ | ⟨a, ha, h⟩
  · cases x with
    | ok a => cases hstop
    | error x =>
      cases hstop
      exact .inl ⟨_, rfl, rfl⟩
  · cases x with
    | ok b =>
      cases ha
      exact .inr ⟨_, rfl, h⟩
    | error x => cases ha

variable {wallet : Wallet} {log : Log}

theorem releasing_result {x : Async α} {r : Except Stop α} (hx : Completes x)
    (h : Runs (releasing B wallet x).run log r) :
    ∃ inside, Runs x.run inside r ∧ log = inside ++ [⟨.unlock (B.key wallet), ()⟩] := by
  rw [releasing] at h
  rcases runs_then.mp h with ⟨e, hrun, rfl⟩ | ⟨inside, result, after, rfl, hrun, hrest⟩
  · obtain ⟨r', hrun', hr'⟩ := runs_caught.mp hrun
    rcases r' with (e' | message) | a
    · cases hr'
    · exact absurd rfl (hx log _ hrun' message)
    · cases hr'
  · obtain ⟨r', hrun', hr'⟩ := runs_caught.mp hrun
    obtain ⟨u, rest, rfl, hend⟩ := (runs_call_then (c := .unlock (B.key wallet))).mp hrest
    obtain ⟨rfl, rfl⟩ := runs_stopping.mp hend
    refine ⟨inside, ?_, rfl⟩
    rcases r' with (e' | message) | a
    · cases hr'
      exact hrun'
    · cases hr'
    · cases hr'
      exact hrun'

theorem sending_runs {a : OutAction} {f : Except BroadcasterError V3MessageResponse → α}
    {r : Except Stop α} (h : Runs (do
      let res ← caught (sendToChain B wallet [a] none)
      return f res : Async α).run log r) :
    ∃ attempts rest s, log = attempts.flatMap (Attempt.log B wallet [a]) ++ rest ∧
      Sent B wallet [a] false 11 attempts rest (s.mapError .error) ∧ r = .ok (f s) := by
  rcases runs_then.mp h with ⟨e, hrun, -⟩ | ⟨before, res, after, rfl, hrun, hrest⟩
  · obtain ⟨r', hrun', hr'⟩ := runs_caught.mp hrun
    obtain ⟨attempts, rest, rfl, hsent⟩ := sendToChain_sent.mp hrun'
    rcases r' with (e' | message) | response
    · cases hr'
    · exact absurd rfl (sent_no_panic (by simp) hsent message)
    · cases hr'
  · obtain ⟨r', hrun', hr'⟩ := runs_caught.mp hrun
    obtain ⟨attempts, rest, rfl, hsent⟩ := sendToChain_sent.mp hrun'
    obtain ⟨rfl, rfl⟩ := runs_ok.mp hrest
    refine ⟨attempts, rest, res, by simp, ?_, rfl⟩
    rcases r' with (e' | message) | response
    · cases hr'
      exact hsent
    · cases hr'
    · cases hr'
      exact hsent

/-- What happens while the wallet is held: steps that post nothing, and then the sending. -/
inductive Held (action : OutAction → Prop)
    (report : Except BroadcasterError V3MessageResponse → α → Prop) (B : TONBroadcaster)
    (wallet : Wallet) : Log → Except Stop α → Prop where
  | stopped {log : Log} (e : BroadcasterError) (hquiet : postReplies log = []) :
    Held action report B wallet log (.error (.error e))
  | sent (before : Log) {rest : Log} {attempts : List Attempt} {a : OutAction}
      {s : Except BroadcasterError V3MessageResponse} {result : α} (ha : action a)
      (hquiet : postReplies before = [])
      (hsent : Sent B wallet [a] false 11 attempts rest (s.mapError .error))
      (hresult : report s result) :
    Held action report B wallet
      (before ++ (attempts.flatMap (Attempt.log B wallet [a]) ++ rest)) (.ok result)

variable {action : Wallet → OutAction → Prop} {declined : α → Prop}
variable {report : Except BroadcasterError V3MessageResponse → α → Prop} {r : Except Stop α}

theorem held_then {action : OutAction → Prop} (before : Log) {after : Log}
    (hquiet : postReplies before = []) (h : Held action report B wallet after r) :
    Held action report B wallet (before ++ after) r := by
  cases h with
  | stopped e hafter => exact .stopped e (by rw [postReplies_append, hquiet, hafter]; rfl)
  | sent _ ha hafter hsent hresult =>
    rw [← List.append_assoc]
    exact .sent _ ha (by rw [postReplies_append, hquiet, hafter]; rfl) hsent hresult

theorem course_then (before : Log) {after : Log} (hquiet : postReplies before = [])
    (h : Course B action declined report after r) :
    Course B action declined report (before ++ after) r := by
  cases h with
  | stopped e hafter => exact .stopped e (by rw [postReplies_append, hquiet, hafter]; rfl)
  | declined a hafter ha =>
    exact .declined a (by rw [postReplies_append, hquiet, hafter]; rfl) ha
  | sent _ hwallet ha hafter hsent hresult =>
    rw [← List.append_assoc, ← List.append_assoc]
    exact .sent _ hwallet ha (by rw [postReplies_append, hquiet, hafter]; rfl) hsent hresult

theorem acquired_course {A : Interaction Call Answer → Prop} {f : Wallet → Async α}
    (hcompletes : ∀ wallet, Completes (f wallet))
    (hheld : ∀ wallet log r, Runs (f wallet).run log r → (∀ i ∈ log, A i) →
      Held (action wallet) report B wallet log r)
    (hA : ∀ i ∈ log, A i)
    (h : Runs (acquire B B.wallets >>= fun wallet => releasing B wallet (f wallet)).run log r) :
    Course B action declined report log r := by
  rcases runs_then.mp h with ⟨e, hrun, rfl⟩ | ⟨before, wallet, after, rfl, hrun, hrest⟩
  · have hcomplete := completes_acquire B.wallets log _ hrun
    rcases acquire_runs hrun with ⟨e', -, hquiet⟩ | ⟨w, -, refused, hw, -⟩
    · cases e with
      | error e => exact .stopped e (postReplies_quiet hquiet)
      | panic message => exact absurd rfl (hcomplete message)
    · cases hw
  · rcases acquire_runs hrun with ⟨e', he, -⟩ | ⟨w, hmem, refused, hw, hquiet, rfl⟩
    · cases he
    · cases hw
      have hlocked : postReplies (refused ++ [⟨.lock (B.key wallet), true⟩]) = [] := by
        rw [postReplies_append, postReplies_quiet hquiet]
        rfl
      refine course_then _ hlocked ?_
      obtain ⟨inside, hinside, rfl⟩ := releasing_result (hcompletes wallet) hrest
      have hAinside : ∀ i ∈ inside, A i := fun i hi => hA i (by simp [hi])
      cases hheld wallet inside r hinside hAinside with
      | stopped e hstopped =>
        refine .stopped e ?_
        rw [postReplies_append, hstopped]
        rfl
      | sent _ ha hbefore hsent hresult => exact .sent _ hmem ha hbefore hsent hresult

end Courses

section Parcels

variable (A : Interaction Call Answer → Prop) (B : TONBroadcaster)

/-- The approvals as they are, to the gateway. -/
def ApprovalSend (txBlob : String) (action : OutAction) : Prop :=
  ∃ approved value, ApproveMessages.fromBocHex B.tonlib txBlob = .ok approved ∧
    approved.approveMessages ≠ [] ∧
    A ⟨.estimate (.approveSend approved.approveMessages.length), value⟩ ∧
    outAction B.tonlib.toTonlib txBlob value.toNat B.gatewayAddress = .ok action

/-- The execute message of the task, to the gateway: its cells lead back to the task, and the
gas that the task has covers the estimate. -/
def ExecuteSend (task : ExecuteTaskFields) (wallet : Wallet) (action : OutAction) : Prop :=
  ∃ destination payload required value cell message inner boc,
    B.tonlib.parseAddress task.message.destinationAddress = .ok destination ∧
    B.tonlib.base64Decode task.payload = .ok payload ∧
    A ⟨.estimate (.executeEstimate payload.length), required⟩ ∧
    required.toNat ≤ (u64FromStr task.availableGasBalance.amount).getD 0 ∧
    LaidOut ⟨task.message.messageId, task.message.sourceChain, task.message.sourceAddress,
      B.chainName, destination, hexEncode payload, wallet.address⟩ payload cell message inner ∧
    B.tonlib.toBocHex cell = .ok boc ∧
    A ⟨.estimate (.executeSend payload.length), value⟩ ∧
    outAction B.tonlib.toTonlib boc value.toNat B.gatewayAddress = .ok action

/-- The refund of the task less the estimate, with the dust to the gas service. -/
def RefundSend (task : RefundTaskFields) (action : OutAction) : Prop :=
  ∃ txHash recipient amount estimate cell boc, task.remainingGasBalance.tokenId = none ∧
    B.tonlib.hashFromHex (match task.message.messageId.toList with
      | '0' :: 'x' :: rest => String.ofList rest
      | _ => task.message.messageId) = .ok txHash ∧
    B.tonlib.addressFromHexStr task.refundRecipientAddress = .ok recipient ∧
    A ⟨.estimate .nativeGasRefundEstimate, estimate⟩ ∧
    parseBigUint task.remainingGasBalance.amount = some (amount + estimate.toNat) ∧
    NativeRefundMessage.toCell ⟨txHash, recipient, amount⟩ = .ok cell ∧
    B.tonlib.toBocHex cell = .ok boc ∧
    outAction B.tonlib.toTonlib boc refundDust B.gasServiceAddress = .ok action

/-- The broadcast was declined for want of gas. -/
def DeclinedGas (task : ExecuteTaskFields) (result : BroadcastResult) : Prop :=
  result = ⟨"", some task.message.messageId, some task.message.sourceChain,
    .error (.insufficientGas "Cannot proceed to execute")⟩

/-- The outcome of the sending, under the name of the first approval. -/
def ApprovalReport (txBlob : String) (res : Except BroadcasterError V3MessageResponse)
    (result : BroadcastResult) : Prop :=
  ∃ approved message rest, ApproveMessages.fromBocHex B.tonlib txBlob = .ok approved ∧
    approved.approveMessages = message :: rest ∧
    result = broadcastResult message.messageId message.sourceChain res

def ExecuteReport (task : ExecuteTaskFields) (res : Except BroadcasterError V3MessageResponse)
    (result : BroadcastResult) : Prop :=
  result = broadcastResult task.message.messageId task.message.sourceChain res

def RefundReport (res : Except BroadcasterError V3MessageResponse) (hash : String) : Prop :=
  hash = match res with
    | .ok response => response.messageHash
    | .error _ => ""

end Parcels

section Broadcasting

variable {A : Interaction Call Answer → Prop} {B : TONBroadcaster} {log : Log}

theorem prover_course {txBlob : String} {r : Except Stop BroadcastResult}
    (h : Runs (broadcastProverMessage B txBlob).run log r) (hA : ∀ i ∈ log, A i) :
    Course B (fun _ => ApprovalSend A B txBlob) (fun _ => False) (ApprovalReport B txBlob)
      log r := by
  rw [broadcastProverMessage] at h
  rcases runs_orFail_then h with ⟨e, rfl, rfl⟩ | ⟨approved, happroved, h⟩
  · exact .stopped e rfl
  cases hmessages : approved.approveMessages with
  | nil =>
    rw [hmessages] at h
    obtain ⟨rfl, rfl⟩ := runs_throw.mp h
    exact .stopped _ rfl
  | cons message rest =>
    rw [hmessages] at h
    obtain ⟨value, log₁, rfl, h₁⟩ := runs_call_then.mp h
    rw [List.forall_mem_cons] at hA
    refine course_then [_] rfl ?_
    rcases runs_orFail_then h₁ with ⟨e, rfl, rfl⟩ | ⟨action, haction, h₂⟩
    · exact .stopped e rfl
    refine acquired_course (fun wallet => ?_) (fun wallet log r h _ => ?_) hA.2 h₂
    · exact completes_then (completes_caught (completes_send (by simp))) fun _ => completes_ok _
    · obtain ⟨attempts, rest', s, rfl, hsent, rfl⟩ := sending_runs h
      refine .sent [] ⟨approved, value, happroved, ?_, ?_, haction⟩ rfl hsent
        ⟨approved, message, rest, happroved, hmessages, rfl⟩
      · simp [hmessages]
      · rw [hmessages]
        exact hA.1

theorem execute_course {task : ExecuteTaskFields} {r : Except Stop BroadcastResult}
    (h : Runs (broadcastExecuteMessage B task).run log r) (hA : ∀ i ∈ log, A i) :
    Course B (ExecuteSend A B task) (DeclinedGas task) (ExecuteReport task) log r := by
  rw [broadcastExecuteMessage] at h
  rcases runs_orFail_then h with ⟨e, rfl, rfl⟩ | ⟨destination, hdestination, h⟩
  · exact .stopped e rfl
  rcases runs_orFail_then h with ⟨e, rfl, rfl⟩ | ⟨payload, hpayload, h⟩
  · exact .stopped e rfl
  obtain ⟨required, log₁, rfl, h₁⟩ := runs_call_then.mp h
  rw [List.forall_mem_cons] at hA
  refine course_then [_] rfl ?_
  split at h₁
  · obtain ⟨rfl, rfl⟩ := runs_ok.mp h₁
    exact .declined _ rfl rfl
  · rename_i hgas
    refine acquired_course (fun wallet => ?_) (fun wallet log r h hA' => ?_) hA.2 h₁
    · refine completes_then (completes_orFail _ _) fun cell => ?_
      refine completes_then (completes_orFail _ _) fun boc => ?_
      refine completes_then (completes_call (.estimate _)) fun value => ?_
      refine completes_then (completes_orFail _ _) fun action => ?_
      exact completes_then (completes_caught (completes_send (by simp))) fun _ => completes_ok _
    · rcases runs_orFail_then h with ⟨e, rfl, rfl⟩ | ⟨cell, hcell, h⟩
      · exact .stopped e rfl
      rcases runs_orFail_then h with ⟨e, rfl, rfl⟩ | ⟨boc, hboc, h⟩
      · exact .stopped e rfl
      obtain ⟨value, log₂, rfl, h₂⟩ := runs_call_then.mp h
      rw [List.forall_mem_cons] at hA'
      refine held_then [_] rfl ?_
      rcases runs_orFail_then h₂ with ⟨e, rfl, rfl⟩ | ⟨action, haction, h₃⟩
      · exact .stopped e rfl
      obtain ⟨attempts, rest, s, rfl, hsent, rfl⟩ := sending_runs h₃
      obtain ⟨outer, message, inner, houter, hlaid⟩ := toCell_laidOut B.tonlib.keccak256
        (m := ⟨task.message.messageId, task.message.sourceChain, task.message.sourceAddress,
          B.chainName, destination, hexEncode payload, wallet.address⟩)
        (hexDecode_hexEncode payload)
      obtain rfl := Except.ok.inj (hcell.symm.trans houter)
      exact .sent [] ⟨destination, payload, required, value, cell, message, inner, boc,
        hdestination, hpayload, hA.1, not_lt.mp hgas, hlaid, hboc, hA'.1, haction⟩ rfl hsent rfl

theorem refund_course {task : RefundTaskFields} {r : Except Stop String}
    (h : Runs (broadcastRefundMessage B task).run log r) (hA : ∀ i ∈ log, A i) :
    Course B (fun _ => RefundSend A B task) (fun _ => False) RefundReport log r := by
  rw [broadcastRefundMessage] at h
  split at h
  · obtain ⟨rfl, rfl⟩ := runs_throw.mp h
    exact .stopped _ rfl
  rename_i htoken
  rcases runs_orFail_then h with ⟨e, rfl, rfl⟩ | ⟨txHash, htxHash, h⟩
  · exact .stopped e rfl
  rcases runs_orFail_then h with ⟨e, rfl, rfl⟩ | ⟨recipient, hrecipient, h⟩
  · exact .stopped e rfl
  split at h
  · obtain ⟨rfl, rfl⟩ := runs_throw.mp h
    exact .stopped _ rfl
  rename_i original horiginal
  obtain ⟨estimate, log₁, rfl, h₁⟩ := runs_call_then.mp h
  rw [List.forall_mem_cons] at hA
  refine course_then [_] rfl ?_
  split at h₁
  · obtain ⟨rfl, rfl⟩ := runs_throw.mp h₁
    exact .stopped _ rfl
  rename_i hcovers
  rcases runs_orFail_then h₁ with ⟨e, rfl, rfl⟩ | ⟨cell, hcell, h₂⟩
  · exact .stopped e rfl
  rcases runs_orFail_then h₂ with ⟨e, rfl, rfl⟩ | ⟨boc, hboc, h₃⟩
  · exact .stopped e rfl
  refine acquired_course (fun wallet => ?_) (fun wallet log r h _ => ?_) hA.2 h₃
  · refine completes_then (completes_orFail _ _) fun action => ?_
    exact completes_then (completes_caught (completes_send (by simp))) fun _ => completes_ok _
  · rcases runs_orFail_then h with ⟨e, rfl, rfl⟩ | ⟨action, haction, h⟩
    · exact .stopped e rfl
    obtain ⟨attempts, rest, s, rfl, hsent, rfl⟩ := sending_runs h
    refine .sent [] ⟨txHash, recipient, original - estimate.toNat, estimate, cell, boc,
      by simpa using htoken, htxHash, hrecipient, hA.1, ?_, hcell, hboc, haction⟩ rfl hsent rfl
    rw [horiginal, Nat.sub_add_cancel (not_lt.mp hcovers)]

end Broadcasting

section Posts

variable {B : TONBroadcaster} {α : Type} {action : Wallet → OutAction → Prop} {declined : α → Prop}
variable {report : Except BroadcasterError V3MessageResponse → α → Prop} {log : Log}
variable {r : Except Stop α}

/-- The estimates are the configured estimator's. -/
def Estimated (config : GasEstimates) : Interaction Call Answer → Prop
  | ⟨.estimate e, answer⟩ => answer = TONGasEstimator.answer config e
  | _ => True

/-- What is posted is a message of one of the wallets, with that one action. -/
def Posted (B : TONBroadcaster) (config : GasEstimates) (action : Wallet → OutAction → Prop) :
    Interaction Call Answer → Prop
  | ⟨.postV3Message boc, _⟩ => ∃ wallet ∈ B.wallets, ∃ a queryId createdAt, action wallet a ∧
      messageBoc B wallet [a] queryId
        (TONGasEstimator.highloadWalletSend config 1).toNat createdAt = .ok boc
  | _ => True

theorem posted_quiet {config : GasEstimates} (h : postReplies log = []) :
    ∀ i ∈ log, Posted B config action i := by
  rintro ⟨c, r⟩ hi
  rw [postReplies, List.filterMap_eq_nil_iff] at h
  cases c with
  | postV3Message boc => cases h _ hi
  | estimate | lock | unlock | nextQueryId | now => trivial

theorem course_posted {config : GasEstimates} (h : Course B action declined report log r)
    (hA : ∀ i ∈ log, Estimated config i) : ∀ i ∈ log, Posted B config action i := by
  cases h with
  | stopped e hquiet | declined a hquiet ha => exact posted_quiet hquiet
  | @sent before rest attempts wallet a s result hwallet ha hquiet hsent hresult =>
    simp only [List.forall_mem_append, List.forall_mem_singleton] at hA ⊢
    obtain ⟨⟨-, hattempts, -⟩, -⟩ := hA
    refine ⟨⟨posted_quiet hquiet, fun i hi => ?_, ?_⟩, trivial⟩
    · obtain ⟨attempt, hattempt, hmem⟩ := List.mem_flatMap.mp hi
      have hbuilt := sent_built hsent attempt hattempt
      have hvalue : attempt.value = TONGasEstimator.highloadWalletSend config 1 :=
        hattempts ⟨.estimate (.highloadWalletSend [a].length), attempt.value⟩
          (List.mem_flatMap.mpr ⟨attempt, hattempt, by simp [Attempt.log]⟩)
      rw [Attempt.Built, hvalue] at hbuilt
      simp only [Attempt.log, List.mem_cons, List.not_mem_nil, or_false] at hmem
      rcases hmem with rfl | rfl | rfl | rfl
      · trivial
      · trivial
      · trivial
      · exact ⟨wallet, hwallet, a, _, _, ha, hbuilt⟩
    · rintro ⟨c, r⟩ hi
      cases c with
      | postV3Message boc => exact absurd hi (sent_no_post hsent boc r)
      | estimate | lock | unlock | nextQueryId | now => trivial

end Posts

section Outcomes

variable {B : TONBroadcaster} {α : Type} {action : Wallet → OutAction → Prop} {declined : α → Prop}
variable {report : Except BroadcasterError V3MessageResponse → α → Prop} {log : Log}
variable {r : Except Stop α}

/-- A broadcast that stops or declines has posted nothing. Otherwise it reports the outcome of
its posts: none of them was accepted, or exactly one, whose response it has. -/
inductive Outcome (declined : α → Prop)
    (report : Except BroadcasterError V3MessageResponse → α → Prop) (log : Log) :
    Except Stop α → Prop where
  | stopped (e : BroadcasterError) (h : postReplies log = []) :
    Outcome declined report log (.error (.error e))
  | declined (a : α) (h : postReplies log = []) (ha : declined a) :
    Outcome declined report log (.ok a)
  | failed (e : BroadcasterError) (a : α) (hcount : (postReplies log).length ≤ 12)
      (h : acceptedPosts log = []) (ha : report (.error e) a) : Outcome declined report log (.ok a)
  | accepted (response : V3MessageResponse) (a : α) (hcount : (postReplies log).length ≤ 12)
      (h : acceptedPosts log = [response]) (ha : report (.ok response) a) :
    Outcome declined report log (.ok a)

theorem postReplies_attempts {wallet : Wallet} {actions : List OutAction}
    (attempts : List Attempt) :
    postReplies (attempts.flatMap (Attempt.log B wallet actions)) =
      attempts.map Attempt.reply := by
  induction attempts with
  | nil => rfl
  | cons a attempts ih =>
    rw [List.flatMap_cons, postReplies_append, ih]
    rfl

theorem postReplies_unposting {rest : Log}
    (h : ∀ boc reply, ⟨.postV3Message boc, reply⟩ ∉ rest) : postReplies rest = [] := by
  rw [postReplies, List.filterMap_eq_nil_iff]
  rintro ⟨c, r⟩ hi
  cases c with
  | postV3Message boc => exact absurd hi (h boc r)
  | estimate | lock | unlock | nextQueryId | now => rfl

/-- Only the last attempt may be accepted, and then its response is the result. -/
theorem sent_accepts {wallet : Wallet} {actions : List OutAction} {forced : Bool} {retries : ℕ}
    {attempts : List Attempt} {rest : Log} {s : Except Stop V3MessageResponse}
    (h : Sent B wallet actions forced retries attempts rest s) :
    (attempts.map Attempt.reply).filterMap Except.toOption = s.toOption.toList := by
  induction h with
  | unposted => rfl
  | accepted _ _ hreply | failed _ _ hreply _ =>
    simp [hreply, Except.toOption]
  | again _ _ hexecuted _ ih =>
    obtain ⟨e, hreply, -⟩ := hexecuted
    rw [List.map_cons, List.filterMap_cons, hreply]
    exact ih

theorem course_outcome (h : Course B action declined report log r) :
    Outcome declined report log r := by
  cases h with
  | stopped e hquiet => exact .stopped e hquiet
  | declined a hquiet ha => exact .declined a hquiet ha
  | @sent before rest attempts wallet a s result hwallet ha hquiet hsent hresult =>
    have hreplies : postReplies (before ++ (attempts.flatMap (Attempt.log B wallet [a]) ++ rest) ++
        [⟨.unlock (B.key wallet), ()⟩]) = attempts.map Attempt.reply := by
      rw [postReplies_append, postReplies_append, postReplies_append, hquiet,
        postReplies_attempts, postReplies_unposting (sent_no_post hsent)]
      simp [postReplies]
    have hcount : (attempts.map Attempt.reply).length ≤ 12 := by simpa using sent_count hsent
    rw [← hreplies] at hcount
    have haccepts := sent_accepts hsent
    cases s with
    | error e =>
      exact .failed e result hcount
        (by rw [acceptedPosts, hreplies, haccepts]; rfl) hresult
    | ok response =>
      exact .accepted response result hcount
        (by rw [acceptedPosts, hreplies, haccepts]; rfl) hresult

/-- Every run of a broadcast comes to one of the outcomes. -/
def Truthful (declined : α → Prop) (report : Except BroadcasterError V3MessageResponse → α → Prop)
    (x : Async α) : Prop := ∀ log r, Runs x.run log r → Outcome declined report log r

end Outcomes

end PostedMessages
