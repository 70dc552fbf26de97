import TonRelayer.ConcurrentSenders
import TonRelayer.SendRetries
import TonRelayer.SharedServices

/-! The broadcasts over single Redis commands and SQL statements, and the rules they keep.
The lock manager and the query-id wrapper are programs over the commands. Whatever it is
answered, every broadcast goes through the places of `ConcurrentSenders`: it takes one wallet,
takes an id before each post, posts what was built with it, and releases the wallet. -/
namespace WalletRules

open Interactions SharedServices HighLoadQueryIds RelayerExecute Broadcasts
open SendRetries (messageBoc_no_panic)
open WalletLocks (Progress)
open ConcurrentSenders (Stage PostResult afterPost)
open RefundBroadcast (RefundTaskFields Wallet V3MessageResponse BroadcasterError)
open RefundBroadcast (alreadyExecuted)

/-- Redis commands, SQL statements and the other calls. -/
inductive Command where
  | estimate (e : Estimate)
  | now
  | setNx (key : String)
  | del (key : String)
  | getQueryId (address : String)
  | updateQueryId (address : String) (shift bitnumber : ℤ)
  | upsertQueryId (address : String) (shift bitnumber timeout : ℤ)
  | postV3Message (boc : String)
  deriving DecidableEq, Repr

/-- Errors of Redis and the database are `none`: no one looks into them. -/
abbrev Output : Command → Type
  | .estimate _ | .now => UInt64
  | .setNx _ => Option Bool
  | .getQueryId _ => Option (ℤ × ℤ)
  | .del _ | .updateQueryId _ _ _ | .upsertQueryId _ _ _ _ => Option Unit
  | .postV3Message _ => Except String V3MessageResponse

abbrev Atomic (α : Type) := Program Command Output α

def send (c : Command) : Atomic (Output c) := ask c

def lockKey (key : String) : String := "wallet_lock_" ++ key

def RedisLockManager.lock (key : String) : Atomic Bool := do
  let locked ← send (.setNx (lockKey key))
  return Option.getD locked false

def RedisLockManager.unlock (key : String) : Atomic Unit := do
  let _ ← send (.del (lockKey key))
  return ()

def writeQueryId (address : String) (timeout : UInt64) (queryId : HighLoadQueryId) :
    Atomic (Option Unit) :=
  if queryId.queryId = 0 then
    send (.upsertQueryId address queryId.shift queryId.bitnumber
      (wrapI32 (wrapI32 timeout.toNat * timeoutBufferMultiplier)))
  else send (.updateQueryId address queryId.shift queryId.bitnumber)

def HighLoadQueryIdDbWrapper.next (address : String) (timeout : UInt64)
    (forceShiftIncrease : Bool) :
    Atomic (Except HighLoadQueryIdWrapperError HighLoadQueryId) := do
  match ← send (.getQueryId address) with
  | none => return .error .databaseError
  | some (shift, bitnumber) => match nextId shift bitnumber forceShiftIncrease with
    | .error e => return .error e
    | .ok queryId =>
      match ← writeQueryId address timeout queryId with
      | none => return .error .databaseError
      | some _ => return .ok queryId

def handle : (c : Call) → Atomic (Answer c)
  | .estimate e => send (.estimate e)
  | .lock key => RedisLockManager.lock key
  | .unlock key => RedisLockManager.unlock key
  | .nextQueryId address timeout force => HighLoadQueryIdDbWrapper.next address timeout force
  | .now => send .now
  | .postV3Message boc => send (.postV3Message boc)

section Tasks

inductive Task where
  | prover (B : TONBroadcaster) (txBlob : String)
  | execute (B : TONBroadcaster) (message : ExecuteTaskFields)
  | refund (B : TONBroadcaster) (refundTask : RefundTaskFields)

inductive Outcome where
  | broadcast (result : BroadcastResult)
  | refunded (txHash : String)

def Task.broadcast : Task → Async Outcome
  | .prover B txBlob => do return .broadcast (← broadcastProverMessage B txBlob)
  | .execute B message => do return .broadcast (← broadcastExecuteMessage B message)
  | .refund B refundTask => do return .refunded (← broadcastRefundMessage B refundTask)

def Task.program (task : Task) : Atomic (Except Stop Outcome) := interpret handle task.broadcast.run

end Tasks

abbrev Place := Progress String × Stage

def home : Place := (.outside, .idle)

section Rules

def postResult : Except String V3MessageResponse → PostResult
  | .ok _ => .accepted
  | .error e => if alreadyExecuted e then .alreadyExecuted else .failed

/-- The text is a message of this wallet with this id. -/
def Built (address : String) (queryId : HighLoadQueryId) (boc : String) : Prop :=
  ∃ (B : TONBroadcaster) (wallet : Wallet) (actions : List OutAction) (value : ℕ)
    (createdAt : UInt64), B.key wallet = address ∧
      messageBoc B wallet actions queryId.queryId value createdAt = .ok boc

inductive Allowed : Place → Command → Prop where
  | estimate {p : Place} (e : Estimate) : Allowed p (.estimate e)
  | now {p : Place} : Allowed p .now
  | setNx {v : String} {rest : List String} :
    Allowed (.acquiring (v :: rest), .idle) (.setNx (lockKey v))
  | getQueryId {v : String} {r : Option ℕ} : Allowed (.inside v, .sending r) (.getQueryId v)
  | update {v : String} {r : Option ℕ} {shift bitnumber : ℤ} {q : HighLoadQueryId}
      (h : nextId shift bitnumber r.isSome = .ok q) (hq : q.queryId ≠ 0) :
    Allowed (.inside v, .read r shift bitnumber) (.updateQueryId v q.shift q.bitnumber)
  | upsert {v : String} {r : Option ℕ} {shift bitnumber : ℤ} {q : HighLoadQueryId}
      (h : nextId shift bitnumber r.isSome = .ok q) (hq : q.queryId = 0) (timeout : ℕ) :
    Allowed (.inside v, .read r shift bitnumber) (.upsertQueryId v q.shift q.bitnumber
      (wrapI32 (wrapI32 timeout * timeoutBufferMultiplier)))
  | post {v : String} {r : Option ℕ} {q : HighLoadQueryId} {boc : String} (h : Built v q boc) :
    Allowed (.inside v, .posting r q) (.postV3Message boc)
  | del {v : String} : Allowed (.inside v, .finished) (.del (lockKey v))

def afterLock : Place → Option Bool → Place
  | (.acquiring (v :: _), _), some true => (.inside v, .sending none)
  | (.acquiring (_ :: rest), stage), _ => (.acquiring rest, stage)
  | p, _ => p

def afterGet : Place → Option (ℤ × ℤ) → Place
  | (p, .sending r), some (shift, bitnumber) => (p, .read r shift bitnumber)
  | (p, _), _ => (p, .finished)

def afterWrite : Place → Option Unit → Place
  | (p, .read r shift bitnumber), some _ => match nextId shift bitnumber r.isSome with
    | .ok q => (p, .posting r q)
    | .error _ => (p, .finished)
  | (p, _), _ => (p, .finished)

def afterReply : Place → Except String V3MessageResponse → Place
  | (p, .posting r _), reply => (p, afterPost r (postResult reply))
  | p, _ => p

def after (p : Place) : (c : Command) → Output c → Place
  | .estimate _, _ | .now, _ => p
  | .setNx _, locked => afterLock p locked
  | .del _, _ => home
  | .getQueryId _, row => afterGet p row
  | .updateQueryId _ _ _, written | .upsertQueryId _ _ _ _, written => afterWrite p written
  | .postV3Message _, reply => afterReply p reply

/-- The iteration over the wallets starts and ends, and a sending is given up. -/
inductive Silent : Place → Place → Prop where
  | start (order : List String) : Silent home (.acquiring order, .idle)
  | giveUp : Silent (.acquiring [], .idle) home
  | unsent {v : String} : Silent (.inside v, .sending none) (.inside v, .finished)
  | noId {v : String} {r : Option ℕ} {shift bitnumber : ℤ} {e : HighLoadQueryIdWrapperError}
      (h : nextId shift bitnumber r.isSome = .error e) :
    Silent (.inside v, .read r shift bitnumber) (.inside v, .finished)
  | unposted {v : String} {r : Option ℕ} {q : HighLoadQueryId} :
    Silent (.inside v, .posting r q) (.inside v, .finished)

def walletRules : Protocol Command Output Place := ⟨Allowed, after, Silent⟩

/-- A worker is at a stage of the sending exactly while it is inside a wallet. -/
def WellPlaced : Place → Prop
  | (.inside _, stage) => stage ≠ .idle
  | (_, stage) => stage = .idle

theorem wellPlaced_silent {p p' : Place} (h : Silent p p') : WellPlaced p' := by
  cases h <;> simp [WellPlaced, home]

theorem wellPlaced_after {p : Place} {c : Command} (h : WellPlaced p) (hc : Allowed p c)
    (r : Output c) : WellPlaced (after p c r) := by
  cases hc with
  | estimate | now => exact h
  | setNx => rcases r with _ | (_ | _) <;> simp [after, afterLock, WellPlaced]
  | getQueryId => cases r <;> simp [after, afterGet, WellPlaced]
  | update hid | upsert hid => cases r <;> simp [after, afterWrite, WellPlaced, hid]
  | @post v n =>
    rcases ConcurrentSenders.afterPost_cases n (postResult r) with h | ⟨k, h⟩ <;>
      simp [after, afterReply, WellPlaced, h]
  | del => rfl

end Rules

section Conformance

/-- The task keeps to the rules of the wallets, from this place to these ends. -/
def Obeys {α : Type} (Q : Place → Except Stop α → Prop) (p : Place) (x : Async α) : Prop :=
  KeepsBy walletRules handle Q p x

variable {α β : Type} {Q : Place → Except Stop α → Prop} {Q' : Place → Except Stop β → Prop}
variable {p : Place} {x : Async α} {f : α → Async β}

theorem obeys_ok {a : α} (h : Q p (.ok a)) : Obeys Q p (pure a) := keepsBy_of rfl h

theorem obeys_throw {stop : Stop} (h : Q p (.error stop)) : Obeys Q p (throw stop) :=
  keepsBy_of rfl h

theorem obeys_silent {p' : Place} (h : Silent p p') (hx : Obeys Q p' x) : Obeys Q p x :=
  .silent h hx

theorem obeys_stopping_then {y : Except Stop α} (hok : ∀ a, y = .ok a → Obeys Q' p (f a))
    (herror : ∀ stop, y = .error stop → Obeys Q' p (throw stop)) :
    Obeys Q' p (stopping y >>= f) := by
  cases y with
  | ok a => exact hok a rfl
  | error stop => exact herror stop rfl

theorem obeys_orFail_then {ε : Type} {y : Except ε α} {e : ε → BroadcasterError}
    (hok : ∀ a, Obeys Q' p (f a)) (herror : ∀ e, Obeys Q' p (throw (.error e))) :
    Obeys Q' p (orFail y e >>= f) := by
  refine obeys_stopping_then (fun a _ => hok a) fun stop h => ?_
  cases y with
  | ok a => cases h
  | error e =>
    cases h
    exact herror _

theorem obeys_call_then {c : Call} {f : Answer c → Async β}
    (h : Keeps walletRules (fun p' r => Obeys Q' p' (f r)) p (handle c)) :
    Obeys Q' p (call c >>= f) :=
  keepsBy_then (keepsBy_lift (Q := fun p' r => ∃ a, r = .ok a ∧ Obeys Q' p' (f a))
      (keeps_weaken h fun p' r hr => ⟨r, rfl, hr⟩))
    (by rintro p' a ⟨_, ⟨⟩, h⟩; exact h) (by rintro p' e ⟨_, h, -⟩; cases h)

theorem keeps_send {c : Command} {Q : Place → Output c → Prop} (h : Allowed p c)
    (hq : ∀ r, Q (after p c r) r) : Keeps walletRules Q p (send c) := keeps_ask h hq

theorem obeys_estimate_then {e : Estimate} {f : UInt64 → Async β} (h : ∀ n, Obeys Q' p (f n)) :
    Obeys Q' p (estimate e >>= f) := 
  obeys_call_then (keeps_send (c := .estimate e) (.estimate e) h)

theorem obeys_caught_then {f : Except BroadcasterError α → Async β} (hx : Obeys Q p x)
    (h : ∀ p' r, Q p' r → (∀ message, r ≠ .error (.panic message)) ∧
      ∀ r', caughtResult r = .ok r' → Obeys Q' p' (f r')) :
    Obeys Q' p (caught x >>= f) := by
  refine keepsBy_then (Q := fun p' r => ∃ r', r = .ok r' ∧ Obeys Q' p' (f r')) ?_ ?_ ?_
  · show Keeps walletRules _ p (interpret handle (x.run >>= fun r => .done (caughtResult r)))
    rw [interpret_bind]
    refine keeps_bind hx fun p' r hr => .done ?_
    obtain ⟨hpanic, hf⟩ := h p' r hr
    rcases r with (e | message) | a
    · exact ⟨_, rfl, hf _ rfl⟩
    · exact absurd rfl (hpanic message)
    · exact ⟨_, rfl, hf _ rfl⟩
  · rintro p' r ⟨_, ⟨⟩, h⟩
    exact h
  · rintro p' e ⟨_, h, -⟩
    cases h

section Sending

variable {B : TONBroadcaster} {wallet : Wallet} {actions : List OutAction}

/-- The end of a task inside a wallet: what is left to do is the release. -/
def Finished (v : String) (p : Place) (r : Except Stop α) : Prop :=
  p = (.inside v, .finished) ∧ ∀ message, r ≠ .error (.panic message)

def AtHome (p : Place) (r : Except Stop α) : Prop :=
  p = home ∧ ∀ message, r ≠ .error (.panic message)

/-- The wrapper's two statements, with its computation between them. -/
theorem next_keeps {v : String} {r : Option ℕ} {timeout : UInt64} :
    Keeps walletRules (fun p answer => match answer with
        | .ok q => p = (.inside v, .posting r q)
        | .error _ => p = (.inside v, .finished)) (.inside v, .sending r)
      (HighLoadQueryIdDbWrapper.next v timeout r.isSome) := by
  refine keeps_bind (keeps_send (Q := fun p row => p = afterGet (.inside v, .sending r) row)
    .getQueryId fun _ => rfl) ?_
  rintro _ (_ | ⟨shift, bitnumber⟩) rfl
  · exact .done rfl
  · dsimp only
    cases hid : nextId shift bitnumber r.isSome with
    | error e => exact .silent (.noId hid) (.done rfl)
    | ok q =>
      refine keeps_bind (Q := fun p written => p =
        afterWrite (.inside v, .read r shift bitnumber) written) ?_ ?_
      · rw [writeQueryId]
        by_cases hq : q.queryId = 0
        · rw [if_pos hq]
          exact keeps_send (.upsert hid hq timeout.toNat) fun _ => rfl
        · rw [if_neg hq]
          exact keeps_send (.update hid hq) fun _ => rfl
      · rintro _ (_ | _) rfl
        · exact .done rfl
        · exact .done (by simp [afterWrite, hid])

/-- An attempt takes an id and posts a message that was built with it. -/
theorem attempt_obeys (hactions : actions.length ≤ 254) (r : Option ℕ) :
    Obeys (fun p answer => match answer with
        | .ok reply => p = (.inside (B.key wallet), afterPost r (postResult reply))
        | .error stop => Finished (B.key wallet) p (.error stop : Except Stop Unit))
      (.inside (B.key wallet), .sending r) (attempt B wallet actions r.isSome) := by
  refine obeys_call_then (keeps_weaken next_keeps fun p answer hp => ?_)
  cases answer with
  | error e =>
    refine obeys_stopping_then (by rintro _ ⟨⟩) ?_
    rintro _ ⟨⟩
    exact obeys_throw ⟨hp, by simp⟩
  | ok q =>
    subst hp
    refine obeys_stopping_then ?_ (by rintro _ ⟨⟩)
    rintro _ ⟨⟩
    refine obeys_estimate_then fun value => ?_
    refine obeys_call_then (keeps_send (c := .now) .now fun createdAt => ?_)
    cases hboc : messageBoc B wallet actions q.queryId value.toNat createdAt with
    | error stop =>
      refine obeys_silent .unposted (obeys_stopping_then (by rintro _ ⟨⟩) ?_)
      rintro _ ⟨⟩
      exact obeys_throw ⟨rfl, fun message h =>
        messageBoc_no_panic hactions _ _ _ message (by rw [hboc, Except.error.inj h])⟩
    | ok boc =>
      refine obeys_stopping_then ?_ (by rintro _ ⟨⟩)
      rintro _ ⟨⟩
      exact keepsBy_lift (keeps_send (.post ⟨B, wallet, actions, _, _, rfl, hboc⟩) fun _ => rfl)

/-- A used query id leads to the next attempt; every other answer ends the sending. -/
theorem sendOnce_obeys (hactions : actions.length ≤ 254) (r : Option ℕ)
    {again : Option (Async V3MessageResponse)} (hnone : again = none → r = some 0)
    (hsome : ∀ retry, again = some retry → ∃ n,
      afterPost r .alreadyExecuted = .sending (some n) ∧
        Obeys (Finished (B.key wallet)) (.inside (B.key wallet), .sending (some n)) retry) :
    Obeys (Finished (B.key wallet)) (.inside (B.key wallet), .sending r)
      (sendOnce B wallet actions r.isSome again) := by
  refine keepsBy_then (attempt_obeys hactions r) ?_ fun p' stop h => ⟨h.1, by simpa using h.2⟩
  rintro _ (e | response) rfl
  · dsimp only [postResult]
    by_cases he : alreadyExecuted e = true
    · simp only [if_pos he]
      cases again with
      | none =>
        rw [hnone rfl]
        exact obeys_throw ⟨rfl, by simp⟩
      | some retry =>
        obtain ⟨n, hn, hretry⟩ := hsome retry rfl
        rw [hn]
        exact hretry
    · simp only [if_neg he]
      exact obeys_throw ⟨rfl, by simp⟩
  · exact obeys_ok ⟨rfl, by simp⟩

theorem sendRetries_obeys (hactions : actions.length ≤ 254) (n : ℕ) :
    Obeys (Finished (B.key wallet)) (.inside (B.key wallet), .sending (some n))
      (sendRetries B wallet actions n) := by
  induction n with
  | zero => exact sendOnce_obeys hactions (some 0) (fun _ => rfl) (by simp)
  | succ n ih =>
    refine sendOnce_obeys hactions (some (n + 1)) (by simp) ?_
    rintro _ ⟨⟩
    exact ⟨n, rfl, ih⟩

theorem sendToChain_obeys (hactions : actions.length ≤ 254) :
    Obeys (Finished (B.key wallet)) (.inside (B.key wallet), .sending none)
      (sendToChain B wallet actions none) := by
  refine sendOnce_obeys hactions none (by simp) ?_
  rintro _ ⟨⟩
  exact ⟨10, rfl, sendRetries_obeys hactions 10⟩

/-- What the sending ends with is turned into the result of the task. -/
theorem sent_obeys (hactions : actions.length ≤ 254)
    (report : Except BroadcasterError V3MessageResponse → α) :
    Obeys (Finished (B.key wallet)) (.inside (B.key wallet), .sending none)
      (do let res ← caught (sendToChain B wallet actions none)
          return report res) := by
  refine obeys_caught_then (sendToChain_obeys hactions) fun p' r h => ⟨h.2, fun r' _ => ?_⟩
  exact obeys_ok ⟨h.1, by simp⟩

end Sending

section Wallets

variable {B : TONBroadcaster}

theorem acquire_obeys (wallets : List Wallet) :
    Obeys (fun p r => match r with
        | .ok wallet => p = (.inside (B.key wallet), .sending none)
        | .error stop => AtHome p (.error stop : Except Stop Unit))
      (.acquiring (wallets.map B.key), .idle) (acquire B wallets) := by
  induction wallets with
  | nil => exact obeys_silent .giveUp (obeys_throw ⟨rfl, by simp⟩)
  | cons wallet wallets ih =>
    refine obeys_call_then ?_
    refine keeps_bind (Q := fun p locked => p =
      afterLock (.acquiring (B.key wallet :: wallets.map B.key), .idle) locked)
      (keeps_send (.setNx) fun _ => rfl) ?_
    rintro _ (_ | (_ | _)) rfl
    · exact .done ih
    · exact .done ih
    · exact .done (obeys_ok rfl)

theorem releasing_obeys {wallet : Wallet}
    (hx : Obeys (Finished (B.key wallet)) (.inside (B.key wallet), .sending none) x) :
    Obeys AtHome (.inside (B.key wallet), .sending none) (releasing B wallet x) := by
  refine obeys_caught_then hx fun p' r h => ⟨h.2, fun r' _ => ?_⟩
  rw [h.1]
  refine obeys_call_then ?_
  refine keeps_bind (Q := fun p _ => p = home) (keeps_send .del fun _ => rfl) ?_
  rintro _ _ rfl
  refine .done ?_
  cases r' with
  | ok a => exact keepsBy_of rfl ⟨rfl, by simp [Except.mapError]⟩
  | error e => exact keepsBy_of rfl ⟨rfl, by simp [Except.mapError]⟩

theorem acquired_obeys {f : Wallet → Async α}
    (hf : ∀ wallet, Obeys (Finished (B.key wallet)) (.inside (B.key wallet), .sending none)
      (f wallet)) :
    Obeys AtHome home (acquire B B.wallets >>= fun wallet => releasing B wallet (f wallet)) := by
  refine obeys_silent (.start (B.wallets.map B.key)) ?_
  refine keepsBy_then (acquire_obeys B.wallets) ?_ fun p' e h => ⟨h.1, by simpa using h.2⟩
  rintro _ wallet rfl
  exact releasing_obeys (hf wallet)

/-- Inside a wallet, a task that stops before it sends has only the release left. -/
theorem obeys_unsent_then {ε : Type} {v : String} {y : Except ε α} {e : ε → BroadcasterError}
    (h : ∀ a, Obeys (Finished v) (.inside v, .sending none) (f a)) :
    Obeys (Finished v) (.inside v, .sending none) (orFail y e >>= f) :=
  obeys_orFail_then h fun _ => obeys_silent .unsent (obeys_throw ⟨rfl, by simp⟩)

theorem obeys_home_then {ε : Type} {y : Except ε α} {e : ε → BroadcasterError}
    (h : ∀ a, Obeys AtHome home (f a)) : Obeys AtHome home (orFail y e >>= f) :=
  obeys_orFail_then h fun _ => obeys_throw ⟨rfl, by simp⟩

end Wallets

theorem prover_obeys (B : TONBroadcaster) (txBlob : String) :
    Obeys AtHome home (broadcastProverMessage B txBlob) := by
  rw [broadcastProverMessage]
  refine obeys_home_then fun approveMessages => ?_
  split
  · exact obeys_throw ⟨rfl, by simp⟩
  · refine obeys_estimate_then fun value => obeys_home_then fun action => ?_
    exact acquired_obeys fun wallet => sent_obeys (by simp) _

theorem execute_obeys (B : TONBroadcaster) (message : ExecuteTaskFields) :
    Obeys AtHome home (broadcastExecuteMessage B message) := by
  rw [broadcastExecuteMessage]
  refine obeys_home_then fun destinationAddress => obeys_home_then fun decodedBytes => ?_
  refine obeys_estimate_then fun requiredGas => ?_
  split
  · exact obeys_ok ⟨rfl, by simp⟩
  · refine acquired_obeys fun wallet => ?_
    refine obeys_unsent_then fun cell => obeys_unsent_then fun boc => ?_
    refine obeys_estimate_then fun value => obeys_unsent_then fun action => ?_
    exact sent_obeys (by simp) _

theorem refund_obeys (B : TONBroadcaster) (refundTask : RefundTaskFields) :
    Obeys AtHome home (broadcastRefundMessage B refundTask) := by
  rw [broadcastRefundMessage]
  split
  · exact obeys_throw ⟨rfl, by simp⟩
  · refine obeys_home_then fun txHash => obeys_home_then fun address => ?_
    split
    · exact obeys_throw ⟨rfl, by simp⟩
    · refine obeys_estimate_then fun gasEstimate => ?_
      split
      · exact obeys_throw ⟨rfl, by simp⟩
      · refine obeys_home_then fun cell => obeys_home_then fun boc => ?_
        refine acquired_obeys fun wallet => obeys_unsent_then fun action => ?_
        exact sent_obeys (by simp) _

/-- Every task takes a worker from home through at most one wallet and back. -/
theorem task_keeps (task : Task) :
    Keeps walletRules (fun p _ => p = home) home task.program := by
  have mapped {γ : Type} {y : Async γ} {f : γ → Outcome} (hy : Obeys AtHome home y) :
      Obeys (fun p _ => p = home) home (do return f (← y)) :=
    keepsBy_then hy (fun p' a h => obeys_ok h.1) fun p' e h => h.1
  cases task with
  | prover B txBlob => exact mapped (prover_obeys B txBlob)
  | execute B message => exact mapped (execute_obeys B message)
  | refund B refundTask => exact mapped (refund_obeys B refundTask)

end Conformance

end WalletRules
