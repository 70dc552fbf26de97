import TonRelayer.Broadcasts
import TonRelayer.QueryIdFields
import TonRelayer.WalletRelease

/-! The attempts of `send_to_chain`, from its first post to its last.
The run is cut into attempts. Only the answer of a used query id leads to another attempt, and
the attempt takes an id of its own from the wrapper. -/
namespace SendRetries

open Interactions HighLoadQueryIds RelayerExecute TransitionRuns QueryIdExhaustion Broadcasts
open WalletRelease (Log Balanced prover_balances execute_balances refund_balances)
open RefundBroadcast (Wallet V3MessageResponse BroadcasterError RefundTaskFields alreadyExecuted)

variable (B : TONBroadcaster) (wallet : Wallet) (actions : List OutAction)

/-- An attempt that was posted. -/
structure Attempt where
  forced : Bool
  queryId : HighLoadQueryId
  value : UInt64
  createdAt : UInt64
  boc : String
  reply : Except String V3MessageResponse

def Attempt.log (a : Attempt) : Log :=
  [⟨.nextQueryId (B.key wallet) wallet.timeout a.forced, .ok a.queryId⟩,
    ⟨.estimate (.highloadWalletSend actions.length), a.value⟩, ⟨.now, a.createdAt⟩,
    ⟨.postV3Message a.boc, a.reply⟩]

/-- The posted text is the message with the attempt's own query id. -/
def Attempt.Built (a : Attempt) : Prop :=
  messageBoc B wallet actions a.queryId.queryId a.value.toNat a.createdAt = .ok a.boc

/-- The post was refused because its query id was used before. -/
def Attempt.Executed (a : Attempt) : Prop := ∃ e, a.reply = .error e ∧ alreadyExecuted e = true

/-- An attempt that ends before its post. -/
inductive Unposted (forced : Bool) : Log → Stop → Prop where
  | noQueryId (e : HighLoadQueryIdWrapperError) :
    Unposted forced [⟨.nextQueryId (B.key wallet) wallet.timeout forced, .error e⟩]
      (.error (queryIdError e))
  | noMessage (queryId : HighLoadQueryId) (value createdAt : UInt64) (stop : Stop)
      (h : messageBoc B wallet actions queryId.queryId value.toNat createdAt = .error stop) :
    Unposted forced [⟨.nextQueryId (B.key wallet) wallet.timeout forced, .ok queryId⟩,
      ⟨.estimate (.highloadWalletSend actions.length), value⟩, ⟨.now, createdAt⟩] stop

/-- What `send_to_chain` does with `retries` further attempts: the posted ones, the calls after
the last post, and the result. -/
inductive Sent : Bool → ℕ → List Attempt → Log → Except Stop V3MessageResponse → Prop where
  | unposted {forced retries rest stop} (h : Unposted B wallet actions forced rest stop) :
    Sent forced retries [] rest (.error stop)
  | accepted {forced retries a response} (hforced : a.forced = forced)
      (hbuilt : a.Built B wallet actions) (hreply : a.reply = .ok response) :
    Sent forced retries [a] [] (.ok response)
  | failed {forced retries a e} (hforced : a.forced = forced)
      (hbuilt : a.Built B wallet actions) (hreply : a.reply = .error e)
      (hlast : alreadyExecuted e = true → retries = 0) :
    Sent forced retries [a] [] (.error (.error (.rpcCallFailed e)))
  | again {forced retries a attempts rest r} (hforced : a.forced = forced)
      (hbuilt : a.Built B wallet actions) (hexecuted : a.Executed)
      (h : Sent true retries attempts rest r) : Sent forced (retries + 1) (a :: attempts) rest r

variable {B wallet actions}

section Runs

variable {forced : Bool} {log : Log}

theorem attempt_runs {r : Except Stop (Except String V3MessageResponse)} :
    Runs (attempt B wallet actions forced).run log r ↔
      (∃ stop, r = .error stop ∧ Unposted B wallet actions forced log stop) ∨
      ∃ a : Attempt, a.forced = forced ∧ a.Built B wallet actions ∧
        log = a.log B wallet actions ∧ r = .ok a.reply := by
  constructor
  · intro h
    obtain ⟨answer, log₁, rfl, h₁⟩ := runs_call_then.mp h
    rcases runs_stopping_then.mp h₁ with ⟨stop, hanswer, rfl, rfl⟩ | ⟨queryId, hanswer, h₂⟩
    · cases answer with
      | ok queryId => cases hanswer
      | error e =>
        cases hanswer
        exact .inl ⟨_, rfl, .noQueryId e⟩
    · cases answer with
      | error e => cases hanswer
      | ok q =>
        cases hanswer
        obtain ⟨value, log₂, rfl, h₃⟩ := runs_call_then.mp h₂
        obtain ⟨createdAt, log₃, rfl, h₄⟩ := runs_call_then.mp h₃
        rcases runs_stopping_then.mp h₄ with ⟨stop, hboc, rfl, rfl⟩ | ⟨boc, hboc, h₅⟩
        · exact .inl ⟨stop, rfl, .noMessage queryId value createdAt stop hboc⟩
        · obtain ⟨reply, rfl, rfl⟩ := runs_call.mp h₅
          exact .inr ⟨⟨forced, queryId, value, createdAt, boc, reply⟩, rfl, hboc, rfl, rfl⟩
  · rintro (⟨stop, rfl, hunposted⟩ | ⟨a, rfl, hbuilt, rfl, rfl⟩)
    · cases hunposted with
      | noQueryId e =>
        exact runs_call_then.mpr ⟨.error e, [], rfl,
          runs_stopping_then.mpr (.inl ⟨_, rfl, rfl, rfl⟩)⟩
      | noMessage queryId value createdAt stop hboc =>
        refine runs_call_then.mpr ⟨.ok queryId, _, rfl, ?_⟩
        refine runs_stopping_then.mpr (.inr ⟨queryId, rfl, ?_⟩)
        refine runs_call_then.mpr ⟨value, _, rfl, runs_call_then.mpr ⟨createdAt, _, rfl, ?_⟩⟩
        exact runs_stopping_then.mpr (.inl ⟨stop, hboc, rfl, rfl⟩)
    · refine runs_call_then.mpr ⟨.ok a.queryId, _, rfl, ?_⟩
      refine runs_stopping_then.mpr (.inr ⟨a.queryId, rfl, ?_⟩)
      refine runs_call_then.mpr ⟨a.value, _, rfl, runs_call_then.mpr ⟨a.createdAt, _, rfl, ?_⟩⟩
      refine runs_stopping_then.mpr (.inr ⟨a.boc, hbuilt, ?_⟩)
      exact runs_call.mpr ⟨a.reply, rfl, rfl⟩

variable {again : Option (Async V3MessageResponse)} {r : Except Stop V3MessageResponse}

/-- What follows an answered post. -/
theorem answered_runs {reply : Except String V3MessageResponse} :
    Runs (match reply with
      | .ok response => pure response
      | .error e => match (if alreadyExecuted e then again else none) with
        | some retry => retry
        | none => throw (.error (.rpcCallFailed e)) : Async V3MessageResponse).run log r ↔
      (∃ response, reply = .ok response ∧ log = [] ∧ r = .ok response) ∨
      (∃ e, reply = .error e ∧ (alreadyExecuted e = true → again = none) ∧ log = [] ∧
        r = .error (.error (.rpcCallFailed e))) ∨
      ∃ e retry, reply = .error e ∧ alreadyExecuted e = true ∧ again = some retry ∧
        Runs retry.run log r := by
  cases reply with
  | ok response => simpa using runs_ok
  | error e =>
    by_cases he : alreadyExecuted e = true
    · cases again with
      | none => simpa [he] using runs_throw
      | some retry => simp [he]
    · simpa [he] using runs_throw

theorem sendOnce_runs : Runs (sendOnce B wallet actions forced again).run log r ↔
    (∃ stop, r = .error stop ∧ Unposted B wallet actions forced log stop) ∨
    ∃ (a : Attempt) (after : Log), a.forced = forced ∧ a.Built B wallet actions ∧
      log = a.log B wallet actions ++ after ∧
      ((∃ response, a.reply = .ok response ∧ after = [] ∧ r = .ok response) ∨
      (∃ e, a.reply = .error e ∧ (alreadyExecuted e = true → again = none) ∧ after = [] ∧
        r = .error (.error (.rpcCallFailed e))) ∨
      ∃ e retry, a.reply = .error e ∧ alreadyExecuted e = true ∧ again = some retry ∧
        Runs retry.run after r) := by
  rw [sendOnce, runs_then]
  constructor
  · rintro (⟨stop, h, rfl⟩ | ⟨before, reply, after, rfl, h, hrest⟩)
    · rcases attempt_runs.mp h with ⟨stop', hstop, hunposted⟩ | ⟨a, -, -, -, ha⟩
      · cases hstop
        exact .inl ⟨stop, rfl, hunposted⟩
      · cases ha
    · rcases attempt_runs.mp h with ⟨stop', hstop, -⟩ | ⟨a, hforced, hbuilt, rfl, ha⟩
      · cases hstop
      · cases ha
        exact .inr ⟨a, after, hforced, hbuilt, rfl, answered_runs.mp hrest⟩
  · rintro (⟨stop, rfl, hunposted⟩ | ⟨a, after, hforced, hbuilt, rfl, hrest⟩)
    · exact .inl ⟨stop, attempt_runs.mpr (.inl ⟨stop, rfl, hunposted⟩), rfl⟩
    · exact .inr ⟨_, a.reply, after, rfl,
        attempt_runs.mpr (.inr ⟨a, hforced, hbuilt, rfl, rfl⟩), answered_runs.mpr hrest⟩

/-- The run is cut into attempts. -/
def SentLog (B : TONBroadcaster) (wallet : Wallet) (actions : List OutAction) (forced : Bool)
    (retries : ℕ) (log : Log) (r : Except Stop V3MessageResponse) : Prop :=
  ∃ attempts rest, log = attempts.flatMap (Attempt.log B wallet actions) ++ rest ∧
    Sent B wallet actions forced retries attempts rest r

theorem sendOnce_sent {retries : ℕ} (hnone : again = none → retries = 0)
    (hsome : ∀ retry, again = some retry → ∃ n, retries = n + 1 ∧
      ∀ log r, Runs retry.run log r ↔ SentLog B wallet actions true n log r) :
    Runs (sendOnce B wallet actions forced again).run log r ↔
      SentLog B wallet actions forced retries log r := by
  rw [sendOnce_runs]
  constructor
  · rintro (⟨stop, rfl, hunposted⟩ | ⟨a, after, hforced, hbuilt, rfl, hrest⟩)
    · exact ⟨[], log, by simp, .unposted hunposted⟩
    · rcases hrest with ⟨response, hreply, rfl, rfl⟩ | ⟨e, hreply, hlast, rfl, rfl⟩ |
        ⟨e, retry, hreply, he, hagain, hrun⟩
      · exact ⟨[a], [], by simp, .accepted hforced hbuilt hreply⟩
      · exact ⟨[a], [], by simp, .failed hforced hbuilt hreply fun he => hnone (hlast he)⟩
      · obtain ⟨n, rfl, hretry⟩ := hsome retry hagain
        obtain ⟨attempts, rest, rfl, hsent⟩ := (hretry after r).mp hrun
        exact ⟨a :: attempts, rest, by simp, .again hforced hbuilt ⟨e, hreply, he⟩ hsent⟩
  · rintro ⟨attempts, rest, rfl, hsent⟩
    cases hsent with
    | unposted hunposted => exact .inl ⟨_, rfl, by simpa using hunposted⟩
    | accepted hforced hbuilt hreply =>
      exact .inr ⟨_, [], hforced, hbuilt, by simp, .inl ⟨_, hreply, rfl, rfl⟩⟩
    | @failed _ _ a e hforced hbuilt hreply hlast =>
      refine .inr ⟨a, [], hforced, hbuilt, by simp, .inr (.inl ⟨e, hreply, fun he => ?_, rfl, rfl⟩)⟩
      cases hagain : again with
      | none => rfl
      | some retry =>
        obtain ⟨n, hn, -⟩ := hsome retry hagain
        rw [hlast he] at hn
        cases hn
    | @again _ n a attempts _ _ hforced hbuilt hexecuted hsent =>
      obtain ⟨e, hreply, he⟩ := hexecuted
      cases hagain : again with
      | none => cases hnone hagain
      | some retry =>
        obtain ⟨n', hn, hretry⟩ := hsome retry hagain
        cases hn
        refine .inr ⟨a, attempts.flatMap (Attempt.log B wallet actions) ++ rest, hforced, hbuilt,
          by simp, .inr (.inr ⟨e, retry, hreply, he, rfl, ?_⟩)⟩
        exact (hretry _ r).mpr ⟨attempts, rest, rfl, hsent⟩

theorem sendRetries_sent (n : ℕ) (log : Log) (r : Except Stop V3MessageResponse) :
    Runs (sendRetries B wallet actions n).run log r ↔ SentLog B wallet actions true n log r := by
  induction n generalizing log r with
  | zero => exact sendOnce_sent (fun _ => rfl) (by simp)
  | succ n ih =>
    refine sendOnce_sent (by simp) fun retry hretry => ⟨n, rfl, ?_⟩
    cases hretry
    exact ih

/-- A first attempt and at most eleven more. -/
theorem sendToChain_sent : Runs (sendToChain B wallet actions none).run log r ↔
    SentLog B wallet actions false 11 log r := by
  refine sendOnce_sent (by simp) fun retry hretry => ⟨10, rfl, ?_⟩
  cases hretry
  exact sendRetries_sent 10

end Runs

section Discipline

variable {forced : Bool} {retries : ℕ} {attempts : List Attempt} {rest log : Log}
variable {r : Except Stop V3MessageResponse}

/-- What a whole call of `send_to_chain` without a retry counter keeps to. -/
structure Discipline (B : TONBroadcaster) (wallet : Wallet) (actions : List OutAction)
    (log : Log) (r : Except Stop V3MessageResponse) (attempts : List Attempt) (rest : Log) :
    Prop where
  cut : log = attempts.flatMap (Attempt.log B wallet actions) ++ rest
  posted : ∀ boc reply, ⟨.postV3Message boc, reply⟩ ∉ rest
  count : attempts.length ≤ 12
  built : ∀ a ∈ attempts, a.Built B wallet actions
  forced : ∀ i a, attempts[i]? = some a → a.forced = (i != 0)
  again : ∀ before a after, attempts = before ++ a :: after → after ≠ [] ∨ rest ≠ [] → a.Executed
  accepted : ∀ response, r = .ok response ↔
    ∃ a, attempts.getLast? = some a ∧ a.reply = .ok response

theorem unposted_no_post {stop : Stop} (h : Unposted B wallet actions forced rest stop)
    (boc : String) (reply : Answer (.postV3Message boc)) : ⟨.postV3Message boc, reply⟩ ∉ rest := by
  intro hmem
  cases h with
  | noQueryId e => cases List.mem_singleton.mp hmem
  | noMessage queryId value createdAt stop hboc =>
    rcases List.mem_cons.mp hmem with h | hmem
    · cases h
    rcases List.mem_cons.mp hmem with h | hmem
    · cases h
    · cases List.mem_singleton.mp hmem

theorem sent_no_post (h : Sent B wallet actions forced retries attempts rest r) (boc : String)
    (reply : Answer (.postV3Message boc)) : ⟨.postV3Message boc, reply⟩ ∉ rest := by
  induction h with
  | unposted hunposted => exact unposted_no_post hunposted boc reply
  | accepted | failed => simp
  | again _ _ _ _ ih => exact ih

theorem sent_count (h : Sent B wallet actions forced retries attempts rest r) :
    attempts.length ≤ retries + 1 := by
  induction h with
  | unposted => simp
  | accepted | failed => simp
  | again _ _ _ _ ih => simpa using ih

theorem sent_built (h : Sent B wallet actions forced retries attempts rest r) :
    ∀ a ∈ attempts, a.Built B wallet actions := by
  induction h with
  | unposted => simp
  | accepted _ hbuilt _ | failed _ hbuilt _ _ => simpa using hbuilt
  | again _ hbuilt _ _ ih => exact List.forall_mem_cons.mpr ⟨hbuilt, ih⟩

theorem sent_forced (h : Sent B wallet actions forced retries attempts rest r) (i : ℕ)
    (a : Attempt) (ha : attempts[i]? = some a) : a.forced = (forced || i != 0) := by
  induction h generalizing i with
  | unposted => simp at ha
  | accepted hforced _ _ | failed hforced _ _ _ =>
    cases i with
    | zero =>
      cases ha
      simpa using hforced
    | succ i => simp at ha
  | again hforced _ _ _ ih =>
    cases i with
    | zero =>
      cases ha
      simpa using hforced
    | succ i => simpa using ih i (by simpa using ha)

/-- Only the answer of a used query id is followed by anything. -/
theorem sent_again (h : Sent B wallet actions forced retries attempts rest r)
    {before after : List Attempt} {a : Attempt} (ha : attempts = before ++ a :: after)
    (hmore : after ≠ [] ∨ rest ≠ []) : a.Executed := by
  induction h generalizing before with
  | unposted => simp at ha
  | accepted | failed =>
    cases before with
    | nil =>
      cases ha
      simp at hmore
    | cons b before => simp at ha
  | again _ _ hexecuted _ ih =>
    cases before with
    | nil =>
      cases ha
      exact hexecuted
    | cons b before =>
      cases ha
      exact ih rfl hmore

theorem sent_nonempty (h : Sent B wallet actions forced retries attempts rest r)
    {response : V3MessageResponse} (hr : r = .ok response) : attempts ≠ [] := by
  cases h with
  | unposted => cases hr
  | accepted | failed | again => simp

theorem sent_accepted (h : Sent B wallet actions forced retries attempts rest r)
    (response : V3MessageResponse) :
    r = .ok response ↔ ∃ a, attempts.getLast? = some a ∧ a.reply = .ok response := by
  induction h with
  | unposted => simp
  | accepted _ _ hreply => simp [hreply]
  | failed _ _ hreply _ => simp [hreply]
  | @again _ _ a attempts _ _ _ _ hexecuted hsent ih =>
    cases attempts with
    | nil =>
      obtain ⟨e, hreply, -⟩ := hexecuted
      refine iff_of_false (fun hr => sent_nonempty hsent hr rfl) ?_
      rintro ⟨a', ha', haccepted⟩
      rw [List.getLast?_singleton, Option.some.injEq] at ha'
      rw [← ha', hreply] at haccepted
      cases haccepted
    | cons b attempts => rw [ih, List.getLast?_cons_cons]

theorem sent_discipline (h : Sent B wallet actions false 11 attempts rest r)
    (hlog : log = attempts.flatMap (Attempt.log B wallet actions) ++ rest) :
    Discipline B wallet actions log r attempts rest where
  cut := hlog
  posted := sent_no_post h
  count := sent_count h
  built := sent_built h
  forced := fun i a ha => by simpa using sent_forced h i a ha
  again := fun _ _ _ ha hmore => sent_again h ha hmore
  accepted := sent_accepted h

end Discipline

section Served

/-- The wrapper gives the query ids, from its table; a retry does not find its row expired. -/
def Served : QueryIdTable → Log → Prop
  | _, [] => True
  | db, ⟨.nextQueryId address timeout forced, answer⟩ :: log => ∃ c : NextCall,
    c.timeout = timeout.toNat ∧ c.forceShiftIncrease = forced ∧
      answer = (wrapperNext db address c).1 ∧
      (forced = true → ∀ row, db address = some row → row.expiresAt ≥ c.now) ∧
      Served (wrapperNext db address c).2 log
  | db, _ :: log => Served db log

/-- The row holds the id of the post before, so its shift is the one that is stored. -/
structure IdsIncrease (attempts : List Attempt) : Prop where
  ids : attempts.Pairwise fun a b => a.queryId.queryId < b.queryId.queryId
  shifts : ∀ before a b after, attempts = before ++ a :: b :: after → a.queryId.shift < 8190 →
    a.queryId.shift < b.queryId.shift

variable {db : QueryIdTable}

/-- A posted attempt leaves its id in the row; a forced one took it from above the row. -/
theorem served_attempt {a : Attempt} {tail : Log} (hdb : RowsIssued db)
    (h : Served db (a.log B wallet actions ++ tail)) :
    ∃ db', RowsIssued db' ∧ RowHolds db' (B.key wallet) a.queryId ∧ Served db' tail ∧
      (a.forced = true → ∀ q, RowHolds db (B.key wallet) q → q.queryId < a.queryId.queryId ∧
        (q.shift < 8190 → q.shift < a.queryId.shift)) := by
  obtain ⟨c, -, hforce, hanswer, hlive, htail⟩ := h
  obtain ⟨hid, hnext⟩ := QueryIdSequences.result_ok (p := (db, c)) hanswer.symm
  refine ⟨_, ?_, ?_, htail, fun hforced q hq => ?_⟩
  · exact QueryIdSequences.sequence_step_rowsIssued (B.key wallet) db c hdb
  · exact QueryIdSequences.result_holds (p := (db, c)) hdb hanswer.symm
  · obtain ⟨row, hrow, hs, hb⟩ := id hq
    obtain ⟨r, hissuable, hrs, hrb, hget⟩ := live_row hdb hrow (hlive hforced row hrow)
    obtain rfl := rowHolds_unique hq ⟨row, hrow, hrs, hrb⟩
    rw [hget] at hid
    rw [hforce, hforced] at hid
    obtain ⟨-, hlt⟩ := nextId_live (by omega) (by omega) hid
    refine ⟨?_, fun hshift => forced_shift (by rw [maxShift]; omega) hissuable.2.1 hid⟩
    rw [queryId_eq q]
    omega

theorem sent_increase {forced : Bool} {retries : ℕ} {attempts : List Attempt} {rest : Log}
    {r : Except Stop V3MessageResponse} (h : Sent B wallet actions forced retries attempts rest r)
    (hdb : RowsIssued db)
    (hserved : Served db (attempts.flatMap (Attempt.log B wallet actions) ++ rest)) :
    IdsIncrease attempts ∧
      (forced = true → ∀ q, RowHolds db (B.key wallet) q →
        (∀ a ∈ attempts, q.queryId < a.queryId.queryId) ∧
        ∀ a, attempts.head? = some a → q.shift < 8190 → q.shift < a.queryId.shift) := by
  induction h generalizing db with
  | unposted => exact ⟨⟨.nil, by simp⟩, by simp⟩
  | @accepted _ _ a _ hforced _ _ | @failed _ _ a _ hforced _ _ _ =>
    have hattempt : Served db (a.log B wallet actions ++ []) := by simpa using hserved
    obtain ⟨-, -, -, -, hraise⟩ := served_attempt hdb hattempt
    refine ⟨⟨List.pairwise_singleton _ _, fun before => ?_⟩, fun h q hq => ?_⟩
    · cases before <;> simp
    · obtain ⟨hid, hshift⟩ := hraise (hforced.trans h) q hq
      exact ⟨by simpa using hid, by simpa using hshift⟩
  | @again _ _ a attempts rest _ hforced _ _ hsent ih =>
    rw [List.flatMap_cons, List.append_assoc] at hserved
    obtain ⟨db', hdb', hholds, htail, hraise⟩ := served_attempt hdb hserved
    obtain ⟨⟨hids, hshifts⟩, habove⟩ := ih hdb' htail
    obtain ⟨hlater, hnext⟩ := habove rfl a.queryId hholds
    refine ⟨⟨List.pairwise_cons.mpr ⟨hlater, hids⟩, fun before b c after heq => ?_⟩, ?_⟩
    · cases before with
      | nil =>
        obtain ⟨rfl, rfl⟩ := List.cons.inj heq
        exact hnext c rfl
      | cons x before => exact hshifts before b c after (List.cons.inj heq).2
    · intro h q hq
      obtain ⟨hid, hshift⟩ := hraise (hforced.trans h) q hq
      refine ⟨fun b hb => ?_, by simpa using hshift⟩
      rcases List.mem_cons.mp hb with rfl | hb
      · exact hid
      · exact hid.trans (hlater b hb)

end Served

/-- Every call comes to an end, keeps the discipline, and takes higher and higher ids. -/
theorem send_to_chain_retries (B : TONBroadcaster) (wallet : Wallet) (actions : List OutAction) :
    (∀ answers, ∃ log r, Runs (sendToChain B wallet actions none).run log r ∧
      Follows answers log) ∧
    ∀ log r, Runs (sendToChain B wallet actions none).run log r → ∃ attempts rest,
      Discipline B wallet actions log r attempts rest ∧
        ∀ calls, Served (wrapperCalls.run calls) log → IdsIncrease attempts := by
  refine ⟨runs_to_end _, fun log r h => ?_⟩
  obtain ⟨attempts, rest, hlog, hsent⟩ := sendToChain_sent.mp h
  refine ⟨attempts, rest, sent_discipline hsent hlog, fun calls hserved => ?_⟩
  exact (sent_increase hsent (wrapperCalls_issued calls).1 (hlog ▸ hserved)).1

section Completion

variable {forced : Bool} {retries : ℕ} {attempts : List Attempt} {rest : Log}
variable {r : Except Stop V3MessageResponse}

theorem messageBoc_no_panic (hactions : actions.length ≤ 254) (queryId value : ℕ)
    (createdAt : UInt64) (message : String) :
    messageBoc B wallet actions queryId value createdAt ≠ .error (.panic message) := by
  have mapped {α : Type} {x : Except Cells.CellError α} :
      x.mapError SendFailure.cell ≠ .error (.panic message) := by
    cases x <;> simp [Except.mapError]
  have houtgoing : RefundBroadcast.outgoingMessage B.tonlib.toWalletTonlib wallet actions queryId
      value createdAt ≠ .error (.panic message) := by
    intro h
    rw [RefundBroadcast.outgoingMessage] at h
    cases hbody : internalTransferBody B.tonlib.toTonlib actions (UInt64.ofNat queryId) with
    | error e =>
      rw [hbody] at h
      cases h
      rw [internalTransferBody, if_neg (by omega)] at hbody
      exact mapped hbody
    | ok body =>
      rw [hbody] at h
      exact mapped h
  rw [messageBoc]
  split
  · rename_i message' h
    intro heq
    cases heq
    exact houtgoing h
  · simp
  · split <;> simp

/-- Up to 254 actions nothing panics. -/
theorem sent_no_panic (hactions : actions.length ≤ 254)
    (h : Sent B wallet actions forced retries attempts rest r) (message : String) :
    r ≠ .error (.panic message) := by
  induction h with
  | unposted hunposted =>
    cases hunposted with
    | noQueryId e => simp
    | noMessage queryId value createdAt stop hboc =>
      rintro heq
      cases heq
      exact messageBoc_no_panic hactions _ _ _ _ hboc
  | accepted | failed => simp
  | again _ _ _ _ ih => exact ih

variable {α β : Type} {x : Async α} {f : α → Async β}

/-- No run ends in a panic. -/
def Completes (x : Async α) : Prop :=
  ∀ log r, Runs x.run log r → ∀ message, r ≠ .error (.panic message)

theorem completes_ok (a : α) : Completes (pure a : Async α) := by
  intro log r h message
  obtain ⟨-, rfl⟩ := runs_ok.mp h
  simp

theorem completes_throw (e : BroadcasterError) : Completes (throw (.error e) : Async α) := by
  intro log r h message
  obtain ⟨-, rfl⟩ := runs_throw.mp h
  simp

theorem completes_orFail {ε : Type} (y : Except ε α) (e : ε → BroadcasterError) :
    Completes (orFail y e) := by
  intro log r h message
  obtain ⟨-, rfl⟩ := runs_stopping.mp h
  cases y <;> simp [Except.mapError]

theorem completes_call (c : Call) : Completes (call c) := by
  intro log r h message
  obtain ⟨a, -, rfl⟩ := runs_call.mp h
  simp

theorem completes_then (hx : Completes x) (hf : ∀ a, Completes (f a)) : Completes (x >>= f) := by
  intro log r h message
  rcases runs_then.mp h with ⟨e, hrun, rfl⟩ | ⟨before, a, after, -, -, hrest⟩
  · intro he
    cases he
    exact hx log _ hrun message rfl
  · exact hf a after r hrest message

theorem completes_caught (hx : Completes x) : Completes (caught x) := by
  intro log r h message hr
  obtain ⟨r', hrun, rfl⟩ := runs_caught.mp h
  exact hx log r' hrun message (caughtResult_panic.mp hr)

theorem completes_acquire (wallets : List Wallet) : Completes (acquire B wallets) := by
  induction wallets with
  | nil => exact completes_throw _
  | cons wallet wallets ih =>
    rw [acquire]
    refine completes_then (completes_call (.lock _)) fun locked => ?_
    cases locked with
    | true => exact completes_ok wallet
    | false => exact ih

theorem completes_releasing (hx : Completes x) : Completes (releasing B wallet x) := by
  rw [releasing]
  refine completes_then (completes_caught hx) fun result => ?_
  exact completes_then (completes_call (.unlock _)) fun _ => completes_orFail result id

theorem completes_send (hactions : actions.length ≤ 254) :
    Completes (sendToChain B wallet actions none) := by
  intro log r h
  obtain ⟨attempts, rest, -, hsent⟩ := sendToChain_sent.mp h
  exact sent_no_panic hactions hsent

theorem prover_completes (B : TONBroadcaster) (txBlob : String) :
    Completes (broadcastProverMessage B txBlob) := by
  rw [broadcastProverMessage]
  refine completes_then (completes_orFail _ _) fun approveMessages => ?_
  split
  · exact completes_throw _
  · refine completes_then (completes_call (.estimate _)) fun value => ?_
    refine completes_then (completes_orFail _ _) fun action => ?_
    refine completes_then (completes_acquire _) fun wallet => completes_releasing ?_
    exact completes_then (completes_caught (completes_send (by simp))) fun res => completes_ok _

theorem execute_completes (B : TONBroadcaster) (message : ExecuteTaskFields) :
    Completes (broadcastExecuteMessage B message) := by
  rw [broadcastExecuteMessage]
  refine completes_then (completes_orFail _ _) fun destinationAddress => ?_
  refine completes_then (completes_orFail _ _) fun decodedBytes => ?_
  refine completes_then (completes_call (.estimate _)) fun requiredGas => ?_
  split
  · exact completes_ok _
  · refine completes_then (completes_acquire _) fun wallet => completes_releasing ?_
    refine completes_then (completes_orFail _ _) fun cell => ?_
    refine completes_then (completes_orFail _ _) fun boc => ?_
    refine completes_then (completes_call (.estimate _)) fun value => ?_
    refine completes_then (completes_orFail _ _) fun action => ?_
    exact completes_then (completes_caught (completes_send (by simp))) fun res => completes_ok _

theorem refund_completes (B : TONBroadcaster) (refundTask : RefundTaskFields) :
    Completes (broadcastRefundMessage B refundTask) := by
  rw [broadcastRefundMessage]
  split
  · exact completes_throw _
  · refine completes_then (completes_orFail _ _) fun txHash => ?_
    refine completes_then (completes_orFail _ _) fun address => ?_
    split
    · exact completes_throw _
    · refine completes_then (completes_call (.estimate _)) fun gasEstimate => ?_
      split
      · exact completes_throw _
      · refine completes_then (completes_orFail _ _) fun cell => ?_
        refine completes_then (completes_orFail _ _) fun boc => ?_
        refine completes_then (completes_acquire _) fun wallet => completes_releasing ?_
        refine completes_then (completes_orFail _ _) fun action => ?_
        refine completes_then (completes_caught (completes_send (by simp))) fun res => ?_
        exact completes_ok _

/-- Every run of a broadcast completes, so none of them keeps a wallet. -/
theorem every_run_balanced (B : TONBroadcaster) :
    (∀ txBlob log r, Runs (broadcastProverMessage B txBlob).run log r → Balanced B log) ∧
    (∀ message log r, Runs (broadcastExecuteMessage B message).run log r → Balanced B log) ∧
    ∀ refundTask log r, Runs (broadcastRefundMessage B refundTask).run log r → Balanced B log := by
  refine ⟨fun txBlob log r h => ?_, fun message log r h => ?_, fun refundTask log r h => ?_⟩
  · exact prover_balances B txBlob log r h (prover_completes B txBlob log r h)
  · exact execute_balances B message log r h (execute_completes B message log r h)
  · exact refund_balances B refundTask log r h (refund_completes B refundTask log r h)

end Completion

section Simulation

/-- A panic, which `RefundBroadcast` counts among the errors. -/
def stopOf : BroadcasterError → Stop
  | .genericError (.send (.panic message)) => .panic message
  | e => .error e

def Attempt.post (a : Attempt) : RefundBroadcast.Post := ⟨a.boc, a.reply⟩

/-- The broadcaster of `RefundBroadcast` whose estimator answers are fixed. -/
def withEstimates (B : TONBroadcaster) (nativeGasRefundEstimate highloadWalletSend : UInt64) :
    RefundBroadcast.TONBroadcaster where
  tonlib := B.tonlib.toWalletTonlib
  wallets := B.wallets
  gasServiceAddress := B.gasServiceAddress
  nativeGasRefundEstimate := nativeGasRefundEstimate.toNat
  highloadWalletSend := fun _ => highloadWalletSend.toNat

/-- The query ids of the environment are the wrapper's. -/
def GivesIds (E : RefundBroadcast.Environment)
    (ids : ℕ → Except HighLoadQueryIdWrapperError HighLoadQueryId) : Prop :=
  ∀ i address timeout forced, E.queryId i address timeout forced =
    ((ids i).map HighLoadQueryId.queryId).mapError debugQueryIdError

variable {E : RefundBroadcast.Environment} {gas value : UInt64}
variable {ids : ℕ → Except HighLoadQueryIdWrapperError HighLoadQueryId}

theorem messageBoc_simulated (B : TONBroadcaster) (wallet : Wallet) (actions : List OutAction)
    (gas value : UInt64) (hE : GivesIds E ids) (forced : Bool) (i : ℕ) :
    (RefundBroadcast.messageBoc (withEstimates B gas value) E wallet actions forced i).mapError
        stopOf =
      match ids i with
      | .error e => .error (.error (queryIdError e))
      | .ok q => messageBoc B wallet actions q.queryId value.toNat (E.now i) := by
  rw [RefundBroadcast.messageBoc, hE]
  cases ids i with
  | error e => rfl
  | ok q =>
    simp only [Except.map, Except.mapError, messageBoc, withEstimates]
    cases RefundBroadcast.outgoingMessage B.tonlib.toWalletTonlib wallet actions q.queryId
      value.toNat (E.now i) with
    | error e => cases e <;> rfl
    | ok message =>
      dsimp only
      cases B.tonlib.serialize message <;> rfl

/-- The sending is what some run of the program does. -/
def Simulated (B : TONBroadcaster) (wallet : Wallet) (actions : List OutAction) (forced : Bool)
    (retries : ℕ) (s : RefundBroadcast.Sending) : Prop :=
  ∃ attempts rest, Sent B wallet actions forced retries attempts rest (s.result.mapError stopOf) ∧
    s.posts = attempts.map Attempt.post

theorem sendOnce_simulated (hE : GivesIds E ids) {forced : Bool} {retries i : ℕ}
    {again : Option RefundBroadcast.Sending} (hnone : again = none → retries = 0)
    (hsome : ∀ s, again = some s → ∃ n, retries = n + 1 ∧ Simulated B wallet actions true n s) :
    Simulated B wallet actions forced retries
      (RefundBroadcast.sendOnce (withEstimates B gas value) E wallet actions forced i again) := by
  have hboc := messageBoc_simulated B wallet actions gas value hE forced i
  rw [RefundBroadcast.sendOnce]
  cases hold : RefundBroadcast.messageBoc (withEstimates B gas value) E wallet actions forced i with
  | error e =>
    rw [hold] at hboc
    cases hid : ids i with
    | error e' =>
      rw [hid] at hboc
      exact ⟨[], _, .unposted (by rw [Except.error.inj hboc]; exact .noQueryId e'), rfl⟩
    | ok q =>
      rw [hid] at hboc
      exact ⟨[], _, .unposted (.noMessage q value (E.now i) _ hboc.symm), rfl⟩
  | ok boc =>
    rw [hold] at hboc
    cases hid : ids i with
    | error e' =>
      rw [hid] at hboc
      cases hboc
    | ok q =>
      rw [hid] at hboc
      have hbuilt : Attempt.Built B wallet actions
          ⟨forced, q, value, E.now i, boc, E.post i boc⟩ := hboc.symm
      dsimp only
      cases hpost : E.post i boc with
      | ok response => exact ⟨[_], [], .accepted rfl hbuilt hpost, by simp [Attempt.post, hpost]⟩
      | error e =>
        dsimp only
        by_cases he : alreadyExecuted e = true
        · cases again with
          | none =>
            rw [ite_self]
            exact ⟨[_], [], .failed rfl hbuilt hpost fun _ => hnone rfl,
              by simp [Attempt.post, hpost]⟩
          | some s =>
            obtain ⟨n, rfl, attempts, rest, hsent, hposts⟩ := hsome s rfl
            rw [if_pos he]
            exact ⟨_ :: attempts, rest, .again rfl hbuilt ⟨e, hpost, he⟩ hsent,
              by simp [Attempt.post, hpost, hposts]⟩
        · rw [if_neg he]
          exact ⟨[_], [], .failed rfl hbuilt hpost fun h => absurd h he,
            by simp [Attempt.post, hpost]⟩

theorem sendRetries_simulated (hE : GivesIds E ids) (n i : ℕ) :
    Simulated B wallet actions true n
      (RefundBroadcast.sendRetries (withEstimates B gas value) E wallet actions n i) := by
  induction n generalizing i with
  | zero => exact sendOnce_simulated hE (fun _ => rfl) (by simp)
  | succ n ih =>
    refine sendOnce_simulated hE (by simp) fun s hs => ⟨n, rfl, ?_⟩
    cases hs
    exact ih (i + 1)

/-- The sendings of `RefundBroadcast` are runs of the program: same posts, same result. -/
theorem sendToChain_simulated (B : TONBroadcaster) (wallet : Wallet) (actions : List OutAction)
    (gas value : UInt64) (hE : GivesIds E ids) :
    let s := RefundBroadcast.sendToChain (withEstimates B gas value) E wallet actions
    ∃ (attempts : List Attempt) (rest : Log), s.posts = attempts.map Attempt.post ∧
      Runs (sendToChain B wallet actions none).run
        (attempts.flatMap (Attempt.log B wallet actions) ++ rest) (s.result.mapError stopOf) := by
  obtain ⟨attempts, rest, hsent, hposts⟩ : Simulated B wallet actions false 11
      (RefundBroadcast.sendToChain (withEstimates B gas value) E wallet actions) := by
    refine sendOnce_simulated hE (by simp) fun s hs => ⟨10, rfl, ?_⟩
    cases hs
    exact sendRetries_simulated hE 10 1
  exact ⟨attempts, rest, hposts, sendToChain_sent.mpr ⟨attempts, rest, rfl, hsent⟩⟩

end Simulation

section Sample

open QueryIdFields (Sendable signingTonlib sampleWallet sampleAction sampleBoc
  signingTonlib_usable sendable_of_lt)

def sampleBroadcaster : TONBroadcaster where
  tonlib := { signingTonlib with
    parseAddress := fun _ => .error "invalid address"
    base64Decode := fun _ => .error "invalid base64"
    loadDict := fun _ => .error .badBoc
    arcFromCell := .ok
    keccak256 := sampleKeccak }
  wallets := [sampleWallet]
  gatewayAddress := ⟨0, List.Vector.replicate 32 8⟩
  gasServiceAddress := ⟨0, List.Vector.replicate 32 15⟩
  chainName := "ton2"

def sampleKey : String := "EQAAAAAAAAAAAAAAAAAAAAAAAAAAAAAAAAAAAAAAAAAAAM9c"

def sampleAttempt : Attempt :=
  ⟨false, ⟨0, 42⟩, 999, 100000, sampleBoc, .error "THROWIF 36 error occurred"⟩

/-- The first post meets a used query id, and the database fails before the second. -/
def sampleLog : Log :=
  sampleAttempt.log sampleBroadcaster sampleWallet [sampleAction] ++
    [⟨.nextQueryId sampleKey 500 true, .error .databaseError⟩]

theorem sampleAttempt_built :
    sampleAttempt.Built sampleBroadcaster sampleWallet [sampleAction] := by
  obtain ⟨m, hm, -⟩ : Sendable signingTonlib sampleWallet [sampleAction] 999 100000 ⟨0, 42⟩ :=
    sendable_of_lt (by decide) (by decide) signingTonlib_usable (by decide)
  have hmessage : RefundBroadcast.outgoingMessage sampleBroadcaster.tonlib.toWalletTonlib
      sampleWallet [sampleAction] sampleAttempt.queryId.queryId sampleAttempt.value.toNat
      sampleAttempt.createdAt = .ok m.message := hm
  rw [Attempt.Built, messageBoc, hmessage]
  rfl

theorem sampleLog_runs :
    Runs (sendToChain sampleBroadcaster sampleWallet [sampleAction] none).run sampleLog
      (.error (.error (queryIdError .databaseError))) :=
  sendToChain_sent.mpr ⟨[sampleAttempt], _, rfl,
    .again rfl sampleAttempt_built ⟨_, rfl, by decide⟩ (.unposted (.noQueryId .databaseError))⟩

theorem sampleLog_served :
    Served (wrapperCalls.run (busyCalls sampleKey 42)) sampleLog := by
  have hrow : wrapperCalls.run (busyCalls sampleKey 42) sampleKey = _ :=
    busyCalls_row (show 41 ≤ 8191 * 1023 + 1020 by decide)
  generalize wrapperCalls.run (busyCalls sampleKey 42) = db at hrow ⊢
  have hfirst := unforced_issues (c := ⟨500, false, 1260000, true, true⟩) (by decide) hrow
    (by decide) rfl rfl rfl
  refine ⟨⟨500, false, 1260000, true, true⟩, rfl, rfl, (congrArg Prod.fst hfirst).symm, ?_, ?_⟩
  · intro hforced
    cases hforced
  · show Served (wrapperNext db sampleKey ⟨500, false, 1260000, true, true⟩).2
      [⟨.nextQueryId sampleKey 500 true, .error .databaseError⟩]
    rw [hfirst]
    refine ⟨⟨500, true, 1260000, false, true⟩, rfl, rfl, rfl, fun _ row hafter => ?_, trivial⟩
    dsimp only at hafter
    rw [writeId_self, if_neg (by decide), hrow] at hafter
    cases hafter
    decide

theorem sample_retries : ∃ attempts rest,
    Discipline sampleBroadcaster sampleWallet [sampleAction] sampleLog
      (.error (.error (queryIdError .databaseError))) attempts rest ∧ IdsIncrease attempts := by
  obtain ⟨attempts, rest, hdiscipline, hids⟩ :=
    (send_to_chain_retries sampleBroadcaster sampleWallet [sampleAction]).2 sampleLog _
      sampleLog_runs
  exact ⟨attempts, rest, hdiscipline, hids _ sampleLog_served⟩

end Sample

end SendRetries
