import TonRelayer.WalletLocks
import TonRelayer.HighLoadQueryIds

/-! Workers sending through shared highload wallets.
`broadcast_prover_message`, `broadcast_execute_message` and `broadcast_refund_message` have
one shape: acquire a wallet, call `send_to_chain`, release the wallet. The read of the query
id row, its write and each post are separate steps; only the lock keeps them together. -/
namespace ConcurrentSenders

set_option linter.unusedSectionVars false

open TransitionRuns WalletLocks HighLoadQueryIds

variable {W : Type*} [DecidableEq W]

/-- Where `send_to_chain` is; `retriesLeft` is its argument. -/
inductive Stage where
  | idle
  | sending (retriesLeft : Option ℕ)
  | read (retriesLeft : Option ℕ) (shift bitnumber : ℤ)
  | posting (retriesLeft : Option ℕ) (queryId : HighLoadQueryId)
  | finished
  deriving DecidableEq, Repr

/-- What happened to a wallet, newest first. -/
inductive Entry where
  | reset
  | posted (queryId : ℕ)
  deriving DecidableEq, Repr

structure SendState (W : Type*) where
  locks : LockState W String
  stage : W → Stage
  rows : QueryIdTable
  history : String → List Entry

inductive PostResult where
  | accepted
  | alreadyExecuted
  | failed
  deriving DecidableEq, Repr

inductive SendEvent (W : Type*) where
  | lock (e : LockEvent W String)
  | abort (a : W)
  | getQueryId (a : W) (now : ℤ) (reply : Reply)
  | writeQueryId (a : W) (now : ℤ) (reply : Reply)
  | post (a : W) (result : PostResult)
  deriving DecidableEq

def initial : SendState W := ⟨WalletLocks.initial, fun _ => .idle, fun _ => none, fun _ => []⟩

def setStage (s : SendState W) (a : W) (stage : Stage) : SendState W :=
  { s with stage := Function.update s.stage a stage }

/-- An error that names exit code 36 is retried: ten more times after the first one. -/
def afterPost (retriesLeft : Option ℕ) : PostResult → Stage
  | .alreadyExecuted => match retriesLeft with
    | some (r + 1) => .sending (some r)
    | none => .sending (some 10)
    | some 0 => .finished
  | _ => .finished

theorem afterPost_cases (retriesLeft : Option ℕ) (result : PostResult) :
    afterPost retriesLeft result = .finished ∨
      ∃ r, afterPost retriesLeft result = .sending (some r) := by
  simp only [afterPost]
  split
  · split <;> simp
  · simp

def Enabled (s : SendState W) : SendEvent W → Prop
  | .lock e => WalletLocks.Enabled s.locks e ∧
    match e with
    | .unlock a _ => s.stage a = .finished
    | _ => True
  | .abort a => match s.locks.progress a, s.stage a with
    | .inside _, .sending none | .inside _, .posting _ _ => True
    | _, _ => False
  | .getQueryId a _ _ => match s.locks.progress a, s.stage a with
    | .inside _, .sending _ => True
    | _, _ => False
  | .writeQueryId a _ _ => match s.locks.progress a, s.stage a with
    | .inside _, .read _ _ _ => True
    | _, _ => False
  | .post a _ => match s.locks.progress a, s.stage a with
    | .inside _, .posting _ _ => True
    | _, _ => False

instance (s : SendState W) (e : SendEvent W) : Decidable (Enabled s e) := by
  cases e with
  | lock e => cases e <;> simp only [Enabled] <;> infer_instance
  | _ => simp only [Enabled]; split <;> infer_instance

/-- `acquire` hands the wallet to `send_to_chain`, which starts with no retry counter. -/
def stageAfter (s : SendState W) (e : LockEvent W String) : W → Stage :=
  match e with
  | .lock a _ => match (WalletLocks.next s.locks e).progress a with
    | .inside _ => Function.update s.stage a (.sending none)
    | _ => s.stage
  | .unlock a _ => Function.update s.stage a .idle
  | _ => s.stage

def record (s : SendState W) (v : String) (entry : Entry) : SendState W :=
  { s with history := Function.update s.history v (entry :: s.history v) }

/-- The write of the wrapper: the id zero starts the row again. -/
def issue (timeouts : String → ℕ) (s : SendState W) (v : String) (now : ℤ)
    (q : HighLoadQueryId) : SendState W :=
  { (if q.queryId = 0 then record s v .reset else s) with
    rows := writeId s.rows v (timeouts v) now q }

def next (timeouts : String → ℕ) (s : SendState W) : SendEvent W → SendState W
  | .lock e => { s with locks := WalletLocks.next s.locks e, stage := stageAfter s e }
  | .abort a => setStage s a .finished
  | .getQueryId a now reply => match s.locks.progress a, s.stage a with
    | .inside v, .sending r =>
      match reply with
      | .answered =>
        setStage s a (.read r (getQueryId s.rows v now).1 (getQueryId s.rows v now).2)
      | _ => setStage s a .finished
    | _, _ => s
  | .writeQueryId a now reply => match s.locks.progress a, s.stage a with
    | .inside v, .read r shift bitnumber =>
      match nextId shift bitnumber r.isSome with
      | .error _ => setStage s a .finished
      | .ok q => match reply with
        | .answered => setStage (issue timeouts s v now q) a (.posting r q)
        | .lost => setStage (issue timeouts s v now q) a .finished
        | .refused => setStage s a .finished
    | _, _ => s
  | .post a result => match s.locks.progress a, s.stage a with
    | .inside v, .posting r q =>
      setStage (record s v (.posted q.queryId)) a (afterPost r result)
    | _, _ => s

def system (W : Type*) [DecidableEq W] (timeouts : String → ℕ) :
    System (SendState W) (SendEvent W) where
  initial := initial
  Enabled := Enabled
  next := next timeouts

instance (timeouts : String → ℕ) (s : SendState W) (e : SendEvent W) :
    Decidable ((system W timeouts).Enabled s e) := inferInstanceAs (Decidable (Enabled s e))

/-- No lock key expires between its holder's acquire and release. -/
def NoLiveExpiry (s : SendState W) : SendEvent W → Prop
  | .lock e => WalletLocks.NoLiveExpiry s.locks e
  | _ => True

instance (s : SendState W) (e : SendEvent W) : Decidable (NoLiveExpiry s e) := by
  cases e <;> simp only [NoLiveExpiry] <;> infer_instance

def Entry.id? : Entry → Option ℕ
  | .reset => none
  | .posted q => some q

/-- The messages posted between two resets of the row carry distinct ids. -/
def DistinctBetweenResets (history : List Entry) : Prop :=
  ∀ before part after, history = before ++ part ++ after → Entry.reset ∉ part →
    (part.filterMap Entry.id?).Nodup

/-- The ids posted since the last reset. -/
def current : List Entry → List ℕ
  | .posted q :: h => q :: current h
  | _ => []

/-- Each post is new among the posts since the reset before it. -/
def EachNew : List Entry → Prop
  | [] => True
  | .reset :: h => EachNew h
  | .posted q :: h => q ∉ current h ∧ EachNew h

theorem mem_current_append {part after : List Entry} (h : Entry.reset ∉ part) :
    ∀ q ∈ part.filterMap Entry.id?, q ∈ current (part ++ after) := by
  induction part with
  | nil => simp
  | cons e part ih =>
    cases e with
    | reset => simp at h
    | posted q =>
      intro r hr
      simp only [List.filterMap_cons, Entry.id?, List.mem_cons] at hr
      simp only [List.cons_append, current, List.mem_cons]
      exact hr.imp_right (ih (fun hm => h (List.mem_cons_of_mem _ hm)) r)

theorem eachNew_distinct {history : List Entry} (h : EachNew history) :
    DistinctBetweenResets history := by
  intro before part after heq hreset
  subst heq
  induction before with
  | cons e before ih =>
    cases e with
    | reset => exact ih h
    | posted q => exact ih h.2
  | nil =>
    rw [List.nil_append] at h
    induction part with
    | nil => simp
    | cons e part ih =>
      cases e with
      | reset => simp at hreset
      | posted q =>
        have hreset' : Entry.reset ∉ part := fun hm => hreset (List.mem_cons_of_mem _ hm)
        simp only [List.filterMap_cons, Entry.id?, List.nodup_cons]
        exact ⟨fun hq => h.1 (mem_current_append hreset' q hq), ih hreset' h.2⟩

/-- What a worker that has read the row may rely on until it writes. -/
def ReadsRow (rows : QueryIdTable) (v : String) (shift bitnumber : ℤ) : Prop :=
  (shift = -1 ∧ bitnumber = -1) ∨
    ∃ q, RowHolds rows v q ∧ shift = q.shift ∧ bitnumber = q.bitnumber

/-- The id is the one stored, and above every id posted since the last reset. -/
def Fresh (s : SendState W) (v : String) (q : HighLoadQueryId) : Prop :=
  RowHolds s.rows v q ∧ ∀ i ∈ current (s.history v), i < q.queryId

structure SendInvariant (s : SendState W) : Prop where
  locks : AllKeyed s.locks
  issued : RowsIssued s.rows
  read : ∀ a v r shift bitnumber, s.locks.progress a = .inside v →
    s.stage a = .read r shift bitnumber → ReadsRow s.rows v shift bitnumber
  posting : ∀ a v r q, s.locks.progress a = .inside v → s.stage a = .posting r q → Fresh s v q
  below : ∀ v q, RowHolds s.rows v q → ∀ i ∈ current (s.history v), i ≤ q.queryId
  new : ∀ v, EachNew (s.history v)

theorem initial_invariant : SendInvariant (initial : SendState W) where
  locks := by constructor <;> intro a v h <;> cases h
  issued := fun _ h => absurd rfl h
  read := fun _ _ _ _ _ h => by cases h
  posting := fun _ _ _ _ h => by cases h
  below := by rintro v q ⟨row, hrow, -⟩; cases hrow
  new := fun _ => trivial

theorem getQueryId_reads {rows : QueryIdTable} (h : RowsIssued rows) (v : String) (now : ℤ) :
    ReadsRow rows v (getQueryId rows v now).1 (getQueryId rows v now).2 := by
  rcases getQueryId_cases rows v now with ⟨row, hrow, -, hget⟩ | hget
  · obtain ⟨q, -, hq⟩ := h v (by simp [hrow])
    obtain ⟨row', hrow', hs, hb⟩ := id hq
    rw [hrow] at hrow'
    cases hrow'
    exact .inr ⟨q, hq, by rw [hget]; exact hs, by rw [hget]; exact hb⟩
  · exact .inl (by rw [hget]; exact ⟨rfl, rfl⟩)

/-- The id computed from what was read starts the row again or is above the stored id. -/
theorem nextId_reads {rows : QueryIdTable} {v : String} {shift bitnumber : ℤ} {force : Bool}
    {q : HighLoadQueryId} (hr : ReadsRow rows v shift bitnumber)
    (h : nextId shift bitnumber force = .ok q) :
    Issuable q ∧ (q.queryId = 0 ∨ ∃ r, RowHolds rows v r ∧ r.queryId < q.queryId) := by
  rcases hr with ⟨rfl, rfl⟩ | ⟨r, hr, rfl, rfl⟩
  · rw [nextId_fresh] at h
    cases h
    exact ⟨issuable_zero, .inl rfl⟩
  · obtain ⟨hq, hlt⟩ := nextId_live (by omega) (by omega) h
    refine ⟨hq, .inr ⟨r, hr, ?_⟩⟩
    rw [queryId_eq r]
    omega

theorem setStage_invariant {s : SendState W} (h : SendInvariant s) {a : W} {v : String}
    (hin : s.locks.progress a = .inside v) {stage : Stage}
    (hread : ∀ r shift bitnumber, stage = .read r shift bitnumber →
      ReadsRow s.rows v shift bitnumber)
    (hpost : ∀ r q, stage = .posting r q → Fresh s v q) :
    SendInvariant (setStage s a stage) where
  locks := h.locks
  issued := h.issued
  read := by
    intro b w r shift bitnumber hb hstage
    by_cases hba : b = a
    · subst hba
      obtain rfl := Progress.inside.inj (hin.symm.trans hb)
      exact hread r shift bitnumber (by simpa [setStage] using hstage)
    · exact h.read b w r shift bitnumber hb (by simpa [setStage, hba] using hstage)
  posting := by
    intro b w r q hb hstage
    by_cases hba : b = a
    · subst hba
      obtain rfl := Progress.inside.inj (hin.symm.trans hb)
      exact hpost r q (by simpa [setStage] using hstage)
    · exact h.posting b w r q hb (by simpa [setStage, hba] using hstage)
  below := h.below
  new := h.new

/-- No worker inside the wallet depends on its row: true around its holder's own write. -/
def Quiet (s : SendState W) (v : String) : Prop :=
  ∀ b, s.locks.progress b = .inside v →
    (∀ r shift bitnumber, s.stage b ≠ .read r shift bitnumber) ∧ ∀ r q, s.stage b ≠ .posting r q

theorem finished_quiet {s : SendState W} (h : SendInvariant s) {a : W} {v : String}
    (hin : s.locks.progress a = .inside v) : Quiet (setStage s a .finished) v := by
  intro b hb
  obtain rfl := allKeyed_unique h.locks hin hb
  simp [setStage]

section Frames

variable (timeouts : String → ℕ) (s : SendState W) (v w : String) (now : ℤ)
  (q : HighLoadQueryId) (entry : Entry)

@[simp] theorem issue_locks : (issue timeouts s v now q).locks = s.locks := by
  rw [issue]; split <;> rfl

@[simp] theorem issue_stage : (issue timeouts s v now q).stage = s.stage := by
  rw [issue]; split <;> rfl

@[simp] theorem issue_rows :
    (issue timeouts s v now q).rows = writeId s.rows v (timeouts v) now q := by
  unfold issue; split <;> rfl

theorem issue_history : (issue timeouts s v now q).history w =
    if q.queryId = 0 ∧ w = v then .reset :: s.history v else s.history w := by
  rw [issue]
  by_cases hq : q.queryId = 0
  · simp [hq, record, Function.update_apply]
  · simp [hq]

theorem record_history : (record s v entry).history w =
    if w = v then entry :: s.history v else s.history w := by
  simp [record, Function.update_apply]

end Frames

theorem rowHolds_writeId_other {rows : QueryIdTable} {v w : String} (hne : w ≠ v)
    (timeout : ℕ) (now : ℤ) (q r : HighLoadQueryId) :
    RowHolds (writeId rows v timeout now q) w r ↔ RowHolds rows w r := by
  simp only [RowHolds]
  rw [writeId_other hne]

/-- The write leaves the wallet's id above all its posts since the last reset. -/
theorem issue_fresh {s : SendState W} (h : SendInvariant s) {v : String} {q : HighLoadQueryId}
    (hq : q.queryId = 0 ∨ ∃ r, RowHolds s.rows v r ∧ r.queryId < q.queryId)
    (timeouts : String → ℕ) (now : ℤ) : Fresh (issue timeouts s v now q) v q := by
  constructor
  · rw [issue_rows]
    apply writeId_holds
    exact hq.imp_right fun ⟨_, ⟨row, hrow, _⟩, _⟩ => by simp [hrow]
  · intro i hi
    rw [issue_history] at hi
    split at hi
    · simp [current] at hi
    · rename_i hzero
      obtain ⟨r, hr, hlt⟩ := hq.resolve_left (by tauto)
      exact lt_of_le_of_lt (h.below v r hr i hi) hlt

theorem issue_invariant {s : SendState W} (h : SendInvariant s) {v : String}
    (hquiet : Quiet s v) {q : HighLoadQueryId} (hissuable : Issuable q)
    (hq : q.queryId = 0 ∨ ∃ r, RowHolds s.rows v r ∧ r.queryId < q.queryId)
    (timeouts : String → ℕ) (now : ℤ) : SendInvariant (issue timeouts s v now q) where
  locks := by simpa using h.locks
  issued := by
    rw [issue_rows]
    exact writeId_rowsIssued h.issued hissuable _ _ _
  read := by
    intro b w r shift bitnumber hb hstage
    rw [issue_locks] at hb
    rw [issue_stage] at hstage
    have hwv : w ≠ v := by rintro rfl; exact (hquiet b hb).1 _ _ _ hstage
    rw [issue_rows]
    exact (h.read b w r shift bitnumber hb hstage).imp_right fun ⟨r, hr, hsb⟩ =>
      ⟨r, (rowHolds_writeId_other hwv _ _ _ _).mpr hr, hsb⟩
  posting := by
    intro b w r p hb hstage
    rw [issue_locks] at hb
    rw [issue_stage] at hstage
    have hwv : w ≠ v := by rintro rfl; exact (hquiet b hb).2 _ _ hstage
    obtain ⟨hrow, hlt⟩ := h.posting b w r p hb hstage
    refine ⟨?_, ?_⟩
    · rw [issue_rows]
      exact (rowHolds_writeId_other hwv _ _ _ _).mpr hrow
    · rw [issue_history, if_neg (fun hc => hwv hc.2)]
      exact hlt
  below := by
    intro w p hp i hi
    by_cases hwv : w = v
    · subst hwv
      obtain ⟨hholds, hlt⟩ := issue_fresh h hq timeouts now
      rw [rowHolds_unique hp hholds]
      exact (hlt i hi).le
    · rw [issue_rows, rowHolds_writeId_other hwv] at hp
      rw [issue_history, if_neg (fun hc => hwv hc.2)] at hi
      exact h.below w p hp i hi
  new := by
    intro w
    rw [issue_history]
    split
    · exact h.new v
    · exact h.new w

theorem post_invariant {s : SendState W} (h : SendInvariant s) {v : String}
    (hquiet : Quiet s v) {q : HighLoadQueryId} (hfresh : Fresh s v q) :
    SendInvariant (record s v (.posted q.queryId)) where
  locks := h.locks
  issued := h.issued
  read := h.read
  posting := by
    intro b w r p hb hstage
    have hwv : w ≠ v := by rintro rfl; exact (hquiet b hb).2 _ _ hstage
    obtain ⟨hrow, hlt⟩ := h.posting b w r p hb hstage
    exact ⟨hrow, by rw [record_history, if_neg hwv]; exact hlt⟩
  below := by
    intro w p hp i hi
    rw [record_history] at hi
    split at hi
    · rename_i hwv
      subst hwv
      rw [rowHolds_unique hp hfresh.1]
      rcases List.mem_cons.mp hi with rfl | hi
      · exact le_refl _
      · exact (hfresh.2 i hi).le
    · exact h.below w p hp i hi
  new := by
    intro w
    rw [record_history]
    split
    · exact ⟨fun hmem => lt_irrefl _ (hfresh.2 _ hmem), h.new v⟩
    · exact h.new w

theorem lock_invariant {s : SendState W} (h : SendInvariant s) {e : LockEvent W String}
    (he : WalletLocks.Enabled s.locks e) (hlive : WalletLocks.NoLiveExpiry s.locks e) :
    SendInvariant { s with locks := WalletLocks.next s.locks e, stage := stageAfter s e } := by
  -- A worker inside afterwards has just entered, or was inside before at the same stage.
  have hstage : ∀ b w, (WalletLocks.next s.locks e).progress b = .inside w →
      stageAfter s e b = .sending none ∨
        (s.locks.progress b = .inside w ∧ stageAfter s e b = s.stage b) := by
    intro b w hb
    rcases inside_cases he hb with rfl | ⟨hin, hother⟩
    · left
      simp [stageAfter, hb]
    · refine .inr ⟨hin, ?_⟩
      cases e with
      | lock a reply =>
        have hba : b ≠ a := by rintro rfl; exact hother rfl
        cases hp : (WalletLocks.next s.locks (.lock a reply)).progress a <;>
          simp [stageAfter, hp, hba]
      | unlock a reply =>
        have hba : b ≠ a := by rintro rfl; exact hother rfl
        exact Function.update_of_ne hba _ _
      | _ => rfl
  refine ⟨allKeyed_next h.locks he hlive, h.issued, ?_, ?_, h.below, h.new⟩
  · intro b w r shift bitnumber hb hread
    rcases hstage b w hb with hs | ⟨hin, hs⟩
    · cases hs.symm.trans hread
    · exact h.read b w r shift bitnumber hin (hs.symm.trans hread)
  · intro b w r q hb hpost
    rcases hstage b w hb with hs | ⟨hin, hs⟩
    · cases hs.symm.trans hpost
    · exact h.posting b w r q hin (hs.symm.trans hpost)

/-- A write by the worker inside: the new id is fresh, and no other worker used the row. -/
theorem write_invariant {s : SendState W} (h : SendInvariant s) {a : W} {v : String}
    (hin : s.locks.progress a = .inside v) {q : HighLoadQueryId} (hissuable : Issuable q)
    (hq : q.queryId = 0 ∨ ∃ r, RowHolds s.rows v r ∧ r.queryId < q.queryId)
    (timeouts : String → ℕ) (now : ℤ) {stage : Stage}
    (hstage : stage = .finished ∨ ∃ r, stage = .posting r q) :
    SendInvariant (setStage (issue timeouts s v now q) a stage) := by
  have hfinished : SendInvariant (setStage s a .finished) :=
    setStage_invariant h hin (by simp) (by simp)
  have hissue := issue_invariant hfinished (finished_quiet h hin) hissuable hq timeouts now
  have hfresh := issue_fresh hfinished hq timeouts now
  have heq : setStage (issue timeouts s v now q) a stage =
      setStage (issue timeouts (setStage s a .finished) v now q) a stage := by
    simp only [issue]
    split <;> simp [setStage, record, Function.update_idem]
  rw [heq]
  refine setStage_invariant hissue (by simpa [setStage] using hin) ?_ ?_
  · rcases hstage with rfl | ⟨r, rfl⟩ <;> simp
  · rcases hstage with rfl | ⟨r, rfl⟩
    · simp
    · rintro _ _ ⟨⟩
      exact hfresh

theorem posted_invariant {s : SendState W} (h : SendInvariant s) {a : W} {v : String}
    (hin : s.locks.progress a = .inside v) {r : Option ℕ} {q : HighLoadQueryId}
    (hposting : s.stage a = .posting r q) (result : PostResult) :
    SendInvariant (setStage (record s v (.posted q.queryId)) a (afterPost r result)) := by
  have hfinished : SendInvariant (setStage s a .finished) :=
    setStage_invariant h hin (by simp) (by simp)
  have hpost := post_invariant hfinished (finished_quiet h hin) (h.posting a v r q hin hposting)
  have heq : setStage (record s v (.posted q.queryId)) a (afterPost r result) =
      setStage (record (setStage s a .finished) v (.posted q.queryId)) a
        (afterPost r result) := by
    simp [setStage, record, Function.update_idem]
  rw [heq]
  refine setStage_invariant hpost (by simpa [setStage, record] using hin) ?_ ?_
  · rcases afterPost_cases r result with h | ⟨k, h⟩ <;> simp [h]
  · rcases afterPost_cases r result with h | ⟨k, h⟩ <;> simp [h]

theorem send_invariant_next {s : SendState W} {e : SendEvent W} (h : SendInvariant s)
    (he : Enabled s e) (hlive : NoLiveExpiry s e) (timeouts : String → ℕ) :
    SendInvariant (next timeouts s e) := by
  cases e with
  | lock e => exact lock_invariant h he.1 hlive
  | abort a =>
    simp only [Enabled] at he
    split at he
    · rename_i v hin _
      exact setStage_invariant h hin (by simp) (by simp)
    · rename_i v _ _ hin _
      exact setStage_invariant h hin (by simp) (by simp)
    · exact he.elim
  | getQueryId a now reply =>
    simp only [Enabled] at he
    split at he
    · rename_i v r hin hsending
      simp only [next, hin, hsending]
      cases reply with
      | answered =>
        refine setStage_invariant h hin ?_ (by simp)
        rintro _ _ _ ⟨⟩
        exact getQueryId_reads h.issued v now
      | lost => exact setStage_invariant h hin (by simp) (by simp)
      | refused => exact setStage_invariant h hin (by simp) (by simp)
    · exact he.elim
  | writeQueryId a now reply =>
    simp only [Enabled] at he
    split at he
    · rename_i v r shift bitnumber hin hread
      simp only [next, hin, hread]
      cases hid : nextId shift bitnumber r.isSome with
      | error _ => exact setStage_invariant h hin (by simp) (by simp)
      | ok q =>
        obtain ⟨hissuable, hq⟩ := nextId_reads (h.read a v r shift bitnumber hin hread) hid
        cases reply with
        | answered => exact write_invariant h hin hissuable hq timeouts now (.inr ⟨r, rfl⟩)
        | lost => exact write_invariant h hin hissuable hq timeouts now (.inl rfl)
        | refused => exact setStage_invariant h hin (by simp) (by simp)
    · exact he.elim
  | post a result =>
    simp only [Enabled] at he
    split at he
    · rename_i v r q hin hposting
      simp only [next, hin, hposting]
      exact posted_invariant h hin hposting result
    · exact he.elim

/-- In every run in which no lock key expires under its holder, whatever the interleaving, the
ids posted from a wallet between two resets of its row are distinct. -/
theorem concurrent_senders_distinct_ids (timeouts : String → ℕ) (es : List (SendEvent W))
    (hv : (system W timeouts).Valid es)
    (hlive : ∀ p ∈ (system W timeouts).steps es, NoLiveExpiry p.1 p.2) (v : String) :
    DistinctBetweenResets (((system W timeouts).run es).history v) :=
  eachNew_distinct ((invariant_along (M := system W timeouts) (I := SendInvariant)
    (C := NoLiveExpiry) (fun _ _ h he hl => send_invariant_next h he hl timeouts)
    initial_invariant hv hlive).1.new v)

/-- Two workers, two posts each; the first post of the first worker is answered with exit
code 36, and the second worker gets the wallet only when the first has released it. -/
def twoSenders : List (SendEvent ℕ) :=
  [.lock (.start 0 ["w"]), .lock (.lock 0 .answered), .lock (.start 1 ["w"]),
    .getQueryId 0 0 .answered, .lock (.lock 1 .answered), .writeQueryId 0 5 .answered,
    .lock (.giveUp 1), .post 0 .alreadyExecuted, .getQueryId 0 7 .answered,
    .writeQueryId 0 8 .answered, .post 0 .accepted, .lock (.unlock 0 .answered),
    .lock (.start 1 ["w"]), .lock (.lock 1 .answered), .getQueryId 1 9 .answered,
    .writeQueryId 1 9 .answered, .post 1 .accepted, .lock (.unlock 1 .answered)]

theorem concurrent_senders_distinct_ids_two :
    ((system ℕ fun _ => 60).run twoSenders).history "w" =
      [.posted 1026, .posted 1025, .posted 0, .reset] ∧
    DistinctBetweenResets (((system ℕ fun _ => 60).run twoSenders).history "w") :=
  ⟨by decide, concurrent_senders_distinct_ids (fun _ => 60) twoSenders (by decide)
    (by decide) "w"⟩

end ConcurrentSenders
