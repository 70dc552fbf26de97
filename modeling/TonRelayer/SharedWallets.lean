import TonRelayer.WalletRules

/-! Broadcasts of any number of workers on one Redis and one database.
Each step serves one command of one worker, and a worker may die between any two commands.
Whatever the workers do together, `ConcurrentSenders` can do. -/
namespace SharedWallets

set_option linter.unusedSectionVars false

open Interactions TransitionRuns SharedServices HighLoadQueryIds Broadcasts WalletRules
open Cells (TonAddress)
open RelayerExecute (emptyCell)
open WalletLocks (Progress)
open ConcurrentSenders (Stage Entry SendState SendEvent afterPost)
open RefundBroadcast (V3MessageResponse)

section Store

variable {W : Type*} [DecidableEq W]

/-- The keys and rows. Who created a key, who is inside, which id a worker was given last and
what was posted with it are ghost state. -/
structure Shared (W : Type*) where
  key : String → Option W
  rows : QueryIdTable
  inside : W → Option String
  issued : W → Option (String × HighLoadQueryId)
  history : String → List Entry

/-- How a command ends, the time of the database, and the answers that come from elsewhere. -/
structure Outside where
  reply : Reply
  time : ℤ
  number : UInt64
  post : Except String V3MessageResponse

def setNx (s : Shared W) (a : W) (key : String) : Shared W :=
  if s.key key = none then { s with key := Function.update s.key key (some a) } else s

def del (s : Shared W) (key : String) : Shared W :=
  { s with key := Function.update s.key key none }

def record (s : Shared W) (address : String) (entry : Entry) : Shared W :=
  { s with history := Function.update s.history address (entry :: s.history address) }

def issue (s : Shared W) (a : W) (address : String) (shift bitnumber : ℤ) : Shared W :=
  { s with
    issued := Function.update s.issued a (some (address, ⟨shift.toNat, bitnumber.toNat⟩)) }

/-- A write that would lead to `s'`. -/
def written (a : W) (s s' : Shared W) (address : String) (shift bitnumber : ℤ) :
    Reply → Option Unit × Shared W
  | .answered => (some (), issue s' a address shift bitnumber)
  | .lost => (none, s')
  | .refused => (none, s)

def posted (s : Shared W) (a : W) : Shared W :=
  match s.issued a with
  | some (address, queryId) => record s address (.posted queryId.queryId)
  | none => s

def serve (a : W) (s : Shared W) : (c : Command) → Outside → Output c × Shared W
  | .estimate _, o | .now, o => (o.number, s)
  | .setNx key, o => match o.reply with
    | .answered =>
      if s.key key = none then
        (some true, { setNx s a key with inside := Function.update s.inside a (some key) })
      else (some false, s)
    | .lost => (none, setNx s a key)
    | .refused => (none, s)
  | .del key, o =>
    let left := { s with inside := Function.update s.inside a none }
    match o.reply with
    | .answered => (some (), del left key)
    | .lost => (none, del left key)
    | .refused => (none, left)
  | .getQueryId address, o => match o.reply with
    | .answered => (some (getQueryId s.rows address o.time), s)
    | _ => (none, s)
  | .updateQueryId address shift bitnumber, o =>
    written a s { s with rows := updateQueryId s.rows address shift bitnumber }
      address shift bitnumber o.reply
  | .upsertQueryId address shift bitnumber timeout, o =>
    written a s (record { s with
      rows := upsertQueryId s.rows address shift bitnumber timeout o.time } address .reset)
      address shift bitnumber o.reply
  | .postV3Message _, o => (o.post, posted s a)

/-- A worker that dies is no longer inside, but its key stays. -/
def abandon (a : W) (s : Shared W) : Shared W :=
  { s with inside := Function.update s.inside a none }

/-- Only the keys run out by themselves. -/
def service (W : Type*) [DecidableEq W] : Service W Command Output Outside String (Shared W) where
  initial := ⟨fun _ => none, fun _ => none, fun _ => none, fun _ => none, fun _ => []⟩
  serve := serve
  abandon := abandon
  Possible := fun s key => s.key key ≠ none
  disturb := del

/-- The key does not expire while the worker that created it is inside. -/
def InTime (s : Shared W) (key : String) : Prop := ∀ a, s.key key = some a → s.inside a ≠ some key

instance (s : Shared W) (key : String) : Decidable ((service W).Possible s key) :=
  inferInstanceAs (Decidable (s.key key ≠ none))

instance (s : Shared W) (key : String) : Decidable (InTime s key) :=
  inferInstanceAs (Decidable (∀ a ∈ s.key key, s.inside a ≠ some key))

end Store

section Refinement

variable {W : Type*} [DecidableEq W]

/-- What `ConcurrentSenders` does in one step when no key expires under its holder. Whoever
writes a row brings its own timeout. -/
def Step (s s' : SendState W) : Prop :=
  ∃ (timeouts : String → ℕ) (e : SendEvent W), ConcurrentSenders.Enabled s e ∧
    ConcurrentSenders.NoLiveExpiry s e ∧ s' = ConcurrentSenders.next timeouts s e

def Reached (s : SendState W) : Prop := Relation.ReflTransGen Step ConcurrentSenders.initial s

/-- The store is that of the abstract state, and the ghost state records its sections. -/
structure Matches (t : Shared W) (s : SendState W) : Prop where
  key : ∀ v, t.key (lockKey v) = s.locks.key v
  rows : t.rows = s.rows
  history : t.history = s.history
  inside : ∀ a k, t.inside a = some k ↔ ∃ v, k = lockKey v ∧ s.locks.progress a = .inside v
  issued : ∀ a v r q, s.locks.progress a = .inside v → s.stage a = .posting r q →
    t.issued a = some (v, q)

def place (s : SendState W) (a : W) : Place := (s.locks.progress a, s.stage a)

def Linked (t : Shared W) (places : W → Place) : Prop :=
  ∃ s, Reached s ∧ Matches t s ∧ places = place s

theorem lockKey_inj {v w : String} : lockKey v = lockKey w ↔ v = w := by
  simp [lockKey]

variable {t : Shared W} {s : SendState W} {a : W}

theorem linked_step {t' : Shared W} {p : Place} {e : SendEvent W} (timeouts : String → ℕ)
    (hs : Reached s) (he : ConcurrentSenders.Enabled s e)
    (hlive : ConcurrentSenders.NoLiveExpiry s e)
    (hmatches : Matches t' (ConcurrentSenders.next timeouts s e))
    (hplace : place (ConcurrentSenders.next timeouts s e) = Function.update (place s) a p) :
    Linked t' (Function.update (place s) a p) :=
  ⟨_, hs.tail ⟨timeouts, e, he, hlive, rfl⟩, hmatches, hplace.symm⟩

theorem place_update {s' : SendState W} {p : Place}
    (hprogress : s'.locks.progress = Function.update s.locks.progress a p.1)
    (hstage : s'.stage = Function.update s.stage a p.2) :
    place s' = Function.update (place s) a p := by
  funext b
  by_cases hb : b = a
  · subst hb
    simp [place, hprogress, hstage]
  · simp [place, hprogress, hstage, hb]

theorem matches_stage (h : Matches t s) {stage : Stage}
    (hstage : ∀ v r q, s.locks.progress a = .inside v → stage = .posting r q →
      t.issued a = some (v, q)) : Matches t (ConcurrentSenders.setStage s a stage) where
  key := h.key
  rows := h.rows
  history := h.history
  inside := h.inside
  issued := by
    intro b v r q hb hpost
    by_cases hba : b = a
    · subst hba
      exact hstage v r q hb (by simpa [ConcurrentSenders.setStage] using hpost)
    · exact h.issued b v r q hb (by simpa [ConcurrentSenders.setStage, hba] using hpost)

/-- One worker moves to another place, with the keys and its section changed on both sides. -/
theorem matches_move {t' : Shared W} {s' : SendState W} {p : Place} {x : Option String}
    (h : Matches t s) (hkey : ∀ v, t'.key (lockKey v) = s'.locks.key v)
    (hframe : t'.rows = t.rows ∧ t'.history = t.history ∧ t'.issued = t.issued ∧
      s'.rows = s.rows ∧ s'.history = s.history)
    (hplace : place s' = Function.update (place s) a p)
    (hinside : t'.inside = Function.update t.inside a x)
    (hx : ∀ k, x = some k ↔ ∃ v, k = lockKey v ∧ p.1 = .inside v)
    (hpost : ∀ r q, p.2 ≠ .posting r q) : Matches t' s' := by
  obtain ⟨hrows, hhistory, hissued, hrows', hhistory'⟩ := hframe
  have hself : s'.locks.progress a = p.1 ∧ s'.stage a = p.2 := by
    have ha := congrFun hplace a
    rw [Function.update_self] at ha
    exact ⟨congrArg Prod.fst ha, congrArg Prod.snd ha⟩
  have hother : ∀ b, b ≠ a → s'.locks.progress b = s.locks.progress b ∧ s'.stage b = s.stage b := by
    intro b hb
    have hb' := congrFun hplace b
    rw [Function.update_of_ne hb] at hb'
    exact ⟨congrArg Prod.fst hb', congrArg Prod.snd hb'⟩
  refine ⟨hkey, by rw [hrows, hrows', h.rows], by rw [hhistory, hhistory', h.history], ?_, ?_⟩
  · intro b k
    by_cases hb : b = a
    · subst hb
      rw [hinside, Function.update_self, hself.1]
      exact hx k
    · rw [hinside, Function.update_of_ne hb, (hother b hb).1]
      exact h.inside b k
  · intro b v r q hprogress hstage
    by_cases hb : b = a
    · subst hb
      exact absurd (hself.2.symm.trans hstage) (hpost r q)
    · rw [(hother b hb).1] at hprogress
      rw [(hother b hb).2] at hstage
      rw [hissued]
      exact h.issued b v r q hprogress hstage

theorem inside_none (h : Matches t s) (hout : ∀ v, s.locks.progress a ≠ .inside v) :
    t.inside a = none := by
  cases hk : t.inside a with
  | none => rfl
  | some k =>
    obtain ⟨v, -, hv⟩ := (h.inside a k).mp hk
    exact absurd hv (hout v)

theorem setNx_rest (t : Shared W) (a : W) (k : String) : (setNx t a k).rows = t.rows ∧
    (setNx t a k).history = t.history ∧ (setNx t a k).issued = t.issued ∧
    (setNx t a k).inside = t.inside := by
  rw [setNx]
  split <;> exact ⟨rfl, rfl, rfl, rfl⟩

theorem setNx_key (h : Matches t s) (v w : String) :
    (setNx t a (lockKey v)).key (lockKey w) = (WalletLocks.setNx s.locks a v).key w := by
  rw [setNx, WalletLocks.setNx, h.key]
  by_cases hkey : s.locks.key v = none
  · simp only [if_pos hkey, Function.update_apply, lockKey_inj, h.key]
  · simp only [if_neg hkey, h.key]

theorem del_key (h : Matches t s) (v w : String) :
    (del t (lockKey v)).key (lockKey w) = (WalletLocks.del s.locks v).key w := by
  simp only [del, WalletLocks.del, Function.update_apply, lockKey_inj, h.key]

/-- A worker that is not inside a wallet moves between places that are not either. -/
theorem linked_outside {t' : Shared W} {p : Progress String}
    {locks : WalletLocks.LockState W String} (hs : Reached s) (h : Matches t s) (e : SendEvent W)
    (he : ConcurrentSenders.Enabled s e) (hlive : ConcurrentSenders.NoLiveExpiry s e)
    (hnext : ConcurrentSenders.next (fun _ => 0) s e =
      { s with locks := WalletLocks.setProgress locks a p })
    (hout : ∀ v, s.locks.progress a ≠ .inside v) (hp : ∀ v, p ≠ .inside v)
    (hidle : s.stage a = .idle) (hlocks : locks.progress = s.locks.progress)
    (hkey : ∀ v, t'.key (lockKey v) = locks.key v)
    (hframe : t'.rows = t.rows ∧ t'.history = t.history ∧ t'.issued = t.issued ∧
      t'.inside = t.inside) : Linked t' (Function.update (place s) a (p, .idle)) := by
  have hplace : place (ConcurrentSenders.next (fun _ => 0) s e) =
      Function.update (place s) a (p, .idle) := by
    refine place_update ?_ ?_
    · rw [hnext, ← hlocks]
      rfl
    · rw [hnext, ← hidle, Function.update_eq_self]
  refine linked_step _ hs he hlive (matches_move (x := none) h ?_ ?_ hplace ?_ ?_ (by simp)) hplace
  · rw [hnext]
    exact hkey
  · rw [hnext]
    exact ⟨hframe.1, hframe.2.1, hframe.2.2.1, rfl, rfl⟩
  · rw [hframe.2.2.2, ← inside_none h hout, Function.update_eq_self]
  · intro k
    simp only [reduceCtorEq, false_iff, not_exists, not_and]
    exact fun v _ => hp v

/-- A worker inside a wallet changes the store and goes on to another stage. -/
theorem linked_inside {v : String} {stage stage' : Stage} {t' : Shared W} {s' : SendState W}
    (timeouts : String → ℕ) (hs : Reached s) (hplace : place s a = (.inside v, stage))
    (e : SendEvent W) (he : ConcurrentSenders.Enabled s e)
    (hlive : ConcurrentSenders.NoLiveExpiry s e)
    (hnext : ConcurrentSenders.next timeouts s e = ConcurrentSenders.setStage s' a stage')
    (hsame : s'.locks = s.locks ∧ s'.stage = s.stage) (h : Matches t' s')
    (hpost : ∀ r q, stage' = .posting r q → t'.issued a = some (v, q)) :
    Linked t' (Function.update (place s) a (.inside v, stage')) := by
  have hprogress : s.locks.progress a = .inside v := congrArg Prod.fst hplace
  refine linked_step timeouts hs he hlive ?_ ?_
  · rw [hnext]
    refine matches_stage h fun w r q hw hstage => ?_
    rw [hsame.1, hprogress] at hw
    cases hw
    exact hpost r q hstage
  · rw [hnext]
    refine place_update ?_ ?_
    · simp [ConcurrentSenders.setStage, hsame.1, ← hprogress]
    · simp [ConcurrentSenders.setStage, hsame.2]

theorem linked_silent {places : W → Place} {p : Place} (h : Linked t places)
    (hp : Silent (places a) p) : Linked t (Function.update places a p) := by
  obtain ⟨s, hs, hm, rfl⟩ := h
  generalize hplace : place s a = p₀ at hp
  obtain ⟨hprogress, hstage⟩ := Prod.ext_iff.mp hplace
  dsimp only [place] at hprogress hstage
  cases hp with
  | start order =>
    exact linked_outside hs hm (.lock (.start a order)) ⟨hprogress, trivial⟩ trivial rfl
      (by simp [hprogress, home]) (by simp) hstage rfl hm.key ⟨rfl, rfl, rfl, rfl⟩
  | giveUp =>
    exact linked_outside hs hm (.lock (.giveUp a)) ⟨hprogress, trivial⟩ trivial rfl
      (by simp [hprogress]) (by simp) hstage rfl hm.key ⟨rfl, rfl, rfl, rfl⟩
  | unsent =>
    exact linked_inside (fun _ => 0) hs hplace (.abort a)
      (by simp [ConcurrentSenders.Enabled, hprogress, hstage]) trivial rfl ⟨rfl, rfl⟩ hm (by simp)
  | unposted =>
    exact linked_inside (fun _ => 0) hs hplace (.abort a)
      (by simp [ConcurrentSenders.Enabled, hprogress, hstage]) trivial rfl ⟨rfl, rfl⟩ hm (by simp)
  | noId hid =>
    exact linked_inside (fun _ => 0) hs hplace (.writeQueryId a 0 .refused)
      (by simp [ConcurrentSenders.Enabled, hprogress, hstage]) trivial
      (by simp only [ConcurrentSenders.next, hprogress, hstage, hid]) ⟨rfl, rfl⟩ hm (by simp)

section Served

variable {v : String}

theorem linked_lock {rest : List String} (hs : Reached s) (hm : Matches t s) (o : Outside)
    (hplace : place s a = (.acquiring (v :: rest), .idle)) :
    Linked (serve a t (.setNx (lockKey v)) o).2 (Function.update (place s) a
      (afterLock (place s a) (serve a t (.setNx (lockKey v)) o).1)) := by
  obtain ⟨hprogress, hstage⟩ := Prod.ext_iff.mp hplace
  dsimp only [place] at hprogress hstage
  have henabled : ∀ reply, ConcurrentSenders.Enabled s (.lock (.lock a reply)) := by
    intro reply
    simp [ConcurrentSenders.Enabled, WalletLocks.Enabled, hprogress]
  -- Every way not to get the wallet leads on to the other wallets.
  have hfailed : ∀ (reply : Reply) (t' : Shared W) (locks : WalletLocks.LockState W String),
      WalletLocks.next s.locks (.lock a reply) =
        WalletLocks.setProgress locks a (.acquiring rest) →
      locks.progress = s.locks.progress → (∀ w, t'.key (lockKey w) = locks.key w) →
      (t'.rows = t.rows ∧ t'.history = t.history ∧ t'.issued = t.issued ∧
        t'.inside = t.inside) →
      Linked t' (Function.update (place s) a (.acquiring rest, .idle)) := by
    intro reply t' locks hnext hlocks hkey hframe
    refine linked_outside hs hm (.lock (.lock a reply)) (henabled reply) trivial ?_
      (by simp [hprogress]) (by simp) hstage hlocks hkey hframe
    simp [ConcurrentSenders.next, ConcurrentSenders.stageAfter, hnext]
  rw [hplace]
  obtain ⟨reply, time, number, post⟩ := o
  cases reply with
  | answered =>
    by_cases hkey : t.key (lockKey v) = none
    · simp only [serve, if_pos hkey, afterLock]
      have hkey' : s.locks.key v = none := (hm.key v).symm.trans hkey
      have hnext : ConcurrentSenders.next (fun _ => 0) s (.lock (.lock a .answered)) =
          { s with
            locks := WalletLocks.enter s.locks a v
            stage := Function.update s.stage a (.sending none) } := by
        have henter : (WalletLocks.enter s.locks a v).progress a = .inside v := by
          simp [WalletLocks.enter]
        simp [ConcurrentSenders.next, ConcurrentSenders.stageAfter, WalletLocks.next, hprogress,
          WalletLocks.tryLock, hkey', henter]
      have hplace' : place (ConcurrentSenders.next (fun _ => 0) s (.lock (.lock a .answered))) =
          Function.update (place s) a (.inside v, .sending none) := by
        rw [hnext]
        exact place_update (by simp [WalletLocks.enter, WalletLocks.setProgress]) rfl
      refine linked_step _ hs (henabled _) trivial
        (matches_move (x := some (lockKey v)) hm ?_ ?_ hplace' rfl ?_ (by simp)) hplace'
      · rw [hnext]
        exact setNx_key hm v
      · rw [hnext]
        obtain ⟨h₁, h₂, h₃, -⟩ := setNx_rest t a (lockKey v)
        exact ⟨h₁, h₂, h₃, rfl, rfl⟩
      · intro k
        simp only [Option.some.injEq, Progress.inside.injEq]
        constructor
        · rintro rfl
          exact ⟨v, rfl, rfl⟩
        · rintro ⟨_, rfl, rfl⟩
          rfl
    · simp only [serve, if_neg hkey, afterLock]
      refine hfailed .answered t s.locks ?_ rfl hm.key ⟨rfl, rfl, rfl, rfl⟩
      simp [WalletLocks.next, hprogress, WalletLocks.tryLock, ← hm.key, hkey]
  | lost =>
    refine hfailed .lost _ (WalletLocks.setNx s.locks a v) ?_ (by simp) (setNx_key hm v)
      (setNx_rest t a (lockKey v))
    simp [WalletLocks.next, hprogress, WalletLocks.tryLock]
  | refused =>
    refine hfailed .refused t s.locks ?_ rfl hm.key ⟨rfl, rfl, rfl, rfl⟩
    simp [WalletLocks.next, hprogress, WalletLocks.tryLock]

theorem linked_release (hs : Reached s) (hm : Matches t s) (o : Outside)
    (hplace : place s a = (.inside v, .finished)) :
    Linked (serve a t (.del (lockKey v)) o).2 (Function.update (place s) a home) := by
  obtain ⟨hprogress, hstage⟩ := Prod.ext_iff.mp hplace
  dsimp only [place] at hprogress hstage
  obtain ⟨reply, time, number, post⟩ := o
  have hplace' : place (ConcurrentSenders.next (fun _ => 0) s (.lock (.unlock a reply))) =
      Function.update (place s) a home := by
    refine place_update ?_ rfl
    cases reply <;> simp [ConcurrentSenders.next, WalletLocks.next, hprogress,
      WalletLocks.release, WalletLocks.setProgress, home]
  refine linked_step _ hs (e := .lock (.unlock a reply))
    ⟨by simp [WalletLocks.Enabled, hprogress], hstage⟩ trivial
    (matches_move (x := none) hm ?_ ?_ hplace' ?_ (by simp [home]) (by simp [home])) hplace'
  · intro w
    cases reply with
    | refused =>
      simp only [serve, ConcurrentSenders.next, WalletLocks.next, hprogress]
      exact hm.key w
    | answered | lost =>
      simp only [serve, ConcurrentSenders.next, WalletLocks.next, hprogress]
      exact del_key hm v w
  · cases reply <;> exact ⟨rfl, rfl, rfl, rfl, rfl⟩
  · cases reply <;> rfl

theorem linked_get {r : Option ℕ} (hs : Reached s) (hm : Matches t s) (o : Outside)
    (hplace : place s a = (.inside v, .sending r)) :
    Linked (serve a t (.getQueryId v) o).2 (Function.update (place s) a
      (afterGet (place s a) (serve a t (.getQueryId v) o).1)) := by
  obtain ⟨hprogress, hstage⟩ := Prod.ext_iff.mp hplace
  dsimp only [place] at hprogress hstage
  have henabled : ConcurrentSenders.Enabled s (.getQueryId a o.time o.reply) := by
    simp [ConcurrentSenders.Enabled, hprogress, hstage]
  rw [hplace]
  obtain ⟨reply, time, number, post⟩ := o
  cases reply with
  | answered =>
    show Linked t (Function.update (place s) a (.inside v,
      .read r (getQueryId t.rows v time).1 (getQueryId t.rows v time).2))
    refine linked_inside (fun _ => 0) hs hplace _ henabled trivial ?_ ⟨rfl, rfl⟩ hm (by simp)
    simp only [ConcurrentSenders.next, hprogress, hstage, hm.rows]
  | lost | refused =>
    refine linked_inside (fun _ => 0) hs hplace _ henabled trivial ?_ ⟨rfl, rfl⟩ hm (by simp)
    simp only [ConcurrentSenders.next, hprogress, hstage]

theorem matches_issue {t' : Shared W} {stage : Stage} (h : Matches t s) (timeouts : String → ℕ)
    (now : ℤ) (q : HighLoadQueryId) (hstage : s.stage a = stage)
    (hpost : ∀ r p, stage ≠ .posting r p) (hkey : t'.key = t.key) (hinside : t'.inside = t.inside)
    (hrows : t'.rows = writeId t.rows v (timeouts v) now q)
    (hhistory : t'.history = if q.queryId = 0 then (record t v .reset).history else t.history)
    (hissued : ∀ b, b ≠ a → t'.issued b = t.issued b) :
    Matches t' (ConcurrentSenders.issue timeouts s v now q) where
  key := by simpa [hkey] using h.key
  rows := by simpa [h.rows] using hrows
  history := by
    rw [hhistory, record, h.history, ConcurrentSenders.issue]
    split <;> rfl
  inside := by simpa [hinside] using h.inside
  issued := by
    intro b w r p hb hposting
    rw [ConcurrentSenders.issue_locks] at hb
    rw [ConcurrentSenders.issue_stage] at hposting
    have hba : b ≠ a := by
      rintro rfl
      exact hpost r p (hstage.symm.trans hposting)
    rw [hissued b hba]
    exact h.issued b w r p hb hposting

/-- Either write of the wrapper: the row and the history go with the id. -/
theorem linked_write {r : Option ℕ} {shift bitnumber : ℤ} {q : HighLoadQueryId} (timeout : ℕ)
    (now : ℤ) (reply : Reply) (hs : Reached s) (hm : Matches t s)
    (hplace : place s a = (.inside v, .read r shift bitnumber))
    (hid : nextId shift bitnumber r.isSome = .ok q) {t' : Shared W}
    (hframe : t'.key = t.key ∧ t'.inside = t.inside ∧ t'.issued = t.issued)
    (hrows : t'.rows = writeId t.rows v timeout now q)
    (hhistory : t'.history = if q.queryId = 0 then (record t v .reset).history else t.history) :
    Linked (written a t t' v q.shift q.bitnumber reply).2 (Function.update (place s) a
      (afterWrite (place s a) (written a t t' v q.shift q.bitnumber reply).1)) := by
  obtain ⟨hprogress, hstage⟩ := Prod.ext_iff.mp hplace
  dsimp only [place] at hprogress hstage
  have henabled : ConcurrentSenders.Enabled s (.writeQueryId a now reply) := by
    simp [ConcurrentSenders.Enabled, hprogress, hstage]
  have hsame : (ConcurrentSenders.issue (fun _ => timeout) s v now q).locks = s.locks ∧
      (ConcurrentSenders.issue (fun _ => timeout) s v now q).stage = s.stage := by simp
  rw [hplace]
  cases reply with
  | answered =>
    simp only [written, afterWrite, hid]
    refine linked_inside (fun _ => timeout) hs hplace _ henabled trivial
      (by simp only [ConcurrentSenders.next, hprogress, hstage, hid]) hsame ?_ ?_
    · exact matches_issue hm (fun _ => timeout) now q hstage (by simp) hframe.1 hframe.2.1 hrows
        hhistory fun b hb => by simp [issue, hb, hframe.2.2]
    · rintro _ _ ⟨⟩
      simp [issue]
  | lost =>
    show Linked t' (Function.update (place s) a (.inside v, .finished))
    refine linked_inside (fun _ => timeout) hs hplace _ henabled trivial
      (by simp only [ConcurrentSenders.next, hprogress, hstage, hid]) hsame ?_ (by simp)
    exact matches_issue hm (fun _ => timeout) now q hstage (by simp) hframe.1 hframe.2.1 hrows
      hhistory fun b _ => congrFun hframe.2.2 b
  | refused =>
    refine linked_inside (fun _ => timeout) hs hplace _ henabled trivial
      (by simp only [ConcurrentSenders.next, hprogress, hstage, hid]) ⟨rfl, rfl⟩ hm (by simp)

theorem linked_post {r : Option ℕ} {q : HighLoadQueryId} (hs : Reached s) (hm : Matches t s)
    (reply : Except String V3MessageResponse)
    (hplace : place s a = (.inside v, .posting r q)) :
    Linked (posted t a) (Function.update (place s) a (afterReply (place s a) reply)) := by
  obtain ⟨hprogress, hstage⟩ := Prod.ext_iff.mp hplace
  dsimp only [place] at hprogress hstage
  have hrecord : Matches (record t v (.posted q.queryId))
      (ConcurrentSenders.record s v (.posted q.queryId)) :=
    ⟨hm.key, hm.rows, by simp [record, ConcurrentSenders.record, hm.history], hm.inside,
      hm.issued⟩
  rw [posted, hm.issued a v r q hprogress hstage, hplace]
  refine linked_inside (fun _ => 0) hs hplace (.post a (postResult reply))
    (by simp [ConcurrentSenders.Enabled, hprogress, hstage]) trivial ?_ ?_ hrecord ?_
  · simp only [ConcurrentSenders.next, hprogress, hstage]
  · exact ⟨rfl, rfl⟩
  · intro r' q' h
    rcases ConcurrentSenders.afterPost_cases r (postResult reply) with h' | ⟨n, h'⟩ <;>
      cases h'.symm.trans h

theorem linked_serve {places : W → Place} {c : Command} (o : Outside) (h : Linked t places)
    (hc : Allowed (places a) c) : Linked (serve a t c o).2
      (Function.update places a (after (places a) c (serve a t c o).1)) := by
  obtain ⟨s, hs, hm, rfl⟩ := h
  have hsame : Linked t (Function.update (place s) a (place s a)) :=
    ⟨s, hs, hm, Function.update_eq_self _ _⟩
  generalize hplace : place s a = p at hc
  cases hc with
  | estimate e => exact hplace ▸ hsame
  | now => exact hplace ▸ hsame
  | setNx => exact hplace ▸ linked_lock hs hm o hplace
  | getQueryId => exact hplace ▸ linked_get hs hm o hplace
  | update hid hq =>
    refine hplace ▸ linked_write 0 o.time o.reply hs hm hplace hid ⟨rfl, rfl, rfl⟩ ?_ ?_
    · rw [writeId, if_neg hq]
    · rw [if_neg hq]
  | upsert hid hq timeout =>
    refine hplace ▸ linked_write timeout o.time o.reply hs hm hplace hid ⟨rfl, rfl, rfl⟩ ?_ ?_
    · rw [writeId, if_pos hq]
      rfl
    · rw [if_pos hq]
      rfl
  | post => exact hplace ▸ linked_post hs hm o.post hplace
  | del => exact linked_release hs hm o hplace

end Served

theorem linked_expire {places : W → Place} {k : String} (h : Linked t places)
    (hkey : t.key k ≠ none) (htime : InTime t k) : Linked (del t k) places := by
  obtain ⟨s, hs, hm, rfl⟩ := h
  by_cases hk : ∃ v, k = lockKey v
  · obtain ⟨v, rfl⟩ := hk
    refine ⟨_, hs.tail ⟨fun _ => 0, .lock (.expire v), ⟨?_, trivial⟩, ?_, rfl⟩, ?_, rfl⟩
    · rwa [WalletLocks.Enabled, ← hm.key]
    · intro a ha hin
      exact htime a ((hm.key v).trans ha) ((hm.inside a _).mpr ⟨v, rfl, hin⟩)
    · exact ⟨del_key hm v, hm.rows, hm.history, hm.inside, hm.issued⟩
  · refine ⟨s, hs, ⟨fun v => ?_, hm.rows, hm.history, hm.inside, hm.issued⟩, rfl⟩
    have hv : lockKey v ≠ k := fun heq => hk ⟨v, heq.symm⟩
    simp [del, hv, hm.key]

/-- No answer comes back, and nothing was done. -/
def refused : Outside := ⟨.refused, 0, 0, .error ""⟩

/-- A worker that dies with its release still to come. -/
theorem linked_left {places : W → Place} {v : String} (h : Linked t places)
    (ha : places a = (.inside v, .finished)) :
    Linked (abandon a t) (Function.update places a home) := by
  obtain ⟨s, hs, hm, rfl⟩ := h
  exact linked_release hs hm refused ha

/-- A worker that dies among the wallets tries the others in vain. -/
theorem linked_gaveUp {places : W → Place} {rest : List String} (h : Linked t places)
    (ha : places a = (.acquiring rest, .idle)) : Linked t (Function.update places a home) := by
  induction rest generalizing places with
  | nil => exact linked_silent h (by rw [ha]; exact .giveUp)
  | cons v rest ih =>
    have hserved := linked_serve (c := .setNx (lockKey v)) refused h (by rw [ha]; exact .setNx)
    rw [ha] at hserved
    have hhome := ih hserved (Function.update_self _ _ _)
    rwa [Function.update_idem] at hhome

/-- The life of a worker that dies goes on in `ConcurrentSenders`, with every command refused. -/
theorem linked_crash {places : W → Place} (a : W) (h : Linked t places)
    (hw : WellPlaced (places a)) : Linked (abandon a t) (Function.update places a home) := by
  have hthrough : ∀ {v : String}, Linked t (Function.update places a (.inside v, .finished)) →
      Linked (abandon a t) (Function.update places a home) := by
    intro v hleft
    have hhome := linked_left hleft (Function.update_self _ _ _)
    rwa [Function.update_idem] at hhome
  have houtside : Linked t (Function.update places a home) →
      Linked (abandon a t) (Function.update places a home) := by
    rintro ⟨s, hs, hm, hplaces⟩
    have hnone : t.inside a = none := by
      have hhome := congrFun hplaces a
      rw [Function.update_self] at hhome
      refine inside_none hm fun v hv => ?_
      cases (congrArg Prod.fst hhome).trans hv
    rw [abandon, ← hnone, Function.update_eq_self]
    exact ⟨s, hs, hm, hplaces⟩
  generalize hp : places a = p at hw
  obtain ⟨progress, stage⟩ := p
  cases progress with
  | outside =>
    obtain rfl : stage = .idle := hw
    rw [home, ← hp, Function.update_eq_self] at houtside
    rw [home, ← hp, Function.update_eq_self]
    exact houtside h
  | acquiring rest =>
    obtain rfl : stage = .idle := hw
    exact houtside (linked_gaveUp h hp)
  | inside v =>
    cases stage with
    | idle => exact absurd rfl hw
    | sending r =>
      have hserved := linked_serve (c := .getQueryId v) refused h (by rw [hp]; exact .getQueryId)
      rw [hp] at hserved
      exact hthrough hserved
    | read r shift bitnumber =>
      cases hid : nextId shift bitnumber r.isSome with
      | error e => exact hthrough (linked_silent h (by rw [hp]; exact .noId hid))
      | ok q =>
        by_cases hq : q.queryId = 0
        · have hserved := linked_serve refused h (by rw [hp]; exact .upsert hid hq 0)
          rw [hp] at hserved
          exact hthrough hserved
        · have hserved := linked_serve refused h (by rw [hp]; exact .update hid hq)
          rw [hp] at hserved
          exact hthrough hserved
    | posting r q => exact hthrough (linked_silent h (by rw [hp]; exact .unposted))
    | finished => exact linked_left h hp

theorem wellPlaced_update {places : W → Place} {p : Place} (h : ∀ b, WellPlaced (places b))
    (hp : WellPlaced p) (b : W) : WellPlaced (Function.update places a p b) := by
  by_cases hb : b = a
  · subst hb
    rwa [Function.update_self]
  · rw [Function.update_of_ne hb]
    exact h b

theorem wallets_sound : Sound (service W) walletRules home InTime
    (fun t places => Linked t places ∧ ∀ a, WellPlaced (places a)) where
  initial := by
    refine ⟨⟨ConcurrentSenders.initial, .refl, ⟨fun _ => rfl, rfl, rfl, ?_, ?_⟩, rfl⟩, fun _ => rfl⟩
    · intro a k
      simp [service, ConcurrentSenders.initial, WalletLocks.initial]
    · rintro a v r q ⟨⟩
  silent := fun h hp =>
    ⟨linked_silent h.1 hp, wellPlaced_update h.2 (wellPlaced_silent hp)⟩
  serve := fun o h hc =>
    ⟨linked_serve o h.1 hc, wellPlaced_update h.2 (wellPlaced_after (h.2 _) hc _)⟩
  crash := fun a h => ⟨linked_crash a h.1 (h.2 a), wellPlaced_update h.2 rfl⟩
  disturb := fun h hkey htime => ⟨linked_expire h.1 hkey htime, h.2⟩

end Refinement

section Runs

variable (W : Type*) [DecidableEq W]

/-- Workers that start any broadcasts at any time. -/
def workers : System (Workers W Output (Except Stop Outcome) (Shared W))
    (Event W Task Outside String) := system (service W) Task.program

variable {W}

instance (s : Workers W Output (Except Stop Outcome) (Shared W))
    (e : Event W Task Outside String) : Decidable ((workers W).Enabled s e) :=
  inferInstanceAs (Decidable (Enabled (service W) s e))

/-- What the workers owe to the wallets. -/
structure Shares (s : Workers W Output (Except Stop Outcome) (Shared W)) : Prop where
  exclusive : ∀ a b key, s.shared.inside a = some key → s.shared.inside b = some key → a = b
  distinct : ∀ address, ConcurrentSenders.DistinctBetweenResets (s.shared.history address)
  posts : ∀ a boc next, s.program a = some (.call (.postV3Message boc) next) →
    ∃ address queryId, s.shared.inside a = some (lockKey address) ∧
      s.shared.issued a = some (address, queryId) ∧ Built address queryId boc ∧
      RowHolds s.shared.rows address queryId ∧
      ∀ i ∈ ConcurrentSenders.current (s.shared.history address), i < queryId.queryId
  released : ∀ a, s.program a = none → s.shared.inside a = none

theorem reached_invariant {s : SendState W} (h : Reached s) :
    ConcurrentSenders.SendInvariant s := by
  induction h with
  | refl => exact ConcurrentSenders.initial_invariant
  | tail _ hstep ih =>
    obtain ⟨timeouts, e, he, hlive, rfl⟩ := hstep
    exact ConcurrentSenders.send_invariant_next ih he hlive timeouts

/-- Silent moves do not lead to a post. -/
theorem posting_still {p : Place} {v : String} {r : Option ℕ} {q : HighLoadQueryId}
    (h : Relation.ReflTransGen Silent p (.inside v, .posting r q)) :
    p = (.inside v, .posting r q) := by
  cases h with
  | refl => rfl
  | tail _ hsilent => cases hsilent

section Sample

def answered : Outside := ⟨.answered, 0, 5, .ok ⟨"hash", "hash norm"⟩⟩
def used : Outside := ⟨.answered, 0, 5, .error "THROWIF 36 error occurred"⟩

/-- Its libraries leave the cells that they are given as they are. -/
def plainBroadcaster : TONBroadcaster :=
  { SendRetries.sampleBroadcaster with
    tonlib := { SendRetries.sampleBroadcaster.tonlib with
      hashFromHex := fun _ => .ok (List.Vector.replicate 32 7)
      addressFromHexStr := fun _ => .ok TonAddress.null
      fromBocHex := fun _ => .ok emptyCell
      transferMessage := fun _ body => .ok body
      externalMessage := fun _ body => .ok body } }

def sampleTask : Task := .refund plainBroadcaster RefundBroadcast.sampleTask

/-- The first worker posts an id that was used, takes another one and dies. The second worker
asks for the wallet in vain while the key is there, and gets it when the key has expired. -/
def twoWorkers : List (Event ℕ Task Outside String) :=
  [.start 0 sampleTask, .start 1 sampleTask] ++ List.replicate 6 (.serve 0 answered) ++
    [.serve 1 answered, .serve 1 answered, .finish 1, .serve 0 used] ++
    List.replicate 2 (.serve 0 answered) ++
    [.crash 0, .disturb (lockKey SendRetries.sampleKey), .start 1 sampleTask] ++
    List.replicate 7 (.serve 1 answered)

theorem twoWorkers_run : (workers ℕ).Valid twoWorkers ∧
    (∀ p ∈ (workers ℕ).steps twoWorkers, Undisturbed InTime p.1 p.2) ∧
    ((workers ℕ).run twoWorkers).shared.history SendRetries.sampleKey =
      [.posted 1026, .posted 0, .reset] := by decide +kernel

end Sample

variable {es : List (Event W Task Outside String)}

end Runs

end SharedWallets
