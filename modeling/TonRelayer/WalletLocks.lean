import TonRelayer.TransitionRuns
import Mathlib.Logic.Function.Basic

/-! The wallet lock: `SET NX EX 60` to acquire, an unconditional `DEL` to release.
Every Redis command is one atomic step and workers interleave freely. A command whose reply
is an error may or may not have run. The owner beside a key and the overrun flag are ghost
state: Redis stores only that the key is there. -/
namespace WalletLocks

set_option linter.unusedSectionVars false

open TransitionRuns

variable {W V : Type*} [DecidableEq W] [DecidableEq V]

/-- Where a worker is between two calls of the lock manager. `acquire` tries the wallets one
by one; `rest` are those it has not tried. -/
inductive Progress (V : Type*) where
  | outside
  | acquiring (rest : List V)
  | inside (wallet : V)
  deriving DecidableEq, Repr

structure LockState (W V : Type*) where
  key : V → Option W
  progress : W → Progress V
  overrun : W → Bool

def initial : LockState W V := ⟨fun _ => none, fun _ => .outside, fun _ => false⟩

inductive LockEvent (W V : Type*) where
  | start (a : W) (order : List V)
  | lock (a : W) (reply : Reply)
  | giveUp (a : W)
  | unlock (a : W) (reply : Reply)
  | expire (v : V)
  deriving DecidableEq, Repr

def Enabled (s : LockState W V) : LockEvent W V → Prop
  | .start a _ => s.progress a = .outside
  | .lock a _ => match s.progress a with
    | .acquiring (_ :: _) => True
    | _ => False
  | .giveUp a => s.progress a = .acquiring []
  | .unlock a _ => match s.progress a with
    | .inside _ => True
    | _ => False
  | .expire v => s.key v ≠ none

instance (s : LockState W V) (e : LockEvent W V) : Decidable (Enabled s e) := by
  cases e <;> simp only [Enabled] <;> first | infer_instance | (split <;> infer_instance)

def setProgress (s : LockState W V) (a : W) (p : Progress V) : LockState W V :=
  { s with progress := Function.update s.progress a p }

/-- `SET key true NX`: the key is created unless it is there. -/
def setNx (s : LockState W V) (a : W) (v : V) : LockState W V :=
  if s.key v = none then { s with key := Function.update s.key v (some a) } else s

/-- The worker has the wallet: its section starts with a fresh key. -/
def enter (s : LockState W V) (a : W) (v : V) : LockState W V :=
  { setProgress (setNx s a v) a (.inside v) with overrun := Function.update s.overrun a false }

/-- One iteration of `acquire`. Any error counts as a lock that was not obtained. -/
def tryLock (s : LockState W V) (a : W) (v : V) (rest : List V) : Reply → LockState W V
  | .answered => if s.key v = none then enter s a v else setProgress s a (.acquiring rest)
  | .lost => setProgress (setNx s a v) a (.acquiring rest)
  | .refused => setProgress s a (.acquiring rest)

def del (s : LockState W V) (v : V) : LockState W V :=
  { s with key := Function.update s.key v none }

/-- `release`: the key is deleted whoever created it, and an error is only logged. -/
def release (s : LockState W V) (a : W) (v : V) : Reply → LockState W V
  | .refused => setProgress s a .outside
  | _ => setProgress (del s v) a .outside

/-- The key runs out of time; the workers inside that wallet go on without it. -/
def expired (s : LockState W V) (v : V) : LockState W V :=
  { del s v with overrun := fun a => s.overrun a || decide (s.progress a = .inside v) }

def next (s : LockState W V) : LockEvent W V → LockState W V
  | .start a order => setProgress s a (.acquiring order)
  | .lock a reply => match s.progress a with
    | .acquiring (v :: rest) => tryLock s a v rest reply
    | _ => s
  | .giveUp a => setProgress s a .outside
  | .unlock a reply => match s.progress a with
    | .inside v => release s a v reply
    | _ => s
  | .expire v => expired s v

def system (W V : Type*) [DecidableEq W] [DecidableEq V] :
    System (LockState W V) (LockEvent W V) where
  initial := initial
  Enabled := Enabled
  next := next

instance (s : LockState W V) (e : LockEvent W V) : Decidable ((system W V).Enabled s e) :=
  inferInstanceAs (Decidable (Enabled s e))

/-- A release removes the wallet's key only if the worker's own acquire created it. -/
def ReleasesOwn (s : LockState W V) : LockEvent W V → Prop
  | .unlock a reply => match s.progress a with
    | .inside v => reply = .refused ∨ s.key v = none ∨ s.key v = some a
    | _ => True
  | _ => True

/-- No worker whose key has expired since its acquire sends its release while a key is there. -/
def ReleasesInTime (s : LockState W V) : LockEvent W V → Prop
  | .unlock a reply => match s.progress a with
    | .inside v => reply = .refused ∨ s.key v = none ∨ s.overrun a = false
    | _ => True
  | _ => True

/-- Of the workers that acquired a wallet after its key last expired, one is inside. -/
def Exclusive (s : LockState W V) : Prop :=
  ∀ a b v, s.progress a = .inside v → s.progress b = .inside v →
    s.overrun a = false → s.overrun b = false → a = b

instance (s : LockState W V) (e : LockEvent W V) : Decidable (ReleasesOwn s e) := by
  cases e <;> simp only [ReleasesOwn] <;> first | infer_instance | (split <;> infer_instance)

instance (s : LockState W V) (e : LockEvent W V) : Decidable (ReleasesInTime s e) := by
  cases e <;> simp only [ReleasesInTime] <;>
    first | infer_instance | (split <;> infer_instance)

/-- A worker inside whose key has not expired still has its key. -/
def HoldersKeyed (s : LockState W V) : Prop :=
  ∀ a v, s.progress a = .inside v → s.overrun a = false → s.key v = some a

/-- A key that expired is never the worker's own again while it stays inside. -/
def OverrunUnkeyed (s : LockState W V) : Prop :=
  ∀ a v, s.progress a = .inside v → s.overrun a = true → s.key v ≠ some a

theorem holdersKeyed_exclusive {s : LockState W V} (h : HoldersKeyed s) : Exclusive s := by
  intro a b v ha hb hoa hob
  have hka := h a v ha hoa
  rw [h b v hb hob] at hka
  exact (Option.some.inj hka).symm

/-- Everything a step can do to the lock: a worker moves without the wallet, enters, leaves
a key behind that it does not know of, releases, or a key expires. -/
theorem next_cases {s : LockState W V} {e : LockEvent W V} (he : Enabled s e) :
    (∃ a p, (∀ v, p ≠ .inside v) ∧ next s e = setProgress s a p) ∨
    (∃ a v, e = .lock a .answered ∧ s.key v = none ∧ next s e = enter s a v) ∨
    (∃ a v p, s.key v = none ∧ (∀ w, p ≠ .inside w) ∧
      next s e = setProgress (setNx s a v) a p) ∨
    (∃ a v reply, e = .unlock a reply ∧ reply ≠ .refused ∧ s.progress a = .inside v ∧
      next s e = setProgress (del s v) a .outside) ∨
    (∃ v, e = .expire v ∧ next s e = expired s v) := by
  cases e with
  | start a order => exact .inl ⟨a, .acquiring order, by simp, rfl⟩
  | giveUp a => exact .inl ⟨a, .outside, by simp, rfl⟩
  | expire v => exact .inr (.inr (.inr (.inr ⟨v, rfl, rfl⟩)))
  | lock a reply =>
    simp only [Enabled] at he
    split at he
    · rename_i v rest hp
      simp only [next, hp]
      by_cases hkey : s.key v = none
      · cases reply with
        | answered => exact .inr (.inl ⟨a, v, rfl, hkey, by simp [tryLock, hkey]⟩)
        | lost => exact .inr (.inr (.inl ⟨a, v, .acquiring rest, hkey, by simp, rfl⟩))
        | refused => exact .inl ⟨a, .acquiring rest, by simp, rfl⟩
      · refine .inl ⟨a, .acquiring rest, by simp, ?_⟩
        cases reply <;> simp [tryLock, setNx, hkey]
    · exact he.elim
  | unlock a reply =>
    simp only [Enabled] at he
    split at he
    · rename_i v hp
      simp only [next, hp]
      cases reply with
      | refused => exact .inl ⟨a, .outside, by simp, rfl⟩
      | answered => exact .inr (.inr (.inr (.inl ⟨a, v, .answered, rfl, by simp, hp, rfl⟩)))
      | lost => exact .inr (.inr (.inr (.inl ⟨a, v, .lost, rfl, by simp, hp, rfl⟩)))
    · exact he.elim

section Frames

variable (s : LockState W V) (a b : W) (v w : V) (p : Progress V)

@[simp] theorem setProgress_key : (setProgress s a p).key = s.key := rfl
@[simp] theorem setProgress_overrun : (setProgress s a p).overrun = s.overrun := rfl
@[simp] theorem setProgress_self : (setProgress s a p).progress a = p := by simp [setProgress]
@[simp] theorem del_progress : (del s v).progress = s.progress := rfl
@[simp] theorem del_key : (del s v).key w = if w = v then none else s.key w := by
  simp [del, Function.update_apply]

@[simp] theorem setNx_progress : (setNx s a v).progress = s.progress := by
  rw [setNx]
  split <;> rfl

@[simp] theorem setNx_overrun : (setNx s a v).overrun = s.overrun := by
  rw [setNx]
  split <;> rfl

theorem setNx_key (h : s.key v = none) :
    (setNx s a v).key w = if w = v then some a else s.key w := by
  simp [setNx, h, Function.update_apply]

theorem setProgress_other (h : b ≠ a) : (setProgress s a p).progress b = s.progress b :=
  Function.update_of_ne h _ _

/-- A worker that moves without a wallet is inside only if it is another one. -/
theorem inside_setProgress (hp : ∀ u, p ≠ .inside u)
    (h : (setProgress s a p).progress b = .inside w) : b ≠ a ∧ s.progress b = .inside w := by
  by_cases hb : b = a
  · subst hb
    rw [setProgress_self] at h
    exact absurd h (hp w)
  · exact ⟨hb, by rwa [setProgress_other s a b p hb] at h⟩

@[simp] theorem enter_overrun_self : (enter s a v).overrun a = false := by simp [enter]

theorem enter_key (h : s.key v = none) :
    (enter s a v).key w = if w = v then some a else s.key w := by
  rw [enter]
  exact setNx_key s a v w h

/-- After a worker has entered, the worker inside is this one or was there before. -/
theorem inside_enter (h : (enter s a v).progress b = .inside w) :
    (b = a ∧ w = v) ∨
      (b ≠ a ∧ s.progress b = .inside w ∧ (enter s a v).overrun b = s.overrun b) := by
  by_cases hb : b = a
  · subst hb
    simp only [enter, setProgress_self, Progress.inside.injEq] at h
    exact .inl ⟨rfl, h.symm⟩
  · refine .inr ⟨hb, ?_, by simp [enter, Function.update_of_ne hb]⟩
    simpa [enter, setProgress_other _ _ _ _ hb] using h

end Frames

theorem holdersKeyed_next {s : LockState W V} {e : LockEvent W V} (h : HoldersKeyed s)
    (he : Enabled s e) (ht : ReleasesInTime s e) : HoldersKeyed (next s e) := by
  rcases next_cases he with ⟨a, p, hp, heq⟩ | ⟨a, v, rfl, hkey, heq⟩ |
    ⟨a, v, p, hkey, hp, heq⟩ | ⟨a, v, reply, rfl, hreply, hin, heq⟩ | ⟨v, rfl, heq⟩ <;>
    rw [heq] <;> intro b w hb hob
  · obtain ⟨-, hb⟩ := inside_setProgress _ _ _ _ _ hp hb
    exact h b w hb hob
  · rcases inside_enter _ _ _ _ _ hb with ⟨rfl, rfl⟩ | ⟨-, hb, hover⟩
    · rw [enter_key _ _ _ _ hkey, if_pos rfl]
    · have hw := h b w hb (hover ▸ hob)
      have hwv : w ≠ v := by rintro rfl; rw [hkey] at hw; cases hw
      rw [enter_key _ _ _ _ hkey, if_neg hwv]
      exact hw
  · obtain ⟨-, hb⟩ := inside_setProgress _ _ _ _ _ hp hb
    rw [setNx_progress] at hb
    have hw := h b w hb (by simpa using hob)
    have hwv : w ≠ v := by rintro rfl; rw [hkey] at hw; cases hw
    simpa [setNx_key _ _ _ _ hkey, hwv] using hw
  · -- A release in time finds the worker's own key, which no other holder can have.
    obtain ⟨hba, hb⟩ := inside_setProgress _ _ _ _ _ (by simp) hb
    have hw := h b w hb hob
    have hwv : w ≠ v := by
      rintro rfl
      simp only [ReleasesInTime, hin] at ht
      rcases ht with hr | hnone | hfresh
      · exact hreply hr
      · rw [hnone] at hw; cases hw
      · rw [h a w hin hfresh] at hw
        exact hba (Option.some.inj hw).symm
    simpa [hwv] using hw
  · simp only [expired, Bool.or_eq_false_iff, decide_eq_false_iff_not] at hob hb ⊢
    have hwv : w ≠ v := by rintro rfl; exact hob.2 hb
    simpa [hwv] using h b w hb hob.1

theorem overrunUnkeyed_next {s : LockState W V} {e : LockEvent W V} (h : OverrunUnkeyed s)
    (he : Enabled s e) : OverrunUnkeyed (next s e) := by
  rcases next_cases he with ⟨a, p, hp, heq⟩ | ⟨a, v, rfl, hkey, heq⟩ |
    ⟨a, v, p, hkey, hp, heq⟩ | ⟨a, v, reply, rfl, hreply, hin, heq⟩ | ⟨v, rfl, heq⟩ <;>
    rw [heq] <;> intro b w hb hob
  · obtain ⟨-, hb⟩ := inside_setProgress _ _ _ _ _ hp hb
    exact h b w hb hob
  · rcases inside_enter _ _ _ _ _ hb with ⟨rfl, rfl⟩ | ⟨hba, hb, hover⟩
    · rw [enter_overrun_self] at hob
      cases hob
    · have hw := h b w hb (hover ▸ hob)
      rw [enter_key _ _ _ _ hkey]
      split
      · exact fun hab => hba (Option.some.inj hab).symm
      · exact hw
  · obtain ⟨hba, hb⟩ := inside_setProgress _ _ _ _ _ hp hb
    rw [setNx_progress] at hb
    have hw := h b w hb (by simpa using hob)
    simp only [setProgress_key, setNx_key _ _ _ _ hkey]
    split
    · exact fun hab => hba (Option.some.inj hab).symm
    · exact hw
  · obtain ⟨-, hb⟩ := inside_setProgress _ _ _ _ _ (by simp) hb
    have hw := h b w hb hob
    simp only [setProgress_key, del_key]
    split
    · simp
    · exact hw
  · simp only [expired, Bool.or_eq_true, decide_eq_true_eq] at hob hb
    simp only [expired, del_key]
    split
    · simp
    · rename_i hwv
      refine h b w hb (hob.resolve_right fun hbv => hwv ?_)
      rw [del_progress, hbv] at hb
      exact (Progress.inside.inj hb).symm

theorem in_time_releases_own {s : LockState W V} {e : LockEvent W V} (h : HoldersKeyed s)
    (ht : ReleasesInTime s e) : ReleasesOwn s e := by
  cases e with
  | unlock a reply =>
    simp only [ReleasesInTime, ReleasesOwn] at *
    split
    · rename_i v hin
      rw [hin] at ht
      exact ht.imp_right (Or.imp_right (h a v hin))
    · trivial
  | _ => trivial

theorem releases_own_in_time {s : LockState W V} {e : LockEvent W V} (h : OverrunUnkeyed s)
    (ho : ReleasesOwn s e) : ReleasesInTime s e := by
  cases e with
  | unlock a reply =>
    simp only [ReleasesInTime, ReleasesOwn] at *
    split
    · rename_i v hin
      rw [hin] at ho
      refine ho.imp_right (Or.imp_right fun hown => ?_)
      by_contra hover
      exact h a v hin (by simpa using hover) hown
    · trivial
  | _ => trivial

/-- The key of a wallet does not expire while the worker that created it is inside. -/
def NoLiveExpiry (s : LockState W V) : LockEvent W V → Prop
  | .expire v => ∀ a, s.key v = some a → s.progress a ≠ .inside v
  | _ => True

instance (s : LockState W V) (e : LockEvent W V) : Decidable (NoLiveExpiry s e) :=
  match e with
  | .expire v => inferInstanceAs (Decidable (∀ a ∈ s.key v, s.progress a ≠ .inside v))
  | .start _ _ | .lock _ _ | .giveUp _ | .unlock _ _ => isTrue trivial

def NoOverrun (s : LockState W V) : Prop :=
  ∀ a v, s.progress a = .inside v → s.overrun a = false

theorem noOverrun_next {s : LockState W V} {e : LockEvent W V} (hk : HoldersKeyed s)
    (h : NoOverrun s) (he : Enabled s e) (hlive : NoLiveExpiry s e) : NoOverrun (next s e) := by
  rcases next_cases he with ⟨a, p, hp, heq⟩ | ⟨a, v, rfl, hkey, heq⟩ |
    ⟨a, v, p, hkey, hp, heq⟩ | ⟨a, v, reply, rfl, hreply, hin, heq⟩ | ⟨v, rfl, heq⟩ <;>
    rw [heq] <;> intro b w hb
  · exact h b w (inside_setProgress _ _ _ _ _ hp hb).2
  · rcases inside_enter _ _ _ _ _ hb with ⟨rfl, rfl⟩ | ⟨-, hb, hover⟩
    · exact enter_overrun_self s b w
    · rw [hover]
      exact h b w hb
  · simpa using h b w (by simpa using (inside_setProgress _ _ _ _ _ hp hb).2)
  · exact h b w (inside_setProgress _ _ _ _ _ (by simp) hb).2
  · have hb : s.progress b = .inside w := hb
    have hwv : w ≠ v := by rintro rfl; exact hlive b (hk b w hb (h b w hb)) hb
    simp [expired, h b w hb, hb, hwv]

theorem noOverrun_in_time {s : LockState W V} (h : NoOverrun s) (e : LockEvent W V) :
    ReleasesInTime s e := by
  cases e with
  | unlock a reply =>
    simp only [ReleasesInTime]
    split
    · rename_i v hin
      exact .inr (.inr (h a v hin))
    · trivial
  | _ => trivial

/-- Every worker inside a wallet still has the key its acquire created. -/
structure AllKeyed (s : LockState W V) : Prop where
  keyed : HoldersKeyed s
  fresh : NoOverrun s

theorem allKeyed_next {s : LockState W V} {e : LockEvent W V} (h : AllKeyed s)
    (he : Enabled s e) (hlive : NoLiveExpiry s e) : AllKeyed (next s e) :=
  ⟨holdersKeyed_next h.keyed he (noOverrun_in_time h.fresh e),
    noOverrun_next h.keyed h.fresh he hlive⟩

theorem allKeyed_unique {s : LockState W V} (h : AllKeyed s) {a b : W} {v : V}
    (ha : s.progress a = .inside v) (hb : s.progress b = .inside v) : a = b :=
  holdersKeyed_exclusive h.keyed a b v ha hb (h.fresh a v ha) (h.fresh b v hb)

def LockEvent.worker : LockEvent W V → Option W
  | .start a _ | .lock a _ | .giveUp a | .unlock a _ => some a
  | .expire _ => none

theorem next_progress_other {s : LockState W V} {e : LockEvent W V} {b : W}
    (he : e.worker ≠ some b) : (next s e).progress b = s.progress b := by
  cases e with
  | expire v => rfl
  | start a order => exact setProgress_other _ _ _ _ (by rintro rfl; exact he rfl)
  | giveUp a => exact setProgress_other _ _ _ _ (by rintro rfl; exact he rfl)
  | lock a reply =>
    have hb : b ≠ a := by rintro rfl; exact he rfl
    simp only [next]
    split
    · cases reply <;> simp only [tryLock, enter]
      · split <;> simp [setProgress_other _ _ _ _ hb]
      · simp [setProgress_other _ _ _ _ hb]
      · simp [setProgress_other _ _ _ _ hb]
    · rfl
  | unlock a reply =>
    have hb : b ≠ a := by rintro rfl; exact he rfl
    simp only [next]
    split
    · cases reply <;> simp [release, setProgress_other _ _ _ _ hb]
    · rfl

/-- A worker comes inside only by an answered lock of its own. -/
theorem inside_cases {s : LockState W V} {e : LockEvent W V} (he : Enabled s e) {b : W} {w : V}
    (h : (next s e).progress b = .inside w) :
    e = .lock b .answered ∨ (s.progress b = .inside w ∧ e.worker ≠ some b) := by
  by_cases hw : e.worker = some b
  · left
    cases e with
    | expire v => cases hw
    | start a order => cases hw; simp [next] at h
    | giveUp a => cases hw; simp [next] at h
    | lock a reply =>
      cases hw
      simp only [Enabled] at he
      split at he
      · rename_i v rest hp
        cases reply with
        | answered => rfl
        | lost => simp [next, hp, tryLock] at h
        | refused => simp [next, hp, tryLock] at h
      · exact he.elim
    | unlock a reply =>
      cases hw
      simp only [Enabled] at he
      split at he
      · rename_i v hp
        cases reply <;> simp [next, hp, release] at h
      · exact he.elim
  · exact .inr ⟨by rwa [next_progress_other hw] at h, hw⟩

/-- In every run, releases remove only the worker's own key, and wallets are exclusive, exactly
when no release comes after its key has expired while a key is there. -/
theorem releases_own_iff_in_time (es : List (LockEvent W V)) (hv : (system W V).Valid es) :
    ((∀ p ∈ (system W V).steps es, ReleasesOwn p.1 p.2 ∧ Exclusive p.1) ∧
      Exclusive ((system W V).run es)) ↔
    ∀ p ∈ (system W V).steps es, ReleasesInTime p.1 p.2 := by
  constructor
  · rintro ⟨hown, -⟩ p hp
    have hunkeyed := (invariant_always (M := system W V) (I := OverrunUnkeyed)
      (fun _ _ h he => overrunUnkeyed_next h he) (by intro a v h; cases h) hv).2 p hp
    exact releases_own_in_time hunkeyed (hown p hp).1
  · intro htime
    obtain ⟨hend, hall⟩ := invariant_along (M := system W V) (I := HoldersKeyed)
      (C := ReleasesInTime) (fun _ _ h he ht => holdersKeyed_next h he ht)
      (by intro a v h; cases h) hv htime
    exact ⟨fun p hp => ⟨in_time_releases_own (hall p hp) (htime p hp),
      holdersKeyed_exclusive (hall p hp)⟩, holdersKeyed_exclusive hend⟩

/-- The first worker is slow, its key expires, the second acquires; the first one's release
then frees the second one's wallet, and a third worker joins it. -/
def slowSection : List (LockEvent ℕ ℕ) :=
  [.start 0 [7], .lock 0 .answered, .expire 7, .start 1 [7], .lock 1 .answered,
    .unlock 0 .answered, .start 2 [7], .lock 2 .answered]

/-- The same three workers, one after the other. -/
def orderlySections : List (LockEvent ℕ ℕ) :=
  [.start 0 [7], .lock 0 .answered, .start 1 [7], .lock 1 .answered, .giveUp 1,
    .unlock 0 .answered, .start 2 [7], .lock 2 .lost, .giveUp 2, .expire 7]

theorem releases_own_iff_in_time_orderly :
    (∀ p ∈ (system ℕ ℕ).steps orderlySections, ReleasesOwn p.1 p.2 ∧ Exclusive p.1) ∧
      Exclusive ((system ℕ ℕ).run orderlySections) :=
  (releases_own_iff_in_time orderlySections (by decide)).mpr (by decide)

theorem release_frees_another_workers_wallet :
    (system ℕ ℕ).Valid slowSection ∧
    (¬ ∀ p ∈ (system ℕ ℕ).steps slowSection, ReleasesOwn p.1 p.2) ∧
    ¬ Exclusive ((system ℕ ℕ).run slowSection) := by
  refine ⟨by decide, by decide, fun h => ?_⟩
  exact absurd (h 1 2 7 (by decide) (by decide) (by decide) (by decide)) (by decide)

end WalletLocks
