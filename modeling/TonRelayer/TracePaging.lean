import TonRelayer.TraceSubscribers
import Mathlib.Data.List.Perm.Subperm

/-! How the subscribers page through the traces of an account.
A poll asks for the traces that end after its cursor and gets at most a hundred of them, in no
promised order; the cursor then moves to the latest end among those it got. -/
namespace TracePaging

open Types TransitionRuns TraceSubscribers

variable {S : Type*} [DecidableEq S]

/-- A successful poll of one subscriber: the account's traces when it asked, and the page. -/
inductive PageEvent (S : Type*) where
  | start (p : S)
  | poll (p : S) (existing : List Trace) (page : List Delivery) (stored : Bool)

def traces (page : List Delivery) : List Trace := page.map fun d => d.trace

/-- The request names no lower bound before the first page. -/
def matching (latestLt : ℤ) (existing : List Trace) : List Trace :=
  if latestLt = -1 then existing else existing.filter fun trace => latestLt + 1 ≤ trace.endLt

def pageLimit : ℕ := 100

/-- Some of the matching traces: all of them, unless they are more than the limit. -/
structure Answers (latestLt : ℤ) (existing page : List Trace) : Prop where
  subperm : page.Subperm (matching latestLt existing)
  length : page.length = min pageLimit (matching latestLt existing).length

def pollEvent : PageEvent S → PollEvent S
  | .start p => .start p
  | .poll p _ page stored => .poll p (some page) stored

def Enabled (s : PollState S) : PageEvent S → Prop
  | .start _ => True
  | .poll p existing page _ => Answers (s.latestLt p) existing (traces page) ∧ AllSucceed page

def paging (cursors : S → Option ℤ) : System (PollState S) (PageEvent S) where
  initial := initial cursors
  Enabled := Enabled
  next := fun s e => next s (pollEvent e)

/-- The poll moves the cursor of `p` past the end of a trace that existed. -/
def Passes (s : PollState S) (p : S) (trace : Trace) : PageEvent S → Prop
  | .start _ => False
  | .poll q existing page stored => p = q ∧ trace ∈ existing ∧ s.latestLt p < trace.endLt ∧
      trace.endLt ≤ (next s (.poll q (some page) stored)).latestLt p

/-- What the step hands to the upsert. -/
def upserted : PageEvent S → List Trace
  | .start _ => []
  | .poll _ _ page _ => traces (touched page)

/-- Every trace that the cursor passes is handed to the upsert. -/
def SkipsNothing (s : PollState S) (e : PageEvent S) : Prop :=
  ∀ p trace, Passes s p trace e → trace ∈ upserted e

/-- A newer trace that the page leaves out ends later than all that it holds. -/
def LeavesLaterOut (s : PollState S) : PageEvent S → Prop
  | .start _ => True
  | .poll p existing page _ => ∀ trace ∈ existing, s.latestLt p < trace.endLt →
      trace ∉ traces page → ∀ seen ∈ traces page, seen.endLt < trace.endLt

section Pages

variable {s : PollState S} {p : S} {page : List Delivery} {existing : List Trace} {stored : Bool}

theorem touched_eq (h : AllSucceed page) : touched page = page := by
  induction page with
  | nil => rfl
  | cons d page ih =>
    obtain ⟨hd, hpage⟩ := List.forall_mem_cons.mp h
    rw [touched, hd]
    exact congrArg (d :: ·) (ih hpage)

theorem poll_latestLt (s : PollState S) (p : S) (page : List Delivery) (stored : Bool) :
    (next s (.poll p (some page) stored)).latestLt p =
      (((traces page).map (·.endLt)).max?).getD (s.latestLt p) := by
  have hlts : (traces page).map (·.endLt) = page.map fun d => d.trace.endLt := by
    rw [traces, List.map_map]
    rfl
  rw [hlts, next]
  dsimp only [collect, advance]
  cases hmax : (page.map fun d => d.trace.endLt).max? with
  | none => rfl
  | some lt => simp

/-- The cursor ends at the latest end on the page, if the page holds anything. -/
theorem le_latestLt_iff (hpage : page ≠ []) (lt : ℤ) :
    lt ≤ (next s (.poll p (some page) stored)).latestLt p ↔
      ∃ seen ∈ traces page, lt ≤ seen.endLt := by
  rw [poll_latestLt]
  cases hmax : ((traces page).map (·.endLt)).max? with
  | none =>
    rw [List.max?_eq_none_iff, List.map_eq_nil_iff, traces, List.map_eq_nil_iff] at hmax
    exact absurd hmax hpage
  | some m =>
    obtain ⟨hmem, hle⟩ := List.max?_eq_some_iff.mp hmax
    constructor
    · intro hlt
      obtain ⟨seen, hseen, rfl⟩ := List.mem_map.mp hmem
      exact ⟨seen, hseen, hlt⟩
    · rintro ⟨seen, hseen, hlt⟩
      exact hlt.trans (hle _ (List.mem_map_of_mem hseen))

theorem poll_skips_nothing_iff (h : AllSucceed page) :
    SkipsNothing s (.poll p existing page stored) ↔
      LeavesLaterOut s (.poll p existing page stored) := by
  by_cases hpage : page = []
  · subst hpage
    constructor
    · intro _ trace _ _ _ seen hseen
      cases hseen
    · rintro _ q trace ⟨rfl, -, hlt, hle⟩
      rw [poll_latestLt] at hle
      exact absurd hle (not_le.mpr hlt)
  · constructor
    · intro hskips trace htrace hlt hout seen hseen
      by_contra hle
      have hpassed : trace ∈ traces (touched page) := hskips p trace
        ⟨rfl, htrace, hlt, (le_latestLt_iff hpage _).mpr ⟨seen, hseen, not_lt.mp hle⟩⟩
      rw [touched_eq h] at hpassed
      exact hout hpassed
    · rintro hlater q trace ⟨rfl, htrace, hlt, hle⟩
      rw [upserted, touched_eq h]
      by_contra hout
      obtain ⟨seen, hseen, hle⟩ := (le_latestLt_iff hpage _).mp hle
      exact absurd hle (not_le.mpr (hlater trace htrace hlt hout seen hseen))

omit [DecidableEq S] in
/-- A page that is not full leaves nothing out. -/
theorem answers_all (h : Answers (s.latestLt p) existing (traces page))
    (hfew : (matching (s.latestLt p) existing).length ≤ pageLimit) :
    LeavesLaterOut s (.poll p existing page stored) := by
  have hperm : (traces page).Perm (matching (s.latestLt p) existing) := by
    apply h.subperm.perm_of_length_le
    rw [h.length, min_eq_right hfew]
  intro trace htrace hlt hout
  have hmatching : trace ∈ matching (s.latestLt p) existing := by
    rw [matching]
    split
    · exact htrace
    · rw [List.mem_filter, decide_eq_true_eq]
      exact ⟨htrace, Int.add_one_le_of_lt hlt⟩
  exact absurd (hperm.mem_iff.mpr hmatching) hout

end Pages

section Runs

variable {cursors : S → Option ℤ} {es : List (PageEvent S)}

theorem step_skips_nothing_iff {s : PollState S} {e : PageEvent S} (h : Enabled s e) :
    SkipsNothing s e ↔ LeavesLaterOut s e := by
  cases e with
  | start p => exact ⟨fun _ => trivial, fun _ _ _ hpasses => hpasses.elim⟩
  | poll p existing page stored => exact poll_skips_nothing_iff h.2

theorem handed_step (s : PollState S) (e : PageEvent S) (p : S) (trace : Trace)
    (h : (some p, trace) ∈ s.handed) : (some p, trace) ∈ (next s (pollEvent e)).handed := by
  cases e with
  | start q => exact h
  | poll q existing page stored =>
    have hsame : (advance s q page stored).handed = s.handed := by
      rw [advance]
      split <;> rfl
    exact List.mem_append_left _ (hsame ▸ h)

theorem handed_run (s : PollState S) (es : List (PageEvent S)) (p : S) (trace : Trace)
    (h : (some p, trace) ∈ s.handed) :
    (some p, trace) ∈ ((paging cursors).runFrom s es).handed := by
  induction es generalizing s with
  | nil => exact h
  | cons e es ih => exact ih _ (handed_step s e p trace h)

/-- What a page holds stays among what was handed out. -/
theorem handed_of_step {s : PollState S} {x : PollState S × PageEvent S} {p : S} {trace : Trace}
    (hx : x ∈ (paging cursors).stepsFrom s es) (hskips : SkipsNothing x.1 x.2)
    (hpasses : Passes x.1 p trace x.2) :
    (some p, trace) ∈ ((paging cursors).runFrom s es).handed := by
  induction es generalizing s with
  | nil => cases hx
  | cons e es ih =>
    rcases List.mem_cons.mp hx with rfl | hx
    · refine handed_run _ es p trace ?_
      cases e with
      | start q => exact hpasses.elim
      | poll q existing page stored =>
        have hmem := hskips p trace hpasses
        obtain ⟨d, hd, rfl⟩ := List.mem_map.mp hmem
        obtain ⟨rfl, -⟩ := hpasses
        exact List.mem_append_right _ (List.mem_map_of_mem (touched_subset hd))
    · exact ih hx

/-- Paging skips no trace exactly when every page leaves only later traces out; then every trace
that existed when a cursor passed its end has been handed to that subscriber. -/
theorem paging_skips_nothing_iff (hv : (paging cursors).Valid es) :
    ((∀ x ∈ (paging cursors).steps es, SkipsNothing x.1 x.2) ↔
      ∀ x ∈ (paging cursors).steps es, LeavesLaterOut x.1 x.2) ∧
    ((∀ x ∈ (paging cursors).steps es, LeavesLaterOut x.1 x.2) →
      ∀ x ∈ (paging cursors).steps es, ∀ p trace, Passes x.1 p trace x.2 →
        (some p, trace) ∈ ((paging cursors).run es).handed) := by
  have hstep : ∀ x ∈ (paging cursors).steps es, SkipsNothing x.1 x.2 ↔ LeavesLaterOut x.1 x.2 := by
    intro x hx
    exact step_skips_nothing_iff ((valid_iff_steps _ _).mp hv x hx)
  constructor
  · exact forall₂_congr hstep
  · intro hlater x hx p trace hpasses
    exact handed_of_step hx ((hstep x hx).mpr (hlater x hx)) hpasses

end Runs

section Samples

/-- Traces that end at 1, 2 and so on. -/
def burst (n : ℕ) : List Trace := (List.range n).map fun i => completeTrace (toString i) (i + 1)

def deliver (page : List Trace) : List Delivery := page.map fun trace => ⟨trace, 0, .answered⟩

/-- A page with all there is, and one from behind it. -/
def quietPolls : List (PageEvent ℕ) :=
  [.poll 0 (burst 2) (deliver (burst 2)) true,
    .poll 0 (burst 3) (deliver [completeTrace "2" 3]) true]

/-- A hundred and one traces end before the first poll, which gets all but the oldest. -/
def burstPoll : List (PageEvent ℕ) := [.poll 0 (burst 101) (deliver (burst 101).tail) true]

theorem traces_deliver (page : List Trace) : traces (deliver page) = page := by
  rw [traces, deliver, List.map_map]
  exact List.map_id _

theorem deliver_succeeds (page : List Trace) : AllSucceed (deliver page) := by
  intro d hd
  obtain ⟨trace, -, rfl⟩ := List.mem_map.mp hd
  rfl

theorem quietPolls_valid : (paging fun _ => none).Valid quietPolls := by
  refine ⟨⟨⟨?_, ?_⟩, deliver_succeeds _⟩, ⟨⟨?_, ?_⟩, deliver_succeeds _⟩, trivial⟩
  · rw [traces_deliver]
    exact .refl _
  · rw [traces_deliver]
    decide +kernel
  · have hmatching : matching (((paging fun _ => none).next (paging fun _ => none).initial
        (.poll 0 (burst 2) (deliver (burst 2)) true)).latestLt 0) (burst 3) =
        [completeTrace "2" 3] := by decide +kernel
    rw [traces_deliver, hmatching]
  · rw [traces_deliver]
    decide +kernel

theorem paging_skips_nothing_quiet :
    (∀ x ∈ (paging fun _ => none).steps quietPolls, SkipsNothing x.1 x.2) ∧
    (some 0, completeTrace "2" 3) ∈ ((paging fun _ => none).run quietPolls).handed := by
  have henabled := (valid_iff_steps _ _).mp quietPolls_valid
  have hlater : ∀ x ∈ (paging fun _ => none).steps quietPolls, LeavesLaterOut x.1 x.2 := by
    intro x hx
    have hanswers := henabled x hx
    rcases List.mem_cons.mp hx with rfl | hx
    · exact answers_all hanswers.1 (by decide +kernel)
    · rw [List.mem_singleton.mp hx] at hanswers ⊢
      exact answers_all hanswers.1 (by decide +kernel)
  obtain ⟨hiff, hhanded⟩ := paging_skips_nothing_iff quietPolls_valid
  refine ⟨hiff.mpr hlater, ?_⟩
  apply hhanded hlater _ (List.mem_cons_of_mem _ (List.mem_singleton_self _))
  exact ⟨rfl, by decide +kernel, by decide +kernel, by decide +kernel⟩

theorem burst_poll_skips_oldest :
    (paging fun _ => none).Valid burstPoll ∧
    ∃ x ∈ (paging fun _ => none).steps burstPoll, ¬ SkipsNothing x.1 x.2 := by
  constructor
  · refine ⟨⟨⟨?_, ?_⟩, deliver_succeeds _⟩, trivial⟩
    · rw [traces_deliver]
      exact (List.tail_sublist _).subperm
    · rw [traces_deliver]
      decide +kernel
  · refine ⟨_, List.mem_singleton_self _, ?_⟩
    intro hskips
    have hlater := (poll_skips_nothing_iff (deliver_succeeds _)).mp hskips
    have hlate := hlater (completeTrace "0" 1) (by decide +kernel) (by decide) (by decide +kernel)
      (completeTrace "1" 2) (by decide +kernel)
    exact absurd hlate (by decide)

end Samples

end TracePaging
