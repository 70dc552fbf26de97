import TonRelayer.HighLoadQueryIds
import TonRelayer.TransitionRuns

/-! Whole sequences of wrapper calls for one wallet, from an empty table.
The row is the only memory: a live row orders the ids, an expired row starts them again. -/
namespace QueryIdSequences

open HighLoadQueryIds TransitionRuns

/-- The calls for one wallet, each taking effect before the next one starts. -/
def sequence (address : String) : System QueryIdTable NextCall where
  initial := fun _ => none
  Enabled := fun _ _ => True
  next := fun db c => (wrapperNext db address c).2

def result (address : String) (p : QueryIdTable × NextCall) :
    Except HighLoadQueryIdWrapperError HighLoadQueryId := (wrapperNext p.1 address p.2).1

def returned (address : String) (p : QueryIdTable × NextCall) : Option HighLoadQueryId :=
  (result address p).toOption

theorem mem_returned {address : String} {p : QueryIdTable × NextCall} {q : HighLoadQueryId} :
    q ∈ returned address p ↔ result address p = .ok q := by
  simp only [returned]
  cases result address p <;> simp [Except.toOption]

/-- The step starts the wallet's sequence again. -/
def IsReset (address : String) (p : QueryIdTable × NextCall) : Prop :=
  result address p = .ok ⟨0, 0⟩

def rowBefore (address : String) (p : QueryIdTable × NextCall) : Option QueryIdRow :=
  p.1 address

def rowAfter (address : String) (p : QueryIdTable × NextCall) : Option QueryIdRow :=
  (wrapperNext p.1 address p.2).2 address

theorem result_ok {address : String} {p : QueryIdTable × NextCall} {q : HighLoadQueryId}
    (h : result address p = .ok q) :
    nextId (getQueryId p.1 address p.2.now).1 (getQueryId p.1 address p.2.now).2
        p.2.forceShiftIncrease = .ok q ∧
      (wrapperNext p.1 address p.2).2 = writeId p.1 address p.2.timeout p.2.now q := by
  rcases wrapperNext_cases p.1 address p.2 with ⟨e, he⟩ | ⟨r, hr, he⟩
  · simp [result, he] at h
  · simp only [result, he, Except.ok.injEq] at h
    subst h
    exact ⟨hr, by rw [he]⟩

theorem result_error {address : String} {p : QueryIdTable × NextCall}
    {e : HighLoadQueryIdWrapperError} (h : result address p = .error e) :
    (wrapperNext p.1 address p.2).2 = p.1 := by
  rcases wrapperNext_cases p.1 address p.2 with ⟨e', he⟩ | ⟨r, -, he⟩
  · rw [he]
  · simp [result, he] at h

theorem sequence_step_rowsIssued (address : String) (db : QueryIdTable) (c : NextCall)
    (hdb : RowsIssued db) : RowsIssued ((sequence address).next db c) := by
  show RowsIssued (wrapperNext db address c).2
  rcases wrapperNext_cases db address c with ⟨e, he⟩ | ⟨q, hq, he⟩
  · rw [he]; exact hdb
  · rw [he]; exact writeId_rowsIssued hdb (issued_issuable hdb hq) _ _ _

theorem sequence_rowsIssued {address : String} {calls : List NextCall}
    {p : QueryIdTable × NextCall} (hp : p ∈ (sequence address).steps calls) :
    RowsIssued p.1 :=
  (invariant_always (I := RowsIssued)
    (fun db c hdb _ => sequence_step_rowsIssued address db c hdb)
    (fun _ h => absurd rfl h)
    ((valid_iff_steps _ calls).mpr (fun _ _ => trivial))).2 p hp

theorem result_holds {address : String} {p : QueryIdTable × NextCall} (hp : RowsIssued p.1)
    {q : HighLoadQueryId} (h : result address p = .ok q) :
    RowHolds ((sequence address).next p.1 p.2) address q := by
  obtain ⟨hq, hafter⟩ := result_ok h
  show RowHolds (wrapperNext p.1 address p.2).2 address q
  rw [hafter]
  exact issued_holds hp hq _ _

/-- A step that does not reset the row raises the id stored in it, if it returns one. -/
theorem no_reset_raises {address : String} {p : QueryIdTable × NextCall} (hp : RowsIssued p.1)
    {r q : HighLoadQueryId} (hr : RowHolds p.1 address r) (h : result address p = .ok q)
    (hreset : ¬ IsReset address p) : r.queryId < q.queryId := by
  rcases issued_cases hp (result_ok h).1 with ⟨rfl, -⟩ | ⟨r', hr', -, hlt⟩
  · exact absurd h hreset
  · rw [rowHolds_unique hr hr']
    exact hlt

/-- Between two steps of a run with no reset after the first, ids only go up. -/
theorem ids_increase {address : String} {calls : List NextCall}
    {xs ys zs : List (QueryIdTable × NextCall)} {x y : QueryIdTable × NextCall}
    (hsteps : (sequence address).steps calls = xs ++ x :: (ys ++ y :: zs))
    {a b : HighLoadQueryId} (ha : result address x = .ok a) (hb : result address y = .ok b)
    (hnone : ∀ p ∈ ys, ¬ IsReset address p) (hy : ¬ IsReset address y) :
    a.queryId < b.queryId := by
  have issued : ∀ p ∈ xs ++ x :: (ys ++ y :: zs), RowsIssued p.1 := by
    rw [← hsteps]
    exact fun p hp => sequence_rowsIssued hp
  obtain ⟨fs, hfs⟩ := steps_after hsteps
  -- The stored id never falls below `a` while no step resets the row.
  obtain ⟨r, hr, hle⟩ : ∃ r, RowHolds y.1 address r ∧ a.queryId ≤ r.queryId := by
    refine carried_to (I := fun db => ∃ r, RowHolds db address r ∧ a.queryId ≤ r.queryId)
      hfs.symm ⟨a, result_holds (issued x (by simp)) ha, le_refl _⟩ ?_
    rintro p hp ⟨r, hr, hle⟩
    have hissued := issued p (by simp [hp])
    cases hres : result address p with
    | error e =>
      refine ⟨r, ?_, hle⟩
      show RowHolds (wrapperNext p.1 address p.2).2 address r
      rwa [result_error hres]
    | ok q =>
      have hlt := no_reset_raises hissued hr hres (hnone p hp)
      exact ⟨q, result_holds hissued hres, by omega⟩
  have hlt := no_reset_raises (issued y (by simp)) hr hb hy
  omega

/-- What every sequence of calls for one wallet keeps, step by step. -/
structure SequenceInvariant (address : String) (steps : List (QueryIdTable × NextCall)) :
    Prop where
  issuable : ∀ p ∈ steps, ∀ q, result address p = .ok q →
    q.shift ≤ 8191 ∧ q.bitnumber ≤ 1022 ∧ q ≠ ⟨8191, 1021⟩ ∧ q ≠ ⟨8191, 1022⟩
  increasing : ∀ xs x ys y zs, steps = xs ++ x :: (ys ++ y :: zs) →
    ∀ a b, result address x = .ok a → result address y = .ok b →
    (∀ p ∈ ys, ¬ IsReset address p) → ¬ IsReset address y → a.queryId < b.queryId
  row_follows : ∀ p ∈ steps, ∀ q, result address p = .ok q →
    ∃ row, rowAfter address p = some row ∧ row.shift = q.shift ∧ row.bitnumber = q.bitnumber
  expiry_kept : ∀ p ∈ steps, ¬ IsReset address p →
    (rowAfter address p).map (·.expiresAt) = (rowBefore address p).map (·.expiresAt)
  refused_unchanged : ∀ p ∈ steps, ∀ e, result address p = .error e →
    rowAfter address p = rowBefore address p

theorem expiry_kept_step {address : String} {p : QueryIdTable × NextCall}
    (hreset : ¬ IsReset address p) :
    (rowAfter address p).map (·.expiresAt) = (rowBefore address p).map (·.expiresAt) := by
  rw [rowAfter, rowBefore]
  cases hres : result address p with
  | error e => rw [result_error hres]
  | ok q =>
    rw [(result_ok hres).2, writeId_self]
    split
    · rename_i hzero
      rw [queryId_eq] at hzero
      obtain ⟨s, b⟩ := q
      obtain ⟨rfl, rfl⟩ : s = 0 ∧ b = 0 := by dsimp only at hzero; omega
      exact absurd hres hreset
    · rw [Option.map_map]
      rfl

theorem query_id_sequence_invariant (address : String) (calls : List NextCall) :
    SequenceInvariant address ((sequence address).steps calls) where
  issuable := by
    intro p hp q hq
    obtain ⟨hs, hb, hne⟩ := issued_issuable (sequence_rowsIssued hp) (result_ok hq).1
    refine ⟨hs, hb, ?_, ?_⟩ <;> rintro rfl <;> simp [maxShift, maxBitnumber] at hne
  increasing := fun _ _ _ _ _ hsteps _ _ ha hb hnone hy =>
    ids_increase hsteps ha hb hnone hy
  row_follows := fun p hp q hq => result_holds (sequence_rowsIssued hp) hq
  expiry_kept := fun _ _ hreset => expiry_kept_step hreset
  refused_unchanged := by
    intro p _ e he
    show (wrapperNext p.1 address p.2).2 address = p.1 address
    rw [result_error he]

/-- An id that is returned again comes at least `2 * timeout` seconds after its last return:
until then the wallet contract still remembers it. -/
def ReusedAfterRetention (address : String) (timeout : ℕ)
    (steps : List (QueryIdTable × NextCall)) : Prop :=
  steps.Pairwise fun x y => ∀ a ∈ returned address x,
    ∀ b ∈ returned address y, a.queryId = b.queryId →
      2 * timeout * microsPerSecond ≤ y.2.now - x.2.now

/-- A call that finds no live row comes at least `2 * timeout` seconds after every id
returned before it. -/
def ExpiresAfterRetention (address : String) (timeout : ℕ)
    (steps : List (QueryIdTable × NextCall)) : Prop :=
  steps.Pairwise fun p x => getQueryId x.1 address x.2.now = (-1, -1) →
    (returned address p).isSome → 2 * timeout * microsPerSecond ≤ x.2.now - p.2.now

instance (address : String) (timeout : ℕ) (steps : List (QueryIdTable × NextCall)) :
    Decidable (ReusedAfterRetention address timeout steps) :=
  inferInstanceAs (Decidable (List.Pairwise _ _))

instance (address : String) (timeout : ℕ) (steps : List (QueryIdTable × NextCall)) :
    Decidable (ExpiresAfterRetention address timeout steps) :=
  inferInstanceAs (Decidable (List.Pairwise _ _))

theorem reset_finds_no_row {address : String} {p : QueryIdTable × NextCall}
    (hp : RowsIssued p.1) (h : IsReset address p) :
    getQueryId p.1 address p.2.now = (-1, -1) := by
  rcases issued_cases hp (result_ok h).1 with ⟨-, hget⟩ | ⟨r, -, -, hlt⟩
  · exact hget
  · simp [HighLoadQueryId.queryId] at hlt

/-- Equal ids are separated by a reset, the second one included. -/
theorem reuse_crosses_reset {address : String} {calls : List NextCall}
    {xs ys zs : List (QueryIdTable × NextCall)} {x y : QueryIdTable × NextCall}
    (hsteps : (sequence address).steps calls = xs ++ x :: (ys ++ y :: zs))
    {a b : HighLoadQueryId} (ha : result address x = .ok a) (hb : result address y = .ok b)
    (heq : a.queryId = b.queryId) : ∃ p ∈ ys ++ [y], IsReset address p := by
  by_contra hno
  push Not at hno
  have hlt := ids_increase hsteps ha hb (fun p hp => hno p (by simp [hp])) (hno y (by simp))
  omega

theorem query_ids_reused_after_retention (address : String) (timeout : ℕ)
    (calls : List NextCall) (htimes : calls.Pairwise (·.now ≤ ·.now))
    (hresets : ExpiresAfterRetention address timeout ((sequence address).steps calls)) :
    ReusedAfterRetention address timeout ((sequence address).steps calls) := by
  refine pairwise_of_split fun xs x ys y zs hsteps a ha b hb heq => ?_
  obtain ⟨p, hp, hreset⟩ :=
    reuse_crosses_reset hsteps (mem_returned.mp ha) (mem_returned.mp hb) heq
  have hordered : ((sequence address).steps calls).Pairwise (·.2.now ≤ ·.2.now) := by
    rw [← steps_events (M := sequence address) (sequence address).initial calls,
      List.pairwise_map] at htimes
    exact htimes
  have hissued : RowsIssued p.1 :=
    sequence_rowsIssued (by rw [hsteps]; simp only [List.mem_append, List.mem_cons] at hp ⊢; tauto)
  rw [ExpiresAfterRetention] at hresets
  rw [hsteps] at hordered hresets
  -- The reset comes after `x` and not after `y`.
  have hgap : 2 * timeout * microsPerSecond ≤ p.2.now - x.2.now := by
    refine (List.pairwise_cons.mp (List.pairwise_append.mp hresets).2.1).1 p ?_
      (reset_finds_no_row hissued hreset) (Option.isSome_iff_exists.mpr ⟨a, ha⟩)
    simp only [List.mem_append, List.mem_cons] at hp ⊢
    tauto
  have hle : p.2.now ≤ y.2.now := by
    rcases List.mem_append.mp hp with hp | hp
    · exact (List.pairwise_append.mp (List.pairwise_cons.mp
        (List.pairwise_append.mp hordered).2.1).2).2.2 p hp y (by simp)
    · rw [List.mem_singleton.mp hp]
  omega

theorem query_ids_reused_after_retention_two_minutes :
    ReusedAfterRetention "wallet" 60 ((sequence "wallet").steps
      [⟨60, false, 0, true, true⟩, ⟨60, true, 30000000, true, true⟩,
        ⟨60, false, 200000000, true, true⟩, ⟨60, true, 200000000, true, true⟩]) :=
  query_ids_reused_after_retention "wallet" 60 _ (by decide) (by decide)

/-- The expiry is fixed when a sequence starts and later ids do not move it, so an id taken
at the very end of one sequence returns at the start of the next. -/
theorem query_id_reused_after_one_second :
    let calls : List NextCall := [⟨60, false, 0, true, true⟩, ⟨60, false, 180000000, true, true⟩,
      ⟨60, false, 181000000, true, true⟩, ⟨60, false, 181000000, true, true⟩]
    calls.Pairwise (·.now ≤ ·.now) ∧ (∀ c ∈ calls, c.timeout = 60) ∧
      ¬ ReusedAfterRetention "wallet" 60 ((sequence "wallet").steps calls) := by
  decide

end QueryIdSequences
