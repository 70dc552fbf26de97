import TonRelayer.QueryIdSequences

/-! The end of the query id range, in every table the wrapper can leave behind.
`has_next` and `next` draw the last id at different places: `has_next` stops one id later,
so the last id that is issued ends in a construction error and not in exhaustion. -/
namespace QueryIdExhaustion

open HighLoadQueryIds TransitionRuns

/-- Calls of the wrapper for any wallets, in any order. -/
def wrapperCalls : System QueryIdTable (String × NextCall) where
  initial := fun _ => none
  Enabled := fun _ _ => True
  next := fun db e => (wrapperNext db e.1 e.2).2

/-- Every table met in a run holds issued ids, and so does the one left behind. -/
theorem wrapperCalls_issued (calls : List (String × NextCall)) :
    RowsIssued (wrapperCalls.run calls) ∧ ∀ p ∈ wrapperCalls.steps calls, RowsIssued p.1 :=
  invariant_always (I := RowsIssued)
    (fun db e hdb _ => QueryIdSequences.sequence_step_rowsIssued e.1 db e.2 hdb)
    (fun _ h => absurd rfl h)
    ((valid_iff_steps _ calls).mpr (fun _ _ => trivial))

/-- The id the wrapper builds from what it read, before it asks that id for the next one. -/
def builtId (shift bitnumber : ℤ) (forceShiftIncrease : Bool) :
    Except HighLoadQueryIdError HighLoadQueryId :=
  let shift :=
    if forceShiftIncrease then
      let shift := if shift < 0 then 1 else shift
      if shift + 1 < maxShift then shift + 1 else shift
    else shift
  if shift < 0 ∨ bitnumber < 0 then fromShiftAndBitnumber 0 0
  else fromShiftAndBitnumber shift.toNat bitnumber.toNat

/-- Forcing moves a stored id to the next shift, unless that is the top one. -/
def movedUp (q : HighLoadQueryId) (forceShiftIncrease : Bool) : HighLoadQueryId :=
  if forceShiftIncrease ∧ q.shift + 1 < maxShift then ⟨q.shift + 1, q.bitnumber⟩ else q

theorem fromShiftAndBitnumber_eq_ok {s b : ℕ} (hs : s ≤ maxShift) (hb : b ≤ maxBitnumber) :
    fromShiftAndBitnumber s b = .ok ⟨s, b⟩ := by
  rw [fromShiftAndBitnumber, if_neg (by omega), if_neg (by omega)]

theorem movedUp_shift (q : HighLoadQueryId) (force : Bool) : ((movedUp q force).shift : ℤ) =
    if force then
      if (if (q.shift : ℤ) < 0 then 1 else (q.shift : ℤ)) + 1 < maxShift
      then (if (q.shift : ℤ) < 0 then 1 else (q.shift : ℤ)) + 1
      else (if (q.shift : ℤ) < 0 then 1 else (q.shift : ℤ))
    else q.shift := by
  have hpos : ¬ (q.shift : ℤ) < 0 := by omega
  rw [movedUp, if_neg hpos]
  cases force with
  | false => simp
  | true =>
    by_cases hs : q.shift + 1 < maxShift
    · simp only [hs, and_self, if_true]
      rw [if_pos (by omega)]
      push_cast
      rfl
    · simp only [hs, and_false, if_false, if_true]
      rw [if_neg (by omega)]

@[simp] theorem movedUp_false (q : HighLoadQueryId) : movedUp q false = q := by
  simp [movedUp]

@[simp] theorem movedUp_bitnumber (q : HighLoadQueryId) (force : Bool) :
    (movedUp q force).bitnumber = q.bitnumber := by
  rw [movedUp]
  split <;> rfl

theorem movedUp_shift_le {q : HighLoadQueryId} (hq : q.shift ≤ maxShift) (force : Bool) :
    (movedUp q force).shift ≤ maxShift := by
  rw [movedUp]
  split
  · rename_i h
    exact h.2.le
  · exact hq

theorem builtId_stored {q : HighLoadQueryId} (hs : q.shift ≤ maxShift)
    (hb : q.bitnumber ≤ maxBitnumber) (force : Bool) :
    builtId q.shift q.bitnumber force = .ok (movedUp q force) := by
  simp only [builtId, ← movedUp_shift]
  rw [if_neg (by omega), Int.toNat_natCast, Int.toNat_natCast,
    fromShiftAndBitnumber_eq_ok (movedUp_shift_le hs force) hb, ← movedUp_bitnumber q force]

/-- What the wrapper computes from a stored id: the next id above the one it builds. -/
theorem nextId_stored {q : HighLoadQueryId} (hs : q.shift ≤ maxShift)
    (hb : q.bitnumber ≤ maxBitnumber) (force : Bool) :
    nextId q.shift q.bitnumber force =
      if (movedUp q force).hasNext then
        (movedUp q force).next.mapError fun _ => .constructionError
      else .error .noNextQueryId := by
  simp only [nextId, ← movedUp_shift]
  rw [if_neg (by omega), Int.toNat_natCast, Int.toNat_natCast,
    fromShiftAndBitnumber_eq_ok (movedUp_shift_le hs force) hb]
  rw [← movedUp_bitnumber q force]

theorem nextId_eq_ok {q r : HighLoadQueryId} (hs : q.shift ≤ maxShift)
    (hb : q.bitnumber ≤ maxBitnumber) {force : Bool} (hhas : (movedUp q force).hasNext = true)
    (h : (movedUp q force).next = .ok r) : nextId q.shift q.bitnumber force = .ok r := by
  rw [nextId_stored hs hb, if_pos hhas, h]
  rfl

/-- Below the last two shifts a forced id is at a higher shift than the stored one. -/
theorem forced_shift {q r : HighLoadQueryId} (hs : q.shift + 1 < maxShift)
    (hb : q.bitnumber ≤ maxBitnumber) (h : nextId q.shift q.bitnumber true = .ok r) :
    q.shift < r.shift := by
  have hmoved : movedUp q true = ⟨q.shift + 1, q.bitnumber⟩ := if_pos ⟨rfl, hs⟩
  rw [nextId_stored (by omega) hb, hmoved] at h
  split at h
  · rw [Except.mapError.eq_def] at h
    split at h
    · cases h
    · rename_i r' hr
      cases h
      rcases next_cases hr with ⟨rfl, -⟩ | ⟨rfl, -⟩ <;> dsimp only <;> omega
  · cases h

/-- Where `next` refuses: before the first reserved id, and at the very top. -/
theorem next_ok_iff {q : HighLoadQueryId} (hs : q.shift ≤ maxShift)
    (hb : q.bitnumber ≤ maxBitnumber) : (∃ r, q.next = .ok r) ↔
      ¬ (q.shift = maxShift ∧ (q.bitnumber + 1 = maxBitnumber - 1 ∨
        q.bitnumber = maxBitnumber)) := by
  rw [HighLoadQueryId.next]
  by_cases hreserve : q.shift = maxShift ∧ q.bitnumber + 1 = maxBitnumber - 1
  · simp [hreserve]
  · rw [if_neg hreserve]
    by_cases hroll : q.bitnumber + 1 > maxBitnumber
    · rw [if_pos hroll]
      by_cases htop : q.shift + 1 > maxShift
      · rw [if_pos htop]
        have hshift : q.shift = maxShift := by omega
        have hbit : q.bitnumber = maxBitnumber := by omega
        simp [hshift, hbit]
      · rw [if_neg htop, fromShiftAndBitnumber_eq_ok (by omega) (Nat.zero_le _)]
        simp
        omega
    · rw [if_neg hroll, fromShiftAndBitnumber_eq_ok hs (by omega)]
      simp
      omega

/-- The two boundary tests agree, and so do the wrapper's answers on a live row. -/
structure ExhaustionReported (db : QueryIdTable) (address : String) (c : NextCall) :
    Prop where
  agree : ∃ q, builtId (getQueryId db address c.now).1 (getQueryId db address c.now).2
      c.forceShiftIncrease = .ok q ∧ (q.hasNext = true ↔ ∃ r, q.next = .ok r)
  refused_iff : ∀ row, db address = some row → row.expiresAt ≥ c.now →
    ((wrapperNext db address c).1 = .error .noNextQueryId ↔
      ¬ ∃ q, Issuable q ∧ row.shift * 1024 + row.bitnumber < q.queryId)
  constructed : ∀ row, db address = some row → row.expiresAt ≥ c.now →
    (wrapperNext db address c).1 ≠ .error .constructionError

theorem getQueryId_live {db : QueryIdTable} {address : String} {now : ℤ} {row : QueryIdRow}
    (hrow : db address = some row) (hlive : row.expiresAt ≥ now) :
    getQueryId db address now = (row.shift, row.bitnumber) := by
  simp [getQueryId, hrow, hlive]

/-- A live row of a reachable table holds an issued id, and the wrapper reads that id. -/
theorem live_row {db : QueryIdTable} (hdb : RowsIssued db) {address : String} {now : ℤ}
    {row : QueryIdRow} (hrow : db address = some row) (hlive : row.expiresAt ≥ now) :
    ∃ r, Issuable r ∧ row.shift = r.shift ∧ row.bitnumber = r.bitnumber ∧
      getQueryId db address now = ((r.shift : ℤ), (r.bitnumber : ℤ)) := by
  obtain ⟨r, hr, row', hrow', hs, hb⟩ := hdb address (by simp [hrow])
  rw [hrow] at hrow'
  cases hrow'
  exact ⟨r, hr, hs, hb, by rw [getQueryId_live hrow hlive, hs, hb]⟩

/-- The only issued id with nothing above it. -/
theorem last_issued {r : HighLoadQueryId} (hr : Issuable r) :
    (¬ ∃ q, Issuable q ∧ r.queryId < q.queryId) ↔ r = ⟨8191, 1020⟩ := by
  obtain ⟨s, b⟩ := r
  obtain ⟨hs, hb, hreserve⟩ := hr
  simp only [maxShift, maxBitnumber] at hs hb hreserve
  constructor
  · intro hnone
    by_contra hne
    apply hnone
    refine ⟨⟨8191, 1020⟩, by simp [Issuable, maxShift, maxBitnumber], ?_⟩
    simp only [HighLoadQueryId.mk.injEq] at hne
    rw [queryId_eq, queryId_eq]
    dsimp only
    omega
  · rintro h ⟨q, ⟨hqs, hqb, hq⟩, hlt⟩
    cases h
    rw [queryId_eq, queryId_eq] at hlt
    simp only [maxShift, maxBitnumber] at hqs hqb hq
    dsimp only at hlt
    omega

theorem wrapperNext_ok {db : QueryIdTable} {address : String} {c : NextCall} {q : HighLoadQueryId}
    (hget : c.getOk = true) (hwrite : c.writeOk = true)
    (h : nextId (getQueryId db address c.now).1 (getQueryId db address c.now).2
      c.forceShiftIncrease = .ok q) :
    wrapperNext db address c = (.ok q, writeId db address c.timeout c.now q) := by
  simp [wrapperNext, hget, hwrite, h]

/-- Below the last id both tests pass, and a call can fail at the database only. -/
theorem wrapperNext_stored {db : QueryIdTable} {address : String} {c : NextCall}
    {r : HighLoadQueryId} (hr : Issuable r)
    (hget : getQueryId db address c.now = ((r.shift : ℤ), (r.bitnumber : ℤ)))
    (hne : r ≠ ⟨8191, 1020⟩) :
    (movedUp r c.forceShiftIncrease).hasNext = true ∧
      ∃ q, (movedUp r c.forceShiftIncrease).next = .ok q ∧
        nextId r.shift r.bitnumber c.forceShiftIncrease = .ok q ∧
        ∀ e, (wrapperNext db address c).1 = .error e → e = .databaseError := by
  obtain ⟨hs, hb, hreserve⟩ := hr
  have hbit := movedUp_bitnumber r c.forceShiftIncrease
  have hshift := movedUp_shift_le hs c.forceShiftIncrease
  -- The built id is at the top only if the stored one is.
  have htop : (movedUp r c.forceShiftIncrease).shift = maxShift → r.shift = maxShift := by
    rw [movedUp]
    split
    · rename_i h
      intro heq
      dsimp only at heq
      omega
    · exact id
  have hlast : ¬ (r.shift = maxShift ∧ r.bitnumber + 1 = maxBitnumber - 1) := by
    obtain ⟨s, b⟩ := r
    simp only [ne_eq, HighLoadQueryId.mk.injEq, maxShift, maxBitnumber] at hne ⊢
    omega
  have hhas : (movedUp r c.forceShiftIncrease).hasNext = true := by
    rw [hasNext_iff, hbit]
    omega
  obtain ⟨q, hq⟩ := (next_ok_iff hshift (hbit ▸ hb)).mpr (by
    rw [hbit]
    simp only [maxShift, maxBitnumber] at *
    omega)
  have hid := nextId_eq_ok hs hb hhas hq
  refine ⟨hhas, q, hq, hid, fun e he => ?_⟩
  rw [wrapperNext] at he
  by_cases hok : c.getOk
  · rw [if_pos hok, hget] at he
    simp only [hid] at he
    by_cases hwrite : c.writeOk
    · simp [hwrite] at he
    · simpa [hwrite, eq_comm] using he
  · simpa [hok, eq_comm] using he

theorem exhaustion_reported_of_read {db : QueryIdTable} (hdb : RowsIssued db)
    {address : String} {c : NextCall}
    (hread : getQueryId db address c.now ≠ (8191, 1020)) :
    ExhaustionReported db address c := by
  -- A live row holds an issued id, and here not the last one.
  have stored : ∀ row, db address = some row → row.expiresAt ≥ c.now →
      ∃ r, Issuable r ∧ row.shift = r.shift ∧ row.bitnumber = r.bitnumber ∧
        getQueryId db address c.now = ((r.shift : ℤ), (r.bitnumber : ℤ)) ∧
        r ≠ ⟨8191, 1020⟩ := by
    intro row hrow hlive
    obtain ⟨r, hr, hs, hb, hget⟩ := live_row hdb hrow hlive
    refine ⟨r, hr, hs, hb, hget, ?_⟩
    rintro rfl
    exact hread hget
  refine ⟨?_, fun row hrow hlive => ?_, fun row hrow hlive => ?_⟩
  · rcases getQueryId_cases db address c.now with ⟨row, hrow, hlive, -⟩ | hget
    · obtain ⟨r, hr, -, -, hget, hne⟩ := stored row hrow hlive
      obtain ⟨hhas, q, hq, -⟩ := wrapperNext_stored hr hget hne
      rw [hget]
      refine ⟨_, builtId_stored hr.1 hr.2.1 c.forceShiftIncrease, ?_⟩
      exact iff_of_true hhas ⟨q, hq⟩
    · rw [hget]
      refine ⟨⟨0, 0⟩, ?_, iff_of_true rfl ⟨⟨0, 1⟩, rfl⟩⟩
      cases c.forceShiftIncrease <;> rfl
  · obtain ⟨r, hr, hs, hb, hget, hne⟩ := stored row hrow hlive
    obtain ⟨-, q, -, -, herror⟩ := wrapperNext_stored hr hget hne
    refine iff_of_false (fun h => ?_) (fun hnone => hne ((last_issued hr).mp ?_))
    · exact absurd (herror _ h) (by decide)
    · rintro ⟨q, hq, hlt⟩
      refine hnone ⟨q, hq, ?_⟩
      rw [hs, hb]
      rw [queryId_eq r] at hlt
      omega
  · obtain ⟨r, hr, -, -, hget, hne⟩ := stored row hrow hlive
    obtain ⟨-, q, -, -, herror⟩ := wrapperNext_stored hr hget hne
    intro h
    exact absurd (herror _ h) (by decide)

/-- At the last id `has_next` still says yes while `next` refuses. -/
theorem last_id_disagrees {db : QueryIdTable} {address : String} {c : NextCall}
    (hread : getQueryId db address c.now = (8191, 1020)) :
    ¬ ExhaustionReported db address c := by
  rintro ⟨⟨q, hq, hagree⟩, -, -⟩
  have hbuilt : builtId 8191 1020 c.forceShiftIncrease = .ok ⟨8191, 1020⟩ := by
    cases c.forceShiftIncrease <;> rfl
  rw [hread] at hq
  rw [hbuilt] at hq
  cases hq
  obtain ⟨r, hr⟩ := hagree.mp rfl
  cases hr

theorem exhaustion_reported_iff (calls : List (String × NextCall))
    (p : QueryIdTable × (String × NextCall)) (hp : p ∈ wrapperCalls.steps calls) :
    ExhaustionReported p.1 p.2.1 p.2.2 ↔
      getQueryId p.1 p.2.1 p.2.2.now ≠ (8191, 1020) := by
  constructor
  · intro h hread
    exact last_id_disagrees hread h
  · exact exhaustion_reported_of_read ((wrapperCalls_issued calls).2 p hp)

theorem exhaustion_reported_forced :
    ExhaustionReported (wrapperCalls.run [("wallet", ⟨60, false, 0, true, true⟩)]) "wallet"
      ⟨60, true, 1000000, true, true⟩ :=
  (exhaustion_reported_iff [("wallet", ⟨60, false, 0, true, true⟩),
    ("wallet", ⟨60, true, 1000000, true, true⟩)] (_, _)
    (List.mem_cons_of_mem _ (List.mem_cons_self))).mpr (by decide)

/-- Calls that never force move through the ids one by one. -/
theorem next_in_order {k : ℕ} (hk : k + 1 ≤ 8191 * 1023 + 1020) :
    HighLoadQueryId.next ⟨k / 1023, k % 1023⟩ = .ok ⟨(k + 1) / 1023, (k + 1) % 1023⟩ := by
  have hs : k / 1023 ≤ maxShift := by simp only [maxShift]; omega
  have hb : k % 1023 ≤ maxBitnumber := by simp only [maxBitnumber]; omega
  obtain ⟨r, hr⟩ := (next_ok_iff (q := ⟨k / 1023, k % 1023⟩) hs hb).mpr (by
    simp only [maxShift, maxBitnumber]
    omega)
  rw [hr]
  rcases next_cases hr with ⟨rfl, -, hbit, -⟩ | ⟨rfl, -, hbit⟩
  · simp only [maxBitnumber] at hbit
    simp only [Except.ok.injEq, HighLoadQueryId.mk.injEq]
    omega
  · simp only [maxBitnumber] at hbit
    simp only [Except.ok.injEq, HighLoadQueryId.mk.injEq]
    omega

theorem unforced_issues {db : QueryIdTable} {address : String} {c : NextCall} {k : ℕ}
    {expiresAt : ℤ} (hk : k + 1 ≤ 8191 * 1023 + 1020)
    (hrow : db address = some ⟨(k / 1023 : ℕ), (k % 1023 : ℕ), expiresAt⟩)
    (hlive : expiresAt ≥ c.now) (hforce : c.forceShiftIncrease = false)
    (hget : c.getOk = true) (hwrite : c.writeOk = true) :
    wrapperNext db address c = (.ok ⟨(k + 1) / 1023, (k + 1) % 1023⟩,
      writeId db address c.timeout c.now ⟨(k + 1) / 1023, (k + 1) % 1023⟩) := by
  have hid : nextId (k / 1023 : ℕ) (k % 1023 : ℕ) false =
      .ok ⟨(k + 1) / 1023, (k + 1) % 1023⟩ := by
    refine nextId_eq_ok (q := ⟨k / 1023, k % 1023⟩) (by simp only [maxShift]; omega)
      (by simp only [maxBitnumber]; omega) ?_ (next_in_order hk)
    rw [movedUp_false, hasNext_iff]
    simp only [maxShift, maxBitnumber]
    omega
  exact wrapperNext_ok hget hwrite (by rw [getQueryId_live hrow hlive, hforce]; exact hid)

/-- A wallet used every 30 milliseconds whose rows live for three days. -/
def busyCall (address : String) (i : ℕ) : String × NextCall :=
  (address, ⟨86400, false, 30000 * i, true, true⟩)

def busyCalls (address : String) (n : ℕ) : List (String × NextCall) :=
  (List.range n).map (busyCall address)

section Busy

variable {address : String}

theorem busyCalls_succ (n : ℕ) : wrapperCalls.run (busyCalls address (n + 1)) =
    (wrapperNext (wrapperCalls.run (busyCalls address n)) address (busyCall address n).2).2 := by
  rw [busyCalls, List.range_succ, List.map_append, System.run, runFrom_append]
  rfl

theorem busyCall_issues {db : QueryIdTable} {k : ℕ} (hk : k + 1 ≤ 8191 * 1023 + 1020)
    (hrow : db address = some ⟨(k / 1023 : ℕ), (k % 1023 : ℕ), 259200000000⟩) :
    wrapperNext db address (busyCall address (k + 1)).2 =
      (.ok ⟨(k + 1) / 1023, (k + 1) % 1023⟩,
        writeId db address 86400 (30000 * (k + 1 : ℕ)) ⟨(k + 1) / 1023, (k + 1) % 1023⟩) :=
  unforced_issues hk hrow (by simp only [busyCall]; omega) rfl rfl rfl

theorem busyCalls_row {k : ℕ} (hk : k ≤ 8191 * 1023 + 1020) :
    wrapperCalls.run (busyCalls address (k + 1)) address =
      some ⟨(k / 1023 : ℕ), (k % 1023 : ℕ), 259200000000⟩ := by
  induction k with
  | zero =>
    rw [busyCalls_succ]
    have hnew : wrapperNext (wrapperCalls.run (busyCalls address 0)) address
        (busyCall address 0).2 = (.ok ⟨0, 0⟩, writeId (fun _ => none) address 86400 0 ⟨0, 0⟩) := rfl
    rw [hnew]
    dsimp only
    rw [writeId_self]
    rfl
  | succ k ih =>
    have hrow := ih (by omega)
    rw [busyCalls_succ]
    generalize wrapperCalls.run (busyCalls address (k + 1)) = db at hrow
    rw [busyCall_issues hk hrow]
    dsimp only
    rw [writeId_self, if_neg (by rw [queryId_eq]; dsimp only; omega), hrow]
    rfl

theorem busyCalls_last (n : ℕ) : (wrapperCalls.run (busyCalls address n), busyCall address n) ∈
    wrapperCalls.steps (busyCalls address (n + 1)) := by
  have hcalls : busyCalls address (n + 1) = busyCalls address n ++ [busyCall address n] := by
    simp [busyCalls, List.range_succ]
  rw [hcalls]
  exact last_step _ _ _

theorem exhausted_call {k : ℕ} (hk : k = 8191 * 1023 + 1020) :
    ∃ p ∈ wrapperCalls.steps (busyCalls address (k + 2)),
      ¬ ExhaustionReported p.1 p.2.1 p.2.2 ∧
        (wrapperNext p.1 p.2.1 p.2.2).1 = .error .constructionError := by
  refine ⟨_, busyCalls_last (k + 1), ?_⟩
  have hrow : wrapperCalls.run (busyCalls address (k + 1)) address = _ := busyCalls_row hk.le
  generalize wrapperCalls.run (busyCalls address (k + 1)) = db at hrow ⊢
  have hget : getQueryId db address (busyCall address (k + 1)).2.now = (8191, 1020) := by
    rw [getQueryId_live hrow (by simp only [busyCall]; omega)]
    subst hk
    norm_num
  refine ⟨last_id_disagrees hget, ?_⟩
  rw [show (busyCall address (k + 1)).1 = address from rfl, wrapperNext, hget]
  rfl

end Busy

/-- The call after the last id was issued: exhausted, and reported as a construction error. -/
theorem last_id_construction_error : ∃ p ∈ wrapperCalls.steps (busyCalls "wallet" 8380415),
    ¬ ExhaustionReported p.1 p.2.1 p.2.2 ∧
      (wrapperNext p.1 p.2.1 p.2.2).1 = .error .constructionError :=
  exhausted_call (show 8380413 = 8191 * 1023 + 1020 by norm_num)

end QueryIdExhaustion
