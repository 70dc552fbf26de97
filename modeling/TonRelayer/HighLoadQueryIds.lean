import Mathlib.Data.Int.Order.Basic
import Mathlib.Logic.Function.Basic
import Mathlib.Tactic.Linarith

/-! Query ids of a highload wallet and the table they are kept in.
`HighLoadQueryId` and the database wrapper are separate layers, as in the source: the
wrapper reads a row, computes the next id, and writes the row back. Each SQL statement is
atomic; reading and writing are two statements. Timestamps count microseconds. -/
namespace HighLoadQueryIds

inductive HighLoadQueryIdError where
  | invalidShift (max : ℕ)
  | invalidBitnumber (max : ℕ)
  | emergencyOverload
  | shiftOverflow
  deriving DecidableEq, Repr

structure HighLoadQueryId where
  shift : ℕ
  bitnumber : ℕ
  deriving DecidableEq, Repr

def maxShift : ℕ := 8191
def maxBitnumber : ℕ := 1022
def bitnumberSize : ℕ := 10

def fromShiftAndBitnumber (shift bitnumber : ℕ) :
    Except HighLoadQueryIdError HighLoadQueryId :=
  if shift > maxShift then .error (.invalidShift maxShift)
  else if bitnumber > maxBitnumber then .error (.invalidBitnumber maxBitnumber)
  else .ok ⟨shift, bitnumber⟩

def HighLoadQueryId.next (q : HighLoadQueryId) :
    Except HighLoadQueryIdError HighLoadQueryId :=
  if q.shift = maxShift ∧ q.bitnumber + 1 = maxBitnumber - 1 then .error .emergencyOverload
  else if q.bitnumber + 1 > maxBitnumber then
    if q.shift + 1 > maxShift then .error .shiftOverflow
    else fromShiftAndBitnumber (q.shift + 1) 0
  else fromShiftAndBitnumber q.shift (q.bitnumber + 1)

def HighLoadQueryId.hasNext (q : HighLoadQueryId) : Bool :=
  !(decide (q.bitnumber ≥ maxBitnumber - 1) && decide (q.shift = maxShift))

def HighLoadQueryId.queryId (q : HighLoadQueryId) : ℕ :=
  (q.shift <<< bitnumberSize) + q.bitnumber

/-- The ids the wallet may be sent: in range, and not one of the last two of the top shift,
which the source keeps back as an emergency reserve. -/
def Issuable (q : HighLoadQueryId) : Prop :=
  q.shift ≤ maxShift ∧ q.bitnumber ≤ maxBitnumber ∧
    ¬ (q.shift = maxShift ∧ maxBitnumber - 1 ≤ q.bitnumber)

theorem queryId_eq (q : HighLoadQueryId) : q.queryId = q.shift * 1024 + q.bitnumber := by
  simp [HighLoadQueryId.queryId, bitnumberSize, Nat.shiftLeft_eq]

theorem queryId_injective {q r : HighLoadQueryId} (hq : q.bitnumber ≤ maxBitnumber)
    (hr : r.bitnumber ≤ maxBitnumber) (h : q.queryId = r.queryId) : q = r := by
  rw [queryId_eq, queryId_eq] at h
  rw [maxBitnumber] at hq hr
  obtain ⟨qs, qb⟩ := q
  obtain ⟨rs, rb⟩ := r
  simp only [HighLoadQueryId.mk.injEq] at *
  omega

theorem fromShiftAndBitnumber_ok {s b : ℕ} {q : HighLoadQueryId}
    (h : fromShiftAndBitnumber s b = .ok q) :
    q = ⟨s, b⟩ ∧ s ≤ maxShift ∧ b ≤ maxBitnumber := by
  rw [fromShiftAndBitnumber] at h
  split at h
  · cases h
  · split at h
    · cases h
    · cases h
      exact ⟨rfl, by omega, by omega⟩

/-- `next` moves to the following bit, or to the first bit of the following shift. -/
theorem next_cases {q r : HighLoadQueryId} (h : q.next = .ok r) :
    (r = ⟨q.shift, q.bitnumber + 1⟩ ∧ q.shift ≤ maxShift ∧ q.bitnumber + 1 ≤ maxBitnumber ∧
      ¬ (q.shift = maxShift ∧ q.bitnumber + 1 = maxBitnumber - 1)) ∨
    (r = ⟨q.shift + 1, 0⟩ ∧ q.shift + 1 ≤ maxShift ∧ maxBitnumber < q.bitnumber + 1) := by
  rw [HighLoadQueryId.next] at h
  split at h
  · cases h
  · rename_i hne
    split at h
    · rename_i hb
      split at h
      · cases h
      · obtain ⟨rfl, hs, -⟩ := fromShiftAndBitnumber_ok h
        exact .inr ⟨rfl, hs, hb⟩
    · obtain ⟨rfl, hs, hb⟩ := fromShiftAndBitnumber_ok h
      exact .inl ⟨rfl, hs, hb, hne⟩

theorem next_increases {q r : HighLoadQueryId} (hq : q.bitnumber ≤ maxBitnumber)
    (h : q.next = .ok r) : q.queryId < r.queryId := by
  rw [queryId_eq, queryId_eq]
  rw [maxBitnumber] at hq
  rcases next_cases h with ⟨rfl, -⟩ | ⟨rfl, -⟩ <;> dsimp only <;> omega

theorem hasNext_iff (q : HighLoadQueryId) :
    q.hasNext = true ↔ ¬ (maxBitnumber - 1 ≤ q.bitnumber ∧ q.shift = maxShift) := by
  simp only [HighLoadQueryId.hasNext, Bool.not_eq_true', Bool.and_eq_false_imp,
    decide_eq_true_eq, decide_eq_false_iff_not]
  exact not_and.symm

theorem next_issuable {q r : HighLoadQueryId} (hn : q.hasNext = true)
    (h : q.next = .ok r) : Issuable r := by
  rw [hasNext_iff] at hn
  rcases next_cases h with ⟨rfl, hs, hb, hne⟩ | ⟨rfl, hs, hb⟩
  · refine ⟨hs, hb, ?_⟩
    dsimp only
    omega
  · exact ⟨hs, Nat.zero_le _, by simp [maxBitnumber]⟩

structure QueryIdRow where
  shift : ℤ
  bitnumber : ℤ
  expiresAt : ℤ
  deriving DecidableEq, Repr

/-- `ton_wallet_query_id`, by primary key. -/
abbrev QueryIdTable := String → Option QueryIdRow

def microsPerSecond : ℤ := 1000000

def getQueryId (db : QueryIdTable) (address : String) (now : ℤ) : ℤ × ℤ :=
  match db address with
  | some row => if row.expiresAt ≥ now then (row.shift, row.bitnumber) else (-1, -1)
  | none => (-1, -1)

def updateQueryId (db : QueryIdTable) (address : String) (shift bitnumber : ℤ) :
    QueryIdTable :=
  Function.update db address ((db address).map fun row => { row with shift, bitnumber })

def upsertQueryId (db : QueryIdTable) (address : String) (shift bitnumber timeout now : ℤ) :
    QueryIdTable :=
  Function.update db address (some ⟨shift, bitnumber, now + timeout * microsPerSecond⟩)

inductive HighLoadQueryIdWrapperError where
  | constructionError
  | noNextQueryId
  | databaseError
  deriving DecidableEq, Repr

def timeoutBufferMultiplier : ℤ := 3

/-- Conversion to `i32` and `i32` arithmetic, as a release build computes them. -/
def wrapI32 (x : ℤ) : ℤ := Int.bmod x (2 ^ 32)

/-- The wrapper's computation between its read and its write. -/
def nextId (shift bitnumber : ℤ) (forceShiftIncrease : Bool) :
    Except HighLoadQueryIdWrapperError HighLoadQueryId :=
  let shift :=
    if forceShiftIncrease then
      let shift := if shift < 0 then 1 else shift
      if shift + 1 < maxShift then shift + 1 else shift
    else shift
  if shift < 0 ∨ bitnumber < 0 then
    (fromShiftAndBitnumber 0 0).mapError fun _ => .constructionError
  else
    match fromShiftAndBitnumber shift.toNat bitnumber.toNat with
    | .error _ => .error .constructionError
    | .ok queryId =>
      if queryId.hasNext then queryId.next.mapError fun _ => .constructionError
      else .error .noNextQueryId

/-- The wrapper's write: an id of zero starts a new sequence, any other keeps the expiry. -/
def writeId (db : QueryIdTable) (address : String) (timeout : ℕ) (now : ℤ)
    (queryId : HighLoadQueryId) : QueryIdTable :=
  if queryId.queryId = 0 then
    upsertQueryId db address queryId.shift queryId.bitnumber
      (wrapI32 (wrapI32 timeout * timeoutBufferMultiplier)) now
  else updateQueryId db address queryId.shift queryId.bitnumber

/-- One call of the wrapper: its arguments, its time, and whether each of its two
statements succeeds. A statement that fails changes nothing. -/
structure NextCall where
  timeout : ℕ
  forceShiftIncrease : Bool
  now : ℤ
  getOk : Bool := true
  writeOk : Bool := true
  deriving DecidableEq, Repr

def wrapperNext (db : QueryIdTable) (address : String) (c : NextCall) :
    Except HighLoadQueryIdWrapperError HighLoadQueryId × QueryIdTable :=
  if c.getOk then
    let (shift, bitnumber) := getQueryId db address c.now
    match nextId shift bitnumber c.forceShiftIncrease with
    | .error e => (.error e, db)
    | .ok queryId =>
      if c.writeOk then (.ok queryId, writeId db address c.timeout c.now queryId)
      else (.error .databaseError, db)
  else (.error .databaseError, db)

theorem nextId_fresh (force : Bool) : nextId (-1) (-1) force = .ok ⟨0, 0⟩ := by
  cases force <;> rfl

theorem nextId_live {s b : ℤ} {force : Bool} {q : HighLoadQueryId} (hs : 0 ≤ s) (hb : 0 ≤ b)
    (h : nextId s b force = .ok q) : Issuable q ∧ s * 1024 + b < q.queryId := by
  rw [nextId] at h
  -- Forcing moves the shift up by one, or leaves it near the top.
  obtain ⟨s', hs', hdef⟩ : ∃ s' : ℤ, s ≤ s' ∧ s' =
      (if force then
        if (if s < 0 then 1 else s) + 1 < maxShift then (if s < 0 then 1 else s) + 1
        else (if s < 0 then 1 else s)
      else s) := by
    refine ⟨_, ?_, rfl⟩
    split_ifs <;> omega
  simp only [← hdef] at h
  rw [if_neg (by omega)] at h
  split at h
  · cases h
  · rename_i p hp
    obtain ⟨rfl, -, hpb⟩ := fromShiftAndBitnumber_ok hp
    split at h
    · rename_i hn
      rw [Except.mapError.eq_def] at h
      split at h
      · cases h
      · rename_i r hr
        cases h
        refine ⟨next_issuable hn hr, ?_⟩
        have hlt := next_increases hpb hr
        rw [queryId_eq] at hlt
        dsimp only at hlt
        omega
    · cases h

/-- What the wrapper reads: the row while it is live, else the sentinel of an unused wallet. -/
theorem getQueryId_cases (db : QueryIdTable) (address : String) (now : ℤ) :
    (∃ row, db address = some row ∧ now ≤ row.expiresAt ∧
      getQueryId db address now = (row.shift, row.bitnumber)) ∨
    getQueryId db address now = (-1, -1) := by
  rw [getQueryId]
  cases hrow : db address with
  | none => exact .inr rfl
  | some row =>
    by_cases hlive : row.expiresAt ≥ now
    · exact .inl ⟨row, rfl, hlive, by simp [hlive]⟩
    · exact .inr (by simp [hlive])

/-- Everything a call of the wrapper can do. -/
theorem wrapperNext_cases (db : QueryIdTable) (address : String) (c : NextCall) :
    (∃ e, wrapperNext db address c = (.error e, db)) ∨
    (∃ q, nextId (getQueryId db address c.now).1 (getQueryId db address c.now).2
        c.forceShiftIncrease = .ok q ∧
      wrapperNext db address c = (.ok q, writeId db address c.timeout c.now q)) := by
  rw [wrapperNext]
  split
  · dsimp only
    split
    · exact .inl ⟨_, rfl⟩
    · rename_i q hq
      split
      · exact .inr ⟨q, hq, rfl⟩
      · exact .inl ⟨_, rfl⟩
  · exact .inl ⟨_, rfl⟩

/-- The wallet's row is there and holds exactly this id. -/
def RowHolds (db : QueryIdTable) (address : String) (q : HighLoadQueryId) : Prop :=
  ∃ row, db address = some row ∧ row.shift = q.shift ∧ row.bitnumber = q.bitnumber

/-- Rows hold ids that were issued, so the sentinel is never stored. -/
def RowsIssued (db : QueryIdTable) : Prop :=
  ∀ address, db address ≠ none → ∃ q, Issuable q ∧ RowHolds db address q

theorem rowHolds_unique {db : QueryIdTable} {address : String} {q r : HighLoadQueryId}
    (hq : RowHolds db address q) (hr : RowHolds db address r) : q = r := by
  obtain ⟨row, hrow, hqs, hqb⟩ := hq
  obtain ⟨row', hrow', hrs, hrb⟩ := hr
  rw [hrow] at hrow'
  cases hrow'
  obtain ⟨qs, qb⟩ := q
  obtain ⟨rs, rb⟩ := r
  simp only [HighLoadQueryId.mk.injEq] at *
  omega

theorem writeId_other {db : QueryIdTable} {address other : String} (hne : other ≠ address)
    (timeout : ℕ) (now : ℤ) (q : HighLoadQueryId) :
    writeId db address timeout now q other = db other := by
  rw [writeId, upsertQueryId, updateQueryId]
  split <;> exact Function.update_of_ne hne _ _

/-- The row an id leaves behind: a new expiry for the id zero, the old one for any other. -/
theorem writeId_self (db : QueryIdTable) (address : String) (timeout : ℕ) (now : ℤ)
    (q : HighLoadQueryId) : writeId db address timeout now q address =
      if q.queryId = 0 then some ⟨q.shift, q.bitnumber, now +
        wrapI32 (wrapI32 timeout * timeoutBufferMultiplier) * microsPerSecond⟩
      else (db address).map fun row => ⟨q.shift, q.bitnumber, row.expiresAt⟩ := by
  rw [writeId, upsertQueryId, updateQueryId]
  split <;> simp

theorem writeId_holds {db : QueryIdTable} {address : String} {q : HighLoadQueryId}
    (h : q.queryId = 0 ∨ db address ≠ none) (timeout : ℕ) (now : ℤ) :
    RowHolds (writeId db address timeout now q) address q := by
  rw [RowHolds]
  rw [writeId_self]
  split
  · exact ⟨_, rfl, rfl, rfl⟩
  · rename_i hne
    obtain ⟨row, hrow⟩ := Option.ne_none_iff_exists'.mp (h.resolve_left hne)
    exact ⟨_, by rw [hrow]; rfl, rfl, rfl⟩

/-- An id taken from a live row is above the row; any other id starts a sequence. -/
theorem issued_cases {db : QueryIdTable} (hdb : RowsIssued db) {address : String} {now : ℤ}
    {force : Bool} {q : HighLoadQueryId}
    (h : nextId (getQueryId db address now).1 (getQueryId db address now).2 force = .ok q) :
    (q = ⟨0, 0⟩ ∧ getQueryId db address now = (-1, -1)) ∨
    (∃ r, RowHolds db address r ∧ Issuable q ∧ r.queryId < q.queryId) := by
  rcases getQueryId_cases db address now with ⟨row, hrow, -, hget⟩ | hget
  · obtain ⟨r, -, hr⟩ := hdb address (by simp [hrow])
    obtain ⟨row', hrow', hs, hb⟩ := id hr
    rw [hrow] at hrow'
    cases hrow'
    rw [hget] at h
    obtain ⟨hq, hlt⟩ := nextId_live (by omega) (by omega) h
    refine .inr ⟨r, hr, hq, ?_⟩
    rw [queryId_eq r]
    dsimp only at hlt
    omega
  · rw [hget, nextId_fresh] at h
    cases h
    exact .inl ⟨rfl, hget⟩

theorem issuable_zero : Issuable ⟨0, 0⟩ := by
  simp [Issuable, maxShift, maxBitnumber]

theorem issued_issuable {db : QueryIdTable} (hdb : RowsIssued db) {address : String} {now : ℤ}
    {force : Bool} {q : HighLoadQueryId}
    (h : nextId (getQueryId db address now).1 (getQueryId db address now).2 force = .ok q) :
    Issuable q := by
  rcases issued_cases hdb h with ⟨rfl, -⟩ | ⟨_, -, hq, -⟩
  · exact issuable_zero
  · exact hq

/-- Writing back an id that was computed from the row leaves the row at that id. -/
theorem issued_holds {db : QueryIdTable} (hdb : RowsIssued db) {address : String} {now : ℤ}
    {force : Bool} {q : HighLoadQueryId}
    (h : nextId (getQueryId db address now).1 (getQueryId db address now).2 force = .ok q)
    (timeout : ℕ) (later : ℤ) :
    RowHolds (writeId db address timeout later q) address q := by
  apply writeId_holds
  rcases issued_cases hdb h with ⟨rfl, -⟩ | ⟨r, ⟨row, hrow, -⟩, -⟩
  · exact .inl rfl
  · exact .inr (by simp [hrow])

theorem writeId_rowsIssued {db : QueryIdTable} (hdb : RowsIssued db) {q : HighLoadQueryId}
    (hq : Issuable q) (address : String) (timeout : ℕ) (now : ℤ) :
    RowsIssued (writeId db address timeout now q) := by
  intro a hrow
  by_cases ha : a = address
  · subst a
    refine ⟨q, hq, writeId_holds ?_ _ _⟩
    by_contra hnone
    push Not at hnone
    rw [writeId_self, if_neg hnone.1, hnone.2] at hrow
    exact hrow rfl
  · simp only [RowHolds]
    rw [writeId_other ha] at hrow ⊢
    exact hdb a hrow

end HighLoadQueryIds
