import TonRelayer.Types
import TonRelayer.TransitionRuns
import Mathlib.Data.List.AList
import Mathlib.Data.List.Sort

/-! The pollers that feed the queue, and the `ton_traces` table between them.
Any number of `TONSubscriber`s, each with its cursor, and a `RetryTONSubscriber` share the
table. A poll records a trace row by row and hands over, at its end, the traces that changed a
row; an error on the way returns without them. What was returned and what the API had handed
out are ghost state. -/
namespace TraceSubscribers

set_option linter.unusedSectionVars false

open Types TransitionRuns

structure TONTrace where
  isIncomplete : Bool
  startLt : ℤ
  endLt : ℤ
  transactions : List Transaction
  retries : ℤ
  updatedAt : Option ℤ
  deriving DecidableEq

/-- `ton_traces`, by primary key. -/
abbrev TraceTable := AList fun _ : String => TONTrace

/-- The columns that `IS DISTINCT FROM` compares. -/
def TONTrace.sameContent (row : TONTrace) (trace : Trace) : Bool :=
  decide (row.isIncomplete = trace.isIncomplete ∧ row.startLt = trace.startLt ∧
    row.endLt = trace.endLt ∧ row.transactions = trace.transactions)

/-- `retries INT DEFAULT 10` of the migration: the insert does not bind the column. -/
def defaultRetries : ℤ := 10

/-- The statement's table, and whether `RETURNING` gave a row. -/
def upsertAndReturnIfChanged (db : TraceTable) (trace : Trace) (now : ℤ) : TraceTable × Bool :=
  match db.lookup trace.traceId with
  | none => (db.insert trace.traceId ⟨trace.isIncomplete, trace.startLt, trace.endLt,
      trace.transactions, defaultRetries, none⟩, true)
  | some row =>
    if row.sameContent trace then (db, false)
    else (db.insert trace.traceId ⟨trace.isIncomplete, trace.startLt, trace.endLt,
      trace.transactions, row.retries, some now⟩, true)

def decreaseRetry (db : TraceTable) (trace : Trace) : TraceTable :=
  match db.lookup trace.traceId with
  | none => db
  | some row => db.insert trace.traceId { row with retries := row.retries - 1 }

/-- `ORDER BY updated_at NULLS FIRST`. -/
def updatedBefore (a b : Sigma fun _ : String => TONTrace) : Prop :=
  match a.2.updatedAt, b.2.updatedAt with
  | none, _ => True
  | some _, none => False
  | some x, some y => x ≤ y

instance : DecidableRel updatedBefore
  | ⟨_, { updatedAt := none, .. }⟩, _ => isTrue trivial
  | ⟨_, { updatedAt := some _, .. }⟩, ⟨_, { updatedAt := none, .. }⟩ => isFalse id
  | ⟨_, { updatedAt := some x, .. }⟩, ⟨_, { updatedAt := some y, .. }⟩ =>
    inferInstanceAs (Decidable (x ≤ y))

def fetchRetry (db : TraceTable) (limit : ℕ) : List (Sigma fun _ : String => TONTrace) :=
  ((db.entries.filter fun e => decide (e.2.retries > 0) && e.2.isIncomplete).insertionSort
    updatedBefore).take limit

/-- A trace of the API's answer, and how the statement for it goes if the loop gets there. -/
structure Delivery where
  trace : Trace
  now : ℤ
  reply : Reply
  deriving DecidableEq

/-- The loop of both pollers. `handle` is the statement for one trace and says whether the
trace is new; the first failed statement ends the poll with an error. -/
def pollEach (handle : TraceTable → Trace → ℤ → TraceTable × Bool) (db : TraceTable)
    (unseen : List Trace) : List Delivery → TraceTable × Option (List Trace)
  | [] => (db, some unseen)
  | d :: rest =>
    match d.reply with
    | .answered =>
      let (db, isNew) := handle db d.trace d.now
      pollEach handle db (if isNew then unseen ++ [d.trace] else unseen) rest
    | .lost => ((handle db d.trace d.now).1, none)
    | .refused => (db, none)

/-- `TONSubscriber`: every trace is recorded, complete ones that changed a row are returned. -/
def handleTrace (db : TraceTable) (trace : Trace) (now : ℤ) : TraceTable × Bool :=
  let (db, changed) := upsertAndReturnIfChanged db trace now
  (db, changed && !trace.isIncomplete)

/-- `RetryTONSubscriber`: an incomplete trace only loses a retry. -/
def handleRetry (db : TraceTable) (trace : Trace) (now : ℤ) : TraceTable × Bool :=
  if trace.isIncomplete then (decreaseRetry db trace, false)
  else
    let (db, changed) := upsertAndReturnIfChanged db trace now
    (db, changed && !trace.isIncomplete)

variable {S : Type*} [DecidableEq S]

/-- Who was handed a trace: a `TONSubscriber`, or the retry subscriber. -/
abbrev Source (S : Type*) := Option S

structure PollState (S : Type*) where
  rows : TraceTable
  latestLt : S → ℤ
  cursor : S → Option ℤ
  returned : List Trace
  handed : List (Source S × Trace)

/-- A finished call. `page` is the API's answer, or `none` if the request failed. -/
inductive PollEvent (S : Type*) where
  | start (p : S)
  | poll (p : S) (page : Option (List Delivery)) (stored : Bool)
  | retry (fetched : Bool) (page : Option (List Delivery))
  deriving DecidableEq

def initial (cursors : S → Option ℤ) : PollState S where
  rows := ∅
  latestLt := fun p => (cursors p).getD (-1)
  cursor := cursors
  returned := []
  handed := []

/-- `TONSubscriber::new` reads the stored cursor. -/
def start (s : PollState S) (p : S) : PollState S :=
  { s with latestLt := Function.update s.latestLt p ((s.cursor p).getD (-1)) }

/-- The cursor moves to the page's largest `end_lt` before any trace of it is recorded. A
failure to store it is only logged. -/
def advance (s : PollState S) (p : S) (page : List Delivery) (stored : Bool) : PollState S :=
  match (page.map fun d => d.trace.endLt).max? with
  | none => s
  | some lt =>
    { s with
      latestLt := Function.update s.latestLt p lt
      cursor := if stored then Function.update s.cursor p (some lt) else s.cursor }

/-- The loop of a poll over its page, and what its caller gets. -/
def collect (handle : TraceTable → Trace → ℤ → TraceTable × Bool) (source : Source S)
    (s : PollState S) (page : List Delivery) : PollState S :=
  let (rows, result) := pollEach handle s.rows [] page
  { s with
    rows
    returned := s.returned ++ result.getD []
    handed := s.handed ++ page.map fun d => (source, d.trace) }

def next (s : PollState S) : PollEvent S → PollState S
  | .start p => start s p
  | .poll p page stored => match page with
    | none => s
    | some page => collect handleTrace (some p) (advance s p page stored) page
  | .retry fetched page =>
    if fetched && !(fetchRetry s.rows 100).isEmpty then
      match page with
      | none => s
      | some page => collect handleRetry none s page
    else s

def system (cursors : S → Option ℤ) : System (PollState S) (PollEvent S) where
  initial := initial cursors
  Enabled := fun _ _ => True
  next := next

/-- The row holds exactly this content. -/
def Recorded (db : TraceTable) (trace : Trace) : Prop :=
  ∃ row, db.lookup trace.traceId = some row ∧ row.sameContent trace

/-- A later poll can still return the trace: it would change its row, and the cursor of the
subscriber it was handed to has not passed it. -/
def Recoverable (s : PollState S) (source : Source S) (trace : Trace) : Prop :=
  ¬ Recorded s.rows trace ∧ ∀ p, source = some p →
    s.latestLt p < trace.endLt ∧ ∀ lt, s.cursor p = some lt → lt < trace.endLt

def NoTraceLost (s : PollState S) : Prop :=
  ∀ source trace, (source, trace) ∈ s.handed → trace.isIncomplete = false →
    trace ∈ s.returned ∨ Recoverable s source trace

/-- No statement of the page fails. -/
def AllSucceed (page : List Delivery) : Prop := ∀ d ∈ page, d.reply = .answered

/-- The part of the page whose statements run. -/
def touched : List Delivery → List Delivery
  | [] => []
  | d :: rest => match d.reply with
    | .answered => d :: touched rest
    | .lost => [d]
    | .refused => []

/-- Every complete trace among these was returned by an earlier poll. -/
def AlreadyReturned (s : PollState S) (page : List Delivery) : Prop :=
  ∀ d ∈ page, d.trace.isIncomplete = false → d.trace ∈ s.returned

/-- A poll fails on a statement only when it has no complete trace to lose: in its whole page
for a `TONSubscriber`, among those already recorded for the retry subscriber. -/
def FailsHarmlessly (s : PollState S) : PollEvent S → Prop
  | .poll _ (some page) _ => AllSucceed page ∨ AlreadyReturned s page
  | .retry _ (some page) => AllSucceed page ∨ AlreadyReturned s (touched page)
  | _ => True

instance (page : List Delivery) : Decidable (AllSucceed page) :=
  inferInstanceAs (Decidable (∀ d ∈ page, d.reply = .answered))

instance (s : PollState S) (page : List Delivery) : Decidable (AlreadyReturned s page) :=
  inferInstanceAs (Decidable (∀ d ∈ page, d.trace.isIncomplete = false → d.trace ∈ s.returned))

instance (s : PollState S) : (e : PollEvent S) → Decidable (FailsHarmlessly s e)
  | .poll _ (some page) _ =>
    inferInstanceAs (Decidable (AllSucceed page ∨ AlreadyReturned s page))
  | .retry _ (some page) =>
    inferInstanceAs (Decidable (AllSucceed page ∨ AlreadyReturned s (touched page)))
  | .poll _ none _ | .retry _ none | .start _ => isTrue trivial

theorem sameContent_iff {row : TONTrace} {trace : Trace} : row.sameContent trace = true ↔
    row.isIncomplete = trace.isIncomplete ∧ row.startLt = trace.startLt ∧
      row.endLt = trace.endLt ∧ row.transactions = trace.transactions := by
  simp [TONTrace.sameContent]

theorem recorded_insert {db : TraceTable} {trace u : Trace} {row : TONTrace}
    (hrow : row.sameContent trace) (h : Recorded (db.insert trace.traceId row) u) :
    u = trace ∨ Recorded db u := by
  obtain ⟨row', hrow', hsame⟩ := h
  by_cases hid : u.traceId = trace.traceId
  · rw [hid, AList.lookup_insert] at hrow'
    cases hrow'
    rw [sameContent_iff] at hrow hsame
    obtain ⟨h1, h2, h3, h4⟩ := hrow
    obtain ⟨g1, g2, g3, g4⟩ := hsame
    left
    cases u
    cases trace
    simp_all
  · rw [AList.lookup_insert_ne hid] at hrow'
    exact .inr ⟨row', hrow', hsame⟩

/-- The upsert finds the content already there, or stores it and reports the change. -/
theorem upsert_cases (db : TraceTable) (trace : Trace) (now : ℤ) :
    (upsertAndReturnIfChanged db trace now = (db, false) ∧ Recorded db trace) ∨
    (∃ db', upsertAndReturnIfChanged db trace now = (db', true) ∧
      ∀ u, Recorded db' u → u = trace ∨ Recorded db u) := by
  rw [upsertAndReturnIfChanged]
  split
  · exact .inr ⟨_, rfl, fun u => recorded_insert (by simp [sameContent_iff])⟩
  · rename_i row hrow
    split
    · rename_i hsame
      exact .inl ⟨rfl, row, hrow, hsame⟩
    · exact .inr ⟨_, rfl, fun u => recorded_insert (by simp [sameContent_iff])⟩

theorem decreaseRetry_recorded {db : TraceTable} {trace u : Trace}
    (h : Recorded (decreaseRetry db trace) u) : Recorded db u := by
  rw [decreaseRetry] at h
  split at h
  · exact h
  · rename_i row hrow
    obtain ⟨row', hrow', hsame⟩ := h
    by_cases hid : u.traceId = trace.traceId
    · rw [hid, AList.lookup_insert] at hrow'
      cases hrow'
      exact ⟨row, hid ▸ hrow, hsame⟩
    · rw [AList.lookup_insert_ne hid] at hrow'
      exact ⟨row', hrow', hsame⟩

/-- What both loops rely on: a statement records nothing but the trace it is given, and a
complete trace that it does not report as new was recorded before. -/
def RecordsOnly (handle : TraceTable → Trace → ℤ → TraceTable × Bool) : Prop :=
  ∀ db trace now,
    (∀ u, u.isIncomplete = false → Recorded (handle db trace now).1 u →
      u = trace ∨ Recorded db u) ∧
    (trace.isIncomplete = false → (handle db trace now).2 = false → Recorded db trace)

theorem handleTrace_recordsOnly : RecordsOnly handleTrace := by
  intro db trace now
  rw [handleTrace]
  rcases upsert_cases db trace now with ⟨heq, hrec⟩ | ⟨db', heq, hdb'⟩ <;> rw [heq]
  · exact ⟨fun u _ h => .inr h, fun _ _ => hrec⟩
  · exact ⟨fun u _ h => hdb' u h, fun hc hn => by simp [hc] at hn⟩

theorem handleRetry_recordsOnly : RecordsOnly handleRetry := by
  intro db trace now
  rw [handleRetry]
  split
  · rename_i hinc
    exact ⟨fun u _ h => .inr (decreaseRetry_recorded h), fun hc => by simp [hc] at hinc⟩
  · exact handleTrace_recordsOnly db trace now

/-- The complete traces recorded in the table all satisfy `X`. -/
def Covered (db : TraceTable) (X : Trace → Prop) : Prop :=
  ∀ u, u.isIncomplete = false → Recorded db u → X u

theorem handle_covered {handle : TraceTable → Trace → ℤ → TraceTable × Bool}
    (hh : RecordsOnly handle) {db : TraceTable} {X Y : Trace → Prop} (hdb : Covered db X)
    (hXY : ∀ u, X u → Y u) {trace : Trace} (htrace : trace.isIncomplete = false → Y trace)
    (now : ℤ) : Covered (handle db trace now).1 Y := by
  intro u hu hrec
  rcases (hh db trace now).1 u hu hrec with rfl | hrec
  · exact htrace hu
  · exact hXY u (hdb u hu hrec)

theorem pollEach_covered {handle : TraceTable → Trace → ℤ → TraceTable × Bool}
    (hh : RecordsOnly handle) {X : Trace → Prop} {db : TraceTable} (hdb : Covered db X)
    (unseen : List Trace) {page : List Delivery}
    (hX : ∀ d ∈ touched page, d.trace.isIncomplete = false → X d.trace) :
    Covered (pollEach handle db unseen page).1 X := by
  induction page generalizing db unseen with
  | nil => exact hdb
  | cons d rest ih =>
    rw [pollEach]
    cases hreply : d.reply with
    | refused => exact hdb
    | lost =>
      exact handle_covered hh hdb (fun _ => id) (hX d (by simp [touched, hreply])) d.now
    | answered =>
      simp only [touched, hreply] at hX
      exact ih (handle_covered hh hdb (fun _ => id) (hX d (by simp)) d.now) _
        (fun e he => hX e (List.mem_cons_of_mem _ he))

/-- A poll without failures returns, beside what was known before, all it has recorded. -/
theorem pollEach_answered {handle : TraceTable → Trace → ℤ → TraceTable × Bool}
    (hh : RecordsOnly handle) {X : Trace → Prop} {db : TraceTable} {unseen : List Trace}
    (hdb : Covered db fun u => X u ∨ u ∈ unseen) {page : List Delivery}
    (hpage : AllSucceed page) :
    ∃ db' r, pollEach handle db unseen page = (db', some r) ∧
      Covered db' (fun u => X u ∨ u ∈ r) ∧ (∀ u ∈ unseen, u ∈ r) ∧
      ∀ d ∈ page, d.trace.isIncomplete = false → X d.trace ∨ d.trace ∈ r := by
  induction page generalizing db unseen with
  | nil => exact ⟨db, unseen, rfl, hdb, fun _ h => h, by simp⟩
  | cons d rest ih =>
    have hreply : d.reply = .answered := hpage d (by simp)
    have hrest : AllSucceed rest := fun e he => hpage e (List.mem_cons_of_mem _ he)
    cases hnew : (handle db d.trace d.now).2 with
    | true =>
      have hadded : Covered (handle db d.trace d.now).1
          fun u => X u ∨ u ∈ unseen ++ [d.trace] :=
        handle_covered hh hdb (fun u => Or.imp_right (by simp +contextual)) (by simp) d.now
      obtain ⟨db', r, heq, hcov, hsub, hall⟩ := ih hadded hrest
      refine ⟨db', r, by simp [pollEach, hreply, hnew, heq], hcov,
        fun u hu => hsub u (by simp [hu]), ?_⟩
      rintro e he hc
      rcases List.mem_cons.mp he with rfl | he
      · exact .inr (hsub _ (by simp))
      · exact hall e he hc
    | false =>
      -- A complete trace that is not new was recorded, so it is known already.
      have hknown : d.trace.isIncomplete = false → X d.trace ∨ d.trace ∈ unseen :=
        fun hc => hdb d.trace hc ((hh db d.trace d.now).2 hc hnew)
      obtain ⟨db', r, heq, hcov, hsub, hall⟩ := ih
        (handle_covered hh hdb (fun _ => id) hknown d.now) hrest
      refine ⟨db', r, by simp [pollEach, hreply, hnew, heq], hcov, hsub, ?_⟩
      rintro e he hc
      rcases List.mem_cons.mp he with rfl | he
      · exact (hknown hc).imp_right (hsub _)
      · exact hall e he hc

/-- Complete traces are recorded only once returned, and a `TONSubscriber` is handed none
that is not returned. -/
structure PollInvariant (s : PollState S) : Prop where
  rows : Covered s.rows (· ∈ s.returned)
  handed : ∀ p trace, (some p, trace) ∈ s.handed → trace.isIncomplete = false →
    trace ∈ s.returned

theorem pollInvariant_noTraceLost {s : PollState S} (h : PollInvariant s) : NoTraceLost s := by
  intro source trace hmem hc
  by_cases hret : trace ∈ s.returned
  · exact .inl hret
  · refine .inr ⟨fun hrec => hret (h.rows trace hc hrec), fun p hp => ?_⟩
    subst hp
    exact absurd (h.handed p trace hmem hc) hret

theorem initial_invariant (cursors : S → Option ℤ) : PollInvariant (initial cursors) where
  rows := by rintro u - ⟨row, hrow, -⟩; cases hrow
  handed := by simp [initial]

theorem advance_invariant {s : PollState S} (h : PollInvariant s) (p : S)
    (page : List Delivery) (stored : Bool) : PollInvariant (advance s p page stored) := by
  rw [advance]
  split
  · exact h
  · exact ⟨h.rows, h.handed⟩

theorem collect_invariant {handle : TraceTable → Trace → ℤ → TraceTable × Bool}
    (hh : RecordsOnly handle) {s : PollState S} (h : PollInvariant s) {source : Source S}
    {page : List Delivery} (hpage : AllSucceed page ∨ AlreadyReturned s (touched page))
    (hsource : ∀ p, source = some p → AllSucceed page ∨ AlreadyReturned s page) :
    PollInvariant (collect handle source s page) := by
  by_cases hall : AllSucceed page
  · have hempty : Covered s.rows fun u => u ∈ s.returned ∨ u ∈ ([] : List Trace) := by
      intro u hu hrec
      exact .inl (h.rows u hu hrec)
    obtain ⟨db', r, heq, hcov, -, hret⟩ := pollEach_answered hh hempty hall
    simp only [collect, heq, Option.getD_some]
    refine ⟨fun u hu hrec => List.mem_append.mpr (hcov u hu hrec), ?_⟩
    intro p trace hmem hc
    rcases List.mem_append.mp hmem with hmem | hmem
    · exact List.mem_append_left _ (h.handed p trace hmem hc)
    · obtain ⟨d, hd, heq⟩ := List.mem_map.mp hmem
      cases heq
      exact List.mem_append.mpr (hret d hd hc)
  · have htouched := hpage.resolve_left hall
    refine ⟨fun u hu hrec => List.mem_append_left _ ?_, ?_⟩
    · exact pollEach_covered hh h.rows [] htouched u hu hrec
    · intro p trace hmem hc
      refine List.mem_append_left _ ?_
      rcases List.mem_append.mp hmem with hmem | hmem
      · exact h.handed p trace hmem hc
      · obtain ⟨d, hd, heq⟩ := List.mem_map.mp hmem
        cases heq
        exact (hsource p rfl).resolve_left hall d hd hc

theorem touched_subset {page : List Delivery} {d : Delivery} (h : d ∈ touched page) :
    d ∈ page := by
  induction page with
  | nil => cases h
  | cons e rest ih =>
    rw [touched] at h
    split at h
    · rcases List.mem_cons.mp h with rfl | h
      · simp
      · exact List.mem_cons_of_mem _ (ih h)
    · simp only [List.mem_singleton] at h
      simp [h]
    · cases h

theorem poll_invariant_next {s : PollState S} {e : PollEvent S} (h : PollInvariant s)
    (hf : FailsHarmlessly s e) : PollInvariant (next s e) := by
  cases e with
  | start p => exact ⟨h.rows, h.handed⟩
  | poll p page stored =>
    cases page with
    | none => exact h
    | some page =>
      have hsame : (advance s p page stored).returned = s.returned := by
        rw [advance]; split <;> rfl
      have hf : AllSucceed page ∨ AlreadyReturned (advance s p page stored) page := by
        rw [AlreadyReturned]; rw [hsame]; exact hf
      exact collect_invariant handleTrace_recordsOnly (advance_invariant h p page stored)
        (hf.imp_right fun hr d hd => hr d (touched_subset hd)) (fun _ _ => hf)
  | retry fetched page =>
    simp only [next]
    split
    · cases page with
      | none => exact h
      | some page => exact collect_invariant handleRetry_recordsOnly h hf (by simp)
    · exact h

/-- In every run in which polls fail only when they have no complete trace to lose, after
every poll no trace is lost. -/
theorem no_trace_lost (cursors : S → Option ℤ) (es : List (PollEvent S))
    (hf : ∀ p ∈ (system cursors).steps es, FailsHarmlessly p.1 p.2) :
    (∀ p ∈ (system cursors).steps es, NoTraceLost p.1) ∧
      NoTraceLost ((system cursors).run es) := by
  have hv : (system cursors).Valid es := (valid_iff_steps _ _).mpr fun _ _ => trivial
  obtain ⟨hend, hall⟩ := invariant_along (M := system cursors) (I := PollInvariant)
    (C := FailsHarmlessly) (fun _ _ h _ hf => poll_invariant_next h hf)
    (initial_invariant cursors) hv hf
  exact ⟨fun p hp => pollInvariant_noTraceLost (hall p hp), pollInvariant_noTraceLost hend⟩

def completeTrace (id : String) (lt : ℤ) : Trace := ⟨false, lt, lt, id, []⟩

/-- The second statement of a retry poll fails, but the trace before it was returned before. -/
def harmlessFailure : List (PollEvent ℕ) :=
  [.poll 0 (some [⟨completeTrace "a" 5, 0, .answered⟩,
      ⟨{ completeTrace "b" 6 with isIncomplete := true }, 0, .answered⟩]) true,
    .retry true (some [⟨completeTrace "a" 5, 1, .answered⟩, ⟨completeTrace "b" 6, 1, .refused⟩]),
    .start 0, .retry true (some [⟨completeTrace "b" 6, 2, .answered⟩])]

theorem no_trace_lost_harmless_failure :
    ((system fun _ => none).run harmlessFailure).returned =
      [completeTrace "a" 5, completeTrace "b" 6] ∧
    NoTraceLost ((system fun _ => none).run harmlessFailure) :=
  ⟨by decide, (no_trace_lost (fun _ => none) harmlessFailure (by decide)).2⟩

/-- Two new traces; the statement for the second one fails. -/
def lostTraces : List (PollEvent ℕ) :=
  [.poll 0 (some [⟨completeTrace "a" 5, 0, .answered⟩,
    ⟨completeTrace "b" 6, 0, .refused⟩]) true]

theorem failed_upsert_loses_trace :
    (system fun _ : ℕ => none).Valid lostTraces ∧
    ¬ NoTraceLost ((system fun _ => none).run lostTraces) := by
  refine ⟨⟨trivial, trivial⟩, fun h => ?_⟩
  rcases h (some 0) (completeTrace "b" 6) (by decide) rfl with hret | ⟨-, hlt⟩
  · exact absurd hret (by decide)
  · exact absurd (hlt 0 rfl).1 (by decide)

end TraceSubscribers
