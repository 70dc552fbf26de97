import TonRelayer.TraceSubscribers

/-! The pollers of one `ton_traces` table, statement by statement.
Each poller loops over its own page, and between two of its statements any other poller may run
some of its own. A poll keeps what it has not seen before and returns it at the end. The copies
that reached a statement are kept, in that order, as ghost state. -/
namespace SharedPolls

open Types TransitionRuns TraceSubscribers

variable {S : Type*}

/-- What a poll is doing; the retry subscriber reads the table before it asks the API. -/
inductive Stage where
  | idle
  | asked (ids : List String)
  | looping (rest unseen : List Trace)

def Stage.unseen : Stage → List Trace
  | .looping _ unseen => unseen
  | _ => []

structure SharedState (S : Type*) where
  rows : TraceTable
  stage : Source S → Stage
  returned : List (List Trace)
  observed : List Trace

inductive SharedEvent (S : Type*) where
  | fetch (p : S) (page : List Trace)
  | fetchRetry
  | answer (page : List Trace)
  | handle (source : Source S) (now : ℤ)
  | finish (source : Source S)

def initial (rows : TraceTable) : SharedState S := ⟨rows, fun _ => .idle, [], []⟩

/-- The statement a poller sends for a trace. -/
def handleOf : Source S → TraceTable → Trace → ℤ → TraceTable × Bool
  | some _ => handleTrace
  | none => handleRetry

def Enabled (s : SharedState S) : SharedEvent S → Prop
  | .fetch p _ => s.stage (some p) = .idle
  | .fetchRetry => s.stage none = .idle
  | .answer _ => ∃ ids, s.stage none = .asked ids
  | .handle source _ => ∃ trace rest unseen, s.stage source = .looping (trace :: rest) unseen
  | .finish source => ∃ unseen, s.stage source = .looping [] unseen

def ofId (id : String) (traces : List Trace) : List Trace :=
  traces.filter fun trace => trace.traceId = id

/-- The copies that were observed: from the first complete one on, all are equal to it. -/
def SettlesOn (id : String) (observed : List Trace) : Prop :=
  (ofId id observed).Pairwise fun first later => first.isIncomplete = false → later = first

/-- No complete copy is in the table. -/
def Unsettled (id : String) (rows : TraceTable) : Prop :=
  ∀ row, rows.lookup id = some row → row.isIncomplete = true

section Statements

variable {rows : TraceTable} {trace : Trace} {id : String}

theorem upsert_lookup_ne (now : ℤ) (h : id ≠ trace.traceId) :
    (upsertAndReturnIfChanged rows trace now).1.lookup id = rows.lookup id := by
  rw [upsertAndReturnIfChanged]
  split
  · exact AList.lookup_insert_ne h
  · split
    · rfl
    · exact AList.lookup_insert_ne h

theorem decreaseRetry_lookup_ne (h : id ≠ trace.traceId) :
    (decreaseRetry rows trace).lookup id = rows.lookup id := by
  rw [decreaseRetry]
  split
  · rfl
  · exact AList.lookup_insert_ne h

theorem handle_lookup_ne (source : Source S) (now : ℤ) (h : id ≠ trace.traceId) :
    (handleOf source rows trace now).1.lookup id = rows.lookup id := by
  cases source with
  | some p => exact upsert_lookup_ne now h
  | none =>
    rw [handleOf, handleRetry]
    split
    · exact decreaseRetry_lookup_ne h
    · exact upsert_lookup_ne now h

/-- The upsert leaves a row with the content of the trace, or one that had it. -/
theorem upsert_recorded (now : ℤ) :
    Recorded (upsertAndReturnIfChanged rows trace now).1 trace := by
  rw [upsertAndReturnIfChanged]
  split
  · exact ⟨_, AList.lookup_insert rows, by simp [sameContent_iff]⟩
  · rename_i row hrow
    split
    · rename_i hsame
      exact ⟨row, hrow, hsame⟩
    · exact ⟨_, AList.lookup_insert rows, by simp [sameContent_iff]⟩

theorem recorded_incomplete (h : Recorded rows trace) (hi : trace.isIncomplete = true) :
    Unsettled trace.traceId rows := by
  obtain ⟨row, hrow, hsame⟩ := h
  intro row' hrow'
  cases hrow.symm.trans hrow'
  exact (sameContent_iff.mp hsame).1.trans hi

theorem decreaseRetry_unsettled (h : Unsettled trace.traceId rows) :
    Unsettled trace.traceId (decreaseRetry rows trace) := by
  rw [decreaseRetry]
  split
  · exact h
  · rename_i row hrow
    intro row' hrow'
    rw [AList.lookup_insert] at hrow'
    cases hrow'
    exact h row hrow

/-- An incomplete copy is not kept and leaves the table without a complete one. -/
theorem handle_incomplete (source : Source S) (now : ℤ) (h : Unsettled trace.traceId rows)
    (hi : trace.isIncomplete = true) : (handleOf source rows trace now).2 = false ∧
      Unsettled trace.traceId (handleOf source rows trace now).1 := by
  cases source with
  | some p =>
    constructor
    · rw [handleOf, handleTrace, hi]
      exact Bool.and_false _
    · exact recorded_incomplete (upsert_recorded now) hi
  | none =>
    rw [handleOf, handleRetry, if_pos hi]
    exact ⟨rfl, decreaseRetry_unsettled h⟩

theorem handle_complete (source : Source S) (now : ℤ) (hi : trace.isIncomplete = false) :
    handleOf source rows trace now = upsertAndReturnIfChanged rows trace now := by
  have htrace : handleTrace rows trace now = upsertAndReturnIfChanged rows trace now := by
    rw [handleTrace, hi]
    simp
  cases source with
  | some p => exact htrace
  | none =>
    rw [handleOf, handleRetry, if_neg (by rw [hi]; exact Bool.false_ne_true)]
    exact htrace

theorem recorded_complete (h : Recorded rows trace) (hi : trace.isIncomplete = false) :
    ¬ Unsettled trace.traceId rows := by
  intro hnone
  obtain ⟨row, hrow, hsame⟩ := h
  have hrowIncomplete := hnone row hrow
  rw [(sameContent_iff.mp hsame).1, hi] at hrowIncomplete
  cases hrowIncomplete

/-- The first complete copy is kept, and recorded. -/
theorem handle_first (source : Source S) (now : ℤ) (h : Unsettled trace.traceId rows)
    (hi : trace.isIncomplete = false) : (handleOf source rows trace now).2 = true ∧
      Recorded (handleOf source rows trace now).1 trace := by
  rw [handle_complete source now hi]
  refine ⟨?_, upsert_recorded now⟩
  rcases upsert_cases rows trace now with ⟨-, hrecorded⟩ | ⟨rows', heq, -⟩
  · exact absurd h (recorded_complete hrecorded hi)
  · rw [heq]

/-- A copy that is recorded already changes nothing. -/
theorem handle_again (source : Source S) (now : ℤ) (h : Recorded rows trace)
    (hi : trace.isIncomplete = false) : handleOf source rows trace now = (rows, false) := by
  rw [handle_complete source now hi, upsertAndReturnIfChanged]
  obtain ⟨row, hrow, hsame⟩ := h
  rw [hrow]
  exact if_pos hsame

/-- Only complete traces are kept. -/
theorem handle_new (source : Source S) (now : ℤ)
    (h : (handleOf source rows trace now).2 = true) :
    trace.isIncomplete = false := by
  cases hi : trace.isIncomplete with
  | false => rfl
  | true =>
    cases source with
    | some p =>
      rw [handleOf, handleTrace, hi] at h
      cases (Bool.and_eq_true_iff.mp h).2
    | none =>
      rw [handleOf, handleRetry, if_pos hi] at h
      cases h

end Statements

section Places

variable {s : SharedState S} {trace : Trace} {id : String}

theorem ofId_append (id : String) (xs ys : List Trace) :
    ofId id (xs ++ ys) = ofId id xs ++ ofId id ys := List.filter_append ..

theorem ofId_other (h : trace.traceId ≠ id) : ofId id [trace] = [] := by
  simp [ofId, h]

theorem ofId_same (h : trace.traceId = id) : ofId id [trace] = [trace] := by
  simp [ofId, h]

/-- No complete copy was observed yet. -/
structure Waiting (s : SharedState S) (id : String) : Prop where
  observed : ∀ u ∈ ofId id s.observed, u.isIncomplete = true
  rows : Unsettled id s.rows
  returned : ofId id s.returned.flatten = []
  pending : ∀ source, ofId id (s.stage source).unseen = []

/-- The copy was kept once: it is in a returned vector, or one poll under way has it. -/
structure Settled (s : SharedState S) (id : String) (copy : Trace) : Prop where
  observed : copy ∈ ofId id s.observed
  complete : copy.isIncomplete = false
  only : ∀ u ∈ ofId id s.observed, u.isIncomplete = false → u = copy
  rows : Recorded s.rows copy
  once : (ofId id s.returned.flatten = [copy] ∧ ∀ source, ofId id (s.stage source).unseen = []) ∨
    (ofId id s.returned.flatten = [] ∧ ∃ source, ofId id (s.stage source).unseen = [copy] ∧
      ∀ other, other ≠ source → ofId id (s.stage other).unseen = [])

/-- The traces with this id stay where they are. -/
structure Undisturbed (s s' : SharedState S) (id : String) : Prop where
  observed : ofId id s'.observed = ofId id s.observed
  rows : s'.rows.lookup id = s.rows.lookup id
  returned : ofId id s'.returned.flatten = ofId id s.returned.flatten
  pending : ∀ source, ofId id (s'.stage source).unseen = ofId id (s.stage source).unseen

theorem waiting_undisturbed {s' : SharedState S} (hs : Waiting s id) (h : Undisturbed s s' id) :
    Waiting s' id := by
  constructor
  · rw [h.observed]
    exact hs.observed
  · rw [Unsettled, h.rows]
    exact hs.rows
  · rw [h.returned]
    exact hs.returned
  · intro source
    rw [h.pending]
    exact hs.pending source

theorem settled_undisturbed {s' : SharedState S} {copy : Trace} (hs : Settled s id copy)
    (h : Undisturbed s s' id) : Settled s' id copy := by
  constructor
  · rw [h.observed]
    exact hs.observed
  · exact hs.complete
  · rw [h.observed]
    exact hs.only
  · obtain ⟨row, hrow, hsame⟩ := hs.rows
    have hid : copy.traceId = id := of_decide_eq_true (List.mem_filter.mp hs.observed).2
    rw [hid] at hrow
    exact ⟨row, by rw [hid, h.rows, hrow], hsame⟩
  · simp only [h.returned, h.pending]
    exact hs.once

def Progress (s : SharedState S) (id : String) : Prop := Waiting s id ∨ ∃ copy, Settled s id copy

theorem progress_undisturbed {s' : SharedState S} (hs : Progress s id)
    (h : Undisturbed s s' id) : Progress s' id := by
  rcases hs with hs | ⟨copy, hs⟩
  · exact .inl (waiting_undisturbed hs h)
  · exact .inr ⟨copy, settled_undisturbed hs h⟩

/-- Nothing incomplete is kept. -/
structure OnlyComplete (s : SharedState S) : Prop where
  returned : ∀ vec ∈ s.returned, ∀ u ∈ vec, u.isIncomplete = false
  pending : ∀ source, ∀ u ∈ (s.stage source).unseen, u.isIncomplete = false

theorem onlyComplete_returned (hs : OnlyComplete s) {vec : List Trace}
    (hvec : ∀ u ∈ vec, u.isIncomplete = false) :
    OnlyComplete { s with returned := s.returned ++ [vec] } := by
  refine ⟨?_, hs.pending⟩
  intro v hv
  rcases List.mem_append.mp hv with hv | hv
  · exact hs.returned v hv
  · rw [List.mem_singleton.mp hv]
    exact hvec

end Places

variable [DecidableEq S]

def setStage (s : SharedState S) (source : Source S) (stage : Stage) : SharedState S :=
  { s with stage := Function.update s.stage source stage }

def next (s : SharedState S) : SharedEvent S → SharedState S
  | .fetch p page => setStage s (some p) (.looping page [])
  | .fetchRetry =>
    -- No row to retry: the poll returns an empty vector.
    match (fetchRetry s.rows 100).map Sigma.fst with
    | [] => { s with returned := s.returned ++ [[]] }
    | id :: ids => setStage s none (.asked (id :: ids))
  | .answer page => setStage s none (.looping page [])
  | .handle source now => match s.stage source with
    | .looping (trace :: rest) unseen =>
      let (rows, isNew) := handleOf source s.rows trace now
      { setStage s source (.looping rest (if isNew then unseen ++ [trace] else unseen)) with
        rows
        observed := s.observed ++ [trace] }
    | _ => s
  | .finish source => match s.stage source with
    | .looping [] unseen =>
      { setStage s source .idle with returned := s.returned ++ [unseen] }
    | _ => s

def shared (rows : TraceTable) : System (SharedState S) (SharedEvent S) where
  initial := initial rows
  Enabled := Enabled
  next := next

section Steps

variable {s : SharedState S} {trace : Trace} {id : String} {source : Source S} {now : ℤ}
variable {rest unseen : List Trace}

theorem unseen_setStage (s : SharedState S) (source other : Source S) (stage : Stage) :
    ((setStage s source stage).stage other).unseen =
      if other = source then stage.unseen else (s.stage other).unseen := by
  by_cases h : other = source <;> simp [setStage, h]

theorem undisturbed_setStage {stage : Stage} (h : (s.stage source).unseen = [])
    (hstage : stage.unseen = []) (id : String) : Undisturbed s (setStage s source stage) id := by
  refine ⟨rfl, rfl, rfl, ?_⟩
  intro other
  rw [unseen_setStage]
  split
  · next heq => rw [heq, h, hstage]
  · rfl

theorem undisturbed_fetch {e : SharedEvent S} (he : Enabled s e)
    (hfetch : ∀ source, e ≠ .finish source ∧ ∀ now, e ≠ .handle source now) (id : String) :
    Undisturbed s (next s e) id := by
  cases e with
  | fetch p page => exact undisturbed_setStage (by rw [he]; rfl) rfl id
  | fetchRetry =>
    rw [next]
    split
    · exact ⟨rfl, rfl, by simp, fun _ => rfl⟩
    · exact undisturbed_setStage (by rw [he]; rfl) rfl id
  | answer page =>
    obtain ⟨ids, hids⟩ := he
    exact undisturbed_setStage (by rw [hids]; rfl) rfl id
  | handle source now => exact absurd rfl ((hfetch source).2 now)
  | finish source => exact absurd rfl (hfetch source).1

theorem finish_returned (h : s.stage source = .looping [] unseen) (id : String) :
    ofId id (next s (.finish source)).returned.flatten =
      ofId id s.returned.flatten ++ ofId id unseen := by
  rw [next, h]
  dsimp only
  rw [List.flatten_append, ofId_append]
  simp

theorem finish_pending (h : s.stage source = .looping [] unseen) (other : Source S) :
    ((next s (.finish source)).stage other).unseen =
      if other = source then [] else (s.stage other).unseen := by
  rw [next, h]
  exact unseen_setStage s source other .idle

theorem finish_same (h : s.stage source = .looping [] unseen) :
    (next s (.finish source)).observed = s.observed ∧ (next s (.finish source)).rows = s.rows := by
  rw [next, h]
  exact ⟨rfl, rfl⟩

/-- A poll that has no trace with this id returns none. -/
theorem undisturbed_finish (h : s.stage source = .looping [] unseen)
    (hunseen : ofId id (s.stage source).unseen = []) :
    Undisturbed s (next s (.finish source)) id := by
  obtain ⟨hobserved, hrows⟩ := finish_same h
  refine ⟨by rw [hobserved], by rw [hrows], ?_, ?_⟩
  · rw [h] at hunseen
    rw [finish_returned h, show ofId id unseen = [] from hunseen, List.append_nil]
  · intro other
    rw [finish_pending h]
    split
    · next heq => rw [heq, hunseen]; rfl
    · rfl

theorem settled_finish {copy : Trace} (hs : Settled s id copy)
    (h : s.stage source = .looping [] unseen) : Settled (next s (.finish source)) id copy := by
  by_cases hunseen : ofId id (s.stage source).unseen = []
  · exact settled_undisturbed hs (undisturbed_finish h hunseen)
  · -- The copy leaves the poll for the vector that it returns.
    obtain ⟨hobserved, hrows⟩ := finish_same h
    refine ⟨hobserved ▸ hs.observed, hs.complete, hobserved ▸ hs.only, hrows ▸ hs.rows, .inl ?_⟩
    rcases hs.once with ⟨-, hnone⟩ | ⟨hreturned, holder, hholder, hothers⟩
    · exact absurd (hnone source) hunseen
    · have hsource : source = holder := by
        by_contra hne
        exact hunseen (hothers source hne)
      subst hsource
      rw [h] at hholder
      constructor
      · rw [finish_returned h, hreturned, List.nil_append]
        exact hholder
      · intro other
        rw [finish_pending h]
        split
        · rfl
        · next hne => exact hothers other hne

/-- What a statement for a trace changes. -/
theorem handle_step (h : s.stage source = .looping (trace :: rest) unseen) (now : ℤ) :
    (next s (.handle source now)).observed = s.observed ++ [trace] ∧
    (next s (.handle source now)).rows = (handleOf source s.rows trace now).1 ∧
    (next s (.handle source now)).returned = s.returned ∧
    ∀ other, ((next s (.handle source now)).stage other).unseen =
      if other = source then
        unseen ++ if (handleOf source s.rows trace now).2 then [trace] else []
      else (s.stage other).unseen := by
  rw [next, h]
  refine ⟨rfl, rfl, rfl, ?_⟩
  intro other
  have hkept : (if (handleOf source s.rows trace now).2 then unseen ++ [trace] else unseen) =
      unseen ++ if (handleOf source s.rows trace now).2 then [trace] else [] := by
    split <;> simp
  rw [← hkept]
  exact unseen_setStage s source other _

theorem undisturbed_handle (h : s.stage source = .looping (trace :: rest) unseen)
    (hid : trace.traceId ≠ id) : Undisturbed s (next s (.handle source now)) id := by
  obtain ⟨hobserved, hrows, hreturned, hunseen⟩ := handle_step h now
  constructor
  · rw [hobserved, ofId_append, ofId_other hid, List.append_nil]
  · rw [hrows]
    exact handle_lookup_ne source now hid.symm
  · rw [hreturned]
  · intro other
    rw [hunseen]
    split
    · next heq =>
      rw [heq, h, ofId_append]
      split
      · rw [ofId_other hid]
        exact List.append_nil _
      · exact List.append_nil _
    · rfl

theorem waiting_handle (hs : Waiting s id) (h : s.stage source = .looping (trace :: rest) unseen)
    (hid : trace.traceId = id) (hi : trace.isIncomplete = true) :
    Waiting (next s (.handle source now)) id := by
  subst hid
  obtain ⟨hobserved, hrows, hreturned, hunseen⟩ := handle_step h now
  obtain ⟨hnew, hunsettled⟩ := handle_incomplete source now hs.rows hi
  constructor
  · rw [hobserved, ofId_append, ofId_same rfl]
    intro u hu
    rcases List.mem_append.mp hu with hu | hu
    · exact hs.observed u hu
    · rw [List.mem_singleton.mp hu]
      exact hi
  · rw [hrows]
    exact hunsettled
  · rw [hreturned]
    exact hs.returned
  · intro other
    rw [hunseen, hnew]
    have hpending := hs.pending
    split
    · next heq =>
      have hsource := hpending source
      rw [h] at hsource
      simpa [Stage.unseen] using hsource
    · exact hpending other

/-- The first complete copy is kept by the poll that observes it. -/
theorem settled_first (hs : Waiting s id) (h : s.stage source = .looping (trace :: rest) unseen)
    (hid : trace.traceId = id) (hi : trace.isIncomplete = false) :
    Settled (next s (.handle source now)) id trace := by
  subst hid
  obtain ⟨hobserved, hrows, hreturned, hunseen⟩ := handle_step h now
  obtain ⟨hnew, hrecorded⟩ := handle_first source now hs.rows hi
  refine ⟨?_, hi, ?_, ?_, .inr ⟨?_, source, ?_, ?_⟩⟩
  · rw [hobserved, ofId_append, ofId_same rfl]
    simp
  · rw [hobserved, ofId_append, ofId_same rfl]
    intro u hu hcomplete
    rcases List.mem_append.mp hu with hu | hu
    · rw [hs.observed u hu] at hcomplete
      cases hcomplete
    · exact List.mem_singleton.mp hu
  · rw [hrows]
    exact hrecorded
  · rw [hreturned]
    exact hs.returned
  · have hsource := hs.pending source
    rw [h] at hsource
    rw [hunseen, if_pos rfl, if_pos hnew, ofId_append, ofId_same rfl]
    exact congrArg (fun kept => kept ++ [trace]) hsource
  · intro other hne
    rw [hunseen, if_neg hne]
    exact hs.pending other

/-- A later copy changes nothing. -/
theorem settled_handle {copy : Trace} (hs : Settled s id copy)
    (h : s.stage source = .looping (copy :: rest) unseen) :
    Settled (next s (.handle source now)) id copy := by
  obtain ⟨hobserved, hrows, hreturned, hunseen⟩ := handle_step h now
  have hagain := handle_again source now hs.rows hs.complete
  have hsame : ∀ other, ((next s (.handle source now)).stage other).unseen =
      (s.stage other).unseen := by
    intro other
    rw [hunseen, hagain]
    split
    · next heq =>
      rw [heq, h]
      exact List.append_nil _
    · rfl
  constructor
  · rw [hobserved, ofId_append]
    exact List.mem_append_left _ hs.observed
  · exact hs.complete
  · rw [hobserved, ofId_append]
    intro u hu hcomplete
    rcases List.mem_append.mp hu with hu | hu
    · exact hs.only u hu hcomplete
    · exact List.mem_singleton.mp (List.mem_filter.mp hu).1
  · rw [hrows, hagain]
    exact hs.rows
  · simp only [hreturned, hsame]
    exact hs.once

end Steps

section Runs

variable {s : SharedState S} {e : SharedEvent S} {es : List (SharedEvent S)} {rows : TraceTable}
variable {id : String}

theorem progress_handle {source : Source S} {now : ℤ} {trace : Trace} {rest unseen : List Trace}
    (hs : Progress s id) (h : s.stage source = .looping (trace :: rest) unseen)
    (hsettles : SettlesOn id (s.observed ++ [trace])) :
    Progress (next s (.handle source now)) id := by
  by_cases hid : trace.traceId = id
  · rcases hs with hs | ⟨copy, hs⟩
    · cases hi : trace.isIncomplete with
      | true => exact .inl (waiting_handle hs h hid hi)
      | false => exact .inr ⟨trace, settled_first hs h hid hi⟩
    · rw [SettlesOn, ofId_append, ofId_same hid, List.pairwise_append] at hsettles
      have hcopy : trace = copy :=
        hsettles.2.2 copy hs.observed trace (List.mem_singleton_self _) hs.complete
      subst hcopy
      exact .inr ⟨trace, settled_handle hs h⟩
  · exact progress_undisturbed hs (undisturbed_handle h hid)

theorem next_observed (s : SharedState S) (e : SharedEvent S) :
    ∃ more, (next s e).observed = s.observed ++ more := by
  cases e with
  | handle source now =>
    rw [next]
    split
    · exact ⟨_, rfl⟩
    · exact ⟨[], (List.append_nil _).symm⟩
  | fetchRetry =>
    rw [next]
    split <;> exact ⟨[], (List.append_nil _).symm⟩
  | finish source =>
    rw [next]
    split <;> exact ⟨[], (List.append_nil _).symm⟩
  | _ => exact ⟨[], (List.append_nil _).symm⟩

theorem progress_next (hs : SettlesOn id s.observed → Progress s id) (he : Enabled s e)
    (hsettles : SettlesOn id (next s e).observed) : Progress (next s e) id := by
  obtain ⟨more, hmore⟩ := next_observed s e
  have hbefore : SettlesOn id s.observed := by
    rw [hmore, SettlesOn, ofId_append, List.pairwise_append] at hsettles
    exact hsettles.1
  cases e with
  | handle source now =>
    obtain ⟨trace, rest, unseen, h⟩ := he
    rw [(handle_step h now).1] at hsettles
    exact progress_handle (hs hbefore) h hsettles
  | finish source =>
    obtain ⟨unseen, h⟩ := he
    rcases hs hbefore with hs | ⟨copy, hs⟩
    · exact .inl (waiting_undisturbed hs (undisturbed_finish h (hs.pending source)))
    · exact .inr ⟨copy, settled_finish hs h⟩
  | fetch p page => exact progress_undisturbed (hs hbefore) (undisturbed_fetch he (by simp) id)
  | fetchRetry => exact progress_undisturbed (hs hbefore) (undisturbed_fetch he (by simp) id)
  | answer page => exact progress_undisturbed (hs hbefore) (undisturbed_fetch he (by simp) id)

theorem onlyComplete_setStage (hs : OnlyComplete s) (source : Source S) {stage : Stage}
    (hstage : ∀ u ∈ stage.unseen, u.isIncomplete = false) :
    OnlyComplete (setStage s source stage) := by
  refine ⟨hs.returned, ?_⟩
  intro other u hu
  rw [unseen_setStage] at hu
  split at hu
  · exact hstage u hu
  · exact hs.pending other u hu

theorem onlyComplete_next (hs : OnlyComplete s) (he : Enabled s e) : OnlyComplete (next s e) := by
  cases e with
  | fetch p page => exact onlyComplete_setStage hs _ (by simp [Stage.unseen])
  | answer page => exact onlyComplete_setStage hs _ (by simp [Stage.unseen])
  | fetchRetry =>
    rw [next]
    split
    · exact onlyComplete_returned hs (by simp)
    · exact onlyComplete_setStage hs _ (by simp [Stage.unseen])
  | handle source now =>
    obtain ⟨trace, rest, unseen, h⟩ := he
    obtain ⟨-, -, hreturned, hunseen⟩ := handle_step h now
    constructor
    · rw [hreturned]
      exact hs.returned
    · intro other u hu
      rw [hunseen] at hu
      split at hu
      · rcases List.mem_append.mp hu with hu | hu
        · have hpending := hs.pending source
          rw [h] at hpending
          exact hpending u hu
        · split at hu
          · next hnew =>
            rw [List.mem_singleton.mp hu]
            exact handle_new source now hnew
          · cases hu
      · exact hs.pending other u hu
  | finish source =>
    obtain ⟨unseen, h⟩ := he
    have hunseen : ∀ u ∈ unseen, u.isIncomplete = false := by
      have hpending := hs.pending source
      rw [h] at hpending
      exact hpending
    rw [next, h]
    exact onlyComplete_returned (onlyComplete_setStage hs source (by simp [Stage.unseen])) hunseen

/-- One vector holds the trace, once. -/
def InOneVector (id : String) (copy : Trace) (returned : List (List Trace)) : Prop :=
  ∃ pre vec post, returned = pre ++ vec :: post ∧ ofId id vec = [copy] ∧
    ∀ other ∈ pre ++ post, ofId id other = []

theorem ofId_flatten_nil {vecs : List (List Trace)} (h : ofId id vecs.flatten = []) :
    ∀ vec ∈ vecs, ofId id vec = [] := by
  intro vec hvec
  rw [ofId, List.filter_eq_nil_iff] at h ⊢
  intro u hu
  exact h u (List.mem_flatten.mpr ⟨vec, hvec, hu⟩)

theorem inOneVector_of_flatten {copy : Trace} {returned : List (List Trace)}
    (h : ofId id returned.flatten = [copy]) : InOneVector id copy returned := by
  induction returned with
  | nil => cases h
  | cons vec returned ih =>
    rw [List.flatten_cons, ofId_append] at h
    rcases List.append_eq_singleton_iff.mp h with ⟨hvec, hrest⟩ | ⟨hvec, hrest⟩
    · obtain ⟨pre, vec', post, rfl, hvec', hothers⟩ := ih hrest
      refine ⟨vec :: pre, vec', post, rfl, hvec', ?_⟩
      rw [List.cons_append, List.forall_mem_cons]
      exact ⟨hvec, hothers⟩
    · exact ⟨[], vec, returned, rfl, hvec, ofId_flatten_nil hrest⟩

/-- Once all polls have ended, a trace of which a complete copy was observed is in exactly one of
the returned vectors, once; nothing incomplete is ever returned. -/
theorem complete_trace_returned_once (hv : (shared rows).Valid es) :
    (∀ vec ∈ ((shared (S := S) rows).run es).returned, ∀ u ∈ vec, u.isIncomplete = false) ∧
    ∀ id, Unsettled id rows → SettlesOn id ((shared rows).run es).observed →
      (∀ source, ((shared rows).run es).stage source = .idle) →
      ∀ copy ∈ ofId id ((shared rows).run es).observed, copy.isIncomplete = false →
        InOneVector id copy ((shared rows).run es).returned := by
  constructor
  · have hinitial : OnlyComplete (initial (S := S) rows) := by
      constructor <;> simp [initial, Stage.unseen]
    exact (invariant_always (M := shared rows) (I := OnlyComplete)
      (fun s e hs he => onlyComplete_next hs he) hinitial hv).1.returned
  · intro id hrows hsettles hidle copy hcopy hcomplete
    have hinitial : SettlesOn id (initial (S := S) rows).observed →
        Progress (initial (S := S) rows) id := by
      intro _
      refine .inl ⟨?_, hrows, rfl, fun _ => rfl⟩
      intro u hu
      cases hu
    have hend := (invariant_always (M := shared rows)
      (I := fun s => SettlesOn id s.observed → Progress s id)
      (fun s e hs he => progress_next hs he) hinitial hv).1 hsettles
    rcases hend with hwaiting | ⟨copy', hsettled⟩
    · rw [hwaiting.observed copy hcopy] at hcomplete
      cases hcomplete
    · rw [hsettled.only copy hcopy hcomplete]
      rcases hsettled.once with ⟨hreturned, -⟩ | ⟨-, source, hsource, -⟩
      · exact inOneVector_of_flatten hreturned
      · have hstage : ((shared rows).runFrom (initial rows) es).stage source = .idle := hidle source
        rw [hstage] at hsource
        cases hsource

/-- Two pollers and the retry subscriber see the trace, first incomplete, then complete: the
page of poller 1 holds it twice. -/
def sharedTrace : List (SharedEvent ℕ) :=
  let early : Trace := { completeTrace "a" 5 with isIncomplete := true }
  let late : Trace := completeTrace "a" 5
  [.fetch 0 [early], .fetch 1 [late, late], .handle (some 0) 0, .fetchRetry, .answer [late],
    .handle (some 1) 1, .finish (some 0), .handle none 2, .handle (some 1) 3, .finish none,
    .finish (some 1)]

theorem sharedTrace_observed : ((shared ∅).run sharedTrace).observed =
    [{ completeTrace "a" 5 with isIncomplete := true }, completeTrace "a" 5, completeTrace "a" 5,
      completeTrace "a" 5] := rfl

theorem sharedTrace_valid : (shared ∅).Valid sharedTrace :=
  ⟨rfl, rfl, ⟨_, _, _, rfl⟩, rfl, ⟨_, rfl⟩, ⟨_, _, _, rfl⟩, ⟨_, rfl⟩, ⟨_, _, _, rfl⟩,
    ⟨_, _, _, rfl⟩, ⟨_, rfl⟩, ⟨_, rfl⟩, trivial⟩

theorem complete_trace_returned_once_shared :
    ((shared ∅).run sharedTrace).returned = [[], [], [completeTrace "a" 5]] ∧
      InOneVector "a" (completeTrace "a" 5) ((shared ∅).run sharedTrace).returned := by
  constructor
  · rfl
  · refine (complete_trace_returned_once sharedTrace_valid).2 "a" ?_ ?_ ?_ _ ?_ rfl
    · intro row hrow
      cases hrow
    · rw [SettlesOn, sharedTrace_observed]
      decide
    · intro source
      match source with
      | none | some 0 | some 1 | some (_ + 2) => rfl
    · rw [sharedTrace_observed]
      decide

end Runs

end SharedPolls
