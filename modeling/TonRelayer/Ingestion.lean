import TonRelayer.RepeatedParses
import TonRelayer.SharedPolls

/-! From the pollers to the events column.
The traces that the pollers return are put on a queue, which hands each of them to an ingestor
as often as it likes and in any order; a poller or an ingestor can stop at any statement. An
ingestor parses the trace at the prices of the moment and stores a summary of its events. -/
namespace Ingestion

open ExceptRules Types TransitionRuns TransactionParsers TraceParsing RepeatedParses
open TraceSubscribers (TraceTable Source upsertAndReturnIfChanged decreaseRetry handleRetry
  handleTrace)
open SharedPolls (SharedState SharedEvent Stage SettlesOn ofId handleOf setStage unseen_setStage
  handle_new handle_complete next_observed)

section Ingestor

structure EventSummary where
  eventId : String
  messageId : Option String
  eventType : String
  deriving DecidableEq, Repr

/-- The columns of `EventModel` that are read. -/
structure EventModel where
  eventId : String
  messageId : Option String
  eventType : String

/-- `fromStr` is `serde_json` at the type of a trace, `fromEvent` the one of `EventModel`. -/
structure TONIngestor (D : Type) where
  traceParser : TraceParser D
  fromStr : String → Except String Trace
  fromEvent : Event → EventModel

/-- The `events` column of `ton_traces`; an id that is not there stands for `NULL`. -/
abbrev EventColumn := AList fun _ : String => List EventSummary

structure Tables where
  rows : TraceTable
  events : EventColumn

/-- The statement updates the row of the trace, if there is one. -/
def updateEvents (db : Tables) (traceId : String) (events : List EventSummary) (now : ℤ) :
    Tables :=
  match db.rows.lookup traceId with
  | none => db
  | some row =>
    ⟨db.rows.insert traceId { row with updatedAt := some now }, db.events.insert traceId events⟩

/-- Both are `IngestorError::GenericError`, with the text of the cause. -/
inductive IngestorError where
  | parsing (e : TransactionParsingError)
  | database
  deriving DecidableEq, Repr

/-- `unwrap` is the panic at an item that is no trace, `panic` one of the parser. -/
inductive IngestFailure where
  | err (e : IngestorError)
  | unwrap
  | panic
  deriving DecidableEq, Repr

variable {D : Type}

def TONIngestor.summary (g : TONIngestor D) (e : Event) : EventSummary :=
  let model := g.fromEvent e
  ⟨model.eventId, model.messageId, model.eventType⟩

def handleTransaction (g : TONIngestor D) (w : Moment D) (db : Tables) (item : String)
    (reply : Reply) (now : ℤ) : Except IngestFailure (List Event) × Tables :=
  match g.fromStr item with
  | .error _ => (.error .unwrap, db)
  | .ok trace => match parseTrace (atMoment g.traceParser w) trace with
    | .error .panic => (.error .panic, db)
    | .error (.err e) => (.error (.err (.parsing e)), db)
    | .ok events =>
      let eventSummaries := events.map g.summary
      if eventSummaries = [] then (.ok events, db)
      else match reply with
        | .answered => (.ok events, updateEvents db trace.traceId eventSummaries now)
        | .lost => (.error (.err .database), updateEvents db trace.traceId eventSummaries now)
        | .refused => (.error (.err .database), db)

/-- The trace was read and parsed, now or before, and these are the summaries. -/
def Summarises (g : TONIngestor D) (trace : Trace) (sums : List EventSummary) : Prop :=
  ∃ w events, parseTrace (atMoment g.traceParser w) trace = .ok events ∧
    events.map g.summary = sums

/-- What a call leaves behind and tells. -/
theorem handleTransaction_cases (g : TONIngestor D) (w : Moment D) (db : Tables) (item : String)
    (reply : Reply) (now : ℤ) :
    ((handleTransaction g w db item reply now).2 = db ∧
      ∀ events, (handleTransaction g w db item reply now).1 = .ok events →
        ∃ trace, g.fromStr item = .ok trace ∧ Summarises g trace (events.map g.summary) ∧
          events.map g.summary = []) ∨
    ∃ trace events, g.fromStr item = .ok trace ∧ Summarises g trace (events.map g.summary) ∧
      events.map g.summary ≠ [] ∧ (handleTransaction g w db item reply now).2 =
        updateEvents db trace.traceId (events.map g.summary) now ∧
      ∀ events', (handleTransaction g w db item reply now).1 = .ok events' → events' = events := by
  rw [handleTransaction]
  cases hread : g.fromStr item with
  | error _ => exact .inl ⟨rfl, fun _ h => nomatch h⟩
  | ok trace =>
    dsimp only
    cases hparse : parseTrace (atMoment g.traceParser w) trace with
    | error f =>
      refine .inl ?_
      cases f <;> exact ⟨rfl, fun _ h => nomatch h⟩
    | ok events =>
      dsimp only
      have hsum : Summarises g trace (events.map g.summary) := ⟨w, events, hparse, rfl⟩
      split
      · rename_i hnone
        refine .inl ⟨rfl, fun events' h => ?_⟩
        cases h
        exact ⟨trace, rfl, hsum, hnone⟩
      · rename_i hsome
        cases reply with
        | answered =>
          refine .inr ⟨trace, events, rfl, hsum, hsome, rfl, fun events' h => ?_⟩
          exact (Except.ok.inj h).symm
        | lost => exact .inr ⟨trace, events, rfl, hsum, hsome, rfl, fun _ h => nomatch h⟩
        | refused => exact .inl ⟨rfl, fun _ h => nomatch h⟩

end Ingestor

section Rows

variable {rows : TraceTable} {trace : Trace} {id : String}

theorem mem_upsert (now : ℤ) : id ∈ (upsertAndReturnIfChanged rows trace now).1 ↔
    id = trace.traceId ∨ id ∈ rows := by
  rw [upsertAndReturnIfChanged]
  split
  · exact AList.mem_insert rows
  · rename_i row hrow
    split
    · constructor
      · exact .inr
      · rintro (rfl | h)
        · exact AList.lookup_isSome.mp (by rw [hrow]; rfl)
        · exact h
    · exact AList.mem_insert rows

theorem mem_decreaseRetry (h : id ∈ rows) : id ∈ decreaseRetry rows trace := by
  rw [decreaseRetry]
  split
  · exact h
  · exact (AList.mem_insert rows).mpr (.inr h)

variable {S : Type*}

theorem mem_handle (source : Source S) (now : ℤ) (h : id ∈ rows) :
    id ∈ (handleOf source rows trace now).1 := by
  cases source with
  | some p => exact (mem_upsert now).mpr (.inr h)
  | none =>
    rw [handleOf, handleRetry]
    split
    · exact mem_decreaseRetry h
    · exact (mem_upsert now).mpr (.inr h)

/-- A trace that is new has a row. -/
theorem mem_handle_new (source : Source S) (now : ℤ)
    (h : (handleOf source rows trace now).2 = true) :
    trace.traceId ∈ (handleOf source rows trace now).1 := by
  rw [handle_complete source now (handle_new source now h)]
  exact (mem_upsert now).mpr (.inl rfl)

theorem mem_updateEvents {db : Tables} {sums : List EventSummary} {traceId : String} (now : ℤ)
    (h : id ∈ db.rows) : id ∈ (updateEvents db traceId sums now).rows := by
  rw [updateEvents]
  split
  · exact h
  · exact (AList.mem_insert db.rows).mpr (.inr h)

theorem updateEvents_events {db : Tables} {sums : List EventSummary} {traceId : String} (now : ℤ)
    (h : traceId ∈ db.rows) :
    (updateEvents db traceId sums now).events = db.events.insert traceId sums := by
  obtain ⟨row, hrow⟩ := Option.isSome_iff_exists.mp (AList.lookup_isSome.mpr h)
  rw [updateEvents, hrow]

end Rows

section System

variable {S : Type*} {D : Type}

structure PipelineState (S : Type*) where
  polls : SharedState S
  events : EventColumn
  told : List (String × List Event)

/-- `abandon` is a poll that ends without its vector, after a failed statement or a crash. -/
inductive PipelineEvent (S : Type*) (D : Type) where
  | poll (e : SharedEvent S)
  | abandon (source : Source S)
  | ingest (w : Moment D) (item : String) (reply : Reply) (now : ℤ)

structure Pipeline (D : Type) where
  ingestor : TONIngestor D
  makeQueueItem : Trace → Except String String

/-- An item is delivered as often as the queue likes once its trace was returned. -/
def Pipeline.Enabled (P : Pipeline D) (s : PipelineState S) : PipelineEvent S D → Prop
  | .poll e => SharedPolls.Enabled s.polls e
  | .abandon _ => True
  | .ingest _ item _ _ =>
    ∃ trace ∈ s.polls.returned.flatten, P.makeQueueItem trace = .ok item

variable [DecidableEq S]

def Pipeline.next (P : Pipeline D) (s : PipelineState S) : PipelineEvent S D → PipelineState S
  | .poll e => { s with polls := SharedPolls.next s.polls e }
  | .abandon source => { s with polls := setStage s.polls source .idle }
  | .ingest w item reply now =>
    let (result, db) := handleTransaction P.ingestor w ⟨s.polls.rows, s.events⟩ item reply now
    { polls := { s.polls with rows := db.rows }
      events := db.events
      told := match result with
        | .ok events => s.told ++ [(item, events)]
        | .error _ => s.told }

def Pipeline.system (P : Pipeline D) (rows : TraceTable) :
    System (PipelineState S) (PipelineEvent S D) where
  initial := ⟨SharedPolls.initial rows, ∅, []⟩
  Enabled := P.Enabled
  next := P.next

/-- What an item is made of is read back from it, and the summary of an event holds its id, its
message id and its type. -/
structure Documented (P : Pipeline D) : Prop where
  readsBack : ∀ trace item, P.makeQueueItem trace = .ok item →
    P.ingestor.fromStr item = .ok trace
  summary : ∀ e e', gist e = gist e' → P.ingestor.summary e = P.ingestor.summary e'

theorem summarises_unique {P : Pipeline D} (hP : Documented P) {trace : Trace}
    {sums sums' : List EventSummary} (h : Summarises P.ingestor trace sums)
    (h' : Summarises P.ingestor trace sums') : sums = sums' := by
  obtain ⟨w, events, hparse, rfl⟩ := h
  obtain ⟨w', events', hparse', rfl⟩ := h'
  have hgists := parseTrace_gists hparse hparse'
  rw [← List.forall₂_eq_eq_eq, List.forall₂_map_left_iff, List.forall₂_map_right_iff] at hgists ⊢
  exact hgists.imp fun e e' => hP.summary e e'

section Polls

variable {s : SharedState S} {e : SharedEvent S} {u : Trace}

/-- A poll has it, or returned it. -/
def Kept (s : SharedState S) (u : Trace) : Prop :=
  u ∈ s.returned.flatten ∨ ∃ source, u ∈ (s.stage source).unseen

theorem kept_setStage {source : Source S} {stage : Stage} (hstage : stage.unseen = [])
    (h : Kept (setStage s source stage) u) : Kept s u := by
  refine h.imp id ?_
  rintro ⟨other, hother⟩
  rw [unseen_setStage] at hother
  split at hother
  · rw [hstage] at hother
    cases hother
  · exact ⟨other, hother⟩

/-- Only a statement that finds a trace new makes a poll keep it. -/
theorem kept_next (he : SharedPolls.Enabled s e) (h : Kept (SharedPolls.next s e) u) :
    Kept s u ∨ ∃ source now, e = .handle source now ∧ u ∈ (SharedPolls.next s e).observed ∧
      u.isIncomplete = false ∧ u.traceId ∈ (SharedPolls.next s e).rows := by
  cases e with
  | fetch p page => exact .inl (kept_setStage rfl h)
  | answer page => exact .inl (kept_setStage rfl h)
  | fetchRetry =>
    rw [SharedPolls.next] at h
    split at h
    · exact .inl (h.imp (by simp) id)
    · exact .inl (kept_setStage rfl h)
  | finish source =>
    obtain ⟨unseen, hstage⟩ := he
    refine .inl ?_
    rcases h with h | ⟨other, hother⟩
    · rw [SharedPolls.next, hstage] at h
      dsimp only at h
      rw [List.flatten_append, List.mem_append] at h
      rcases h with h | h
      · exact .inl h
      · rw [List.flatten_singleton] at h
        exact .inr ⟨source, by rw [hstage]; exact h⟩
    · rw [SharedPolls.finish_pending hstage] at hother
      split at hother
      · cases hother
      · exact .inr ⟨other, hother⟩
  | handle source now =>
    obtain ⟨trace, rest, unseen, hstage⟩ := he
    obtain ⟨hobserved, hrows, hreturned, hunseen⟩ := SharedPolls.handle_step hstage now
    rcases h with h | ⟨other, hother⟩
    · rw [hreturned] at h
      exact .inl (.inl h)
    · rw [hunseen] at hother
      split at hother
      · rcases List.mem_append.mp hother with hother | hother
        · exact .inl (.inr ⟨source, by rw [hstage]; exact hother⟩)
        · split at hother
          · rename_i hnew
            rw [List.mem_singleton.mp hother]
            refine .inr ⟨source, now, rfl, ?_, handle_new source now hnew, ?_⟩
            · rw [hobserved]
              exact List.mem_append_right _ (List.mem_singleton_self _)
            · rw [hrows]
              exact mem_handle_new source now hnew
          · cases hother
      · exact .inl (.inr ⟨other, hother⟩)

theorem next_rows {id : String} (h : id ∈ s.rows) : id ∈ (SharedPolls.next s e).rows := by
  cases e with
  | handle source now =>
    rw [SharedPolls.next]
    split
    · exact mem_handle source now h
    · exact h
  | fetchRetry =>
    rw [SharedPolls.next]
    split <;> exact h
  | finish source =>
    rw [SharedPolls.next]
    split <;> exact h
  | fetch p page => exact h
  | answer page => exact h

theorem next_returned (h : u ∈ s.returned.flatten) :
    u ∈ (SharedPolls.next s e).returned.flatten := by
  have hmore (vec : List Trace) : u ∈ (s.returned ++ [vec]).flatten := by
    rw [List.flatten_append]
    exact List.mem_append_left _ h
  cases e with
  | handle source now =>
    rw [SharedPolls.next]
    split <;> exact h
  | fetchRetry =>
    rw [SharedPolls.next]
    split
    · exact hmore []
    · exact h
  | finish source =>
    rw [SharedPolls.next]
    split
    · exact hmore _
    · exact h
  | fetch p page => exact h
  | answer page => exact h

/-- What polls keep was observed complete and has a row. -/
def Fed (s : SharedState S) : Prop :=
  ∀ u, Kept s u → u ∈ s.observed ∧ u.isIncomplete = false ∧ u.traceId ∈ s.rows

theorem fed_next (hs : Fed s) (he : SharedPolls.Enabled s e) : Fed (SharedPolls.next s e) := by
  intro u hu
  rcases kept_next he hu with hkept | ⟨source, now, -, hfed⟩
  · obtain ⟨hobserved, hcomplete, hrow⟩ := hs u hkept
    obtain ⟨more, hmore⟩ := next_observed s e
    refine ⟨?_, hcomplete, next_rows hrow⟩
    rw [hmore]
    exact List.mem_append_left _ hobserved
  · exact hfed

theorem settles_unique {id : String} {observed : List Trace} {u v : Trace}
    (h : SettlesOn id observed) (hu : u ∈ observed) (hv : v ∈ observed) (huid : u.traceId = id)
    (hvid : v.traceId = id) (huc : u.isIncomplete = false) (hvc : v.isIncomplete = false) :
    u = v := by
  have hmem {x : Trace} (hx : x ∈ observed) (hid : x.traceId = id) : x ∈ ofId id observed :=
    List.mem_filter.mpr ⟨hx, decide_eq_true hid⟩
  have hforward : (ofId id observed).Pairwise fun first later =>
      first.isIncomplete = false → later.isIncomplete = false → first = later :=
    h.imp fun hlater hc _ => (hlater hc).symm
  have hbackward : (ofId id observed).Pairwise (flip fun first later : Trace =>
      first.isIncomplete = false → later.isIncomplete = false → first = later) :=
    h.imp fun hlater _ hc => hlater hc
  exact hforward.forall_of_forall_of_flip (fun _ _ _ _ => rfl) hbackward (hmem hu huid)
    (hmem hv hvid) huc hvc

end Polls

section Runs

variable {P : Pipeline D} {s : PipelineState S} {e : PipelineEvent S D} {rows : TraceTable}
variable {es : List (PipelineEvent S D)} {id : String} {sums : List EventSummary}

/-- A returned trace with this id has these summaries. -/
def Summarised (P : Pipeline D) (id : String) (sums : List EventSummary)
    (s : PipelineState S) : Prop :=
  ∃ trace ∈ s.polls.returned.flatten, trace.traceId = id ∧ Summarises P.ingestor trace sums

structure Invariant (P : Pipeline D) (s : PipelineState S) : Prop where
  fed : Fed s.polls
  column : ∀ id sums, s.events.lookup id = some sums → Summarised P id sums s
  told : ∀ p ∈ s.told, ∃ trace ∈ s.polls.returned.flatten, P.ingestor.fromStr p.1 = .ok trace ∧
    Summarises P.ingestor trace (p.2.map P.ingestor.summary) ∧
    (p.2.map P.ingestor.summary ≠ [] → ∃ sums, s.events.lookup trace.traceId = some sums)

theorem next_summarised (h : Summarised P id sums s) : Summarised P id sums (P.next s e) := by
  obtain ⟨trace, htrace, hid, hsums⟩ := h
  refine ⟨trace, ?_, hid, hsums⟩
  cases e with
  | poll e => exact next_returned htrace
  | abandon source => exact htrace
  | ingest w item reply now => exact htrace

theorem ingest_returned (w : Moment D) (item : String) (reply : Reply) (now : ℤ) :
    ((P.system rows).next s (.ingest w item reply now)).polls.returned = s.polls.returned := rfl

theorem invariant_ingest {w : Moment D} {item : String} {reply : Reply} {now : ℤ}
    (hP : Documented P) (hs : Invariant P s)
    (he : P.Enabled s (.ingest w item reply now)) :
    Invariant P (P.next s (.ingest w item reply now)) := by
  obtain ⟨given, hgiven, hitem⟩ := he
  have hread := hP.readsBack given item hitem
  rw [Pipeline.next]
  generalize hr : handleTransaction P.ingestor w ⟨s.polls.rows, s.events⟩ item reply now = r
  have hcases := handleTransaction_cases P.ingestor w ⟨s.polls.rows, s.events⟩ item reply now
  rw [hr] at hcases
  obtain ⟨result, db⟩ := r
  rcases hcases with ⟨hdb, hresult⟩ | ⟨trace, events, hread', hsum, hsome, hdb, hresult⟩
  · cases hdb
    refine ⟨hs.fed, hs.column, ?_⟩
    cases result with
    | error _ => exact hs.told
    | ok events =>
      obtain ⟨trace, hread', hsum, hnone⟩ := hresult events rfl
      cases hread.symm.trans hread'
      intro p hp
      rcases List.mem_append.mp hp with hp | hp
      · exact hs.told p hp
      · rw [List.mem_singleton.mp hp]
        exact ⟨given, hgiven, hread, hsum, fun h => absurd hnone h⟩
  · cases hread.symm.trans hread'
    have hrow : given.traceId ∈ s.polls.rows := (hs.fed given (.inl hgiven)).2.2
    have hevents : db.events = s.events.insert given.traceId (events.map P.ingestor.summary) := by
      rw [show db = _ from hdb]
      exact updateEvents_events now hrow
    have hlookup : db.events.lookup given.traceId = some (events.map P.ingestor.summary) := by
      rw [hevents]
      exact AList.lookup_insert _
    have hother {id : String} (h : id ≠ given.traceId) :
        db.events.lookup id = s.events.lookup id := by
      rw [hevents]
      exact AList.lookup_insert_ne h
    constructor
    · intro u hu
      obtain ⟨hobserved, hcomplete, hmem⟩ := hs.fed u hu
      refine ⟨hobserved, hcomplete, ?_⟩
      rw [show db = _ from hdb]
      exact mem_updateEvents now hmem
    · intro id sums hsums
      by_cases hid : id = given.traceId
      · subst hid
        cases hlookup.symm.trans hsums
        exact ⟨given, hgiven, rfl, hsum⟩
      · exact hs.column id sums ((hother hid).symm.trans hsums)
    · have hkept : ∀ p ∈ s.told, ∃ trace ∈ s.polls.returned.flatten,
          P.ingestor.fromStr p.1 = .ok trace ∧
          Summarises P.ingestor trace (p.2.map P.ingestor.summary) ∧
          (p.2.map P.ingestor.summary ≠ [] →
            ∃ sums, db.events.lookup trace.traceId = some sums) := by
        intro p hp
        obtain ⟨trace, htrace, hp, hsums, hcolumn⟩ := hs.told p hp
        refine ⟨trace, htrace, hp, hsums, fun h => ?_⟩
        by_cases hid : trace.traceId = given.traceId
        · exact ⟨_, hid ▸ hlookup⟩
        · rw [hother hid]
          exact hcolumn h
      cases result with
      | error _ => exact hkept
      | ok events' =>
        cases hresult events' rfl
        intro p hp
        rcases List.mem_append.mp hp with hp | hp
        · exact hkept p hp
        · rw [List.mem_singleton.mp hp]
          exact ⟨given, hgiven, hread, hsum, fun _ => ⟨_, hlookup⟩⟩

theorem invariant_next (hP : Documented P) (hs : Invariant P s) (he : P.Enabled s e) :
    Invariant P (P.next s e) := by
  cases e with
  | ingest w item reply now => exact invariant_ingest hP hs he
  | poll e =>
    refine ⟨fed_next hs.fed he, ?_, ?_⟩
    · intro id sums h
      exact next_summarised (e := .poll e) (hs.column id sums h)
    · intro p hp
      obtain ⟨trace, htrace, htold⟩ := hs.told p hp
      exact ⟨trace, next_returned htrace, htold⟩
  | abandon source =>
    refine ⟨?_, hs.column, hs.told⟩
    intro u hu
    exact hs.fed u (kept_setStage rfl hu)

theorem initial_invariant (P : Pipeline D) (rows : TraceTable) :
    Invariant P (P.system (S := S) rows).initial := by
  constructor
  · rintro u (hu | ⟨source, hu⟩)
    · cases hu
    · cases hu
  · intro id sums h
    cases h
  · intro p hp
    cases hp

end Runs

section Samples

open EventAuthenticity (sampleParser paidCall)

def sampleIngestor : TONIngestor ℕ where
  traceParser := sampleParser
  fromStr := fun item => if item = "paid call" then .ok paidCall else .error "expected value"
  fromEvent := fun e =>
    let g := gist e
    ⟨g.eventId, some g.messageId, if g.kind = .call then "CALL" else "GAS_CREDIT"⟩

def samplePipeline : Pipeline ℕ where
  ingestor := sampleIngestor
  makeQueueItem := fun trace => if trace = paidCall then .ok "paid call" else .error "expected map"

theorem samplePipeline_documented : Documented samplePipeline := by
  constructor
  · intro trace item h
    have hitem : (if trace = paidCall then .ok "paid call" else .error "expected map" :
        Except String String) = .ok item := h
    split at hitem
    · rename_i htrace
      cases hitem
      rw [htrace]
      rfl
    · cases hitem
  · intro e e' h
    exact congrArg (fun g : Gist => (⟨g.eventId, some g.messageId,
      if g.kind = .call then "CALL" else "GAS_CREDIT"⟩ : EventSummary)) h

/-- The first ingestor loses its database after the statement, the second sees other prices. -/
def sampleRun : List (PipelineEvent ℕ ℕ) :=
  [.poll (.fetch 0 [paidCall]), .poll (.handle (some 0) 0), .poll (.finish (some 0)),
    .ingest ⟨"2025-06-01T00:00:00Z", fun _ => .error "no price"⟩ "paid call" .lost 1,
    .ingest ⟨"2025-06-01T00:01:00Z", fun _ => .ok 3⟩ "paid call" .answered 2]

theorem sampleRun_valid : (samplePipeline.system ∅).Valid sampleRun := by
  have hitem : samplePipeline.makeQueueItem paidCall = .ok "paid call" := by
    simp only [samplePipeline, if_true]
  refine ⟨rfl, ⟨_, _, _, rfl⟩, ⟨_, rfl⟩, ⟨paidCall, ?_, hitem⟩, ⟨paidCall, ?_, hitem⟩, trivial⟩
  · exact List.mem_singleton_self _
  · rw [ingest_returned]
    exact List.mem_singleton_self _

end Samples

end System

end Ingestion
