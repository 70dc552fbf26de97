import TonRelayer.SharedPolls

/-! The retries of an incomplete trace, across all interleavings of the pollers.
A row starts with ten. Only the retry subscriber spends them, one for each incomplete copy that
the API answers it with, and it asks for rows that have some left. -/
namespace RetryBudget

open Types TransitionRuns SharedPolls
open TraceSubscribers hiding next initial

variable {S : Type*}

/-- The API answers the retry subscriber with ids it was asked for, each at most once. -/
def AnswersAsked (s : SharedState S) : SharedEvent S → Prop
  | .answer page => ∀ ids, s.stage none = .asked ids →
      (∀ trace ∈ page, trace.traceId ∈ ids) ∧ (page.map Trace.traceId).Nodup
  | _ => True

/-- And with each of them. -/
def AnswersAll (s : SharedState S) (e : SharedEvent S) : Prop :=
  AnswersAsked s e ∧ ∀ page ids, e = .answer page → s.stage none = .asked ids →
    ∀ id ∈ ids, ∃ trace ∈ page, trace.traceId = id

/-- The retry subscriber records an incomplete copy of the trace. -/
def Spends (id : String) (p : SharedState S × SharedEvent S) : Bool :=
  match p.2, p.1.stage none with
  | .handle none _, .looping (trace :: _) _ => trace.isIncomplete && trace.traceId == id
  | _, _ => false

/-- The retry subscriber is about to ask for the trace. -/
def AsksFor (id : String) (p : SharedState S × SharedEvent S) : Bool :=
  match p.2 with
  | .fetchRetry => decide (id ∈ (fetchRetry p.1.rows 100).map Sigma.fst)
  | _ => false

section Rows

variable {rows : TraceTable} {trace : Trace} {id : String}

def retriesOf (rows : TraceTable) (id : String) : Option ℤ :=
  (rows.lookup id).map TONTrace.retries

/-- The retries of the row; one that is not there yet will have the default. -/
def left (rows : TraceTable) (id : String) : ℤ := (retriesOf rows id).getD defaultRetries

/-- The row is there and has retries left. -/
def Live (rows : TraceTable) (id : String) : Prop := ∃ n, retriesOf rows id = some n ∧ 0 < n

theorem live_left (h : Live rows id) : 0 < left rows id := by
  obtain ⟨n, hn, hpos⟩ := h
  rwa [left, hn]

theorem fetchRetry_pending {limit : ℕ} (h : id ∈ (fetchRetry rows limit).map Sigma.fst) :
    Live rows id ∧ Unsettled id rows := by
  obtain ⟨⟨id', row⟩, hmem, rfl⟩ := List.mem_map.mp h
  rw [fetchRetry] at hmem
  obtain ⟨hentry, hpending⟩ := List.mem_filter.mp
    ((List.mem_insertionSort _).mp (List.mem_of_mem_take hmem))
  rw [Bool.and_eq_true_iff, decide_eq_true_eq] at hpending
  have hrow : rows.lookup id' = some row := (List.mem_dlookup_iff rows.nodupKeys).mpr hentry
  refine ⟨⟨row.retries, by rw [retriesOf, hrow]; rfl, hpending.1⟩, fun row' hrow' => ?_⟩
  obtain rfl := Option.some.inj (hrow.symm.trans hrow')
  exact hpending.2

/-- The upsert leaves the column alone, or sets the default in a new row. -/
theorem upsert_retries (now : ℤ) :
    retriesOf (upsertAndReturnIfChanged rows trace now).1 trace.traceId =
      some (left rows trace.traceId) := by
  rw [upsertAndReturnIfChanged, left, retriesOf, retriesOf]
  split
  · rename_i hnone
    rw [hnone, AList.lookup_insert]
    rfl
  · rename_i row hrow
    split
    · rw [hrow]
      rfl
    · rw [hrow, AList.lookup_insert]
      rfl

theorem decreaseRetry_retries : retriesOf (decreaseRetry rows trace) trace.traceId =
    (retriesOf rows trace.traceId).map (· - 1) := by
  rw [decreaseRetry, retriesOf, retriesOf]
  split
  · rename_i hnone
    rw [hnone]
    rfl
  · rename_i row hrow
    rw [hrow, AList.lookup_insert]
    rfl

theorem handle_retries_ne (source : Source S) (now : ℤ) (h : id ≠ trace.traceId) :
    retriesOf (handleOf source rows trace now).1 id = retriesOf rows id := by
  rw [retriesOf, retriesOf, handle_lookup_ne source now h]

/-- Every statement but that of the retry subscriber for an incomplete copy is the upsert. -/
theorem handle_retries (source : Source S) (now : ℤ)
    (h : source ≠ none ∨ trace.isIncomplete = false) :
    retriesOf (handleOf source rows trace now).1 trace.traceId =
      some (left rows trace.traceId) := by
  cases source with
  | some p => exact upsert_retries now
  | none =>
    rw [handleOf, handleRetry, if_neg (by simpa using h)]
    exact upsert_retries now

theorem retry_retries (now : ℤ) (h : trace.isIncomplete = true) :
    retriesOf (handleOf (S := S) none rows trace now).1 trace.traceId =
      (retriesOf rows trace.traceId).map (· - 1) := by
  rw [handleOf, handleRetry, if_pos h]
  exact decreaseRetry_retries

end Rows

section Flights

/-- The retry subscriber has asked for the trace, or been answered, and not yet recorded it. -/
def InFlight (id : String) : Stage → Prop
  | .idle => False
  | .asked ids => id ∈ ids
  | .looping rest _ => ofId id rest ≠ []

/-- While a copy is in flight its row has a retry for it, and there is one copy. -/
structure Budgeted (s : SharedState S) (id : String) : Prop where
  nonneg : 0 ≤ left s.rows id
  live : InFlight id (s.stage none) → Live s.rows id
  single : ∀ rest unseen, s.stage none = .looping rest unseen → (ofId id rest).length ≤ 1

/-- What a step does to the retries of one trace and to its copy in flight: `spends` and `asks`
say whether the retry subscriber records an incomplete copy, or asks for the trace. -/
inductive Account (s s' : SharedState S) (id : String) (e : SharedEvent S) : Bool → Bool → Prop
  | same (hleft : left s'.rows id = left s.rows id) (hlive : Live s.rows id → Live s'.rows id)
      (hflight : InFlight id (s'.stage none) → InFlight id (s.stage none))
      (hkept : AnswersAll s e → InFlight id (s.stage none) → InFlight id (s'.stage none)) :
    Account s s' id e false false
  | asked (hrows : s'.rows = s.rows) (hlive : Live s.rows id) (hpending : Unsettled id s.rows)
      (hidle : ¬ InFlight id (s.stage none)) (hflight : InFlight id (s'.stage none)) :
    Account s s' id e false true
  | spent (hflight : InFlight id (s.stage none)) (hlanded : ¬ InFlight id (s'.stage none))
      (hretries : retriesOf s'.rows id = (retriesOf s.rows id).map (· - 1)) :
    Account s s' id e true false
  | settled (hflight : InFlight id (s.stage none)) (hlanded : ¬ InFlight id (s'.stage none))
      (hleft : left s'.rows id = left s.rows id) (hcomplete : ¬ Unsettled id s'.rows) :
    Account s s' id e false false

variable {s : SharedState S} {id : String} {e : SharedEvent S}

theorem live_of_retries {rows rows' : TraceTable} (h : retriesOf rows' id = retriesOf rows id) :
    Live rows id → Live rows' id := by
  rw [Live, Live, h]
  exact fun h => h

theorem left_of_retries {rows rows' : TraceTable} (h : retriesOf rows' id = retriesOf rows id) :
    left rows' id = left rows id := by
  rw [left, left, h]

theorem left_of_upsert {rows rows' : TraceTable} (h : retriesOf rows' id = some (left rows id)) :
    left rows' id = left rows id ∧ (Live rows id → Live rows' id) := by
  constructor
  · rw [left, h]
    rfl
  · exact fun hlive => ⟨_, h, live_left hlive⟩

theorem ofId_answered {page : List Trace} (h : (page.map Trace.traceId).Nodup) :
    (ofId id page).length ≤ 1 := by
  induction page with
  | nil => simp [ofId]
  | cons trace page ih =>
    rw [List.map_cons, List.nodup_cons] at h
    by_cases hid : trace.traceId = id
    · have hrest : ofId id page = [] := by
        rw [ofId, List.filter_eq_nil_iff]
        intro u hu heq
        exact h.1 (List.mem_map.mpr ⟨u, hu, (of_decide_eq_true heq).trans hid.symm⟩)
      rw [ofId, List.filter_cons_of_pos (by simpa using hid), ← ofId, hrest]
      simp
    · rw [ofId, List.filter_cons_of_neg (by simpa using hid)]
      exact ih h.2

theorem ofId_cons (trace : Trace) (rest : List Trace) :
    ofId id (trace :: rest) =
      if trace.traceId = id then trace :: ofId id rest else ofId id rest := by
  simp [ofId, List.filter_cons]

theorem budgeted_initial {rows : TraceTable} (h : 0 ≤ left rows id) :
    Budgeted (initial (S := S) rows) id := ⟨h, fun hflight => hflight.elim, by simp [initial]⟩

theorem answersAll_other (h : ∀ page, e ≠ .answer page) : AnswersAll s e := by
  cases e with
  | answer page => exact absurd rfl (h page)
  | _ => exact ⟨trivial, nofun⟩

theorem answersAll_one {trace : Trace} (h : s.stage none = .asked [trace.traceId]) :
    AnswersAll s (.answer [trace]) := by
  refine ⟨fun ids hids => ?_, fun page ids hpage hids id hid => ?_⟩
  · cases h.symm.trans hids
    simp
  · cases hpage
    cases h.symm.trans hids
    exact ⟨trace, by simp, (List.mem_singleton.mp hid).symm⟩

/-- A step that touches neither the row nor what the retry subscriber is doing. -/
theorem account_same {s' : SharedState S} (hstage : s'.stage none = s.stage none)
    (hleft : left s'.rows id = left s.rows id) (hlive : Live s.rows id → Live s'.rows id) :
    Account s s' id e false false :=
  .same hleft hlive (hstage ▸ fun h => h) fun _ => hstage ▸ fun h => h

variable [DecidableEq S]

theorem stage_none (s : SharedState S) (p : S) (stage : Stage) :
    (setStage s (some p) stage).stage none = s.stage none := by
  simp [setStage]

theorem stage_set (s : SharedState S) (source : Source S) (stage : Stage) :
    (setStage s source stage).stage source = stage := Function.update_self _ _ _

theorem handle_account {source : Source S} {now : ℤ} (hs : Budgeted s id)
    (he : Enabled s (.handle source now)) :
    Account s (next s (.handle source now)) id (.handle source now)
      (Spends id (s, .handle source now)) false := by
  obtain ⟨trace, rest, unseen, h⟩ := he
  have hrows := (handle_step h now).2.1
  cases source with
  | some p =>
    have hstage : (next s (.handle (some p) now)).stage none = s.stage none := by
      rw [next, h]
      dsimp only
      exact stage_none s p _
    by_cases hid : id = trace.traceId
    · subst hid
      have hretries : retriesOf (handleOf (some p) s.rows trace now).1 trace.traceId =
          some (left s.rows trace.traceId) := handle_retries (some p) now (.inl (by simp))
      obtain ⟨hleft, hlive⟩ := left_of_upsert hretries
      exact account_same hstage (by rw [hrows, hleft]) (by rw [hrows]; exact hlive)
    · have hretries : retriesOf (handleOf (some p) s.rows trace now).1 id = retriesOf s.rows id :=
        handle_retries_ne (some p) now hid
      exact account_same hstage (by rw [hrows, left_of_retries hretries])
        (by rw [hrows]; exact live_of_retries hretries)
  | none =>
    obtain ⟨unseen', hstage⟩ : ∃ unseen',
        (next s (.handle none now)).stage none = .looping rest unseen' := by
      rw [next, h]
      exact ⟨_, stage_set s none _⟩
    by_cases hid : id = trace.traceId
    · have hflight : InFlight id (s.stage none) := by
        rw [h, InFlight, ofId_cons, if_pos hid.symm]
        simp
      have hlanded : ¬ InFlight id ((next s (.handle none now)).stage none) := by
        have hsingle := hs.single _ _ h
        rw [ofId_cons, if_pos hid.symm, List.length_cons] at hsingle
        rw [hstage, InFlight, not_not]
        exact List.eq_nil_of_length_eq_zero (by omega)
      subst hid
      cases hi : trace.isIncomplete with
      | true =>
        have hspends : Spends trace.traceId (s, .handle none now) = true := by
          simp [Spends, h, hi]
        rw [hspends]
        exact .spent hflight hlanded (by rw [hrows, retry_retries now hi])
      | false =>
        have hspends : Spends trace.traceId (s, .handle none now) = false := by
          simp [Spends, h, hi]
        rw [hspends]
        have hretries : retriesOf (handleOf (none : Source S) s.rows trace now).1 trace.traceId =
            some (left s.rows trace.traceId) := handle_retries none now (.inr hi)
        obtain ⟨hleft, -⟩ := left_of_upsert hretries
        refine .settled hflight hlanded (by rw [hrows, hleft]) ?_
        rw [hrows, handle_complete none now hi]
        exact recorded_complete (upsert_recorded now) hi
    · have hspends : Spends id (s, .handle none now) = false := by
        simp [Spends, h, Ne.symm hid]
      have hretries : retriesOf (handleOf (none : Source S) s.rows trace now).1 id =
          retriesOf s.rows id := handle_retries_ne none now hid
      have hrest : ofId id (trace :: rest) = ofId id rest := by
        rw [ofId_cons, if_neg (Ne.symm hid)]
      rw [hspends]
      refine .same (by rw [hrows, left_of_retries hretries])
        (by rw [hrows]; exact live_of_retries hretries) ?_ fun _ => ?_
      · rw [hstage, h, InFlight, InFlight, hrest]
        exact fun h => h
      · rw [hstage, h, InFlight, InFlight, hrest]
        exact fun h => h

theorem step_account (hs : Budgeted s id) (he : Enabled s e) (hc : AnswersAsked s e) :
    Account s (next s e) id e (Spends id (s, e)) (AsksFor id (s, e)) := by
  cases e with
  | fetch p page => exact account_same (stage_none s p _) rfl fun h => h
  | fetchRetry =>
    have hidle : ¬ InFlight id (s.stage none) := by
      rw [he]
      exact fun h => h
    by_cases hmem : id ∈ (fetchRetry s.rows 100).map Sigma.fst
    · have hasks : AsksFor id (s, .fetchRetry) = true := decide_eq_true hmem
      rw [hasks]
      obtain ⟨hlive, hpending⟩ := fetchRetry_pending hmem
      have hnext : next s .fetchRetry =
          setStage s none (.asked ((fetchRetry s.rows 100).map Sigma.fst)) := by
        rw [next]
        split
        · rename_i hnil
          rw [hnil] at hmem
          cases hmem
        · rename_i hcons
          rw [hcons]
      rw [hnext]
      refine .asked rfl hlive hpending hidle ?_
      rw [stage_set]
      exact hmem
    · have hasks : AsksFor id (s, .fetchRetry) = false := decide_eq_false hmem
      rw [hasks]
      refine .same ?_ ?_ ?_ fun _ h => absurd h hidle
      · rw [next]
        split <;> rfl
      · rw [next]
        split <;> exact fun h => h
      · intro h
        rw [next] at h
        split at h
        · exact h
        · rename_i hcons
          rw [stage_set] at h
          rw [hcons] at hmem
          exact absurd h hmem
  | answer page =>
    obtain ⟨ids, hids⟩ := he
    refine .same rfl (fun h => h) (fun h => ?_) fun hall h => ?_
    · obtain ⟨trace, htrace⟩ := List.exists_mem_of_ne_nil _ (stage_set s none _ ▸ h)
      obtain ⟨hpage, hid⟩ := List.mem_filter.mp htrace
      rw [hids, InFlight, ← of_decide_eq_true hid]
      exact (hc ids hids).1 trace hpage
    · rw [hids] at h
      obtain ⟨trace, hpage, hid⟩ := hall.2 page ids rfl hids id h
      have hmem : trace ∈ ofId id page := List.mem_filter.mpr ⟨hpage, decide_eq_true hid⟩
      rw [next, stage_set]
      exact List.ne_nil_of_mem hmem
  | handle source now => exact handle_account hs he
  | finish source =>
    obtain ⟨unseen, h⟩ := he
    cases source with
    | some p =>
      refine account_same ?_ ?_ ?_
      · rw [next, h]
        dsimp only
        exact stage_none s p _
      · rw [next, h]
        rfl
      · rw [next, h]
        exact fun hlive => hlive
    | none =>
      have hidle : ¬ InFlight id (s.stage none) := by
        rw [h]
        exact fun hne => hne rfl
      refine .same ?_ ?_ (fun hflight => ?_) fun _ hflight => absurd hflight hidle
      · rw [next, h]
        rfl
      · rw [next, h]
        exact fun hlive => hlive
      · have hstage : (next s (.finish none)).stage none = .idle := by
          rw [next, h]
          exact stage_set s none _
        rw [hstage] at hflight
        exact hflight.elim

theorem single_next (hs : Budgeted s id) (he : Enabled s e) (hc : AnswersAsked s e)
    (rest unseen : List Trace) (h : (next s e).stage none = .looping rest unseen) :
    (ofId id rest).length ≤ 1 := by
  cases e with
  | fetch p page =>
    rw [next, stage_none] at h
    exact hs.single _ _ h
  | fetchRetry =>
    rw [next] at h
    split at h
    · rw [show s.stage none = .idle from he] at h
      cases h
    · rw [stage_set] at h
      cases h
  | answer page =>
    obtain ⟨ids, hids⟩ := he
    rw [next, stage_set] at h
    cases h
    exact ofId_answered (hc ids hids).2
  | handle source now =>
    obtain ⟨trace, rest', unseen', hstage⟩ := he
    rw [next, hstage] at h
    cases source with
    | some p =>
      dsimp only at h
      rw [stage_none] at h
      exact hs.single _ _ h
    | none =>
      dsimp only at h
      rw [stage_set] at h
      cases h
      have hsingle := hs.single _ _ hstage
      rw [ofId_cons] at hsingle
      split at hsingle
      · exact Nat.le_of_succ_le hsingle
      · exact hsingle
  | finish source =>
    obtain ⟨unseen', hstage⟩ := he
    rw [next, hstage] at h
    cases source with
    | some p =>
      dsimp only at h
      rw [stage_none] at h
      exact hs.single _ _ h
    | none =>
      dsimp only at h
      rw [stage_set] at h
      cases h

theorem left_spent {rows rows' : TraceTable} (hlive : Live rows id)
    (h : retriesOf rows' id = (retriesOf rows id).map (· - 1)) :
    left rows' id = left rows id - 1 := by
  obtain ⟨n, hn, -⟩ := hlive
  rw [left, left, h, hn]
  rfl

theorem budgeted_next (hs : Budgeted s id) (he : Enabled s e) (hc : AnswersAsked s e) :
    Budgeted (next s e) id := by
  have hsingle := single_next hs he hc
  have haccount := step_account hs he hc
  generalize Spends id (s, e) = spends, AsksFor id (s, e) = asks at haccount
  cases haccount with
  | same hleft hlive hflight _ =>
    exact ⟨hleft ▸ hs.nonneg, fun h => hlive (hs.live (hflight h)), hsingle⟩
  | asked hrows hlive _ _ _ =>
    rw [← hrows] at hlive
    exact ⟨(live_left hlive).le, fun _ => hlive, hsingle⟩
  | spent hflight hlanded hretries =>
    have hpos := live_left (hs.live hflight)
    refine ⟨?_, fun h => absurd h hlanded, hsingle⟩
    rw [left_spent (hs.live hflight) hretries]
    omega
  | settled _ hlanded hleft _ =>
    exact ⟨hleft ▸ hs.nonneg, fun h => absurd h hlanded, hsingle⟩

end Flights

section Runs

variable [DecidableEq S] {s : SharedState S} {e : SharedEvent S} {es : List (SharedEvent S)}
variable {rows : TraceTable} {id : String}

theorem spends_next {n : ℕ} {total : ℤ} (hs : Budgeted s id) (hn : left s.rows id + n = total)
    (he : Enabled s e) (hc : AnswersAsked s e) :
    left (next s e).rows id + ↑(n + if Spends id (s, e) then 1 else 0) = total := by
  have haccount := step_account hs he hc
  generalize Spends id (s, e) = spends, AsksFor id (s, e) = asks at haccount ⊢
  cases haccount with
  | same hleft _ _ _ | settled _ _ hleft _ => rw [hleft]; simpa using hn
  | asked hrows _ _ _ _ => rw [hrows]; simpa using hn
  | spent hflight _ hretries =>
    rw [left_spent (hs.live hflight) hretries]
    simp only [if_true]
    omega

/-- A poller hands over an incomplete trace, which is still incomplete when it is asked for. -/
def spentTrace : List (SharedEvent ℕ) :=
  let early : Trace := { completeTrace "a" 5 with isIncomplete := true }
  [.fetch 0 [early], .handle (some 0) 0, .finish (some 0), .fetchRetry, .answer [early],
    .handle none 1, .finish none]

theorem spentTrace_valid : (shared ∅).Valid spentTrace :=
  ⟨rfl, ⟨_, _, _, rfl⟩, ⟨_, rfl⟩, rfl, ⟨_, rfl⟩, ⟨_, _, _, rfl⟩, ⟨_, rfl⟩, trivial⟩

theorem spentTrace_answers :
    ∀ p ∈ (shared (S := ℕ) ∅).steps spentTrace, AnswersAll p.1 p.2 := by
  simp only [System.steps, spentTrace, System.stepsFrom, List.forall_mem_cons]
  refine ⟨?_, ?_, ?_, ?_, answersAll_one rfl, ?_, ?_, by simp⟩ <;>
    exact answersAll_other (by simp)

/-- How often the trace was asked for: while it is incomplete, each time but one in flight was
paid with a retry. -/
structure Tally (total : ℤ) (s : SharedState S) (id : String) (n : ℕ) : Prop where
  bound : n ≤ total
  flying : Unsettled id s.rows → InFlight id (s.stage none) → n + left s.rows id ≤ total + 1
  landed : Unsettled id s.rows → ¬ InFlight id (s.stage none) → n + left s.rows id ≤ total

theorem tally_next {total : ℤ} {n : ℕ} (hs : Budgeted s id) (ht : Tally total s id n)
    (he : Enabled s e) (hc : AnswersAll s e)
    (hsettled : Unsettled id (next s e).rows → Unsettled id s.rows) :
    Tally total (next s e) id (n + if AsksFor id (s, e) then 1 else 0) := by
  have haccount := step_account hs he hc.1
  generalize Spends id (s, e) = spends, AsksFor id (s, e) = asks at haccount ⊢
  cases haccount with
  | same hleft _ hflight hkept =>
    refine ⟨ht.bound, fun hu h => ?_, fun hu h => ?_⟩
    · rw [hleft]
      exact ht.flying (hsettled hu) (hflight h)
    · rw [hleft]
      exact ht.landed (hsettled hu) fun h' => h (hkept hc h')
  | asked hrows hlive hpending hidle hflight =>
    have hbefore := ht.landed hpending hidle
    have hpos := live_left hlive
    refine ⟨by simp only [if_true]; omega, fun _ _ => ?_, fun _ h => absurd hflight h⟩
    rw [hrows]
    simp only [if_true]
    omega
  | spent hflight hlanded hretries =>
    refine ⟨ht.bound, fun _ h => absurd h hlanded, fun hu _ => ?_⟩
    have hbefore := ht.flying (hsettled hu) hflight
    rw [left_spent (hs.live hflight) hretries]
    simp only [Bool.false_eq_true, if_false]
    omega
  | settled _ _ _ hcomplete =>
    exact ⟨ht.bound, fun hu => absurd hu hcomplete, fun hu => absurd hu hcomplete⟩

/-- A complete copy that is recorded stays recorded, as long as the API does not contradict it. -/
theorem unsettled_before (hs : Progress s id) (hs' : Progress (next s e) id)
    (hu : Unsettled id (next s e).rows) : Unsettled id s.rows := by
  rcases hs with hwaiting | ⟨copy, hsettled⟩
  · exact hwaiting.rows
  · rcases hs' with hwaiting | ⟨copy', hsettled'⟩
    · obtain ⟨more, hmore⟩ := next_observed s e
      have hmem : copy ∈ ofId id (next s e).observed := by
        rw [hmore, ofId_append]
        exact List.mem_append_left _ hsettled.observed
      have hincomplete := hwaiting.observed copy hmem
      rw [hsettled.complete] at hincomplete
      cases hincomplete
    · have hid : copy'.traceId = id :=
        of_decide_eq_true (List.mem_filter.mp hsettled'.observed).2
      exact absurd (hid ▸ hu) (recorded_complete hsettled'.rows hsettled'.complete)

theorem settlesOn_before (h : SettlesOn id (next s e).observed) : SettlesOn id s.observed := by
  obtain ⟨more, hmore⟩ := next_observed s e
  rw [hmore, SettlesOn, ofId_append, List.pairwise_append] at h
  exact h.1

end Runs

end RetryBudget
