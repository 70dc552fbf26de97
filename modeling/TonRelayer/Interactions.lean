import Mathlib.Data.List.Basic

/-! Programs that call on others and go on with the answer.
A run is the list of the calls made, each with its answer. Nothing is assumed about who
answers, so what holds of every run holds whatever the answers are. -/
namespace Interactions

inductive Program (C : Type) (R : C → Type) (α : Type) where
  | done (a : α)
  | call (c : C) (next : R c → Program C R α)

variable {C : Type} {R : C → Type} {α β ε : Type}

/-- A call with its answer. -/
abbrev Interaction (C : Type) (R : C → Type) := (c : C) × R c

def Program.bind : Program C R α → (α → Program C R β) → Program C R β
  | .done a, f => f a
  | .call c next, f => .call c fun r => (next r).bind f

instance : Monad (Program C R) where
  pure := .done
  bind := Program.bind

def ask (c : C) : Program C R (R c) := .call c .done

inductive Runs : Program C R α → List (Interaction C R) → α → Prop where
  | done (a : α) : Runs (.done a) [] a
  | call {c : C} {next : R c → Program C R α} {r : R c} {log : List (Interaction C R)} {a : α}
      (h : Runs (next r) log a) : Runs (.call c next) (⟨c, r⟩ :: log) a

section Runs

variable {log : List (Interaction C R)} {a b : α}

theorem runs_pure : Runs (pure a : Program C R α) log b ↔ log = [] ∧ b = a := by
  constructor
  · intro h
    cases h
    exact ⟨rfl, rfl⟩
  · rintro ⟨rfl, rfl⟩
    exact .done b

theorem runs_ask {c : C} {r : R c} : Runs (ask c) log r ↔ log = [⟨c, r⟩] := by
  constructor
  · intro h
    cases h with
    | call h =>
      cases h
      rfl
  · rintro rfl
    exact .call (.done r)

/-- A run of a sequence is a run of its first part and then one of the rest. -/
theorem runs_bind {p : Program C R α} {f : α → Program C R β} {b : β} :
    Runs (p >>= f) log b ↔
      ∃ before a after, log = before ++ after ∧ Runs p before a ∧ Runs (f a) after b := by
  constructor
  · intro h
    induction p generalizing log with
    | done a => exact ⟨[], a, log, rfl, .done a, h⟩
    | call c next ih =>
      cases h with
      | call h =>
        obtain ⟨before, a, after, rfl, hp, hf⟩ := ih _ h
        exact ⟨_, a, after, rfl, .call hp, hf⟩
  · rintro ⟨before, a, after, rfl, hp, hf⟩
    induction hp with
    | done a => exact hf
    | call _ ih => exact .call (ih hf)

end Runs

section Answers

/-- The answers of the outside, which may depend on all that went before. -/
abbrev Answers (C : Type) (R : C → Type) := List (Interaction C R) → (c : C) → R c

def Follows (answers : Answers C R) (log : List (Interaction C R)) : Prop :=
  ∀ before i after, log = before ++ i :: after → i.2 = answers before i.1

theorem follows_cons {answers : Answers C R} {i : Interaction C R}
    {log : List (Interaction C R)} : Follows answers (i :: log) ↔
      i.2 = answers [] i.1 ∧ Follows (fun before => answers (i :: before)) log := by
  constructor
  · intro h
    refine ⟨h [] i log rfl, ?_⟩
    rintro before j after rfl
    exact h (i :: before) j after rfl
  · rintro ⟨hi, hlog⟩ before j after h
    cases before with
    | nil =>
      cases h
      exact hi
    | cons k before =>
      cases h
      exact hlog before j after rfl

/-- Every program comes to an end, whatever it is answered. -/
theorem runs_to_end (p : Program C R α) (answers : Answers C R) :
    ∃ log a, Runs p log a ∧ Follows answers log := by
  induction p generalizing answers with
  | done a => exact ⟨[], a, .done a, by simp [Follows]⟩
  | call c next ih =>
    obtain ⟨log, a, hrun, hlog⟩ := ih (answers [] c) fun before =>
      answers (⟨c, answers [] c⟩ :: before)
    exact ⟨_, a, .call hrun, follows_cons.mpr ⟨rfl, hlog⟩⟩

end Answers

section Fallible

/-- A program that may fail; what follows a failure is not run. -/
abbrev Fallible (C : Type) (R : C → Type) (ε α : Type) := ExceptT ε (Program C R) α

variable {log : List (Interaction C R)}

theorem runs_ok {a : α} {r : Except ε α} :
    Runs (pure a : Fallible C R ε α).run log r ↔ log = [] ∧ r = .ok a := runs_pure

theorem runs_throw {e : ε} {r : Except ε α} :
    Runs (throw e : Fallible C R ε α).run log r ↔ log = [] ∧ r = .error e := runs_pure

theorem runs_lift {p : Program C R α} {r : Except ε α} :
    Runs (ExceptT.lift p : Fallible C R ε α).run log r ↔ ∃ a, Runs p log a ∧ r = .ok a := by
  rw [show (ExceptT.lift p : Fallible C R ε α).run = p >>= fun a => .done (.ok a) from rfl,
    runs_bind]
  constructor
  · rintro ⟨before, a, after, rfl, hp, hdone⟩
    cases hdone
    exact ⟨a, by simpa using hp, rfl⟩
  · rintro ⟨a, hp, rfl⟩
    exact ⟨log, a, [], by simp, hp, .done _⟩

theorem runs_then {x : Fallible C R ε α} {f : α → Fallible C R ε β} {r : Except ε β} :
    Runs (x >>= f).run log r ↔
      (∃ e, Runs x.run log (.error e) ∧ r = .error e) ∨
      ∃ before a after, log = before ++ after ∧ Runs x.run before (.ok a) ∧
        Runs (f a).run after r := by
  rw [ExceptT.run_bind, runs_bind]
  constructor
  · rintro ⟨before, x', after, rfl, hx, hf⟩
    cases x' with
    | error e =>
      obtain ⟨rfl, rfl⟩ := runs_pure.mp hf
      exact .inl ⟨e, by rwa [List.append_nil], rfl⟩
    | ok a => exact .inr ⟨before, a, after, rfl, hx, hf⟩
  · rintro (⟨e, hx, rfl⟩ | ⟨before, a, after, rfl, hx, hf⟩)
    · exact ⟨log, .error e, [], by simp, hx, runs_pure.mpr ⟨rfl, rfl⟩⟩
    · exact ⟨before, .ok a, after, rfl, hx, hf⟩

end Fallible

section Emits

/-- Every call that the program can make, with any answer, has the property. -/
def Emits (P : Interaction C R → Prop) (p : Program C R α) : Prop :=
  ∀ log a, Runs p log a → ∀ i ∈ log, P i

variable {P : Interaction C R → Prop}

theorem emits_ok (a : α) : Emits P (pure a : Fallible C R ε α).run := by
  intro log r h
  obtain ⟨rfl, -⟩ := runs_ok.mp h
  simp

theorem emits_throw (e : ε) : Emits P (throw e : Fallible C R ε α).run := by
  intro log r h
  obtain ⟨rfl, -⟩ := runs_throw.mp h
  simp

theorem emits_lift {p : Program C R α} (h : Emits P p) :
    Emits P (ExceptT.lift p : Fallible C R ε α).run := by
  intro log r hrun
  obtain ⟨a, hp, -⟩ := runs_lift.mp hrun
  exact h log a hp

theorem emits_ask {c : C} (h : ∀ r, P ⟨c, r⟩) : Emits P (ask c : Program C R (R c)) := by
  intro log r hrun i hi
  rw [runs_ask.mp hrun, List.mem_singleton] at hi
  exact hi ▸ h r

theorem emits_then {x : Fallible C R ε α} {f : α → Fallible C R ε β} (hx : Emits P x.run)
    (hf : ∀ a, Emits P (f a).run) : Emits P (x >>= f).run := by
  intro log r h i hi
  rcases runs_then.mp h with ⟨e, hrun, -⟩ | ⟨before, a, after, rfl, hrun, hrest⟩
  · exact hx log _ hrun i hi
  · rcases List.mem_append.mp hi with hi | hi
    · exact hx before _ hrun i hi
    · exact hf a after r hrest i hi

end Emits

/-- Every call has the property, as long as all answers keep to `A`. -/
def EmitsGiven (A P : Interaction C R → Prop) (p : Program C R α) : Prop :=
  ∀ log a, Runs p log a → (∀ i ∈ log, A i) → ∀ i ∈ log, P i

end Interactions
