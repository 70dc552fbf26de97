import Mathlib.Data.List.Basic

/-! Finite runs of a guarded transition system over arbitrary states and events.
A run is the list of its events. A step pairs an event with the state it meets, so a
fact about one step and a fact about a whole run are stated over the same objects. -/
namespace TransitionRuns

/-- How a command ends for the client that sent it: `lost` ran, `refused` did not, and the
client sees the same error. -/
inductive Reply where
  | answered
  | lost
  | refused
  deriving DecidableEq, Repr

structure System (σ ε : Type*) where
  initial : σ
  Enabled : σ → ε → Prop
  next : σ → ε → σ

variable {σ ε : Type*} {M : System σ ε}

def System.runFrom (M : System σ ε) (s : σ) : List ε → σ
  | [] => s
  | e :: es => M.runFrom (M.next s e) es

def System.ValidFrom (M : System σ ε) (s : σ) : List ε → Prop
  | [] => True
  | e :: es => M.Enabled s e ∧ M.ValidFrom (M.next s e) es

/-- Every event of the run, with the state it was taken in. -/
def System.stepsFrom (M : System σ ε) (s : σ) : List ε → List (σ × ε)
  | [] => []
  | e :: es => (s, e) :: M.stepsFrom (M.next s e) es

def System.run (M : System σ ε) (es : List ε) : σ := M.runFrom M.initial es
def System.Valid (M : System σ ε) (es : List ε) : Prop := M.ValidFrom M.initial es
def System.steps (M : System σ ε) (es : List ε) : List (σ × ε) := M.stepsFrom M.initial es

instance System.decidableValidFrom (M : System σ ε) [∀ s e, Decidable (M.Enabled s e)]
    (s : σ) (es : List ε) : Decidable (M.ValidFrom s es) :=
  match es with
  | [] => isTrue trivial
  | e :: es =>
    have := System.decidableValidFrom M (M.next s e) es
    inferInstanceAs (Decidable (M.Enabled s e ∧ M.ValidFrom (M.next s e) es))

instance (M : System σ ε) [∀ s e, Decidable (M.Enabled s e)] (es : List ε) :
    Decidable (M.Valid es) :=
  inferInstanceAs (Decidable (M.ValidFrom M.initial es))

theorem valid_iff_steps (s : σ) (es : List ε) :
    M.ValidFrom s es ↔ ∀ p ∈ M.stepsFrom s es, M.Enabled p.1 p.2 := by
  induction es generalizing s with
  | nil => simp [System.ValidFrom, System.stepsFrom]
  | cons e es ih => simp [System.ValidFrom, System.stepsFrom, ih]

theorem steps_events (s : σ) (es : List ε) : (M.stepsFrom s es).map Prod.snd = es := by
  induction es generalizing s with
  | nil => rfl
  | cons e es ih => simp [System.stepsFrom, ih]

theorem runFrom_append (s : σ) (es fs : List ε) :
    M.runFrom s (es ++ fs) = M.runFrom (M.runFrom s es) fs := by
  induction es generalizing s with
  | nil => rfl
  | cons e es ih => exact ih _

theorem last_step (s : σ) (es : List ε) (e : ε) :
    (M.runFrom s es, e) ∈ M.stepsFrom s (es ++ [e]) := by
  induction es generalizing s with
  | nil => simp [System.runFrom, System.stepsFrom]
  | cons f es ih => exact List.mem_cons_of_mem _ (ih _)

/-- An invariant that one step keeps whenever the step meets `C` holds before every step,
and at the end, of a run whose steps all meet `C`. -/
theorem invariant_along {I : σ → Prop} {C : σ → ε → Prop}
    (keep : ∀ s e, I s → M.Enabled s e → C s e → I (M.next s e))
    {s : σ} (h : I s) {es : List ε} (hv : M.ValidFrom s es)
    (hc : ∀ p ∈ M.stepsFrom s es, C p.1 p.2) :
    I (M.runFrom s es) ∧ ∀ p ∈ M.stepsFrom s es, I p.1 := by
  induction es generalizing s with
  | nil => exact ⟨h, by simp [System.stepsFrom]⟩
  | cons e es ih =>
    have he : C s e := hc (s, e) (by simp [System.stepsFrom])
    obtain ⟨hend, hall⟩ := ih (keep s e h hv.1 he) hv.2
      (fun p hp => hc p (List.mem_cons_of_mem _ hp))
    refine ⟨hend, fun p hp => ?_⟩
    rcases List.mem_cons.mp hp with rfl | hp
    · exact h
    · exact hall p hp

theorem invariant_always {I : σ → Prop}
    (keep : ∀ s e, I s → M.Enabled s e → I (M.next s e))
    {s : σ} (h : I s) {es : List ε} (hv : M.ValidFrom s es) :
    I (M.runFrom s es) ∧ ∀ p ∈ M.stepsFrom s es, I p.1 :=
  invariant_along (C := fun _ _ => True) (fun s e hi he _ => keep s e hi he) h hv
    (fun _ _ => trivial)

/-- As `invariant_along`, for an invariant that also knows how many of the steps so far were of
a kind. -/
theorem counted_along {I : σ → ℕ → Prop} {C : σ → ε → Prop} {f : σ × ε → Bool}
    (keep : ∀ s e n, I s n → M.Enabled s e → C s e →
      I (M.next s e) (n + if f (s, e) then 1 else 0))
    {s : σ} {n : ℕ} (h : I s n) {es : List ε} (hv : M.ValidFrom s es)
    (hc : ∀ p ∈ M.stepsFrom s es, C p.1 p.2) :
    I (M.runFrom s es) (n + (M.stepsFrom s es).countP f) := by
  induction es generalizing s n with
  | nil => exact h
  | cons e es ih =>
    have he : C s e := hc (s, e) (by simp [System.stepsFrom])
    have hend := ih (keep s e n h hv.1 he) hv.2 fun p hp => hc p (List.mem_cons_of_mem _ hp)
    rw [Nat.add_assoc, Nat.add_comm (if f (s, e) then 1 else 0), ← List.countP_cons] at hend
    exact hend

/-- What no step ever undoes still holds at the end of the run. -/
theorem kept_to_end {K : σ → Prop} (keep : ∀ s e, K s → K (M.next s e)) (s : σ) (es : List ε) :
    (K s → K (M.runFrom s es)) ∧ ∀ p ∈ M.stepsFrom s es, K p.1 → K (M.runFrom s es) := by
  induction es generalizing s with
  | nil => exact ⟨id, by simp [System.stepsFrom]⟩
  | cons e es ih =>
    obtain ⟨hend, hall⟩ := ih (M.next s e)
    have hstart : K s → K (M.runFrom s (e :: es)) := fun h => hend (keep s e h)
    refine ⟨hstart, fun p hp => ?_⟩
    rcases List.mem_cons.mp hp with rfl | hp
    · exact hstart
    · exact hall p hp

/-- What follows a step in a run are the steps of a run from the state it led to. -/
theorem steps_after {s : σ} {es : List ε} {xs rest : List (σ × ε)} {x : σ × ε}
    (h : M.stepsFrom s es = xs ++ x :: rest) :
    ∃ fs, rest = M.stepsFrom (M.next x.1 x.2) fs := by
  induction es generalizing s xs with
  | nil => simp [System.stepsFrom] at h
  | cons e es ih =>
    cases xs with
    | nil =>
      simp only [System.stepsFrom, List.nil_append, List.cons.injEq] at h
      obtain ⟨rfl, rfl⟩ := h
      exact ⟨es, rfl⟩
    | cons y xs =>
      simp only [System.stepsFrom, List.cons_append, List.cons.injEq] at h
      exact ih h.2

/-- A property carried across each of the steps `ys` reaches the step that follows them. -/
theorem carried_to {I : σ → Prop} {s : σ} {es : List ε} {ys zs : List (σ × ε)} {y : σ × ε}
    (h : M.stepsFrom s es = ys ++ y :: zs) (hs : I s)
    (keep : ∀ p ∈ ys, I p.1 → I (M.next p.1 p.2)) : I y.1 := by
  induction es generalizing s ys with
  | nil => simp [System.stepsFrom] at h
  | cons e es ih =>
    cases ys with
    | nil =>
      simp only [System.stepsFrom, List.nil_append, List.cons.injEq] at h
      obtain ⟨rfl, -⟩ := h
      exact hs
    | cons x ys =>
      simp only [System.stepsFrom, List.cons_append, List.cons.injEq] at h
      obtain ⟨rfl, h⟩ := h
      exact ih h (keep (s, e) (by simp) hs)
        (fun p hp => keep p (List.mem_cons_of_mem _ hp))

/-- A relation between earlier and later members of a list, split by split. -/
theorem pairwise_of_split {R : σ → σ → Prop} {l : List σ}
    (h : ∀ xs x ys y zs, l = xs ++ x :: (ys ++ y :: zs) → R x y) : l.Pairwise R := by
  induction l with
  | nil => exact List.Pairwise.nil
  | cons x l ih =>
    refine List.pairwise_cons.mpr ⟨fun y hy => ?_, ih fun xs x' ys y zs hl => ?_⟩
    · obtain ⟨ys, zs, rfl⟩ := List.append_of_mem hy
      exact h [] x ys y zs rfl
    · exact h (x :: xs) x' ys y zs (by rw [hl]; rfl)

end TransitionRuns
