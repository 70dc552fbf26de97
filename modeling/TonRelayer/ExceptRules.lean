import Mathlib.Data.List.Basic

/-! Rules for programs that stop at their first error.
What a successful run of a sequence, a loop or a traversal says about its parts. -/
namespace ExceptRules

universe u v

variable {ε : Type u} {α β σ : Type v}

theorem ok_bind (x : α) (f : α → Except ε β) : (Except.ok x >>= f) = f x := rfl

theorem bind_eq_ok {x : Except ε α} {f : α → Except ε β} {b : β} :
    (x >>= f) = .ok b ↔ ∃ a, x = .ok a ∧ f a = .ok b := by
  cases x with
  | error e =>
    constructor
    · intro h
      cases h
    · rintro ⟨a, h, -⟩
      cases h
  | ok a =>
    constructor
    · intro h
      exact ⟨a, rfl, h⟩
    · rintro ⟨a', h, hf⟩
      cases h
      exact hf

theorem pure_eq_ok {a b : α} : (pure a : Except ε α) = .ok b ↔ a = b := by
  constructor
  · intro h
    cases h
    rfl
  · intro h
    rw [h]
    rfl

theorem map_eq_ok {f : α → β} {x : Except ε α} {b : β} :
    x.map f = .ok b ↔ ∃ a, x = .ok a ∧ f a = b := by
  cases x <;> simp [Except.map]

theorem map_eq_error {f : α → β} {x : Except ε α} {e : ε} :
    x.map f = .error e ↔ x = .error e := by
  cases x <;> simp [Except.map]

theorem mapError_eq_ok {ε' : Type u} {f : ε → ε'} {x : Except ε α} {a : α} :
    x.mapError f = .ok a ↔ x = .ok a := by
  cases x <;> simp [Except.mapError]

theorem exists_ok {x : Except ε α} (h : x.isOk = true) : ∃ a, x = .ok a := by
  cases x with
  | error e => cases h
  | ok a => exact ⟨a, rfl⟩

/-- A traversal gives one result for each element, in order. -/
theorem mapM_ok {f : α → Except ε β} {l : List α} {r : List β} (h : l.mapM f = .ok r) :
    List.Forall₂ (fun a b => f a = .ok b) l r := by
  induction l generalizing r with
  | nil =>
    rw [List.mapM_nil, pure_eq_ok] at h
    subst h
    exact .nil
  | cons a l ih =>
    rw [List.mapM_cons, bind_eq_ok] at h
    obtain ⟨b, hb, h⟩ := h
    rw [bind_eq_ok] at h
    obtain ⟨bs, hbs, h⟩ := h
    rw [pure_eq_ok] at h
    subst h
    exact .cons hb (ih hbs)

/-- A traversal succeeds when every element does. -/
theorem mapM_defined {f : α → Except ε β} {l : List α} (h : ∀ a ∈ l, ∃ b, f a = .ok b) :
    ∃ r, l.mapM f = .ok r := by
  induction l with
  | nil => exact ⟨[], rfl⟩
  | cons a l ih =>
    obtain ⟨b, hb⟩ := h a List.mem_cons_self
    obtain ⟨bs, hbs⟩ := ih fun a ha => h a (List.mem_cons_of_mem _ ha)
    exact ⟨b :: bs, by rw [List.mapM_cons, hb, ok_bind, hbs, ok_bind]; rfl⟩

theorem mapM_error {f : α → Except ε β} {l : List α} {e : ε} (h : l.mapM f = .error e) :
    ∃ a ∈ l, f a = .error e := by
  induction l with
  | nil => cases h
  | cons a l ih =>
    cases ha : f a with
    | error e' =>
      rw [List.mapM_cons, ha] at h
      cases h
      exact ⟨a, List.mem_cons_self, ha⟩
    | ok b =>
      cases hl : l.mapM f with
      | error e' =>
        rw [List.mapM_cons, ha, ok_bind, hl] at h
        cases h
        obtain ⟨a', ha', herror⟩ := ih hl
        exact ⟨a', List.mem_cons_of_mem _ ha', herror⟩
      | ok bs =>
        rw [List.mapM_cons, ha, ok_bind, hl] at h
        cases h

/-- A loop succeeds when each of its iterations does, from wherever it starts. -/
theorem foldlM_defined {step : σ → α → Except ε σ} {l : List α}
    (h : ∀ a ∈ l, ∀ s, ∃ s', step s a = .ok s') (s : σ) : ∃ s', l.foldlM step s = .ok s' := by
  induction l generalizing s with
  | nil => exact ⟨s, rfl⟩
  | cons a l ih =>
    obtain ⟨s₁, hs₁⟩ := h a List.mem_cons_self s
    obtain ⟨s₂, hs₂⟩ := ih (fun a ha => h a (List.mem_cons_of_mem _ ha)) s₁
    exact ⟨s₂, by rw [List.foldlM_cons, hs₁, ok_bind, hs₂]⟩

theorem forall₂_mem_right {R : α → β → Prop} {l : List α} {r : List β}
    (h : List.Forall₂ R l r) : ∀ b ∈ r, ∃ a ∈ l, R a b := by
  induction h with
  | nil => simp
  | cons hab _ ih =>
    intro b hb
    rcases List.mem_cons.mp hb with rfl | hb
    · exact ⟨_, List.mem_cons_self, hab⟩
    · obtain ⟨a, ha, hR⟩ := ih b hb
      exact ⟨a, List.mem_cons_of_mem _ ha, hR⟩

/-- A loop keeps what each of its iterations keeps, stated over the elements done so far. -/
theorem foldlM_ok {step : σ → α → Except ε σ} {P : List α → σ → Prop} {l : List α}
    {s s' : σ} (h : l.foldlM step s = .ok s') (hs : P [] s)
    (keep : ∀ done a s₁ s₂, P done s₁ → step s₁ a = .ok s₂ → P (done ++ [a]) s₂) :
    P l s' := by
  suffices haux : ∀ (l : List α) (s : σ) (done : List α), l.foldlM step s = .ok s' →
      P done s → P (done ++ l) s' by simpa using haux l s [] h hs
  intro l
  induction l with
  | nil =>
    intro s done h hdone
    rw [List.foldlM_nil, pure_eq_ok] at h
    subst h
    simpa using hdone
  | cons a l ih =>
    intro s done h hdone
    rw [List.foldlM_cons, bind_eq_ok] at h
    obtain ⟨s₁, hstep, h⟩ := h
    have hrest := ih s₁ (done ++ [a]) h (keep done a s s₁ hdone hstep)
    simpa using hrest

theorem mapM_map_ok {γ : Type v} {f : β → Except ε γ} {g : α → β} {h : α → γ} {l : List α}
    (hl : ∀ a ∈ l, f (g a) = .ok (h a)) : (l.map g).mapM f = .ok (l.map h) := by
  induction l with
  | nil => rfl
  | cons a l ih =>
    rw [List.map_cons, List.mapM_cons, hl a List.mem_cons_self,
      ih fun a ha => hl a (List.mem_cons_of_mem _ ha)]
    rfl

/-- A traversal of the second parts, with each result beside its first part. -/
theorem mapM_tagged {γ : Type v} (f : β → Except ε γ) (l : List (α × β)) :
    (l.mapM fun p => f p.2 >>= fun c => pure (p.1, c)).map (fun r => r.map Prod.snd) =
      (l.map Prod.snd).mapM f := by
  induction l with
  | nil => rfl
  | cons p l ih =>
    rw [List.map_cons, List.mapM_cons, List.mapM_cons, ← ih]
    cases f p.2 with
    | error e => rfl
    | ok c =>
      rw [ok_bind]
      cases l.mapM fun p => f p.2 >>= fun c => pure (p.1, c) with
      | error e => rfl
      | ok r => rfl

section Avoids

variable {e : ε} {x : Except ε α}

/-- However the program ends, it is not with this error. -/
def Avoids (e : ε) (x : Except ε α) : Prop := x ≠ .error e

theorem avoids_ok (a : α) : Avoids e (.ok a : Except ε α) := by
  intro h
  cases h

theorem avoids_error {e' : ε} (h : e' ≠ e) : Avoids e (.error e' : Except ε α) := by
  intro h'
  cases h'
  exact h rfl

theorem avoids_of_eq {a : α} (h : x = .ok a) : Avoids e x := by
  rw [h]
  exact avoids_ok a

theorem avoids_bind {f : α → Except ε β} (hx : Avoids e x)
    (hf : ∀ a, x = .ok a → Avoids e (f a)) : Avoids e (x >>= f) := by
  cases h : x with
  | error e' =>
    rw [h] at hx
    intro hbind
    cases hbind
    exact hx rfl
  | ok a => exact hf a h

theorem avoids_mapM {f : α → Except ε β} {l : List α} (h : ∀ a ∈ l, Avoids e (f a)) :
    Avoids e (l.mapM f) := by
  intro hl
  obtain ⟨a, ha, herror⟩ := mapM_error hl
  exact h a ha herror

theorem avoids_foldlM {step : σ → α → Except ε σ} {l : List α}
    (h : ∀ a ∈ l, ∀ s, Avoids e (step s a)) (s : σ) : Avoids e (l.foldlM step s) := by
  induction l generalizing s with
  | nil => exact avoids_ok s
  | cons a l ih =>
    rw [List.foldlM_cons]
    apply avoids_bind (h a List.mem_cons_self s)
    intro s' _
    exact ih (fun a ha => h a (List.mem_cons_of_mem _ ha)) s'

end Avoids

end ExceptRules
