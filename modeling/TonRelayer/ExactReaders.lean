import Mathlib.Algebra.Group.Basic
import TonRelayer.ExceptRules

/-! Readers that take a piece from the front of their input, and formats of such pieces.
The input is a monoid: a piece times what follows it. A reader is exact for a format when it
accepts precisely the inputs that start with a piece of the format, and leaves what follows. -/
namespace ExactReaders

open ExceptRules

variable {M ε α β γ : Type}

abbrev Reader (M ε α : Type) := StateT M (Except ε) α

theorem reader_bind (x : Reader M ε α) (f : α → Reader M ε β) (p : M) :
    (x >>= f) p = x p >>= fun r => f r.1 r.2 := rfl

/-- A check before the rest, in the two ways of writing it. -/
theorem check_bind {c : Prop} [Decidable c] (e : ε) (f : α → Reader M ε β) (a : α) :
    (if c then throw e >>= f else f a) = (if c then throw e else pure a) >>= f := by
  split <;> rfl

section Elsewhere

variable {N : Type} {x : Reader M ε α} {g : α → Reader M ε β} {s : M}

/-- Read from another input; the own one is kept. -/
def readAt (x : Reader M ε α) (s : M) : Reader N ε α := fun p => (x s).map fun r => (r.1, p)

/-- The other input may be handed on from step to step. -/
theorem readAt_bind {f : α × M → Reader N ε β} (h : ∀ a s', f (a, s') = readAt (g a) s') :
    ((liftM (x s) : Reader N ε (α × M)) >>= f) = readAt (x >>= g) s := by
  funext p
  have hleft : ((liftM (x s) : Reader N ε (α × M)) >>= f) p = x s >>= fun r => f r p := by
    cases x s <;> rfl
  rw [hleft, readAt, reader_bind]
  cases x s with
  | error e => rfl
  | ok r => exact congrFun (h r.1 r.2) p

theorem readAt_lift {r : Except ε α} {f : α → Reader N ε β}
    (h : ∀ a, f a = readAt (g a) s) :
    ((liftM r : Reader N ε α) >>= f) = readAt ((liftM r : Reader M ε α) >>= g) s := by
  funext p
  cases r with
  | error e => rfl
  | ok a => exact congrFun (h a) p

theorem readAt_computed {r : Except ε α} {a : α} {y : Reader N ε β} (hr : r = .ok a)
    (h : y = readAt (g a) s) : y = readAt ((liftM r : Reader M ε α) >>= g) s := by
  rw [hr]
  exact h

theorem readAt_pure (b : β) : (pure b : Reader N ε β) = readAt (pure b) s := rfl

end Elsewhere

variable [Monoid M]

/-- Which pieces hold which value. -/
abbrev Format (M α : Type) := α → M → Prop

def Exact (x : Reader M ε α) (F : Format M α) : Prop :=
  ∀ p a p', x p = .ok (a, p') ↔ ∃ piece, F a piece ∧ p = piece * p'

section Rules

variable {x : Reader M ε α} {f : α → Reader M ε β} {F G : Format M α}

theorem exact_congr (hx : Exact x F) (h : ∀ a m, F a m ↔ G a m) : Exact x G := by
  intro p a p'
  rw [hx p a p']
  simp only [h]

theorem exact_pure (a : α) : Exact (pure a : Reader M ε α) fun b m => b = a ∧ m = 1 := by
  intro p b p'
  constructor
  · intro h
    cases h
    exact ⟨1, ⟨rfl, rfl⟩, (one_mul p).symm⟩
  · rintro ⟨m, ⟨rfl, rfl⟩, rfl⟩
    rw [one_mul]
    rfl

theorem exact_throw (e : ε) : Exact (throw e : Reader M ε α) fun _ _ => False := by
  intro p a p'
  constructor
  · intro h
    cases h
  · rintro ⟨m, h, -⟩
    exact h.elim

theorem exact_bind {G : α → Format M β} (hx : Exact x F) (hf : ∀ a, Exact (f a) (G a)) :
    Exact (x >>= f) fun b m => ∃ a u v, F a u ∧ G a b v ∧ m = u * v := by
  intro p b p'
  rw [reader_bind, bind_eq_ok]
  constructor
  · rintro ⟨⟨a, q⟩, hread, hrest⟩
    obtain ⟨u, hu, rfl⟩ := (hx p a q).mp hread
    obtain ⟨v, hv, rfl⟩ := (hf a q b p').mp hrest
    exact ⟨u * v, ⟨a, u, v, hu, hv, rfl⟩, (mul_assoc u v p').symm⟩
  · rintro ⟨m, ⟨a, u, v, hu, hv, rfl⟩, rfl⟩
    refine ⟨(a, v * p'), (hx _ _ _).mpr ⟨u, hu, mul_assoc u v p'⟩, ?_⟩
    exact (hf a _ _ _).mpr ⟨v, hv, rfl⟩

/-- A value that is computed takes no input. -/
theorem exact_lift (r : Except ε α) :
    Exact (liftM r : Reader M ε α) fun a m => r = .ok a ∧ m = 1 := by
  intro p a p'
  have hrun : (liftM r : Reader M ε α) p = r >>= fun a => .ok (a, p) := rfl
  rw [hrun, bind_eq_ok]
  constructor
  · rintro ⟨b, hr, h⟩
    cases h
    exact ⟨1, ⟨hr, rfl⟩, (one_mul p).symm⟩
  · rintro ⟨m, ⟨hr, rfl⟩, rfl⟩
    exact ⟨a, hr, by rw [one_mul]⟩

theorem exact_ite {c : Prop} [Decidable c] {y : Reader M ε α} (hx : Exact x F) (hy : Exact y G) :
    Exact (if c then x else y) fun a m => if c then F a m else G a m := by
  split
  · exact hx
  · exact hy

/-- The error of a reader may be told in other words. -/
theorem exact_mapError {ε' : Type} (e : ε → ε') (hx : Exact x F) :
    Exact (fun p => (x p).mapError e : Reader M ε' α) F := by
  intro p a p'
  rw [mapError_eq_ok]
  exact hx p a p'

/-- What is read does not depend on what follows. -/
theorem exact_accepts (hx : Exact x F) {a : α} {m : M} (h : F a m) (p : M) :
    x (m * p) = .ok (a, p) := (hx _ _ _).mpr ⟨m, h, rfl⟩

/-- The input starts with a piece for the value. -/
def Starts (F : Format M α) (a : α) (p : M) : Prop := ∃ piece rest, F a piece ∧ p = piece * rest

theorem exact_starts (hx : Exact x F) (a : α) (p : M) :
    (∃ p', x p = .ok (a, p')) ↔ Starts F a p := by
  constructor
  · rintro ⟨rest, h⟩
    obtain ⟨piece, hpiece, hp⟩ := (hx p a rest).mp h
    exact ⟨piece, rest, hpiece, hp⟩
  · rintro ⟨piece, rest, hpiece, rfl⟩
    exact ⟨rest, exact_accepts hx hpiece rest⟩

end Rules

section Sequences

/-- A piece for one part of the value. -/
def field (g : β → α) (F : Format M α) : Format M β := fun b => F (g b)

/-- A piece from which a part of the value is made. -/
def made (make : α → γ) (g : β → γ) (F : Format M α) : Format M β :=
  fun b m => ∃ a, make a = g b ∧ F a m

/-- The same where not every piece makes something. -/
def tried (make : α → Except ε γ) (g : β → γ) (F : Format M α) : Format M β :=
  fun b m => ∃ a, make a = .ok (g b) ∧ F a m

/-- A piece that has nothing to do with the value. -/
def skipped (F : Format M α) : Format M β := fun _ m => ∃ a, F a m

/-- Nothing is read, and the value has the property. -/
def fixed (P : β → Prop) : Format M β := fun b m => P b ∧ m = 1

/-- One piece for each format, in order. -/
def inSequence : List (Format M β) → Format M β
  | [] => fun _ m => m = 1
  | F :: Fs => fun b m => ∃ u v, F b u ∧ inSequence Fs b v ∧ m = u * v

theorem starts_cons {F : Format M β} {Fs : List (Format M β)} {b : β} {p : M} :
    Starts (inSequence (F :: Fs)) b p ↔
      ∃ u q, F b u ∧ Starts (inSequence Fs) b q ∧ p = u * q := by
  constructor
  · rintro ⟨_, rest, ⟨u, v, hu, hv, rfl⟩, rfl⟩
    exact ⟨u, v * rest, hu, ⟨v, rest, hv, rfl⟩, mul_assoc u v rest⟩
  · rintro ⟨u, _, hu, ⟨v, rest, hv, rfl⟩, rfl⟩
    exact ⟨u * v, rest, ⟨u, v, hu, hv, rfl⟩, (mul_assoc u v rest).symm⟩

theorem starts_nil {b : β} {p : M} : Starts (inSequence []) b p := ⟨1, p, rfl, (one_mul p).symm⟩

/-- The reader is on its way to a value: of it, `C` is known, and what is still to come is in
sequence. -/
def ExactFor (C : β → Prop) (x : Reader M ε β) (Fs : List (Format M β)) : Prop :=
  Exact x fun b m => C b ∧ inSequence Fs b m

variable {C : β → Prop} {x : Reader M ε α} {f : α → Reader M ε β} {F : Format M α}
variable {Fs : List (Format M β)}

theorem exact_sequence {x : Reader M ε β} (h : ExactFor (fun _ => True) x Fs) :
    Exact x (inSequence Fs) := exact_congr h (by simp)

theorem exact_field (g : β → α) (hx : Exact x F)
    (hf : ∀ a, ExactFor (fun b => C b ∧ g b = a) (f a) Fs) :
    ExactFor C (x >>= f) (field g F :: Fs) := by
  refine exact_congr (exact_bind hx hf) fun b m => ⟨?_, ?_⟩
  · rintro ⟨a, u, v, hu, ⟨⟨hC, rfl⟩, hv⟩, rfl⟩
    exact ⟨hC, u, v, hu, hv, rfl⟩
  · rintro ⟨hC, u, v, hu, hv, rfl⟩
    exact ⟨g b, u, v, hu, ⟨⟨hC, rfl⟩, hv⟩, rfl⟩

theorem exact_made (make : α → γ) (g : β → γ) (hx : Exact x F)
    (hf : ∀ a, ExactFor (fun b => C b ∧ make a = g b) (f a) Fs) :
    ExactFor C (x >>= f) (made make g F :: Fs) := by
  refine exact_congr (exact_bind hx hf) fun b m => ⟨?_, ?_⟩
  · rintro ⟨a, u, v, hu, ⟨⟨hC, hmake⟩, hv⟩, rfl⟩
    exact ⟨hC, u, v, ⟨a, hmake, hu⟩, hv, rfl⟩
  · rintro ⟨hC, u, v, ⟨a, hmake, hu⟩, hv, rfl⟩
    exact ⟨a, u, v, hu, ⟨⟨hC, hmake⟩, hv⟩, rfl⟩

theorem exact_assoc {k : α → Reader M ε γ} {f : γ → Reader M ε β}
    (h : ExactFor C ((x >>= k) >>= f) Fs) : ExactFor C (x >>= fun a => k a >>= f) Fs := by
  rwa [bind_assoc] at h

theorem exact_tried {f : γ → Reader M ε β} (make : α → Except ε γ) (g : β → γ) (hx : Exact x F)
    (hf : ∀ c, ExactFor (fun b => C b ∧ g b = c) (f c) Fs) :
    ExactFor C (x >>= fun a => (liftM (make a) : Reader M ε γ) >>= f)
      (tried make g F :: Fs) := by
  have hmade : Exact (x >>= fun a => (liftM (make a) : Reader M ε γ))
      fun c m => ∃ a, make a = .ok c ∧ F a m := by
    refine exact_congr (exact_bind hx fun a => exact_lift (make a)) fun c m => ⟨?_, ?_⟩
    · rintro ⟨a, u, v, hu, ⟨hmake, rfl⟩, rfl⟩
      exact ⟨a, hmake, by rwa [mul_one]⟩
    · rintro ⟨a, hmake, hm⟩
      exact ⟨a, m, 1, hm, ⟨hmake, rfl⟩, (mul_one m).symm⟩
  exact exact_assoc (exact_field g hmade hf)

theorem exact_skip (hx : Exact x F) (hf : ∀ a, ExactFor C (f a) Fs) :
    ExactFor C (x >>= f) (skipped F :: Fs) := by
  refine exact_congr (exact_bind hx hf) fun b m => ⟨?_, ?_⟩
  · rintro ⟨a, u, v, hu, ⟨hC, hv⟩, rfl⟩
    exact ⟨hC, u, v, ⟨a, hu⟩, hv, rfl⟩
  · rintro ⟨hC, u, v, ⟨a, hu⟩, hv, rfl⟩
    exact ⟨a, u, v, hu, ⟨hC, hv⟩, rfl⟩

theorem exact_fixed {x : Reader M ε β} {P : β → Prop} (h : ExactFor (fun b => C b ∧ P b) x Fs) :
    ExactFor C x (fixed P :: Fs) := by
  refine exact_congr h fun b m => ⟨?_, ?_⟩
  · rintro ⟨⟨hC, hP⟩, hm⟩
    exact ⟨hC, 1, m, ⟨hP, rfl⟩, hm, (one_mul m).symm⟩
  · rintro ⟨hC, _, m, ⟨hP, rfl⟩, hm, rfl⟩
    exact ⟨⟨hC, hP⟩, by rwa [one_mul]⟩

theorem exact_done (r : β) (h : ∀ b, C b ↔ b = r) :
    ExactFor C (pure r : Reader M ε β) [] :=
  exact_congr (exact_pure r) fun b m => by rw [h b]; rfl

end Sequences

/-- What is read somewhere else takes nothing from the own input. -/
theorem readAt_exact {N : Type} [Monoid N] {x : Reader M ε α} {F : Format M α} (hx : Exact x F)
    (s : M) : Exact (readAt x s : Reader N ε α) fun a m =>
      (∃ piece rest, s = piece * rest ∧ F a piece) ∧ m = 1 := by
  intro p a p'
  rw [readAt, map_eq_ok]
  constructor
  · rintro ⟨⟨b, rest⟩, hread, hr⟩
    cases hr
    obtain ⟨piece, hpiece, hs⟩ := (hx _ _ _).mp hread
    exact ⟨1, ⟨⟨piece, rest, hs, hpiece⟩, rfl⟩, (one_mul p).symm⟩
  · rintro ⟨m, ⟨⟨piece, rest, hs, hpiece⟩, rfl⟩, rfl⟩
    exact ⟨(a, rest), (hx _ _ _).mpr ⟨piece, hpiece, hs⟩, by rw [one_mul]⟩

end ExactReaders
