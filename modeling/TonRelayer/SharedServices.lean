import TonRelayer.Interactions
import TonRelayer.TransitionRuns
import Mathlib.Logic.Function.Basic
import Mathlib.Logic.Relation

/-! Workers that run programs against a service they share.
A step serves one call of one worker, so the calls of different workers interleave freely. A
protocol says which calls are allowed where a worker stands and where each answer takes it. If
every program keeps to the protocol, then what links the service to the places of its workers
holds in every run. -/
namespace SharedServices

open Interactions TransitionRuns

variable {C D : Type} {R : C → Type} {S : D → Type} {α β ε : Type}

section Interpretation

theorem bind_assoc {γ : Type} (p : Program C R α) (f : α → Program C R β)
    (g : β → Program C R γ) : p >>= f >>= g = p >>= fun a => f a >>= g := by
  induction p with
  | done a => rfl
  | call c next ih => exact congrArg (Program.call c) (funext ih)

/-- Each call is carried out by a program over other calls. -/
def interpret (handle : (c : C) → Program D S (R c)) : Program C R α → Program D S α
  | .done a => .done a
  | .call c next => handle c >>= fun r => interpret handle (next r)

theorem interpret_bind (handle : (c : C) → Program D S (R c)) (p : Program C R α)
    (f : α → Program C R β) :
    interpret handle (p >>= f) = interpret handle p >>= fun a => interpret handle (f a) := by
  induction p with
  | done a => rfl
  | call c next ih =>
    show (handle c >>= fun r => interpret handle (next r >>= f)) =
      (handle c >>= fun r => interpret handle (next r)) >>= fun a => interpret handle (f a)
    rw [bind_assoc]
    exact congrArg (handle c >>= ·) (funext ih)

end Interpretation

/-- Where a worker may stand. It may also move on by itself, which no one else sees. -/
structure Protocol (D : Type) (S : D → Type) (P : Type*) where
  Allowed : P → D → Prop
  after : P → (c : D) → S c → P
  Silent : P → P → Prop

section Protocols

variable {P : Type*} {T : Protocol D S P} {p : P}

/-- From this place on the program makes allowed calls only, whatever it is answered, and ends
with values and in places that are related. -/
inductive Keeps (T : Protocol D S P) (Q : P → α → Prop) : P → Program D S α → Prop where
  | done {p : P} {a : α} (h : Q p a) : Keeps T Q p (.done a)
  | call {p : P} {c : D} {next : S c → Program D S α} (h : T.Allowed p c)
      (hnext : ∀ r, Keeps T Q (T.after p c r) (next r)) : Keeps T Q p (.call c next)
  | silent {p p' : P} {x : Program D S α} (h : T.Silent p p') (hx : Keeps T Q p' x) :
    Keeps T Q p x

theorem keeps_weaken {Q Q' : P → α → Prop} {x : Program D S α} (hx : Keeps T Q p x)
    (h : ∀ p a, Q p a → Q' p a) : Keeps T Q' p x := by
  induction hx with
  | done hq => exact .done (h _ _ hq)
  | call hallowed _ ih => exact .call hallowed ih
  | silent hsilent _ ih => exact .silent hsilent ih

theorem keeps_bind {Q : P → α → Prop} {Q' : P → β → Prop} {x : Program D S α}
    {f : α → Program D S β} (hx : Keeps T Q p x)
    (hf : ∀ p' a, Q p' a → Keeps T Q' p' (f a)) : Keeps T Q' p (x >>= f) := by
  induction hx with
  | done hq => exact hf _ _ hq
  | call hallowed _ ih => exact .call hallowed ih
  | silent hsilent _ ih => exact .silent hsilent ih

theorem keeps_ask {c : D} {Q : P → S c → Prop} (h : T.Allowed p c)
    (hq : ∀ r, Q (T.after p c r) r) : Keeps T Q p (ask c) := .call h fun r => .done (hq r)

/-- A call about to be made is allowed where the worker stands, or after silent moves. -/
theorem keeps_call {Q : P → α → Prop} {c : D} {next : S c → Program D S α}
    (h : Keeps T Q p (.call c next)) :
    ∃ p', Relation.ReflTransGen T.Silent p p' ∧ T.Allowed p' c ∧
      ∀ r, Keeps T Q (T.after p' c r) (next r) := by
  generalize hx : Program.call c next = x at h
  induction h with
  | done => cases hx
  | call hallowed hnext =>
    cases hx
    exact ⟨_, .refl, hallowed, hnext⟩
  | silent hsilent _ ih =>
    obtain ⟨p', hmoves, h⟩ := ih hx
    exact ⟨p', .head hsilent hmoves, h⟩

theorem keeps_done {Q : P → α → Prop} {a : α} (h : Keeps T Q p (.done a)) :
    ∃ p', Relation.ReflTransGen T.Silent p p' ∧ Q p' a := by
  generalize hx : Program.done a = x at h
  induction h with
  | done hq =>
    cases hx
    exact ⟨_, .refl, hq⟩
  | call => cases hx
  | silent hsilent _ ih =>
    obtain ⟨p', hmoves, h⟩ := ih hx
    exact ⟨p', .head hsilent hmoves, h⟩

end Protocols

section Fallible

variable {P : Type*} {T : Protocol D S P} {p : P} {handle : (c : C) → Program D S (R c)}

/-- The program keeps to the protocol when its calls are carried out by `handle`. -/
def KeepsBy (T : Protocol D S P) (handle : (c : C) → Program D S (R c))
    (Q : P → Except ε α → Prop) (p : P) (x : Fallible C R ε α) : Prop :=
  Keeps T Q p (interpret handle x.run)

theorem keepsBy_of {Q : P → Except ε α → Prop} {x : Fallible C R ε α} {r : Except ε α}
    (hx : x.run = .done r) (h : Q p r) : KeepsBy T handle Q p x := by
  rw [KeepsBy, hx]
  exact .done h

theorem keepsBy_lift {c : C} {Q : P → Except ε (R c) → Prop}
    (h : Keeps T (fun p r => Q p (.ok r)) p (handle c)) :
    KeepsBy T handle Q p (ExceptT.lift (ask c)) := by
  show Keeps T Q p (handle c >>= fun r => .done (.ok r))
  exact keeps_bind h fun p' r hq => .done hq

theorem keepsBy_then {Q : P → Except ε α → Prop} {Q' : P → Except ε β → Prop}
    {x : Fallible C R ε α} {f : α → Fallible C R ε β} (hx : KeepsBy T handle Q p x)
    (hok : ∀ p' a, Q p' (.ok a) → KeepsBy T handle Q' p' (f a))
    (herror : ∀ p' e, Q p' (.error e) → Q' p' (.error e)) :
    KeepsBy T handle Q' p (x >>= f) := by
  rw [KeepsBy, ExceptT.run_bind, interpret_bind]
  refine keeps_bind hx fun p' r hq => ?_
  cases r with
  | ok a => exact hok p' a hq
  | error e => exact .done (herror p' e hq)

end Fallible

/-- What the workers share. `O` is what the outside adds to an answer; `E` are the events that
no worker causes. A worker that dies is abandoned. -/
structure Service (W D : Type*) (S : D → Type) (O E σ : Type*) where
  initial : σ
  serve : W → σ → (c : D) → O → S c × σ
  abandon : W → σ → σ
  Possible : σ → E → Prop
  disturb : σ → E → σ

section Workers

variable {W J O E σ : Type*} [DecidableEq W]

/-- A worker without a program is idle. -/
structure Workers (W : Type*) (S : D → Type) (α : Type) (σ : Type*) where
  shared : σ
  program : W → Option (Program D S α)

inductive Event (W J O E : Type*) where
  | start (a : W) (job : J)
  | serve (a : W) (outside : O)
  | finish (a : W)
  | crash (a : W)
  | disturb (e : E)
  deriving DecidableEq

variable (V : Service W D S O E σ) (jobs : J → Program D S α)

def Enabled (s : Workers W S α σ) : Event W J O E → Prop
  | .start a _ => s.program a = none
  | .serve a _ => ∃ c next, s.program a = some (.call c next)
  | .finish a => ∃ r, s.program a = some (.done r)
  | .crash a => s.program a ≠ none
  | .disturb e => V.Possible s.shared e

instance (s : Workers W S α σ) (e : Event W J O E) [∀ s e, Decidable (V.Possible s e)] :
    Decidable (Enabled V s e) :=
  match e with
  | .start a _ => match h : s.program a with
    | none => isTrue h
    | some _ => isFalse fun hnone => by cases h.symm.trans hnone
  | .serve a _ => match h : s.program a with
    | some (.call c next) => isTrue ⟨c, next, h⟩
    | some (.done _) => isFalse fun ⟨_, _, hcall⟩ => by cases h.symm.trans hcall
    | none => isFalse fun ⟨_, _, hcall⟩ => by cases h.symm.trans hcall
  | .finish a => match h : s.program a with
    | some (.done r) => isTrue ⟨r, h⟩
    | some (.call _ _) => isFalse fun ⟨_, hdone⟩ => by cases h.symm.trans hdone
    | none => isFalse fun ⟨_, hdone⟩ => by cases h.symm.trans hdone
  | .crash a => match h : s.program a with
    | none => isFalse fun hbusy => hbusy h
    | some _ => isTrue fun hnone => by cases h.symm.trans hnone
  | .disturb e => inferInstanceAs (Decidable (V.Possible s.shared e))

def setProgram (s : Workers W S α σ) (a : W) (x : Option (Program D S α)) : Workers W S α σ :=
  { s with program := Function.update s.program a x }

def next (s : Workers W S α σ) : Event W J O E → Workers W S α σ
  | .start a job => setProgram s a (some (jobs job))
  | .serve a outside => match s.program a with
    | some (.call c next) =>
      { setProgram s a (some (next (V.serve a s.shared c outside).1)) with
        shared := (V.serve a s.shared c outside).2 }
    | _ => s
  | .finish a => setProgram s a none
  | .crash a => { setProgram s a none with shared := V.abandon a s.shared }
  | .disturb e => { s with shared := V.disturb s.shared e }

def system : System (Workers W S α σ) (Event W J O E) where
  initial := ⟨V.initial, fun _ => none⟩
  Enabled := Enabled V
  next := next V jobs

/-- Every disturbance of the run leaves the workers their due. -/
def Undisturbed (Calm : σ → E → Prop) (s : Workers W S α σ) : Event W J O E → Prop
  | .disturb e => Calm s.shared e
  | _ => True

instance (Calm : σ → E → Prop) [∀ s e, Decidable (Calm s e)] (s : Workers W S α σ)
    (e : Event W J O E) : Decidable (Undisturbed Calm s e) := by
  cases e <;> simp only [Undisturbed] <;> infer_instance

instance (s : Workers W S α σ) (e : Event W J O E) [∀ s e, Decidable (V.Possible s e)] :
    Decidable ((system V jobs).Enabled s e) := inferInstanceAs (Decidable (Enabled V s e))

variable {P : Type*} (T : Protocol D S P) (home : P)

/-- A link between the service and the places of its workers that every allowed move keeps. -/
structure Sound (Calm : σ → E → Prop) (Linked : σ → (W → P) → Prop) : Prop where
  initial : Linked V.initial fun _ => home
  silent : ∀ {s : σ} {place : W → P} {a : W} {p : P}, Linked s place → T.Silent (place a) p →
    Linked s (Function.update place a p)
  serve : ∀ {s : σ} {place : W → P} {a : W} {c : D} (outside : O), Linked s place →
    T.Allowed (place a) c → Linked (V.serve a s c outside).2
      (Function.update place a (T.after (place a) c (V.serve a s c outside).1))
  crash : ∀ {s : σ} {place : W → P} (a : W), Linked s place →
    Linked (V.abandon a s) (Function.update place a home)
  disturb : ∀ {s : σ} {place : W → P} {e : E}, Linked s place → V.Possible s e → Calm s e →
    Linked (V.disturb s e) place

/-- An idle worker is at home, and a busy one will get there. -/
def Placed (place : W → P) (program : W → Option (Program D S α)) : Prop :=
  ∀ a, match program a with
    | none => place a = home
    | some x => Keeps T (fun p _ => p = home) (place a) x

variable {V jobs T home} {Calm : σ → E → Prop} {Linked : σ → (W → P) → Prop}

theorem placed_update {place : W → P} {program : W → Option (Program D S α)} {a : W} {p : P}
    {x : Option (Program D S α)} (h : Placed T home place program)
    (hx : match x with
      | none => p = home
      | some y => Keeps T (fun p _ => p = home) p y) :
    Placed T home (Function.update place a p) (Function.update program a x) := by
  intro b
  by_cases hb : b = a
  · subst hb
    simpa only [Function.update_self] using hx
  · simpa only [Function.update_of_ne hb] using h b

theorem linked_moves (h : Sound V T home Calm Linked) {s : σ} {place : W → P} {a : W} {p : P}
    (hlinked : Linked s place) (hmoves : Relation.ReflTransGen T.Silent (place a) p) :
    Linked s (Function.update place a p) := by
  induction hmoves with
  | refl => rwa [Function.update_eq_self]
  | tail _ hsilent ih =>
    have hnext := h.silent (a := a) ih (by rwa [Function.update_self])
    rwa [Function.update_idem] at hnext

theorem linked_next (h : Sound V T home Calm Linked)
    (hjobs : ∀ job, Keeps T (fun p _ => p = home) home (jobs job)) {s : Workers W S α σ}
    {e : Event W J O E}
    (hs : ∃ place, Linked s.shared place ∧ Placed T home place s.program)
    (he : Enabled V s e) (hcalm : Undisturbed Calm s e) :
    ∃ place, Linked (next V jobs s e).shared place ∧
      Placed T home place (next V jobs s e).program := by
  obtain ⟨place, hlinked, hplaced⟩ := hs
  cases e with
  | start a job =>
    have ha := hplaced a
    rw [show s.program a = none from he] at ha
    have hplace : Function.update place a home = place := by rw [← ha, Function.update_eq_self]
    have hstarted := placed_update (a := a) (x := some (jobs job)) hplaced (hjobs job)
    rw [hplace] at hstarted
    exact ⟨place, hlinked, hstarted⟩
  | serve a outside =>
    obtain ⟨c, rest, hprogram⟩ := he
    have ha := hplaced a
    rw [hprogram] at ha
    obtain ⟨p, hmoves, hallowed, hrest⟩ := keeps_call ha
    have hmoved := linked_moves h hlinked hmoves
    have hserved := h.serve (a := a) (c := c) outside hmoved (by rwa [Function.update_self])
    rw [Function.update_idem, Function.update_self] at hserved
    simp only [next, hprogram]
    exact ⟨_, hserved, placed_update hplaced (hrest _)⟩
  | finish a =>
    obtain ⟨r, hprogram⟩ := he
    have ha := hplaced a
    rw [hprogram] at ha
    obtain ⟨p, hmoves, rfl⟩ := keeps_done ha
    exact ⟨_, linked_moves h hlinked hmoves, placed_update hplaced rfl⟩
  | crash a => exact ⟨_, h.crash a hlinked, placed_update hplaced rfl⟩
  | disturb e => exact ⟨place, h.disturb hlinked he hcalm, hplaced⟩

/-- The link holds at the end of every run in which the disturbances are calm. -/
theorem linked_run (h : Sound V T home Calm Linked)
    (hjobs : ∀ job, Keeps T (fun p _ => p = home) home (jobs job)) {es : List (Event W J O E)}
    (hv : (system V jobs).Valid es)
    (hcalm : ∀ p ∈ (system V jobs).steps es, Undisturbed Calm p.1 p.2) :
    ∃ place, Linked ((system V jobs).run es).shared place ∧
      Placed T home place ((system V jobs).run es).program :=
  (invariant_along (M := system V jobs) (C := Undisturbed Calm)
    (I := fun s => ∃ place, Linked s.shared place ∧ Placed T home place s.program)
    (fun _ _ hs he hc => linked_next h hjobs hs he hc)
    ⟨fun _ => home, h.initial, fun _ => rfl⟩ hv hcalm).1

end Workers

end SharedServices
