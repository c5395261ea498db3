import Mathlib.Data.List.Induction
import Mathlib.Logic.Basic

/-! # Runs of a deterministic step

A component is a state and a step for each event. A run is the fold of a list
of events; a guarded run asks a condition of every state and the event taken in
it. An invariant of the guarded step holds at the end of every guarded run, and
so in each state it passes, because its prefixes are guarded too.
-/

namespace PersClient.Steps

variable {σ ε : Type*}

section Run

variable (step : σ → ε → σ)

/-- The state after a list of events. -/
def run (s : σ) (es : List ε) : σ := es.foldl step s

@[simp] theorem run_nil (s : σ) : run step s [] = s := rfl

@[simp] theorem run_cons (s : σ) (e : ε) (es : List ε) :
    run step s (e :: es) = run step (step s e) es := rfl

theorem run_append (s : σ) (es fs : List ε) :
    run step s (es ++ fs) = run step (run step s es) fs := List.foldl_append

theorem run_concat (s : σ) (es : List ε) (e : ε) :
    run step s (es ++ [e]) = step (run step s es) e := run_append step s es [e]

/-- Every step of the run meets the condition. -/
def Guarded (ok : σ → ε → Prop) : σ → List ε → Prop
  | _, [] => True
  | s, e :: es => ok s e ∧ Guarded ok (step s e) es

variable {step} {ok : σ → ε → Prop} {inv : σ → Prop}

instance [∀ s e, Decidable (ok s e)] (s : σ) (es : List ε) : Decidable (Guarded step ok s es) := by
  induction es generalizing s with
  | nil => exact isTrue trivial
  | cons e es ih =>
    have := ih (step s e)
    unfold Guarded
    infer_instance

theorem guarded_append {s : σ} {es fs : List ε} :
    Guarded step ok s (es ++ fs) ↔ Guarded step ok s es ∧ Guarded step ok (run step s es) fs := by
  induction es generalizing s with
  | nil => simp [Guarded]
  | cons e es ih => simp only [List.cons_append, Guarded, run_cons, ih, and_assoc]

theorem run_invariant (hstep : ∀ s e, inv s → ok s e → inv (step s e)) {s : σ} {es : List ε}
    (hs : inv s) (hes : Guarded step ok s es) : inv (run step s es) := by
  induction es generalizing s with
  | nil => exact hs
  | cons e es ih => exact ih (hstep s e hs hes.1) hes.2

theorem run_invariant_of_forall (hstep : ∀ s e, inv s → inv (step s e)) {s : σ} (hs : inv s)
    (es : List ε) : inv (run step s es) := by
  induction es generalizing s with
  | nil => exact hs
  | cons e es ih => exact ih (hstep s e hs)

/-- Conditions that say the same of every state of the runs guard the same runs. -/
theorem guarded_congr {ok' : σ → ε → Prop} (hstep : ∀ s e, inv s → inv (step s e))
    (hiff : ∀ s e, inv s → (ok s e ↔ ok' s e)) {s : σ} (hs : inv s) (es : List ε) :
    Guarded step ok s es ↔ Guarded step ok' s es := by
  induction es generalizing s with
  | nil => exact Iff.rfl
  | cons e es ih => exact and_congr (hiff s e hs) (ih (hstep s e hs))

/-- Where a condition on the step decides whether a property is kept, the runs
that have it throughout are those whose every step meets the condition. -/
theorem forall_prefix_iff_guarded {also : σ → Prop} {keeps : σ → ε → Prop}
    (halso : ∀ s e, also s → ok s e → also (step s e))
    (hstep : ∀ s e, also s → inv s → ok s e → (inv (step s e) ↔ keeps s e)) {s : σ} {es : List ε}
    (hs : also s) (hinv : inv s) (hes : Guarded step ok s es) :
    (∀ fs, fs <+: es → inv (run step s fs)) ↔ Guarded step keeps s es := by
  induction es generalizing s with
  | nil =>
    constructor
    · exact fun _ => trivial
    · intro _ fs hfs
      rw [List.prefix_nil.mp hfs]
      exact hinv
  | cons e es ih =>
    have hiff := hstep s e hs hinv hes.1
    constructor
    · intro h
      have hinv' : inv (step s e) := h [e] ⟨es, rfl⟩
      refine ⟨hiff.mp hinv', (ih (halso s e hs hes.1) hinv' hes.2).mp fun fs hfs => ?_⟩
      exact h (e :: fs) (List.cons_prefix_cons.mpr ⟨rfl, hfs⟩)
    · rintro ⟨hkeeps, hrest⟩ fs hfs
      have hinv' := hiff.mpr hkeeps
      cases fs with
      | nil => exact hinv
      | cons f fs =>
        obtain ⟨rfl, hrests⟩ := List.cons_prefix_cons.mp hfs
        exact (ih (halso s f hs hes.1) hinv' hes.2).mpr hrest fs hrests

/-- Where a condition on the step decides whether a property of the step is had
and an invariant kept, the runs that have both throughout are those whose every
step meets the condition. -/
theorem holds_iff_guarded {good : σ → ε → Prop}
    (hstep : ∀ s e, inv s → (good s e ∧ inv (step s e) ↔ ok s e)) {s : σ} {es : List ε}
    (hs : inv s) :
    (∀ fs, fs <+: es → inv (run step s fs)) ∧ Guarded step good s es ↔ Guarded step ok s es := by
  induction es generalizing s with
  | nil =>
    refine iff_of_true ⟨fun fs hfs => ?_, trivial⟩ trivial
    rw [List.prefix_nil.mp hfs]
    exact hs
  | cons e es ih =>
    have hiff := hstep s e hs
    constructor
    · rintro ⟨hinv, hgood, hrest⟩
      have hinv' : inv (step s e) := hinv [e] ⟨es, rfl⟩
      refine ⟨hiff.mp ⟨hgood, hinv'⟩, (ih hinv').mp ⟨fun fs hfs => ?_, hrest⟩⟩
      exact hinv (e :: fs) (List.cons_prefix_cons.mpr ⟨rfl, hfs⟩)
    · rintro ⟨hok, hrest⟩
      obtain ⟨hgood, hinv'⟩ := hiff.mpr hok
      obtain ⟨hinv, hgoods⟩ := (ih hinv').mpr hrest
      refine ⟨fun fs hfs => ?_, hgood, hgoods⟩
      cases fs with
      | nil => exact hs
      | cons f fs =>
        obtain ⟨rfl, hrests⟩ := List.cons_prefix_cons.mp hfs
        exact hinv fs hrests

end Run

section LastStep

variable (step : σ → ε → σ) (p : σ → ε → Bool)

/-- The last step of a run that `p` selects, with the state it was taken in. -/
def lastStep : σ → List ε → Option (σ × ε)
  | _, [] => none
  | s, e :: es => (lastStep (step s e) es).or (bif p s e then some (s, e) else none)

theorem lastStep_concat (s : σ) (es : List ε) (e : ε) :
    lastStep step p s (es ++ [e]) =
      bif p (run step s es) e then some (run step s es, e) else lastStep step p s es := by
  induction es generalizing s with
  | nil => rfl
  | cons f es ih =>
    simp only [List.cons_append, lastStep, ih, run_cons]
    cases p (run step (step s f) es) e <;> rfl

end LastStep

end PersClient.Steps
