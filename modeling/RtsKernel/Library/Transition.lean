import Mathlib.Data.List.Basic

/-!
# Labelled transition systems

Runs of a system `step : σ → ι → σ → Prop` whose steps all satisfy a condition `allowed` on
the state and the label, and the induction rules for them. `Observed` is a run together with the
notes that an observer takes of its steps. `serve` is a sequence of calls that each answer
something, and `serve_simulation` its simulation rule.
-/

namespace Transition

variable {σ ι : Type} (step : σ → ι → σ → Prop) (allowed : σ → ι → Prop)

/-- `Trace s is t`: the labels `is` lead from `s` to `t`, every step being allowed. -/
inductive Trace (s : σ) : List ι → σ → Prop where
  | nil : Trace s [] s
  | snoc {is : List ι} {t u : σ} {i : ι} :
      Trace s is t → allowed t i → step t i u → Trace s (is ++ [i]) u

/-- Reachable from `s` by allowed steps. -/
def ReachableFrom (s t : σ) : Prop := ∃ is, Trace step allowed s is t

variable {step allowed} {s t u : σ} {is js : List ι} {i : ι}

theorem ReachableFrom.refl (s : σ) : ReachableFrom step allowed s s := ⟨[], .nil⟩

theorem ReachableFrom.tail (h : ReachableFrom step allowed s t) (ha : allowed t i)
    (hs : step t i u) : ReachableFrom step allowed s u :=
  let ⟨_, ht⟩ := h
  ⟨_, .snoc ht ha hs⟩

/-- A state property that holds initially and is preserved by allowed steps holds throughout. -/
theorem Trace.invariant {P : σ → Prop} (h : Trace step allowed s is t) (h0 : P s)
    (hstep : ∀ t i u, P t → allowed t i → step t i u → P u) : P t := by
  induction h with
  | nil => exact h0
  | snoc _ ha hs ih => exact hstep _ _ _ ih ha hs

theorem ReachableFrom.invariant {P : σ → Prop} (h : ReachableFrom step allowed s t) (h0 : P s)
    (hstep : ∀ t i u, P t → allowed t i → step t i u → P u) : P t :=
  let ⟨_, ht⟩ := h
  ht.invariant h0 hstep

theorem Trace.append (h : Trace step allowed s is t) (h' : Trace step allowed t js u) :
    Trace step allowed s (is ++ js) u := by
  induction h' with
  | nil => simpa using h
  | snoc _ ha hs ih => simpa [List.append_assoc] using ih.snoc ha hs

theorem ReachableFrom.trans (h : ReachableFrom step allowed s t)
    (h' : ReachableFrom step allowed t u) : ReachableFrom step allowed s u :=
  let ⟨_, ht⟩ := h
  let ⟨_, hu⟩ := h'
  ⟨_, ht.append hu⟩

/-- Fewer conditions on the steps allow more runs. -/
theorem Trace.mono {allowed' : σ → ι → Prop} (h : Trace step allowed s is t)
    (hle : ∀ s i, allowed s i → allowed' s i) : Trace step allowed' s is t := by
  induction h with
  | nil => exact .nil
  | snoc _ ha hs ih => exact ih.snoc (hle _ _ ha) hs

theorem ReachableFrom.mono {allowed' : σ → ι → Prop} (h : ReachableFrom step allowed s t)
    (hle : ∀ s i, allowed s i → allowed' s i) : ReachableFrom step allowed' s t :=
  let ⟨_, ht⟩ := h
  ⟨_, ht.mono hle⟩

/-! ## Observed runs -/

section Observed

variable {ω : Type} (note : ω → σ → ι → σ → ω)

/-- A run with an observer, who never influences it: `note` makes the notes after a step from the
notes before it. -/
inductive Observed (step : σ → ι → σ → Prop) (allowed : σ → ι → Prop) (note : ω → σ → ι → σ → ω)
    (s : σ) (o : ω) : σ → ω → Prop where
  | start : Observed step allowed note s o s o
  | step {t u : σ} {i : ι} {p : ω} : Observed step allowed note s o t p → allowed t i → step t i u →
      Observed step allowed note s o u (note p t i u)

variable {note} {o p : ω}

theorem Observed.reachable (h : Observed step allowed note s o t p) :
    ReachableFrom step allowed s t := by
  induction h with
  | start => exact .refl s
  | step _ ha hs ih => exact ih.tail ha hs

end Observed

/-- The answers and the final state of a sequence of calls. -/
def serve {σ ι ω : Type} (step : σ → ι → σ × ω) : σ → List ι → σ × List ω
  | s, [] => (s, [])
  | s, i :: is =>
    let (s₁, answer) := step s i
    let (s₂, answers) := serve step s₁ is
    (s₂, answer :: answers)

/-- Calls related one by one answer alike and end in related states. -/
theorem serve_simulation {σ τ ι ω : Type} {R : σ → τ → Prop} {f : σ → ι → σ × ω}
    {g : τ → ι → τ × ω}
    (hstep : ∀ {s t} i, R s t → R (f s i).1 (g t i).1 ∧ (f s i).2 = (g t i).2)
    {s : σ} {t : τ} (h : R s t) (is : List ι) :
    R (serve f s is).1 (serve g t is).1 ∧ (serve f s is).2 = (serve g t is).2 := by
  induction is generalizing s t with
  | nil => exact ⟨h, rfl⟩
  | cons i is ih =>
    obtain ⟨hrel, hans⟩ := hstep i h
    obtain ⟨hrels, hanss⟩ := ih hrel
    exact ⟨hrels, by simp only [serve, hans, hanss]⟩

end Transition
