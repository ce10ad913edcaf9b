import Mathlib.Tactic

/-!
# Halting state programs

A program over a state `σ` either returns a value with the state it leaves behind, or
halts for a reason with the state as it stood when the check failed. `Prog.wp` is its
weakest precondition: a postcondition for normal returns and one for halts. The rules
below execute a program symbolically; a callee is used through its own specification
with `Prog.wp_mono` and is never unfolded by its callers. `Prog.Leads` is the frame of a program:
what it makes of a property of a view of the state. `Outcome.Related` compares the runs of two
programs over different states.
-/

namespace Halting

inductive Outcome (ε σ α : Type) where
  | ret (value : α) (state : σ)
  | halt (reason : ε) (state : σ)

/-- The state left behind, whether the program returned or halted. -/
def Outcome.state {ε σ α : Type} : Outcome ε σ α → σ
  | .ret _ s => s
  | .halt _ s => s

/-- The value returned. -/
def Outcome.value? {ε σ α : Type} : Outcome ε σ α → Option α
  | .ret a _ => some a
  | .halt _ _ => none

/-- The reason of a halt. -/
def Outcome.reason? {ε σ α : Type} : Outcome ε σ α → Option ε
  | .ret _ _ => none
  | .halt e _ => some e

theorem Outcome.eq_ret {ε σ α : Type} {o : Outcome ε σ α} {a : α} (h : o.value? = some a) :
    o = .ret a o.state := by
  cases o with
  | ret b s => rw [Option.some.inj h]; rfl
  | halt e s => exact absurd h.symm (Option.some_ne_none a)

theorem Outcome.value?_eq_some {ε σ α : Type} {o : Outcome ε σ α} {a : α} :
    o.value? = some a ↔ ∃ s, o = .ret a s :=
  ⟨fun h => ⟨_, Outcome.eq_ret h⟩, fun ⟨_, h⟩ => h ▸ rfl⟩

theorem Outcome.eq_halt {ε σ α : Type} {o : Outcome ε σ α} {e : ε} (h : o.reason? = some e) :
    o = .halt e o.state := by
  cases o with
  | ret b s => exact absurd h.symm (Option.some_ne_none e)
  | halt e' s => rw [Option.some.inj h]; rfl

/-- Both returned the same value, or both halted for the same reason, in related states. -/
def Outcome.Related {ε σ τ α : Type} (R : σ → τ → Prop) : Outcome ε σ α → Outcome ε τ α → Prop
  | .ret a s, .ret b t => a = b ∧ R s t
  | .halt e s, .halt f t => e = f ∧ R s t
  | _, _ => False

def Prog (ε σ α : Type) := σ → Outcome ε σ α

namespace Prog

variable {ε σ α β : Type}

protected def pure (a : α) : Prog ε σ α := fun s => .ret a s

protected def bind (m : Prog ε σ α) (f : α → Prog ε σ β) : Prog ε σ β := fun s =>
  match m s with
  | .ret a t => f a t
  | .halt e t => .halt e t

instance : Monad (Prog ε σ) where
  pure := Prog.pure
  bind := Prog.bind

def get : Prog ε σ σ := fun s => .ret s s

def modify (f : σ → σ) : Prog ε σ Unit := fun s => .ret () (f s)

def halt (e : ε) : Prog ε σ α := fun s => .halt e s

/-- Continue when the check holds, otherwise halt for the given reason. -/
def check (e : ε) (c : Prop) [Decidable c] : Prog ε σ Unit := if c then pure () else halt e

/-- Weakest precondition: `Q` of every return, `E` of every halt. -/
def wp (m : Prog ε σ α) (Q : α → σ → Prop) (E : ε → σ → Prop) (s : σ) : Prop :=
  match m s with
  | .ret a t => Q a t
  | .halt e t => E e t

section rules

variable {Q : α → σ → Prop} {E : ε → σ → Prop} {s : σ}

@[simp] theorem wp_pure (a : α) : wp (pure a : Prog ε σ α) Q E s ↔ Q a s := Iff.rfl

@[simp] theorem wp_bind (m : Prog ε σ β) (f : β → Prog ε σ α) :
    wp (m >>= f) Q E s ↔ wp m (fun b t => wp (f b) Q E t) E s := by
  change wp (Prog.bind m f) Q E s ↔ _
  unfold wp Prog.bind
  cases m s <;> rfl

@[simp] theorem wp_get {Q : σ → σ → Prop} : wp (get : Prog ε σ σ) Q E s ↔ Q s s := Iff.rfl

@[simp] theorem wp_modify {Q : Unit → σ → Prop} (f : σ → σ) :
    wp (modify f : Prog ε σ Unit) Q E s ↔ Q () (f s) := Iff.rfl

@[simp] theorem wp_halt (e : ε) : wp (halt e : Prog ε σ α) Q E s ↔ E e s := Iff.rfl

@[simp] theorem wp_ite (c : Prop) [Decidable c] (a b : Prog ε σ α) :
    wp (if c then a else b) Q E s ↔ if c then wp a Q E s else wp b Q E s := by
  split <;> rfl

@[simp] theorem wp_check {Q : Unit → σ → Prop} (e : ε) (c : Prop) [Decidable c] :
    wp (check e c : Prog ε σ Unit) Q E s ↔ if c then Q () s else E e s := by
  unfold check
  split <;> rfl

theorem wp_mono {m : Prog ε σ α} {Q' : α → σ → Prop} {E' : ε → σ → Prop}
    (h : wp m Q E s) (hQ : ∀ a t, Q a t → Q' a t) (hE : ∀ e t, E e t → E' e t) :
    wp m Q' E' s := by
  unfold wp at *
  cases hm : m s with
  | ret a t => rw [hm] at h; exact hQ a t h
  | halt e t => rw [hm] at h; exact hE e t h

theorem wp_and {m : Prog ε σ α} {Q' : α → σ → Prop} {E' : ε → σ → Prop}
    (h : wp m Q E s) (h' : wp m Q' E' s) :
    wp m (fun a t => Q a t ∧ Q' a t) (fun e t => E e t ∧ E' e t) s := by
  unfold wp at *
  cases hm : m s with
  | ret a t => rw [hm] at h h'; exact ⟨h, h'⟩
  | halt e t => rw [hm] at h h'; exact ⟨h, h'⟩

/-- What a specification says of a run that returned. -/
theorem wp_ret {m : Prog ε σ α} {a : α} {t : σ} (h : wp m Q E s) (hm : m s = .ret a t) :
    Q a t := by
  unfold wp at h
  rwa [hm] at h

/-- A specification of a run that is known. -/
theorem wp_of_ret {m : Prog ε σ α} {a : α} {t : σ} (h : m s = .ret a t) : wp m Q E s ↔ Q a t := by
  unfold wp
  rw [h]

/-- Only the outcome from this state matters. -/
theorem wp_congr {m m' : Prog ε σ α} (h : m s = m' s) : wp m Q E s ↔ wp m' Q E s := by
  unfold wp
  rw [h]

/-- A fact about the state left behind, as a specification. -/
theorem wp_of_state {m : Prog ε σ α} {P : σ → Prop} (h : P (m s).state) :
    wp m (fun _ => P) (fun _ => P) s := by
  unfold wp
  cases hm : m s <;> rwa [hm] at h

/-- The first program does not matter. -/
theorem wp_bind_of_forall {m : Prog ε σ β} {f : β → Prog ε σ α} (hf : ∀ b t, wp (f b) Q E t)
    (hE : ∀ e t, E e t) : wp (m >>= f) Q E s := by
  rw [wp_bind]
  exact wp_mono (wp_of_state (P := fun _ => True) trivial) (fun b t _ => hf b t) fun e t _ => hE e t

/-- A program that never halts returns. -/
theorem exists_ret_of_wp {m : Prog ε σ α} (h : wp m Q (fun _ _ => False) s) :
    ∃ a t, m s = .ret a t ∧ Q a t := by
  unfold wp at h
  cases hm : m s with
  | ret a t => rw [hm] at h; exact ⟨a, t, rfl, h⟩
  | halt e t => rw [hm] at h; exact h.elim

/-- A run of two programs in sequence. -/
theorem exists_ret_of_bind {m : Prog ε σ β} {f : β → Prog ε σ α} {a : α} {t : σ}
    (h : (m >>= f) s = .ret a t) : ∃ b u, m s = .ret b u ∧ f b u = .ret a t := by
  change Prog.bind m f s = _ at h
  unfold Prog.bind at h
  cases hm : m s with
  | ret b u =>
    rw [hm] at h
    exact ⟨b, u, rfl, h⟩
  | halt e u =>
    rw [hm] at h
    cases h

/-- A run whose value is discarded. -/
theorem exists_ret_of_discard {m : Prog ε σ α} {t : σ}
    (h : (m >>= fun _ => pure ()) s = .ret () t) : ∃ a, m s = .ret a t := by
  obtain ⟨a, u, hm, hu⟩ := exists_ret_of_bind h
  cases hu
  exact ⟨a, hm⟩

theorem discard_ret {m : Prog ε σ α} {a : α} {t : σ} (h : m s = .ret a t) :
    (m >>= fun _ => pure ()) s = .ret () t := by
  change Prog.bind m _ s = _
  rw [Prog.bind, h]
  rfl

/-- What a specification says of a run that halted. -/
theorem wp_halted {m : Prog ε σ α} {e : ε} {t : σ} (h : wp m Q E s) (hm : m s = .halt e t) :
    E e t := by
  unfold wp at h
  rwa [hm] at h

end rules

/-! ## Frames -/

/-- Whenever the program returns from a view with `P`, the view has `Q`. Nothing is said of the
state that a halt leaves behind. -/
structure Leads {γ : Type} (view : σ → γ) (P Q : γ → Prop) (m : Prog ε σ α) : Prop where
  ret : ∀ {s a t}, m s = .ret a t → P (view s) → Q (view t)

section frames

variable {γ : Type} {view : σ → γ} {P M Q : γ → Prop}

@[simp] theorem leads_pure (a : α) : Leads view P P (pure a : Prog ε σ α) := by
  refine ⟨fun h hs => ?_⟩
  cases h
  exact hs

@[simp] theorem leads_get : Leads view P P (get : Prog ε σ σ) := by
  refine ⟨fun h hs => ?_⟩
  cases h
  exact hs

@[simp] theorem leads_halt (e : ε) : Leads view P Q (halt e : Prog ε σ α) := by
  refine ⟨fun h hs => ?_⟩
  cases h

@[simp] theorem leads_check (e : ε) (c : Prop) [Decidable c] :
    Leads view P P (check e c : Prog ε σ Unit) := by
  unfold check
  split <;> simp

theorem leads_modify {f : σ → σ} (hf : ∀ s, P (view s) → Q (view (f s))) :
    Leads view P Q (modify f : Prog ε σ Unit) := by
  refine ⟨fun h hs => ?_⟩
  cases h
  exact hf _ hs

/-- An assignment outside the view. -/
@[simp] theorem leads_modify_of_eq {f : σ → σ} (h : ∀ s, view (f s) = view s) :
    Leads view P P (modify f : Prog ε σ Unit) :=
  leads_modify fun s hs => by rwa [h]

theorem leads_bind {m : Prog ε σ β} {f : β → Prog ε σ α} (hm : Leads view P M m)
    (hf : ∀ b, Leads view M Q (f b)) : Leads view P Q (m >>= f) := by
  refine ⟨fun h hs => ?_⟩
  obtain ⟨b, u, hb, ht⟩ := exists_ret_of_bind h
  exact (hf b).ret ht (hm.ret hb hs)

/-- A step of a program that keeps `P` all along. -/
theorem leads_bind_same {m : Prog ε σ β} {f : β → Prog ε σ α} (hm : Leads view P P m)
    (hf : ∀ b, Leads view P P (f b)) : Leads view P P (m >>= f) := leads_bind hm hf

/-- A program that reads the state first. -/
theorem leads_get_bind {f : σ → Prog ε σ α}
    (hf : ∀ {s a t}, f s s = .ret a t → P (view s) → Q (view t)) : Leads view P Q (get >>= f) :=
  ⟨hf⟩

theorem Leads.mono {P' Q' : γ → Prop} {m : Prog ε σ α} (h : Leads view P Q m)
    (hP : ∀ v, P' v → P v) (hQ : ∀ v, Q v → Q' v) : Leads view P' Q' m :=
  ⟨fun hm hs => hQ _ (h.ret hm (hP _ hs))⟩

/-- The frame of a program, as a specification. -/
theorem Leads.wp {m : Prog ε σ α} {s : σ} (h : Leads view P Q m) (hs : P (view s)) :
    wp m (fun _ t => Q (view t)) (fun _ _ => True) s := by
  unfold Prog.wp
  split <;> rename_i hm
  · exact h.ret hm hs
  · trivial

/-- Specifications go past a program that keeps its frame. -/
theorem wp_bind_of_leads {m : Prog ε σ β} {f : β → Prog ε σ α} {R : α → σ → Prop}
    {E : ε → σ → Prop} {s : σ} (hm : Leads view P Q m) (hs : P (view s))
    (hf : ∀ b t, Q (view t) → wp (f b) R E t) (hE : ∀ e t, E e t) : wp (m >>= f) R E s := by
  rw [wp_bind]
  exact wp_mono (hm.wp hs) hf fun e t _ => hE e t

end frames

/-! ## Simulation of one program by another -/

section simulation

variable {τ : Type} {R : σ → τ → Prop} {s : σ} {t : τ}

theorem related_pure (a : α) (h : R s t) :
    Outcome.Related R ((pure a : Prog ε σ α) s) ((pure a : Prog ε τ α) t) := ⟨rfl, h⟩

theorem related_bind {m : Prog ε σ β} {m' : Prog ε τ β} {f : β → Prog ε σ α} {f' : β → Prog ε τ α}
    (hm : Outcome.Related R (m s) (m' t))
    (hf : ∀ b s' t', R s' t' → Outcome.Related R (f b s') (f' b t')) :
    Outcome.Related R ((m >>= f) s) ((m' >>= f') t) := by
  change Outcome.Related R (Prog.bind m f s) (Prog.bind m' f' t)
  unfold Prog.bind
  cases hs : m s <;> cases ht : m' t <;> rw [hs, ht] at hm
  · obtain ⟨rfl, hR⟩ := hm
    exact hf _ _ _ hR
  · exact hm.elim
  · exact hm.elim
  · exact hm

/-- Two checks of one condition. -/
theorem related_check {c c' : Prop} [Decidable c] [Decidable c'] (e : ε) (hc : c ↔ c')
    (h : R s t) :
    Outcome.Related R ((check e c : Prog ε σ Unit) s) ((check e c' : Prog ε τ Unit) t) := by
  unfold check
  by_cases hcond : c
  · rw [if_pos hcond, if_pos (hc.1 hcond)]
    exact ⟨rfl, h⟩
  · rw [if_neg hcond, if_neg (fun h' => hcond (hc.2 h'))]
    exact ⟨rfl, h⟩

/-- Two checks of one condition, and what follows them. -/
theorem related_check_bind {c c' : Prop} [Decidable c] [Decidable c'] {f : Unit → Prog ε σ α}
    {f' : Unit → Prog ε τ α} (e : ε) (hc : c ↔ c') (h : R s t)
    (hf : c → Outcome.Related R (f () s) (f' () t)) :
    Outcome.Related R ((check e c >>= f) s) ((check e c' >>= f') t) := by
  change Outcome.Related R (Prog.bind (check e c) f s) (Prog.bind (check e c') f' t)
  unfold Prog.bind check
  by_cases hcond : c
  · rw [if_pos hcond, if_pos (hc.1 hcond)]
    exact hf hcond
  · rw [if_neg hcond, if_neg (fun h' => hcond (hc.2 h'))]
    exact ⟨rfl, h⟩

end simulation

theorem get_bind_apply (f : σ → Prog ε σ α) (s : σ) : (get >>= f) s = f s s := rfl

theorem modify_bind_apply (g : σ → σ) (f : Unit → Prog ε σ α) (s : σ) :
    (modify g >>= f) s = f () (g s) := rfl

theorem bind_apply_of_ret {m : Prog ε σ β} {b : β} {t : σ} (h : m s = .ret b t)
    (f : β → Prog ε σ α) : (m >>= f) s = f b t := by
  change Prog.bind m f s = f b t
  rw [Prog.bind, h]

/-- Two continuations that agree where the program returns. -/
theorem bind_apply_congr {m : Prog ε σ β} {f g : β → Prog ε σ α}
    (h : ∀ b t, m s = .ret b t → f b t = g b t) : (m >>= f) s = (m >>= g) s := by
  change Prog.bind m f s = Prog.bind m g s
  unfold Prog.bind
  cases hm : m s with
  | ret b t => exact h b t hm
  | halt e t => rfl

theorem bind_apply_of_eq {m m' : Prog ε σ β} {t : σ} (h : m s = m' t) (f : β → Prog ε σ α) :
    (m >>= f) s = (m' >>= f) t := by
  change Prog.bind m f s = Prog.bind m' f t
  unfold Prog.bind
  rw [h]

/-- A program that runs as another one does, with its answers renamed. -/
theorem bind_apply_of_map {γ : Type} {m : Prog ε σ β} {m' : Prog ε σ γ} {g : γ → β} {t : σ}
    (h : m s = (m' >>= fun c => pure (g c)) t) (f : β → Prog ε σ α) :
    (m >>= f) s = (m' >>= fun c => f (g c)) t := by
  change Prog.bind m f s = Prog.bind m' (fun c => f (g c)) t
  change m s = Prog.bind m' (fun c => pure (g c)) t at h
  unfold Prog.bind at h ⊢
  rw [h]
  cases m' t <;> rfl

end Prog

end Halting
