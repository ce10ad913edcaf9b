import Mathlib.Data.Finset.Card
import Mathlib.Logic.Relation

/-!
# Chains of a partial function

A partial function `f : α → Option α` as a graph with at most one edge out of each node.
An acyclic graph on finitely many nodes has a rank that decreases along every edge and stays
below the number of nodes, which bounds any walk along it.
-/

namespace Chain

open Relation

variable {α : Type} (f : α → Option α)

def Edge (a b : α) : Prop := f a = some b

/-- `b` is reached from `a` by following the function any number of times. -/
def Reaches : α → α → Prop := ReflTransGen (Edge f)

def Acyclic : Prop := ∀ a, ¬ TransGen (Edge f) a a

variable {f} {g : α → Option α} {a b c : α}

theorem reaches_iff_eq_or_next : Reaches f a c ↔ a = c ∨ ∃ b, f a = some b ∧ Reaches f b c := by
  constructor
  · intro h
    obtain rfl | ⟨b, hab, hbc⟩ := ReflTransGen.cases_head h
    · exact .inl rfl
    · exact .inr ⟨b, hab, hbc⟩
  · rintro (rfl | ⟨b, hab, hbc⟩)
    · exact .refl
    · exact .head hab hbc

/-- A node without a successor reaches only itself. -/
theorem reaches_of_none (ha : f a = none) : Reaches f a c ↔ a = c := by
  rw [reaches_iff_eq_or_next]
  simp [ha]

/-- Edges may be removed, or redirected to nodes that have no successor. -/
theorem Acyclic.redirect (hf : Acyclic f)
    (h : ∀ a b, g a = some b → f a = some b ∨ g b = none) : Acyclic g := by
  have hkey : ∀ a b, TransGen (Edge g) a b → g b ≠ none → TransGen (Edge f) a b := by
    intro a b hab
    induction hab with
    | single hab =>
      intro hb
      exact .single ((h _ _ hab).resolve_right hb)
    | tail _ hbc ih =>
      intro hc
      exact .tail (ih (by simp [show g _ = some _ from hbc])) ((h _ _ hbc).resolve_right hc)
  intro a ha
  have hne : g a ≠ none := by
    obtain ⟨b, hab, -⟩ := TransGen.head'_iff.mp ha
    simp [show g a = some b from hab]
  exact hf a (hkey a a ha hne)

/-- One edge `a → b` may be added when `b` does not reach `a`. -/
theorem Acyclic.addEdge (hf : Acyclic f) (hba : ¬ Reaches f b a)
    (h : ∀ x y, g x = some y → f x = some y ∨ x = a ∧ y = b) : Acyclic g := by
  have hkey : ∀ x y, TransGen (Edge g) x y →
      TransGen (Edge f) x y ∨ Reaches f x a ∧ Reaches f b y := by
    intro x y hxy
    induction hxy with
    | single hxy =>
      obtain hf' | ⟨rfl, rfl⟩ := h _ _ hxy
      · exact .inl (.single hf')
      · exact .inr ⟨.refl, .refl⟩
    | tail _ hyz ih =>
      obtain hf' | ⟨rfl, rfl⟩ := h _ _ hyz
      · obtain hxy | ⟨hxa, hby⟩ := ih
        · exact .inl (.tail hxy hf')
        · exact .inr ⟨hxa, .tail hby hf'⟩
      · obtain hxy | ⟨hxa, -⟩ := ih
        · exact .inr ⟨hxy.to_reflTransGen, .refl⟩
        · exact .inr ⟨hxa, .refl⟩
  intro x hx
  obtain hx | ⟨hxa, hbx⟩ := hkey x x hx
  · exact hf x hx
  · exact hba (ReflTransGen.trans hbx hxa)

/-- The rank of a node: how many nodes of `s` it reaches in one or more steps. -/
theorem Acyclic.exists_rank (hf : Acyclic f) (s : Finset α)
    (hs : ∀ a b, f a = some b → b ∈ s) :
    ∃ rank : α → Nat, (∀ a ∈ s, rank a < s.card) ∧ ∀ a b, f a = some b → rank b < rank a := by
  classical
  refine ⟨fun a => (s.filter (TransGen (Edge f) a)).card, ?_, ?_⟩
  · intro a ha
    apply Finset.card_lt_card
    refine Finset.filter_ssubset.mpr ⟨a, ha, hf a⟩
  · intro a b hab
    apply Finset.card_lt_card
    rw [Finset.ssubset_iff_of_subset]
    · exact ⟨b, by simpa using ⟨hs a b hab, TransGen.single hab⟩, by simp [hf b]⟩
    · intro c hc
      simp only [Finset.mem_filter] at hc ⊢
      exact ⟨hc.1, .head hab hc.2⟩

end Chain
