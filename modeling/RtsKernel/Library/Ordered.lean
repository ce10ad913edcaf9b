import Mathlib.Data.List.Sort

/-!
# Stable ordered insertion

`List.orderedInsert r a` places `a` before the first member `b` with `r a b`. The relation
`r` that guides the insertion may be coarser than the order `s` the list is kept in: when `s`
breaks the ties of `r` in favour of the members that are already there, insertion keeps `s`.
-/

namespace Ordered

variable {α : Type} {r s : α → α → Prop} [DecidableRel r] {a b : α} {l : List α}

theorem pairwise_orderedInsert (hl : l.Pairwise s) (hlt : ∀ b ∈ l, r a b → s a b)
    (hge : ∀ b ∈ l, ¬ r a b → s b a) (htrans : ∀ b ∈ l, ∀ c ∈ l, s a b → s b c → s a c) :
    (l.orderedInsert r a).Pairwise s := by
  induction l with
  | nil => simp
  | cons b l ih =>
    obtain ⟨hb, hl⟩ := List.pairwise_cons.mp hl
    by_cases hab : r a b
    · have hsab : s a b := hlt b (by simp) hab
      rw [List.orderedInsert_cons, if_pos hab]
      refine List.pairwise_cons.mpr ⟨?_, List.pairwise_cons.mpr ⟨hb, hl⟩⟩
      intro c hc
      obtain rfl | hc := List.mem_cons.mp hc
      · exact hsab
      · exact htrans b (by simp) c (by simp [hc]) hsab (hb c hc)
    · rw [List.orderedInsert_cons, if_neg hab]
      refine List.pairwise_cons.mpr ⟨?_, ?_⟩
      · intro c hc
        obtain rfl | hc := List.mem_cons.mp ((List.perm_orderedInsert r a l).mem_iff.mp hc)
        · exact hge b (by simp) hab
        · exact hb c hc
      · exact ih hl (fun c hc => hlt c (by simp [hc])) (fun c hc => hge c (by simp [hc]))
          (fun c hc d hd => htrans c (by simp [hc]) d (by simp [hd]))

theorem nodup_orderedInsert (hl : l.Nodup) (ha : a ∉ l) : (l.orderedInsert r a).Nodup :=
  (List.perm_orderedInsert r a l).nodup_iff.mpr (List.nodup_cons.mpr ⟨ha, hl⟩)

@[simp] theorem mem_orderedInsert : b ∈ l.orderedInsert r a ↔ b = a ∨ b ∈ l :=
  List.mem_orderedInsert r

/-- What the new member precedes, it precedes in the guiding relation. -/
theorem rel_of_sublist_orderedInsert (hl : l.Pairwise s) (ha : a ∉ l)
    (htrans : ∀ c ∈ l, ∀ d ∈ l, r a c → s c d → r a d)
    (hab : [a, b].Sublist (l.orderedInsert r a)) : r a b := by
  induction l with
  | nil => simp at hab
  | cons c l ih =>
    obtain ⟨hc, hl⟩ := List.pairwise_cons.mp hl
    obtain ⟨hac, hal⟩ : a ≠ c ∧ a ∉ l := by simpa using ha
    by_cases hr : r a c
    · rw [List.orderedInsert_cons, if_pos hr, List.cons_sublist_cons, List.singleton_sublist,
        List.mem_cons] at hab
      obtain rfl | hb := hab
      · exact hr
      · exact htrans c (by simp) b (by simp [hb]) hr (hc b hb)
    · rw [List.orderedInsert_cons, if_neg hr] at hab
      refine ih hl hal (fun d hd e he => htrans d (by simp [hd]) e (by simp [he])) ?_
      exact (List.sublist_cons_iff.mp hab).resolve_right fun ⟨_, heq, _⟩ => hac (by simp_all)

/-- A new member goes past the members it does not precede. -/
theorem orderedInsert_append {l' : List α} (h : ∀ b ∈ l, ¬ r a b) :
    (l ++ l').orderedInsert r a = l ++ l'.orderedInsert r a := by
  induction l with
  | nil => rfl
  | cons b l ih =>
    have hb : ¬ r a b := h b (by simp)
    rw [List.cons_append, List.orderedInsert_cons, if_neg hb, ih fun c hc => h c (by simp [hc])]
    rfl

/-- A list whose members with `p` come first is split by `p`. -/
theorem filter_append_filter_not {p : α → Bool} (h : l.Pairwise fun a b => p b → p a) :
    l.filter p ++ l.filter (fun a => !p a) = l := by
  induction l with
  | nil => rfl
  | cons a l ih =>
    obtain ⟨ha, hl⟩ := List.pairwise_cons.mp h
    cases hp : p a with
    | true => simp [hp, ih hl]
    | false =>
      have hnone : l.filter p = [] := by
        refine List.filter_eq_nil_iff.mpr fun b hb hpb => ?_
        simp [ha b hb hpb] at hp
      have hrest := ih hl
      simp only [hnone, List.nil_append] at hrest
      simp [hp, hnone, hrest]

end Ordered
