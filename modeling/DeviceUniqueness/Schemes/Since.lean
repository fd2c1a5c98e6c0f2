import Mathlib

/-! What happened last.

    In a list of events, `P` took place and `Q` has not since. The rules are those of one more event at
    the end, and give a decision procedure that reads the list once. -/

namespace Schemes

/-- `P` took place in the list, and `Q` has not since. -/
def Since {α : Type} (P Q : α → Prop) (xs : List α) : Prop :=
  ∃ early x late, xs = early ++ x :: late ∧ P x ∧ ∀ y ∈ late, ¬Q y

section Since

variable {α : Type} {P Q : α → Prop} {xs : List α} {x : α}

theorem Since.now (h : P x) : Since P Q (xs ++ [x]) := ⟨xs, x, [], rfl, h, nofun⟩

theorem Since.snoc (h : Since P Q xs) (hx : ¬Q x) : Since P Q (xs ++ [x]) := by
  obtain ⟨early, y, late, rfl, hy, hlate⟩ := h
  refine ⟨early, y, late ++ [x], by rw [List.append_assoc]; rfl, hy, fun z hz => ?_⟩
  rcases List.mem_append.mp hz with hz | hz
  · exact hlate z hz
  · exact List.mem_singleton.mp hz ▸ hx

theorem Since.of_snoc (h : Since P Q (xs ++ [x])) (hx : ¬P x) : Since P Q xs ∧ ¬Q x := by
  obtain ⟨early, y, late, heq, hy, hlate⟩ := h
  rcases List.eq_nil_or_concat late with rfl | ⟨late, z, rfl⟩
  · obtain ⟨-, hlast⟩ := List.append_inj' heq rfl
    exact absurd hy (List.singleton_inj.mp hlast ▸ hx)
  · rw [List.concat_eq_append, ← List.cons_append, ← List.append_assoc] at heq
    obtain ⟨rfl, hlast⟩ := List.append_inj' heq rfl
    obtain rfl := List.singleton_inj.mp hlast
    exact ⟨⟨early, y, late, rfl, hy, fun z hz => hlate z (by simp [hz])⟩, hlate x (by simp)⟩

def sinceStep (P Q : α → Prop) [DecidablePred P] [DecidablePred Q] (seen : Bool) (x : α) : Bool :=
  decide (P x) || (seen && !decide (Q x))

theorem since_iff [DecidablePred P] [DecidablePred Q] :
    Since P Q xs ↔ xs.foldl (sinceStep P Q) false = true := by
  induction xs using List.reverseRecOn with
  | nil =>
    refine ⟨?_, nofun⟩
    rintro ⟨early, x, late, heq, -⟩
    cases early <;> cases heq
  | append_singleton xs x ih =>
    rw [List.foldl_append, List.foldl_cons, List.foldl_nil, sinceStep, Bool.or_eq_true,
      Bool.and_eq_true, decide_eq_true_iff,
      Bool.not_eq_true', decide_eq_false_iff_not, ← ih]
    by_cases hx : P x
    · exact iff_of_true (.now hx) (.inl hx)
    · refine ⟨fun h => .inr (h.of_snoc hx), ?_⟩
      rintro (h | ⟨h, hq⟩)
      · exact absurd h hx
      · exact h.snoc hq

instance [DecidablePred P] [DecidablePred Q] : Decidable (Since P Q xs) :=
  decidable_of_iff _ since_iff.symm

end Since

end Schemes
