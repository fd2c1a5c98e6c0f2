import Mathlib

/-! Graphs of nodes that refer to each other by name, and when two names stand for the same thing.

    A name stands for a node, and a node has names in it. Two names, each of a graph of its own, are
    bisimilar when their nodes are alike but for the names in them, which are bisimilar in turn. What
    it means for nodes to be alike, given when names are, is a parameter. -/

namespace Schemes

variable {α α' β β' δ δ' ε ε' : Type}

def Bisimilar (alike : (α → β → Prop) → δ → ε → Prop) (left : α → Option δ) (right : β → Option ε)
    (a : α) (b : β) : Prop :=
  ∃ R : α → β → Prop, R a b ∧
    ∀ a b, R a b → ∃ d e, left a = some d ∧ right b = some e ∧ alike R d e

namespace Bisimilar

variable {alike : (α → β → Prop) → δ → ε → Prop} {left : α → Option δ} {right : β → Option ε}

/-- The nodes of bisimilar names are alike. -/
theorem nodes (hmono : ∀ {R S : α → β → Prop}, (∀ a b, R a b → S a b) → ∀ {d e}, alike R d e →
    alike S d e) {a : α} {b : β} (h : Bisimilar alike left right a b) :
    ∃ d e, left a = some d ∧ right b = some e ∧ alike (Bisimilar alike left right) d e := by
  obtain ⟨R, hab, hclosed⟩ := h
  obtain ⟨d, e, hd, he, halike⟩ := hclosed a b hab
  exact ⟨d, e, hd, he, hmono (fun _ _ hab => ⟨R, hab, hclosed⟩) halike⟩

/-- The names may be written differently, in either graph. -/
theorem rename {alike' : (α' → β' → Prop) → δ' → ε' → Prop} {left' : α' → Option δ'}
    {right' : β' → Option ε'} (σ : α ≃ α') (τ : β ≃ β') (f : δ → δ') (g : ε → ε')
    (hleft : ∀ a, left' (σ a) = (left a).map f) (hright : ∀ b, right' (τ b) = (right b).map g)
    (halike : ∀ (R : α → β → Prop) {d e}, alike R d e →
      alike' (fun a b => R (σ.symm a) (τ.symm b)) (f d) (g e))
    {a : α} {b : β} (h : Bisimilar alike left right a b) :
    Bisimilar alike' left' right' (σ a) (τ b) := by
  obtain ⟨R, hab, hclosed⟩ := h
  refine ⟨fun a b => R (σ.symm a) (τ.symm b), by simpa using hab, fun a b hab => ?_⟩
  obtain ⟨d, e, hd, he, hde⟩ := hclosed _ _ hab
  have ha := hleft (σ.symm a)
  have hb := hright (τ.symm b)
  rw [σ.apply_symm_apply, hd] at ha
  rw [τ.apply_symm_apply, he] at hb
  exact ⟨f d, g e, ha, hb, halike R hde⟩

end Bisimilar

end Schemes
