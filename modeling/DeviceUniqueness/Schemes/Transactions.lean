import DeviceUniqueness.Schemes.System

/-!
Transactions under way in a store, and the processes that own them: each process knows what its
transaction is, has one at most, and no key is held by two of them.
-/

namespace Schemes

open Function

variable {T K B : Type} {owner : T → Nat} {held : T → List K} {Knows Knows' : B → T → Prop}
  {txs txs' : List T} {w w' : Nat → Option B} {p : Nat} {b b' : B}

structure Underway (owner : T → Nat) (held : T → List K) (Knows : B → T → Prop) (txs : List T)
    (w : Nat → Option B) : Prop where
  known : ∀ tx ∈ txs, ∃ b, w (owner tx) = some b ∧ Knows b tx
  single : ∀ tx ∈ txs, ∀ tx' ∈ txs, owner tx = owner tx' → tx = tx'
  sole : ∀ tx ∈ txs, ∀ tx' ∈ txs, ∀ k ∈ held tx, k ∈ held tx' → owner tx = owner tx'

namespace Underway

variable (h : Underway owner held Knows txs w)
include h

/-- What the process knows of its own transaction. -/
theorem knows {tx : T} (hb : w (owner tx) = some b) (htx : tx ∈ txs) : Knows b tx := by
  obtain ⟨c, hc, hknown⟩ := h.known tx htx
  rw [hb, Option.some.injEq] at hc
  exact hc ▸ hknown

/-- Some transactions are gone; the rest are known as before. -/
theorem shrink (htxs : ∀ tx ∈ txs', tx ∈ txs) (hw : ∀ tx ∈ txs', w' (owner tx) = w (owner tx))
    (hknows : ∀ b, ∀ tx ∈ txs', Knows b tx → Knows' b tx) :
    Underway owner held Knows' txs' w' where
  known tx htx := by
    obtain ⟨b, hb, hknown⟩ := h.known tx (htxs tx htx)
    exact ⟨b, (hw tx htx).trans hb, hknows b tx htx hknown⟩
  single tx htx tx' htx' := h.single tx (htxs tx htx) tx' (htxs tx' htx')
  sole tx htx tx' htx' := h.sole tx (htxs tx htx) tx' (htxs tx' htx')

/-- A process without a transaction begins one, which holds nothing. -/
theorem opened (new : T) (hfree : ∀ tx ∈ txs, owner tx ≠ owner new) (hheld : held new = [])
    (hb : Knows b new) :
    Underway owner held Knows (new :: txs) (update w (owner new) (some b)) := by
  constructor
  · intro tx hmem
    rcases List.mem_cons.mp hmem with rfl | hmem
    · exact ⟨b, update_self .., hb⟩
    · obtain ⟨c, hc, hknown⟩ := h.known tx hmem
      exact ⟨c, by rwa [update_of_ne (hfree tx hmem)], hknown⟩
  · intro tx hmem tx' hmem' heq
    rcases List.mem_cons.mp hmem with rfl | hold <;> rcases List.mem_cons.mp hmem' with rfl | hold'
    · rfl
    · exact absurd heq.symm (hfree tx' hold')
    · exact absurd heq (hfree tx hold)
    · exact h.single tx hold tx' hold' heq
  · intro tx hmem tx' hmem' k hk hk'
    rcases List.mem_cons.mp hmem with rfl | hold
    · rw [hheld] at hk
      cases hk
    · rcases List.mem_cons.mp hmem' with rfl | hold'
      · rw [hheld] at hk'
        cases hk'
      · exact h.sole tx hold tx' hold' k hk hk'

/-- The transaction of `p` is changed, and `p` knows how; a key it holds now and did not hold before
    no other transaction holds. -/
theorem change {f : T → T} (hb : w p = some b) (howner : ∀ tx, owner (f tx) = owner tx)
    (hknows : ∀ tx ∈ txs, owner tx = p → Knows b tx → Knows b' (f tx))
    (hheld : ∀ tx ∈ txs, owner tx = p → ∀ k ∈ held (f tx), k ∈ held tx ∨
      ∀ tx' ∈ txs, k ∈ held tx' → owner tx' = p)
    (htxs : txs' = txs.map fun tx => if owner tx = p then f tx else tx) :
    Underway owner held Knows txs' (update w p (some b')) := by
  have hmem : ∀ tx' ∈ txs', ∃ tx ∈ txs, tx' = if owner tx = p then f tx else tx := by
    intro tx' htx'
    rw [htxs] at htx'
    obtain ⟨tx, htx, rfl⟩ := List.mem_map.mp htx'
    exact ⟨tx, htx, rfl⟩
  have howner' : ∀ tx, owner (if owner tx = p then f tx else tx) = owner tx := by
    intro tx
    split
    · exact howner tx
    · rfl
  -- what a transaction holds now it held before, or nobody but `p` held it
  have hkeys : ∀ tx ∈ txs, ∀ k ∈ held (if owner tx = p then f tx else tx), k ∈ held tx ∨
      owner tx = p ∧ ∀ tx' ∈ txs, k ∈ held tx' → owner tx' = p := by
    intro tx htx k hk
    split at hk
    · next hp => exact (hheld tx htx hp k hk).imp_right fun h => ⟨hp, h⟩
    · exact .inl hk
  constructor
  · intro tx' htx'
    obtain ⟨tx, htx, rfl⟩ := hmem tx' htx'
    obtain ⟨c, hc, hknown⟩ := h.known tx htx
    rw [howner']
    split
    · next hp =>
      rw [hp, hb, Option.some.injEq] at hc
      subst hc
      exact ⟨b', by rw [hp, update_self], hknows tx htx hp hknown⟩
    · next hp => exact ⟨c, by rwa [update_of_ne hp], hknown⟩
  · intro tx₁ h₁ tx₂ h₂ heq
    obtain ⟨tx, htx, rfl⟩ := hmem tx₁ h₁
    obtain ⟨tx', htx', rfl⟩ := hmem tx₂ h₂
    rw [howner', howner'] at heq
    rw [h.single tx htx tx' htx' heq]
  · intro tx₁ h₁ tx₂ h₂ k hk hk'
    obtain ⟨tx, htx, rfl⟩ := hmem tx₁ h₁
    obtain ⟨tx', htx', rfl⟩ := hmem tx₂ h₂
    rw [howner', howner']
    rcases hkeys tx htx k hk with hk | ⟨hp, hfree⟩ <;>
      rcases hkeys tx' htx' k hk' with hk' | ⟨hp', hfree'⟩
    · exact h.sole tx htx tx' htx' k hk hk'
    · exact (hfree' tx htx hk).trans hp'.symm
    · exact hp.trans (hfree tx' htx' hk').symm
    · exact hp.trans hp'.symm

end Underway

end Schemes
