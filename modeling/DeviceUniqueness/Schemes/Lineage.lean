import Mathlib

/-! Keys that replace one another, in chains.

    A key has at most one successor. Keys come in two ways: a new root, which nothing leads to, or a
    new successor of a key that had none. `Lineages` says that the keys fall into chains, one from
    each root, each following the successors to a key that has none; both ways of adding a key keep
    it. So what descends from a root is a single chain, and only its end can still be replaced. -/

namespace Schemes

variable {K : Type} {next next' : K → Option K} {k k' : K} {chain : List K}

/-- Every key of the chain is followed by its successor, and the last one has none. -/
def Linked (next : K → Option K) : List K → Prop
  | [] => True
  | [k] => next k = none
  | k :: k' :: rest => next k = some k' ∧ Linked next (k' :: rest)

/-- The keys `b` such that following successors leads from `a` to `b`. -/
def Descends (next : K → Option K) : K → K → Prop := Relation.ReflTransGen fun a b => next a = some b

/-- Where no successor is taken away, what descended from a key still does. -/
theorem Descends.grow {a b : K} (h : Descends next a b)
    (hkeep : ∀ k k', next k = some k' → next' k = some k') : Descends next' a b := by
  induction h with
  | refl => exact .refl
  | tail _ hlink ih => exact ih.tail (hkeep _ _ hlink)

namespace Linked

theorem congr (h : Linked next chain) (hsame : ∀ k ∈ chain, next' k = next k) :
    Linked next' chain := by
  induction chain with
  | nil => trivial
  | cons k rest ih =>
    have hk : next' k = next k := hsame k (List.mem_cons_self ..)
    have hrest : ∀ x ∈ rest, next' x = next x := fun x hx => hsame x (List.mem_cons_of_mem _ hx)
    cases rest with
    | nil => exact hk.trans h
    | cons k' rest => exact ⟨hk.trans h.1, ih h.2 hrest⟩

/-- Only the end of a chain has no successor. -/
theorem ends_at (h : Linked next chain) (hk : k ∈ chain) (hnone : next k = none) :
    ∃ front, chain = front ++ [k] := by
  induction chain with
  | nil => simp at hk
  | cons k₀ rest ih =>
    cases rest with
    | nil => exact ⟨[], by rw [List.mem_singleton.mp hk, List.nil_append]⟩
    | cons k₁ rest =>
      have hne : k ≠ k₀ := by
        rintro rfl
        rw [h.1] at hnone
        cases hnone
      obtain ⟨front, hfront⟩ := ih h.2 ((List.mem_cons.mp hk).resolve_left hne)
      exact ⟨k₀ :: front, by rw [hfront, List.cons_append]⟩

/-- The end of a chain gets a successor. -/
theorem extend {front : List K} (h : Linked next (front ++ [k]))
    (hsame : ∀ x ∈ front, next' x = next x) (hk : next' k = some k') (hk' : next' k' = none) :
    Linked next' (front ++ [k, k']) := by
  induction front with
  | nil => exact ⟨hk, hk'⟩
  | cons k₀ rest ih =>
    have h₀ : next' k₀ = next k₀ := hsame k₀ (List.mem_cons_self ..)
    have hrest : ∀ x ∈ rest, next' x = next x := fun x hx => hsame x (List.mem_cons_of_mem _ hx)
    cases rest with
    | nil | cons k₁ rest => exact ⟨h₀.trans h.1, ih h.2 hrest⟩

theorem next_mem (h : Linked next chain) (hk : k ∈ chain) (hnext : next k = some k') :
    k' ∈ chain := by
  induction chain with
  | nil => simp at hk
  | cons k₀ rest ih =>
    cases rest with
    | nil =>
      rw [List.mem_singleton.mp hk, show next k₀ = none from h] at hnext
      cases hnext
    | cons k₁ rest =>
      rcases List.mem_cons.mp hk with rfl | hk
      · rw [h.1] at hnext
        rw [Option.some.inj hnext]
        exact List.mem_cons_of_mem _ (List.mem_cons_self ..)
      · exact List.mem_cons_of_mem _ (ih h.2 hk)

theorem descends {root : K} (h : Linked next chain) (hroot : chain.head? = some root) (hk : k ∈ chain) :
    Descends next root k := by
  induction chain generalizing root with
  | nil => simp at hk
  | cons k₀ rest ih =>
    obtain rfl : k₀ = root := Option.some.inj hroot
    rcases List.mem_cons.mp hk with rfl | hk
    · exact Relation.ReflTransGen.refl
    · cases rest with
      | nil => simp at hk
      | cons k₁ rest => exact Relation.ReflTransGen.head h.1 (ih h.2 rfl hk)

/-- What descends from the first key of a chain is the chain. -/
theorem descends_iff {root : K} (h : Linked next chain) (hroot : chain.head? = some root) :
    Descends next root k ↔ k ∈ chain := by
  refine ⟨fun hd => ?_, h.descends hroot⟩
  induction hd with
  | refl => exact List.mem_of_mem_head? hroot
  | tail _ hnext ih => exact h.next_mem ih hnext

end Linked

/-- The keys, cut into chains that start at the roots. -/
structure Lineages (next : K → Option K) (keys roots : List K) (chains : List (List K)) : Prop where
  perm : chains.flatten.Perm keys
  started : ∀ chain ∈ chains, ∃ root ∈ roots, chain.head? = some root
  rooted : ∀ root ∈ roots, ∃ chain ∈ chains, chain.head? = some root
  linked : ∀ chain ∈ chains, Linked next chain

namespace Lineages

variable {keys roots : List K} {chains : List (List K)}

theorem nil : Lineages next [] [] [] := ⟨.nil, nofun, nofun, nofun⟩

theorem mem (h : Lineages next keys roots chains) (hchain : chain ∈ chains) (hk : k ∈ chain) :
    k ∈ keys :=
  h.perm.mem_iff.mp (List.mem_flatten.mpr ⟨chain, hchain, hk⟩)

theorem chain_of (h : Lineages next keys roots chains) (hk : k ∈ keys) :
    ∃ chain ∈ chains, k ∈ chain :=
  List.mem_flatten.mp (h.perm.mem_iff.mpr hk)

theorem chain_nodup (h : Lineages next keys roots chains) (hkeys : keys.Nodup)
    (hchain : chain ∈ chains) : chain.Nodup :=
  (List.nodup_flatten.mp (h.perm.nodup_iff.mpr hkeys)).1 chain hchain

/-- A new root. -/
theorem root (h : Lineages next keys roots chains) (hsame : ∀ x ∈ keys, next' x = next x)
    (hnone : next' k = none) : Lineages next' (k :: keys) (roots ++ [k]) ([k] :: chains) where
  perm := h.perm.cons k
  started := by
    intro chain hchain
    rcases List.mem_cons.mp hchain with rfl | hchain
    · exact ⟨k, List.mem_append_right _ (List.mem_singleton_self k), rfl⟩
    · obtain ⟨root, hroot, hhead⟩ := h.started chain hchain
      exact ⟨root, List.mem_append_left _ hroot, hhead⟩
  rooted := by
    intro root hroot
    rcases List.mem_append.mp hroot with hroot | hroot
    · obtain ⟨chain, hchain, hhead⟩ := h.rooted root hroot
      exact ⟨chain, List.mem_cons_of_mem _ hchain, hhead⟩
    · exact ⟨[k], List.mem_cons_self .., by rw [List.mem_singleton.mp hroot]; rfl⟩
  linked := by
    intro chain hchain
    rcases List.mem_cons.mp hchain with rfl | hchain
    · exact hnone
    · exact (h.linked chain hchain).congr fun x hx => hsame x (h.mem hchain hx)

/-- A key that had no successor gets one. -/
theorem extend (h : Lineages next keys roots chains) (hkeys : keys.Nodup) (hk : k ∈ keys)
    (hnone : next k = none) (hsame : ∀ x ∈ keys, x ≠ k → next' x = next x)
    (hnext : next' k = some k') (hnone' : next' k' = none) :
    ∃ chains', Lineages next' (k' :: keys) roots chains' := by
  obtain ⟨chain, hchain, hmem⟩ := h.chain_of hk
  obtain ⟨before, after, rfl⟩ := List.append_of_mem hchain
  obtain ⟨front, rfl⟩ := (h.linked chain hchain).ends_at hmem hnone
  have hflat : (before ++ (front ++ [k]) :: after).flatten =
      (before.flatten ++ front) ++ k :: after.flatten := by simp
  -- no other chain holds `k`, nor does the rest of its own
  have hnotin : k ∉ (before.flatten ++ front) ++ after.flatten := by
    have hnodup := h.perm.nodup_iff.mpr hkeys
    rw [hflat, List.nodup_middle] at hnodup
    exact (List.nodup_cons.mp hnodup).1
  have hagree : ∀ chain' ∈ before ++ (front ++ [k]) :: after, k ∉ chain' → Linked next' chain' := by
    intro chain' hin hout
    refine (h.linked chain' hin).congr fun x hx => hsame x (h.mem hin hx) ?_
    rintro rfl
    exact hout hx
  have hhead : (front ++ [k, k']).head? = (front ++ [k]).head? := by cases front <;> rfl
  obtain ⟨hbefore, hrest⟩ := List.forall_mem_append.mp h.started
  obtain ⟨hcut, hafter⟩ := List.forall_mem_cons.mp hrest
  refine ⟨before ++ (front ++ [k, k']) :: after, ⟨?_, ?_, ?_, ?_⟩⟩
  · refine List.Perm.trans ?_ (h.perm.cons k')
    rw [hflat, show (before ++ (front ++ [k, k']) :: after).flatten =
      (before.flatten ++ front ++ [k]) ++ k' :: after.flatten by simp]
    refine List.perm_middle.trans (List.Perm.of_eq ?_)
    simp
  · refine List.forall_mem_append.mpr ⟨hbefore, List.forall_mem_cons.mpr ⟨?_, hafter⟩⟩
    rw [hhead]
    exact hcut
  · intro root hroot
    obtain ⟨chain', hin, hstart⟩ := h.rooted root hroot
    rcases List.mem_append.mp hin with hin | hin
    · exact ⟨chain', List.mem_append_left _ hin, hstart⟩
    · rcases List.mem_cons.mp hin with rfl | hin
      · exact ⟨_, List.mem_append_right _ (List.mem_cons_self ..), hhead.trans hstart⟩
      · exact ⟨chain', List.mem_append_right _ (List.mem_cons_of_mem _ hin), hstart⟩
  · refine List.forall_mem_append.mpr ⟨fun c hc => ?_, List.forall_mem_cons.mpr ⟨?_, fun c hc => ?_⟩⟩
    · refine hagree c (List.mem_append_left _ hc) fun hkc => hnotin ?_
      simp only [List.mem_append, List.mem_flatten]
      exact Or.inl (Or.inl ⟨c, hc, hkc⟩)
    · refine (h.linked _ hchain).extend (fun x hx => ?_) hnext hnone'
      refine hsame x (h.mem hchain (List.mem_append_left _ hx)) ?_
      rintro rfl
      exact hnotin (List.mem_append_left _ (List.mem_append_right _ hx))
    · refine hagree c (List.mem_append_right _ (List.mem_cons_of_mem _ hc)) fun hkc => hnotin ?_
      exact List.mem_append_right _ (List.mem_flatten.mpr ⟨c, hc, hkc⟩)

end Lineages

end Schemes
