import Mathlib

/-! Keyset pagination.

    A page is the first rows, in the order of their keys, of those whose key lies after the last key
    seen. As long as the rows stay and no two share a key, going on from the last row of a page
    leaves exactly the rest of the ordered rows. -/

namespace Schemes.Keyset

variable {α κ : Type} [LinearOrder κ] (key : α → κ)

/-- `WHERE key > cursor`, where there is one. -/
def After (cursor : Option κ) (x : α) : Prop := ∀ k ∈ cursor, k < key x

instance (cursor : Option κ) (x : α) : Decidable (After key cursor x) :=
  inferInstanceAs (Decidable (∀ k ∈ cursor, k < key x))

/-- `ORDER BY key`. -/
def ordered (rows : List α) : List α := rows.insertionSort fun x y => key x ≤ key y

instance total_key : Std.Total fun x y : α => key x ≤ key y := ⟨fun x y => le_total (key x) (key y)⟩

instance isTrans_key : IsTrans α fun x y => key x ≤ key y := ⟨fun _ _ _ => le_trans⟩

variable {key} {rows : List α}

theorem mem_ordered {x : α} : x ∈ ordered key rows ↔ x ∈ rows := List.mem_insertionSort _

/-- No two rows share a key, so the order is strict. -/
theorem ordered_strict (h : rows.Pairwise fun x y => key x ≠ key y) :
    (ordered key rows).Pairwise fun x y => key x < key y := by
  have hle : (ordered key rows).Pairwise fun x y => key x ≤ key y := List.pairwise_insertionSort _ _
  have hne : (ordered key rows).Pairwise fun x y => key x ≠ key y :=
    (List.perm_insertionSort _ rows).symm.pairwise h fun h => h.symm
  exact hle.imp₂ (fun _ _ hle hne => lt_of_le_of_ne hle hne) hne

/-- Whether the rows are selected before they are ordered or after does not matter. -/
theorem ordered_filter (h : rows.Pairwise fun x y => key x ≠ key y) (p : α → Bool) :
    ordered key (rows.filter p) = (ordered key rows).filter p := by
  have hperm : (ordered key (rows.filter p)).Perm ((ordered key rows).filter p) :=
    (List.perm_insertionSort _ _).trans ((List.perm_insertionSort _ rows).symm.filter p)
  refine hperm.eq_of_pairwise (fun x y _ _ hxy hyx => ?_) (ordered_strict (h.filter p))
    ((ordered_strict h).filter p)
  exact absurd (hxy.trans hyx) (lt_irrefl _)

/-- After the last row of a page comes the rest. -/
theorem filter_after {done rest : List α} {last : α}
    (h : (done ++ last :: rest).Pairwise fun x y => key x < key y) :
    (done ++ last :: rest).filter (fun x => After key (some (key last)) x) = rest := by
  obtain ⟨-, hrest, hdone⟩ := List.pairwise_append.mp h
  rw [List.filter_append, List.filter_cons, List.filter_eq_nil_iff.mpr, List.nil_append, if_neg,
    List.filter_eq_self.mpr]
  · intro x hx
    exact decide_eq_true fun k hk => Option.mem_some.mp hk ▸ (List.pairwise_cons.mp hrest).1 x hx
  · exact fun hlast => lt_irrefl _ (of_decide_eq_true hlast _ rfl)
  · intro x hx hafter
    exact lt_asymm (hdone x hx last (List.mem_cons_self ..)) (of_decide_eq_true hafter _ rfl)

theorem filter_start (l : List α) : l.filter (fun x => After key none x) = l :=
  List.filter_eq_self.mpr fun _ _ => decide_eq_true nofun

/-! ### Cutting into pages -/

/-- The rows in pages: all are full but the last, and that one is empty only if there is no other. -/
inductive Chunked (n : Nat) : List α → List (List α) → Prop
  | last {l : List α} (h : l.length ≤ n) : Chunked n l [l]
  | more {l rest : List α} {chunks : List (List α)} (hl : l.length = n) (hrest : rest ≠ [])
      (h : Chunked n rest chunks) : Chunked n (l ++ rest) (l :: chunks)

variable {n : Nat} {l : List α} {chunks : List (List α)}

theorem exists_chunked (hn : 0 < n) (l : List α) : ∃ chunks, Chunked n l chunks := by
  induction hlen : l.length using Nat.strong_induction_on generalizing l with
  | _ m ih =>
    rcases Nat.lt_or_ge n l.length with hlt | hle
    · have hdrop : (l.drop n).length < m := by
        rw [List.length_drop]
        omega
      obtain ⟨chunks, hchunks⟩ := ih _ hdrop (l.drop n) rfl
      have hrest : l.drop n ≠ [] := by
        rw [← List.length_pos_iff_ne_nil, List.length_drop]
        omega
      have hsplit := Chunked.more (List.length_take_of_le hlt.le) hrest hchunks
      rw [List.take_append_drop] at hsplit
      exact ⟨_, hsplit⟩
    · exact ⟨[l], .last hle⟩

theorem Chunked.flatten (h : Chunked n l chunks) : chunks.flatten = l := by
  induction h with
  | last => exact List.append_nil _
  | more hl hrest _ ih => rw [List.flatten_cons, ih]

theorem Chunked.ne_nil (h : Chunked n l chunks) : chunks ≠ [] := by
  cases h <;> exact List.cons_ne_nil _ _

theorem Chunked.full (h : Chunked n l chunks) : ∀ chunk ∈ chunks.dropLast, chunk.length = n := by
  induction h with
  | last => exact nofun
  | more hl hrest h ih =>
    rw [List.dropLast_cons_of_ne_nil h.ne_nil]
    exact List.forall_mem_cons.mpr ⟨hl, ih⟩

end Schemes.Keyset
