import Mathlib

/-! Records that are found by a key, in a list in which no key comes twice, and the places of the keys
    in a list of keys. -/

namespace Schemes

open Function

variable {α κ : Type} [DecidableEq κ] {key : α → κ}
variable {k : κ} {keys : List κ}

/-- What is found under a key is the one record of that key. -/
theorem find?_keyed {l : List α} (hkeys : (l.map key).Nodup) {x : α} :
    l.find? (fun y => key y = k) = some x ↔ x ∈ l ∧ key x = k := by
  constructor
  · intro h
    exact ⟨List.mem_of_find?_eq_some h, by simpa using List.find?_some h⟩
  · rintro ⟨hmem, rfl⟩
    obtain ⟨found, hfound⟩ : ∃ found, l.find? (fun y => key y = key x) = some found := by
      rw [← Option.isSome_iff_exists]
      exact List.find?_isSome.mpr ⟨x, hmem, by simp⟩
    have hkey : key found = key x := by simpa using List.find?_some hfound
    rw [hfound, List.inj_on_of_nodup_map hkeys (List.mem_of_find?_eq_some hfound) hmem hkey]

/-- A change of the records that leaves the keys alone. -/
theorem find?_map_keyed {f : α → α} (hf : ∀ x, key (f x) = key x) (l : List α) (k : κ) :
    (l.map f).find? (fun y => key y = k) = (l.find? fun y => key y = k).map f := by
  rw [List.find?_map]
  congr 2
  funext x
  simp [hf]

/-- Where one record is changed so that it counts and did not before, the count goes up by one. -/
theorem countP_change {p : α → Bool} {f : α → α} {x : α} :
    ∀ {l : List α}, (l.map key).Nodup → l.find? (fun y => key y = k) = some x →
      (∀ y, key y ≠ k → f y = y) → p x = false → p (f x) = true →
      (l.map f).countP p = l.countP p + 1
  | [], _, hx, _, _, _ => by cases hx
  | y :: l, hkeys, hx, hrest, hbefore, hafter => by
      rw [List.map_cons, List.nodup_cons] at hkeys
      rw [List.map_cons, List.countP_cons, List.countP_cons]
      by_cases hy : key y = k
      · rw [List.find?_cons_of_pos (by simpa using hy)] at hx
        obtain rfl := Option.some.inj hx
        -- the record is the first, and the others are as they were
        have hsame : l.map f = l := by
          refine (List.map_congr_left fun z hz => hrest z ?_).trans (List.map_id l)
          rintro rfl
          exact hkeys.1 (hy ▸ List.mem_map_of_mem hz)
        rw [hsame, hafter, hbefore]
        rfl
      · rw [List.find?_cons_of_neg (by simpa using hy)] at hx
        rw [countP_change hkeys.2 hx hrest hbefore hafter, hrest y hy]
        omega

/-! ### The place of a key -/

def enter (index : κ → Option Nat) (entry : κ × Nat) : κ → Option Nat :=
  update index entry.1 (some entry.2)

/-- The map from each key to its place, entered one after the other: what is entered last stays. -/
def placeIn (keys : List κ) : κ → Option Nat := keys.zipIdx.foldl enter fun _ => none

theorem foldl_enter (hkeys : keys.Nodup) (k : κ) : ∀ (n : Nat) (index : κ → Option Nat),
      (keys.zipIdx n).foldl enter index k =
        if k ∈ keys then some (n + keys.idxOf k) else index k := by
  induction keys with
  | nil => exact fun n index => rfl
  | cons key keys ih =>
    intro n index
    obtain ⟨hnew, hkeys⟩ := List.nodup_cons.mp hkeys
    rw [List.zipIdx_cons, List.foldl_cons, ih hkeys]
    by_cases hk : k = key
    · subst hk
      simp [enter, hnew]
    · have hidx : (key :: keys).idxOf k = keys.idxOf k + 1 := List.idxOf_cons_ne _ (Ne.symm hk)
      simp only [enter, List.mem_cons, hk, false_or, update_of_ne hk, hidx]
      split
      · congr 1
        omega
      · rfl

/-- To set what a list holds for a key is to set it in the function that fills the list. -/
theorem set_idxOf_map {β : Type} {f : κ → β} {b : β} : ∀ {keys : List κ}, keys.Nodup → k ∈ keys →
      (keys.map f).set (keys.idxOf k) b = keys.map (update f k b)
  | [], _, hk => by cases hk
  | key :: keys, hkeys, hk => by
      obtain ⟨hnew, hkeys⟩ := List.nodup_cons.mp hkeys
      by_cases hkey : key = k
      · subst hkey
        have hrest : keys.map (update f key b) = keys.map f :=
          List.map_congr_left fun k hk => update_of_ne (fun h : k = key => hnew (h ▸ hk)) ..
        simp [hrest]
      · have hk := (List.mem_cons.mp hk).resolve_left (Ne.symm hkey)
        rw [List.idxOf_cons_ne _ hkey, List.map_cons, List.set_cons_succ, set_idxOf_map hkeys hk,
          List.map_cons, update_of_ne hkey]

theorem placeIn_none (hkeys : keys.Nodup) (hk : k ∉ keys) : placeIn keys k = none := by
  rw [placeIn, foldl_enter hkeys, if_neg hk]

/-- The place found for a key is where a list filled for the keys has its entry. -/
theorem placeIn_some (hkeys : keys.Nodup) (hk : k ∈ keys) :
    ∃ i, placeIn keys k = some i ∧ keys[i]? = some k ∧
      ∀ {β : Type} (f : κ → β) (b : β), (keys.map f).set i b = keys.map (update f k b) := by
  refine ⟨keys.idxOf k, ?_, List.getElem?_idxOf hk, fun f b => set_idxOf_map hkeys hk⟩
  rw [placeIn, foldl_enter hkeys, if_pos hk, Nat.zero_add]

end Schemes
