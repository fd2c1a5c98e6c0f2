import Mathlib

/-! A queue that is served in rounds.

    A round has a list of slots. Each slot in turn takes the first element of the queue that it is
    open to, if there is one, and what it takes is gone for the slots after it. Where one of the
    slots is open to everything a round always takes the front of the queue: so a queue of `n` is
    served in `n` rounds, and an element waits for no more rounds than there are elements ahead. -/

namespace Schemes

variable {α β σ K : Type}

/-- What a slot leaves is the queue without what it takes. -/
theorem find?_eraseP_cases (p : α → Bool) (q : List α) :
    q.find? p = none ∧ q.eraseP p = q ∨
    ∃ front x back, q = front ++ x :: back ∧ p x = true ∧ (∀ a ∈ front, p a = false) ∧
      q.find? p = some x ∧ q.eraseP p = front ++ back := by
  cases hfind : q.find? p with
  | none => exact Or.inl ⟨rfl, List.eraseP_of_forall_not (List.find?_eq_none.mp hfind)⟩
  | some x =>
    obtain ⟨hx, front, back, rfl, hfront⟩ := List.find?_eq_some_iff_append.mp hfind
    have hskip : ∀ a ∈ front, ¬ p a = true := fun a ha => by simpa using hfront a ha
    refine Or.inr ⟨front, x, back, rfl, hx, fun a ha => by simpa using hfront a ha, rfl, ?_⟩
    rw [List.eraseP_append_right _ hskip, List.eraseP_cons_of_pos hx]

theorem find?_eraseP_perm (p : α → Bool) (q : List α) :
    ((q.find? p).toList ++ q.eraseP p).Perm q := by
  rcases find?_eraseP_cases p q with ⟨hnone, herase⟩ | ⟨front, x, back, rfl, -, -, hfind, herase⟩
  · rw [hnone, herase]
    exact List.Perm.refl _
  · rw [hfind, herase, Option.toList_some, List.singleton_append]
    exact List.perm_middle.symm

variable (ok : σ → α → Bool)

/-- What the slots of one round take, and what they leave. -/
def serveRound : List σ → List α → List (σ × α) × List α
  | [], q => ([], q)
  | slot :: slots, q =>
      let rest := serveRound slots (q.eraseP (ok slot))
      (((q.find? (ok slot)).map (slot, ·)).toList ++ rest.1, rest.2)

/-- What `n` rounds take, each with the number of the round; the first round is `i`. -/
def serveRounds (slots : List σ) : Nat → Nat → List α → List (Nat × σ × α)
  | _, 0, _ => []
  | i, n + 1, q =>
      (serveRound ok slots q).1.map (i, ·) ++ serveRounds slots (i + 1) n (serveRound ok slots q).2

variable {ok} {slots : List σ} {q : List α} {i n : Nat}

theorem serveRound_perm : ∀ (slots : List σ) (q : List α),
    ((serveRound ok slots q).1.map Prod.snd ++ (serveRound ok slots q).2).Perm q
  | [], q => List.Perm.refl q
  | slot :: slots, q => by
      have hmap : (((q.find? (ok slot)).map (slot, ·)).toList.map Prod.snd) =
          (q.find? (ok slot)).toList := by
        cases q.find? (ok slot) <;> rfl
      simp only [serveRound, List.map_append, hmap, List.append_assoc]
      exact ((serveRound_perm slots _).append_left _).trans (find?_eraseP_perm ..)

theorem serveRound_sublist : ∀ (slots : List σ) (q : List α), (serveRound ok slots q).2.Sublist q
  | [], q => List.Sublist.refl q
  | _ :: slots, _ => (serveRound_sublist slots _).trans List.eraseP_sublist

theorem serveRound_nil : ∀ slots : List σ, serveRound ok slots ([] : List α) = ([], [])
  | [] => rfl
  | slot :: slots => by
      rw [serveRound, List.eraseP_nil, serveRound_nil slots]
      rfl

theorem serveRounds_nil : ∀ i n : Nat, serveRounds ok slots i n [] = []
  | _, 0 => rfl
  | i, n + 1 => by
      rw [serveRounds, serveRound_nil, serveRounds_nil (i + 1) n]
      rfl

/-- What the rounds take comes from the queue. -/
theorem mem_of_serveRounds : ∀ {i n : Nat} {q : List α} {e : Nat × σ × α}, e ∈ serveRounds ok slots i n q →
    e.2.2 ∈ q
  | _, 0, _, _, h => by cases h
  | i, n + 1, q, e, h => by
      have hperm : ((serveRound ok slots q).1.map Prod.snd ++ (serveRound ok slots q).2).Perm q :=
        serveRound_perm slots q
      rw [serveRounds] at h
      rcases List.mem_append.mp h with h | h
      · obtain ⟨x, hx, rfl⟩ := List.mem_map.mp h
        exact hperm.subset (List.mem_append_left _ (List.mem_map_of_mem hx))
      · exact hperm.subset (List.mem_append_right _ (mem_of_serveRounds h))

/-! ### A slot for everything -/

/-- Some slot of the round is open to everything. -/
def Open (ok : σ → α → Bool) (slots : List σ) : Prop := ∃ slot ∈ slots, ∀ a, ok slot a = true

/-- The front of the queue is taken. -/
theorem serveRound_front {a : α} : ∀ {slots : List σ} {q : List α}, Open ok slots →
    (serveRound ok slots (a :: q)).2.Sublist q
  | [], _, ⟨_, hslot, _⟩ => by cases hslot
  | slot :: slots, q, ⟨open', hmem, hopen⟩ => by
      rw [serveRound]
      by_cases ha : ok slot a = true
      · rw [List.eraseP_cons_of_pos ha]
        exact serveRound_sublist ..
      · rw [List.eraseP_cons_of_neg ha]
        have hrest : open' ∈ slots := by
          rcases List.mem_cons.mp hmem with rfl | h
          · exact absurd (hopen a) ha
          · exact h
        exact (serveRound_front ⟨open', hrest, hopen⟩).trans List.eraseP_sublist

/-- As many rounds as there are elements serve the whole queue. -/
theorem serveRounds_perm (hopen : Open ok slots) : ∀ {n : Nat} {q : List α} (i : Nat), q.length ≤ n →
    ((serveRounds ok slots i n q).map fun e => e.2.2).Perm q
  | 0, q, _, h => by
      rw [List.length_eq_zero_iff.mp (Nat.le_zero.mp h)]
      exact List.Perm.refl _
  | n + 1, [], i, _ => by
      rw [serveRounds_nil]
      exact List.Perm.refl _
  | n + 1, a :: q, i, h => by
      have hleft := (serveRound_front (a := a) (q := q) hopen).length_le
      have hrest := serveRounds_perm hopen (i + 1) (Nat.le_trans hleft (Nat.le_of_succ_le_succ h))
      rw [serveRounds, List.map_append, List.map_map]
      exact (hrest.append_left _).trans (serveRound_perm slots (a :: q))

/-- More rounds than that take nothing more. -/
theorem serveRounds_enough (hopen : Open ok slots) : ∀ {n m : Nat} {q : List α} (i : Nat),
    q.length ≤ n → q.length ≤ m → serveRounds ok slots i n q = serveRounds ok slots i m q
  | n, m, [], i, _, _ => by rw [serveRounds_nil, serveRounds_nil]
  | 0, _, _ :: _, _, h, _ | _ + 1, 0, _ :: _, _, _, h => by cases h
  | n + 1, m + 1, a :: q, i, hn, hm => by
      have hleft := (serveRound_front (a := a) (q := q) hopen).length_le
      rw [serveRounds, serveRounds,
        serveRounds_enough (n := n) (m := m) hopen (i + 1)
          (Nat.le_trans hleft (Nat.le_of_succ_le_succ hn))
          (Nat.le_trans hleft (Nat.le_of_succ_le_succ hm))]

/-! ### Waiting -/

section Waiting

variable [LinearOrder K] (key : α → K)

/-- The elements that come before `x`. -/
def ahead (q : List α) (x : α) : Nat := q.countP fun a => key a < key x

variable {key} {x : α}

/-- An element that is still waiting after a round has fewer ahead of it. -/
theorem serveRound_ahead (hopen : Open ok slots) (hsorted : q.Pairwise fun a b => key a < key b)
    (hx : x ∈ (serveRound ok slots q).2) : ahead key (serveRound ok slots q).2 x < ahead key q x := by
  cases q with
  | nil =>
    rw [serveRound_nil] at hx
    cases hx
  | cons a q =>
    have hfront := serveRound_front (a := a) (q := q) hopen
    have ha : key a < key x := (List.pairwise_cons.mp hsorted).1 x (hfront.subset hx)
    have hle := hfront.countP_le (p := fun a => decide (key a < key x))
    rw [ahead, ahead, List.countP_cons_of_pos (by simpa using ha)]
    omega

/-- An element waits for no more rounds than there are elements ahead of it. -/
theorem serveRounds_within (hopen : Open ok slots) : ∀ {n : Nat} {q : List α} (i : Nat),
    (q.Pairwise fun a b => key a < key b) → x ∈ q → ahead key q x < n →
    ∃ e ∈ serveRounds ok slots i n q, e.2.2 = x ∧ e.1 ≤ i + ahead key q x
  | 0, _, _, _, _, h => by cases h
  | n + 1, q, i, hsorted, hx, h => by
      have hperm : ((serveRound ok slots q).1.map Prod.snd ++ (serveRound ok slots q).2).Perm q :=
        serveRound_perm slots q
      rw [serveRounds]
      rcases List.mem_append.mp (hperm.mem_iff.mpr hx) with hnow | hlater
      · obtain ⟨e, he, rfl⟩ := List.mem_map.mp hnow
        exact ⟨(i, e), List.mem_append_left _ (List.mem_map_of_mem he), rfl, Nat.le_add_right ..⟩
      · have hless := serveRound_ahead hopen hsorted hlater
        have hn : ahead key (serveRound ok slots q).2 x < n := by omega
        obtain ⟨e, he, hex, hle⟩ := serveRounds_within hopen (i + 1)
          (hsorted.sublist (serveRound_sublist slots q)) hlater hn
        exact ⟨e, List.mem_append_right _ he, hex, by omega⟩

end Waiting

/-! ### Another view of the elements -/

section Map

variable {ok' : σ → β → Bool} {f : α → β}

theorem eraseP_congr {p p' : α → Bool} : ∀ {q : List α}, (∀ a ∈ q, p a = p' a) →
    q.eraseP p = q.eraseP p'
  | [], _ => rfl
  | a :: q, h => by
      rw [List.eraseP_cons, List.eraseP_cons, h a (List.mem_cons_self ..),
        eraseP_congr fun b hb => h b (List.mem_cons_of_mem _ hb)]

theorem serveRound_map : ∀ (slots : List σ) {q : List α}, (∀ slot, ∀ a ∈ q, ok' slot (f a) = ok slot a) →
    serveRound ok' slots (q.map f) =
      ((serveRound ok slots q).1.map (Prod.map id f), (serveRound ok slots q).2.map f)
  | [], _, _ => rfl
  | slot :: slots, q, hok => by
      have hfind : q.find? (ok' slot ∘ f) = q.find? (ok slot) := List.find?_congr (hok slot)
      have herase : q.eraseP (ok' slot ∘ f) = q.eraseP (ok slot) := eraseP_congr (hok slot)
      have hrest := serveRound_map slots (q := q.eraseP (ok slot))
        fun slot a ha => hok slot a (List.eraseP_sublist.subset ha)
      simp only [serveRound, List.find?_map, List.eraseP_map, hfind, herase, hrest, List.map_append]
      cases q.find? (ok slot) <;> rfl

theorem serveRounds_map : ∀ {i n : Nat} {q : List α}, (∀ slot, ∀ a ∈ q, ok' slot (f a) = ok slot a) →
    serveRounds ok' slots i n (q.map f) =
      (serveRounds ok slots i n q).map fun e => (e.1, e.2.1, f e.2.2)
  | _, 0, _, _ => rfl
  | i, n + 1, q, hok => by
      have hrest := serveRounds_map (i := i + 1) (n := n) (q := (serveRound ok slots q).2)
        fun slot a ha => hok slot a ((serveRound_sublist slots q).subset ha)
      simp only [serveRounds, serveRound_map slots hok, hrest, List.map_append, List.map_map]
      rfl

end Map

end Schemes
