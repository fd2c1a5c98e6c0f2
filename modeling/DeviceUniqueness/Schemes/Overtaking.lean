import DeviceUniqueness.Schemes.Rounds

/-! Who is served before whom, in a queue that is served in rounds.

    An element that stands before another, and that every slot is open to that is open to the other,
    is served first. Two queues are compared slot by slot (`Lockstep`): as long as the slots take the
    same from both, whatever holds between the queues goes on, and an element is served no later in
    the one queue than another element in the other. -/

namespace Schemes

variable {α σ : Type} {ok : σ → α → Bool} {slots : List σ}

/-! ### The rounds are in order -/

theorem le_of_mem_serveRounds : ∀ {i n : Nat} {q : List α} {e : Nat × σ × α},
    e ∈ serveRounds ok slots i n q → i ≤ e.1
  | _, 0, _, _, h => by cases h
  | i, n + 1, q, e, h => by
      rw [serveRounds] at h
      rcases List.mem_append.mp h with h | h
      · obtain ⟨x, -, rfl⟩ := List.mem_map.mp h
        exact le_refl i
      · exact Nat.le_of_succ_le (le_of_mem_serveRounds h)

theorem serveRounds_rounds : ∀ (i n : Nat) (q : List α),
    (serveRounds ok slots i n q).Pairwise fun e e' => e.1 ≤ e'.1
  | _, 0, _ => List.Pairwise.nil
  | i, n + 1, q => by
      rw [serveRounds]
      refine List.pairwise_append.mpr ⟨?_, serveRounds_rounds (i + 1) n _, fun e he e' he' => ?_⟩
      · exact List.pairwise_map.mpr (List.pairwise_of_forall fun _ _ => le_refl i)
      · obtain ⟨x, -, rfl⟩ := List.mem_map.mp he
        exact Nat.le_of_succ_le (le_of_mem_serveRounds he')

/-! ### One before the other -/

section Precedes

variable {x y : α} {q : List α}

/-- What is open to the one that comes later takes it only when the one before is gone. -/
theorem eraseP_precedes {p : α → Bool} (hp : p y = true → p x = true) (h : [x, y].Sublist q) :
    q.find? p = some x ∧ y ∈ q.eraseP p ∨ [x, y].Sublist (q.eraseP p) := by
  rcases find?_eraseP_cases p q with ⟨-, herase⟩ | ⟨front, z, back, rfl, hz, hfront, hfind, herase⟩
  · rw [herase]
    exact .inr h
  · rw [hfind, herase]
    obtain ⟨l₁, l₂, heq, h₁, h₂⟩ := List.sublist_append_iff.mp h
    rcases List.sublist_cons_iff.mp h₂ with h₂ | ⟨l₃, rfl, h₃⟩
    · exact .inr (heq ▸ h₁.append h₂)
    · rcases l₁ with _ | ⟨a, _ | ⟨b, l₁⟩⟩
      · obtain ⟨rfl, rfl⟩ : x = z ∧ [y] = l₃ := List.cons.inj heq
        exact .inl ⟨rfl, List.mem_append_right _ (List.singleton_sublist.mp h₃)⟩
      · obtain ⟨rfl, hrest⟩ : x = a ∧ [y] = z :: l₃ := List.cons.inj heq
        obtain ⟨rfl, -⟩ := List.cons.inj hrest
        have hx := hfront x (List.singleton_sublist.mp h₁)
        rw [hp hz] at hx
        cases hx
      · have hlength := congrArg List.length heq
        simp at hlength

theorem serveRound_precedes (hp : ∀ slot, ok slot y = true → ok slot x = true) :
    ∀ (slots : List σ) {q : List α}, [x, y].Sublist q →
      [x, y].Sublist ((serveRound ok slots q).1.map Prod.snd ++ (serveRound ok slots q).2)
  | [], _, h => h
  | slot :: slots, q, h => by
      have htaken : (((q.find? (ok slot)).map (slot, ·)).toList.map Prod.snd) =
          (q.find? (ok slot)).toList := by
        cases q.find? (ok slot) <;> rfl
      rw [serveRound, List.map_append, htaken, List.append_assoc]
      rcases eraseP_precedes (hp slot) h with ⟨hfind, hy⟩ | h
      · have hperm : ((serveRound ok slots (q.eraseP (ok slot))).1.map Prod.snd ++
            (serveRound ok slots (q.eraseP (ok slot))).2).Perm (q.eraseP (ok slot)) :=
          serveRound_perm slots (q.eraseP (ok slot))
        have hlater := hperm.mem_iff.mpr hy
        rw [hfind]
        exact (List.singleton_sublist.mpr hlater).cons_cons x
      · exact (serveRound_precedes hp slots h).trans (List.sublist_append_right ..)

/-- The one before is served before. -/
theorem serveRounds_precedes (hopen : Open ok slots)
    (hp : ∀ slot, ok slot y = true → ok slot x = true) : ∀ {n : Nat} {q : List α} (i : Nat),
    q.length ≤ n → [x, y].Sublist q →
    [x, y].Sublist ((serveRounds ok slots i n q).map fun e => e.2.2)
  | _, [], _, _, h => by cases h
  | 0, _ :: _, _, hn, _ => by cases hn
  | n + 1, a :: q, i, hn, h => by
      have hleft := (serveRound_front (a := a) (q := q) hopen).length_le
      have hlength : (serveRound ok slots (a :: q)).2.length ≤ n :=
        Nat.le_trans hleft (Nat.le_of_succ_le_succ hn)
      rw [serveRounds, List.map_append, List.map_map]
      obtain ⟨l₁, l₂, heq, h₁, h₂⟩ := List.sublist_append_iff.mp (serveRound_precedes hp slots h)
      rw [heq]
      refine h₁.append ?_
      rcases l₁ with _ | ⟨b, _ | ⟨c, l₁⟩⟩
      · obtain rfl : [x, y] = l₂ := heq
        exact serveRounds_precedes hopen hp (i + 1) hlength h₂
      · obtain ⟨-, rfl⟩ : x = b ∧ [y] = l₂ := List.cons.inj heq
        refine List.singleton_sublist.mpr ?_
        exact (serveRounds_perm hopen (i + 1) hlength).mem_iff.mpr (List.singleton_sublist.mp h₂)
      · obtain rfl : l₂ = [] := by
          have hlength := congrArg List.length heq
          simp only [List.length_cons, List.length_nil, List.length_append] at hlength
          exact List.length_eq_zero_iff.mp (by omega)
        exact List.nil_sublist _

end Precedes

/-! ### Two queues -/

/-- A slot takes `x'` from the second queue, or it takes the same from both, which is not `x`. -/
def Lockstep (ok : σ → α → Bool) (x x' : α) (R : List α → List α → Prop) : Prop :=
  ∀ slot q q', R q q' → q'.find? (ok slot) = some x' ∨
    (q'.find? (ok slot) = q.find? (ok slot) ∧ q.find? (ok slot) ≠ some x ∧
      R (q.eraseP (ok slot)) (q'.eraseP (ok slot)))

namespace Lockstep

variable {x x' : α} {R : List α → List α → Prop}

theorem round (h : Lockstep ok x x' R) : ∀ (slots : List σ) {q q' : List α}, R q q' →
    (∃ early slot rest rest', (serveRound ok slots q').1 = early ++ (slot, x') :: rest' ∧
      (serveRound ok slots q).1 = early ++ rest ∧ ∀ e ∈ early, e.2 ≠ x) ∨
    (serveRound ok slots q').1 = (serveRound ok slots q).1 ∧
      (∀ e ∈ (serveRound ok slots q).1, e.2 ≠ x) ∧
      R (serveRound ok slots q).2 (serveRound ok slots q').2
  | [], _, _, hR => .inr ⟨rfl, nofun, hR⟩
  | slot :: slots, q, q', hR => by
      rcases h slot q q' hR with htaken | ⟨hsame, hnot, hR'⟩
      · refine .inl ⟨[], slot, _, (serveRound ok slots (q'.eraseP (ok slot))).1, ?_, rfl, nofun⟩
        rw [serveRound, htaken]
        rfl
      · have htaken : ∀ e ∈ ((q.find? (ok slot)).map (slot, ·)).toList, e.2 ≠ x := by
          intro e he heq
          obtain ⟨z, hz, rfl⟩ := Option.map_eq_some_iff.mp (Option.mem_toList.mp he)
          exact hnot (hz.trans (congrArg some heq))
        rw [serveRound, serveRound, hsame]
        rcases round h slots hR' with ⟨early, slot', rest, rest', h', hq, hearly⟩ | ⟨heq, hearly, hR''⟩
        · refine .inl ⟨((q.find? (ok slot)).map (slot, ·)).toList ++ early, slot', rest, rest', ?_, ?_,
            fun e he => ?_⟩
          · rw [h', List.append_assoc]
          · rw [hq, List.append_assoc]
          · exact (List.mem_append.mp he).elim (htaken e) (hearly e)
        · refine .inr ⟨by rw [heq], fun e he => ?_, hR''⟩
          exact (List.mem_append.mp he).elim (htaken e) (hearly e)

theorem rounds (h : Lockstep ok x x' R) : ∀ {i n : Nat} {q q' : List α}, R q q' →
    (∃ early j slot rest rest', serveRounds ok slots i n q' = early ++ (j, slot, x') :: rest' ∧
      serveRounds ok slots i n q = early ++ rest ∧ (∀ e ∈ early, e.2.2 ≠ x) ∧ ∀ e ∈ rest, j ≤ e.1) ∨
    serveRounds ok slots i n q' = serveRounds ok slots i n q ∧
      ∀ e ∈ serveRounds ok slots i n q, e.2.2 ≠ x
  | _, 0, _, _, _ => .inr ⟨rfl, nofun⟩
  | i, n + 1, q, q', hR => by
      have hlift : ∀ {es : List (σ × α)}, (∀ e ∈ es, e.2 ≠ x) → ∀ e ∈ es.map (i, ·), e.2.2 ≠ x := by
        intro es hes e he
        obtain ⟨e', he', rfl⟩ := List.mem_map.mp he
        exact hes e' he'
      rcases h.round slots hR with ⟨early, slot, rest, rest', h', hq, hearly⟩ | ⟨heq, hearly, hR'⟩
      · refine .inl ⟨early.map (i, ·), i, slot,
          rest.map (i, ·) ++ serveRounds ok slots (i + 1) n (serveRound ok slots q).2,
          rest'.map (i, ·) ++ serveRounds ok slots (i + 1) n (serveRound ok slots q').2, ?_, ?_,
          hlift hearly, fun e he => ?_⟩
        · rw [serveRounds, h', List.map_append, List.append_assoc]
          rfl
        · rw [serveRounds, hq, List.map_append, List.append_assoc]
        · rcases List.mem_append.mp he with he | he
          · obtain ⟨e', -, rfl⟩ := List.mem_map.mp he
            exact le_refl i
          · exact Nat.le_of_succ_le (le_of_mem_serveRounds he)
      · rw [serveRounds, serveRounds, heq]
        rcases rounds h hR' with ⟨early, j, slot, rest, rest', h', hq, hlater, hrest⟩ | ⟨heq', hlater⟩
        · refine .inl ⟨(serveRound ok slots q).1.map (i, ·) ++ early, j, slot, rest, rest', ?_, ?_,
            fun e he => ?_, hrest⟩
          · rw [h', List.append_assoc]
          · rw [hq, List.append_assoc]
          · exact (List.mem_append.mp he).elim (hlift hearly e) (hlater e)
        · refine .inr ⟨by rw [heq'], fun e he => ?_⟩
          exact (List.mem_append.mp he).elim (hlift hearly e) (hlater e)

/-- In the second queue `x'` is served no later than `x` in the first. -/
theorem sooner (h : Lockstep ok x x' R) {i n : Nat} {q q' : List α} (hR : R q q') {k : Nat}
    {e : Nat × σ × α} (hk : (serveRounds ok slots i n q)[k]? = some e) (he : e.2.2 = x) :
    ∃ k' e', (serveRounds ok slots i n q')[k']? = some e' ∧ e'.2.2 = x' ∧ k' ≤ k ∧ e'.1 ≤ e.1 := by
  rcases h.rounds hR with ⟨early, j, slot, rest, rest', h', hq, hearly, hrest⟩ | ⟨-, hnever⟩
  · rw [hq] at hk
    have hlate : early.length ≤ k := by
      by_contra hlt
      rw [List.getElem?_append_left (Nat.lt_of_not_le hlt)] at hk
      exact hearly e (List.mem_of_getElem? hk) he
    rw [List.getElem?_append_right hlate] at hk
    refine ⟨early.length, (j, slot, x'), ?_, rfl, hlate, hrest e (List.mem_of_getElem? hk)⟩
    rw [h', List.getElem?_append_right (le_refl _), Nat.sub_self]
    rfl
  · exact absurd he (hnever e (List.mem_of_getElem? hk))

end Lockstep

section Front

variable {x : α} {front back : List α} {p : α → Bool}

/-- A slot that is open to something in front takes it from there, whatever comes after. -/
theorem take_front (h : ∃ z ∈ front, p z = true) :
    (∃ z ∈ front, front.find? p = some z) ∧
      ∀ back, (front ++ back).find? p = front.find? p ∧
        (front ++ back).eraseP p = front.eraseP p ++ back := by
  obtain ⟨z, hz, hpz⟩ := h
  obtain ⟨y, hy⟩ := Option.isSome_iff_exists.mp (List.find?_isSome.mpr ⟨z, hz, hpz⟩)
  refine ⟨⟨y, List.mem_of_find?_eq_some hy, hy⟩, fun back => ⟨?_, List.eraseP_append_left hpz _ hz⟩⟩
  rw [List.find?_append, hy, Option.some_or]

theorem pass_front (h : ¬∃ z ∈ front, p z = true) (back : List α) :
    (front ++ back).find? p = back.find? p ∧ (front ++ back).eraseP p = front ++ back.eraseP p := by
  have hnone : ∀ z ∈ front, ¬p z = true := fun z hz hpz => h ⟨z, hz, hpz⟩
  rw [List.find?_append, List.find?_eq_none.mpr hnone, Option.none_or]
  exact ⟨rfl, List.eraseP_append_right _ hnone⟩

end Front

/-! ### More behind an element -/

section Behind

variable (ok) in
/-- The second queue has more elements behind `x`, none that a slot is open to which is not open
    to `x`. -/
def Behind (kept : α → Bool) (x : α) (q q' : List α) : Prop :=
  ∃ front back, q = front ++ x :: back.filter kept ∧ q' = front ++ x :: back ∧ x ∉ front ∧ x ∉ back ∧
    ∀ w ∈ back, kept w = false → ∀ slot, ok slot w = true → ok slot x = true

theorem filter_take {kept p : α → Bool} : ∀ {l : List α},
    (∀ w ∈ l, kept w = false → p w = false) →
    (l.filter kept).find? p = l.find? p ∧ (l.filter kept).eraseP p = (l.eraseP p).filter kept
  | [], _ => ⟨rfl, rfl⟩
  | w :: l, h => by
      obtain ⟨hfind, herase⟩ := filter_take fun w hw => h w (List.mem_cons_of_mem _ hw)
      by_cases hkept : kept w = true
      · by_cases hp : p w = true
        · rw [List.filter_cons_of_pos hkept, List.find?_cons_of_pos hp, List.find?_cons_of_pos hp,
            List.eraseP_cons_of_pos hp, List.eraseP_cons_of_pos hp]
          exact ⟨rfl, rfl⟩
        · rw [List.filter_cons_of_pos hkept, List.find?_cons_of_neg hp, List.find?_cons_of_neg hp,
            List.eraseP_cons_of_neg hp, List.eraseP_cons_of_neg hp, List.filter_cons_of_pos hkept,
            herase]
          exact ⟨hfind, rfl⟩
      · have hp : ¬p w = true := by
          rw [h w (List.mem_cons_self ..) (by simpa using hkept)]
          exact Bool.false_ne_true
        rw [List.filter_cons_of_neg hkept, List.find?_cons_of_neg hp, List.eraseP_cons_of_neg hp,
          List.filter_cons_of_neg hkept]
        exact ⟨hfind, herase⟩

variable {kept : α → Bool} {x : α} {q q' : List α}

/-- A slot takes `x` from both queues, or the same from both. -/
theorem Behind.slot (h : Behind ok kept x q q') (slot : σ) :
    q.find? (ok slot) = some x ∧ q'.find? (ok slot) = some x ∨
      q'.find? (ok slot) = q.find? (ok slot) ∧ q.find? (ok slot) ≠ some x ∧
        Behind ok kept x (q.eraseP (ok slot)) (q'.eraseP (ok slot)) := by
  obtain ⟨front, back, rfl, rfl, hfront, hback, hlow⟩ := h
  by_cases hsome : ∃ z ∈ front, ok slot z = true
  · obtain ⟨⟨z, hz, hfind⟩, htake⟩ := take_front hsome
    refine .inr ⟨(htake _).1.trans (htake _).1.symm, ?_, front.eraseP (ok slot), back, (htake _).2,
      (htake _).2, fun hx => hfront (List.eraseP_sublist.subset hx), hback, hlow⟩
    rw [(htake _).1, hfind]
    rintro ⟨⟩
    exact hfront hz
  · have hpass := pass_front hsome
    by_cases hx : ok slot x = true
    · rw [(hpass _).1, (hpass _).1, List.find?_cons_of_pos hx, List.find?_cons_of_pos hx]
      exact .inl ⟨rfl, rfl⟩
    · have hlow' : ∀ w ∈ back, kept w = false → ok slot w = false := by
        intro w hw hkept
        by_contra hok
        exact hx (hlow w hw hkept slot (by simpa using hok))
      obtain ⟨hfind, herase⟩ := filter_take hlow'
      rw [(hpass _).1, (hpass _).1, (hpass _).2, (hpass _).2, List.find?_cons_of_neg hx,
        List.find?_cons_of_neg hx, List.eraseP_cons_of_neg hx, List.eraseP_cons_of_neg hx, hfind, herase]
      refine .inr ⟨rfl, fun heq => hback (List.mem_of_find?_eq_some heq), front, back.eraseP (ok slot), rfl,
        rfl, hfront, fun hx => hback (List.eraseP_sublist.subset hx), fun w hw => ?_⟩
      exact hlow w (List.eraseP_sublist.subset hw)

theorem lockstep_behind : Lockstep ok x x (Behind ok kept x) :=
  fun slot _ _ h => (h.slot slot).imp And.right id

theorem lockstep_behind_symm : Lockstep ok x x (fun q' q => Behind ok kept x q q') := by
  intro slot q' q h
  rcases h.slot slot with ⟨hq, -⟩ | ⟨hsame, hnot, hbehind⟩
  · exact .inl hq
  · exact .inr ⟨hsame.symm, hsame ▸ hnot, hbehind⟩

end Behind

/-! ### Another in the place of an element -/

section Swapped

variable {x x' : α}

/-- The second queue has `x'` in the place of `x`. -/
def Swapped (x x' : α) (q q' : List α) : Prop :=
  ∃ front back, q = front ++ x :: back ∧ q' = front ++ x' :: back ∧ x ∉ front ∧ x ∉ back

/-- An element in the same place with more slots open to it is served no later. -/
theorem lockstep_swapped (hmore : ∀ slot, ok slot x = true → ok slot x' = true) :
    Lockstep ok x x' (Swapped x x') := by
  rintro slot _ _ ⟨front, back, rfl, rfl, hfront, hback⟩
  by_cases hsome : ∃ z ∈ front, ok slot z = true
  · obtain ⟨⟨z, hz, hfind⟩, htake⟩ := take_front hsome
    refine .inr ⟨(htake _).1.trans (htake _).1.symm, ?_, front.eraseP (ok slot), back, (htake _).2,
      (htake _).2, fun hx => hfront (List.eraseP_sublist.subset hx), hback⟩
    rw [(htake _).1, hfind]
    rintro ⟨⟩
    exact hfront hz
  · have hpass := pass_front hsome
    by_cases hx' : ok slot x' = true
    · rw [(hpass _).1, List.find?_cons_of_pos hx']
      exact .inl rfl
    · have hx : ¬ok slot x = true := fun hx => hx' (hmore slot hx)
      rw [(hpass _).1, (hpass _).1, (hpass _).2, (hpass _).2, List.find?_cons_of_neg hx,
        List.find?_cons_of_neg hx', List.eraseP_cons_of_neg hx, List.eraseP_cons_of_neg hx']
      exact .inr ⟨rfl, fun heq => hback (List.mem_of_find?_eq_some heq), front, back.eraseP (ok slot),
        rfl, rfl, hfront, fun hx => hback (List.eraseP_sublist.subset hx)⟩

end Swapped

end Schemes
