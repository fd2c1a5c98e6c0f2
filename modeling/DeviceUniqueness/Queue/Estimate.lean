import DeviceUniqueness.Queue.Drain
import DeviceUniqueness.Schemes.Rounds

/-! The simulation on the four deques is a queue served in rounds.

    What the deques hold, merged by index, is the queue that is left (`Deals`): the smallest index
    among the fronts of some groups is the first element of the queue in one of them. So the loops
    of the estimate serve the entries as `Schemes.serveRounds` does, and the estimate of a claim is where
    it stands in that record. -/

namespace DeviceUniqueness

open Function Schemes

/-- The entries, each with its index. -/
abbrev Indexed := QueuedEntry × Nat

/-- The slot is open to the entry's group. -/
def eligible (slot : Nat) (entry : QueuedEntry) : Bool := 5 - slot ≤ entry.group

/-- The deques hold what is left, each group in order. -/
def Deals (byGroup : Deques) (left : List Indexed) : Prop :=
  ∀ group, 1 ≤ group → group ≤ 4 →
    byGroup (group - 1) = (left.filter fun x => x.1.group = group).map Prod.snd

/-- In the order of the snapshot. -/
def InOrder (left : List Indexed) : Prop := left.Pairwise fun a b => a.2 < b.2

theorem inOrder_zipIdx (entries : List QueuedEntry) : InOrder entries.zipIdx := by
  rw [InOrder, ← List.pairwise_map, List.zipIdx_map_snd]
  exact List.pairwise_lt_range'

variable {byGroup : Deques} {left : List Indexed}

theorem Deals.push (h : Deals byGroup left) (x : Indexed) :
    Deals (update byGroup (x.1.group - 1) (byGroup (x.1.group - 1) ++ [x.2]))
      (left ++ [x]) := by
  intro group h1 h4
  have hx := x.1.group_range
  rw [List.filter_append, List.map_append, ← h group h1 h4]
  rcases eq_or_ne x.1.group group with rfl | hne
  · simp
  · have : group - 1 ≠ x.1.group - 1 := by omega
    simp [this, hne]

theorem deal_deals (entries : List QueuedEntry) : Deals (deal entries) entries.zipIdx := by
  have hfold : ∀ (l left : List Indexed) (byGroup : Deques), Deals byGroup left →
      Deals (l.foldl (fun byGroup x =>
        update byGroup (x.1.group - 1) (byGroup (x.1.group - 1) ++ [x.2])) byGroup)
        (left ++ l) := by
    intro l
    induction l with
    | nil => intro left byGroup h; simpa using h
    | cons x l ih =>
      intro left byGroup h
      rw [List.foldl_cons]
      exact List.append_cons left x l ▸ ih _ _ (h.push x)
  exact hfold entries.zipIdx [] _ fun _ _ _ => rfl

/-- The front of a group's deque is the first of the group. -/
theorem Deals.front (h : Deals byGroup left) {group : Nat} (h1 : 1 ≤ group) (h4 : group ≤ 4) :
    (byGroup (group - 1)).head? = (left.find? fun x => x.1.group = group).map Prod.snd := by
  rw [h group h1 h4, List.head?_map, List.head?_filter]

/-- What a slot can choose from: for each group it is open to, the first of it. -/
theorem Deals.mem_fronts (h : Deals byGroup left) {minGroup : Nat} (hmin : 1 ≤ minGroup)
    (i group : Nat) :
    (i, group) ∈ (List.range' minGroup (5 - minGroup)).filterMap
        (fun group => (byGroup (group - 1)).head?.map (·, group)) ↔
      minGroup ≤ group ∧ group ≤ 4 ∧
        ∃ x, left.find? (fun x => x.1.group = group) = some x ∧ x.2 = i := by
  rw [List.mem_filterMap]
  constructor
  · rintro ⟨group', hmem, hfront⟩
    rw [List.mem_range'_1] at hmem
    obtain ⟨i', hi', hpair⟩ := Option.map_eq_some_iff.mp hfront
    obtain ⟨rfl, rfl⟩ := Prod.mk.inj hpair
    rw [h.front (by omega) (by omega)] at hi'
    exact ⟨hmem.1, by omega, Option.map_eq_some_iff.mp hi'⟩
  · rintro ⟨hge, hle, x, hx, rfl⟩
    refine ⟨group, List.mem_range'_1.mpr (by omega), ?_⟩
    rw [h.front (by omega) hle, hx]
    rfl

/-- The smallest index among the fronts is the first entry left that the slot is open to. -/
theorem Deals.pick (h : Deals byGroup left) (horder : InOrder left) {minGroup : Nat}
    (hmin : 1 ≤ minGroup) :
    pick byGroup minGroup =
      (left.find? fun x => minGroup ≤ x.1.group).map fun x => (x.2, x.1.group) := by
  have hfronts := h.mem_fronts hmin
  rcases find?_eraseP_cases (fun x : Indexed => decide (minGroup ≤ x.1.group)) left with
    ⟨hnone, -⟩ | ⟨before, x, after, hleft, hx, hbefore, hfind, -⟩
  · rw [hnone, Option.map_none, DeviceUniqueness.pick, List.argmin_eq_none,
      List.eq_nil_iff_forall_not_mem]
    rintro ⟨i, group⟩ hmem
    obtain ⟨hge, -, x, hx, -⟩ := (hfronts i group).mp hmem
    have hgroup : x.1.group = group := by simpa using List.find?_some hx
    have hlow := List.find?_eq_none.mp hnone x (List.mem_of_find?_eq_some hx)
    simp only [decide_eq_true_eq] at hlow
    omega
  · simp only [decide_eq_true_eq] at hx
    -- whatever else is at a front is not before `x`, as the slot is open to it too
    have hfirst : ∀ y group, minGroup ≤ group → left.find? (fun y => y.1.group = group) = some y →
        y = x ∨ x.2 < y.2 := by
      intro y group hge hy
      have hgroup : y.1.group = group := by simpa using List.find?_some hy
      have hmem := List.mem_of_find?_eq_some hy
      rw [hleft] at hmem
      rcases List.mem_append.mp hmem with hmem | hmem
      · have hlow := hbefore y hmem
        simp only [decide_eq_false_iff_not] at hlow
        omega
      · rw [InOrder, hleft] at horder
        exact (List.mem_cons.mp hmem).imp id
          ((List.pairwise_cons.mp (List.pairwise_append.mp horder).2.1).1 y)
    have hown : left.find? (fun y => y.1.group = x.1.group) = some x := by
      rw [hleft, List.find?_append, List.find?_eq_none.mpr, Option.none_or, List.find?_cons_of_pos]
      · simp
      · intro y hy
        have hlow := hbefore y hy
        simp only [decide_eq_false_iff_not, decide_eq_true_eq] at hlow ⊢
        omega
    rw [hfind, Option.map_some, DeviceUniqueness.pick, List.argmin_eq_some_iff]
    refine ⟨(hfronts _ _).mpr ⟨hx, x.1.group_range.2, x, hown, rfl⟩, ?_, ?_⟩
    · rintro ⟨i, group⟩ hmem
      obtain ⟨hge, -, y, hy, rfl⟩ := (hfronts i group).mp hmem
      rcases hfirst y group hge hy with rfl | hlt
      · exact le_rfl
      · exact hlt.le
    · rintro ⟨i, group⟩ hmem hle
      obtain ⟨hge, -, y, hy, rfl⟩ := (hfronts i group).mp hmem
      rcases hfirst y group hge hy with rfl | hlt
      · have hgroup : y.1.group = group := by simpa using List.find?_some hy
        rw [hgroup]
      · exact absurd hle (not_le.mpr hlt)

/-- Taking the front of its group takes `x` out of what is left. -/
theorem Deals.pop {before after : List Indexed} {x : Indexed}
    (h : Deals byGroup (before ++ x :: after)) (hbefore : ∀ y ∈ before, y.1.group ≠ x.1.group) :
    Deals (popFront byGroup x.1.group) (before ++ after) := by
  have hx := x.1.group_range
  intro group h1 h4
  unfold popFront
  rcases eq_or_ne group x.1.group with rfl | hne
  · have hnone : before.filter (fun y => y.1.group = x.1.group) = [] := by
      simpa [List.filter_eq_nil_iff] using hbefore
    rw [update_self, h _ h1 h4, List.filter_append, List.filter_append, hnone,
      List.filter_cons_of_pos (by simp)]
    rfl
  · have hindex : group - 1 ≠ x.1.group - 1 := by omega
    rw [update_of_ne hindex, h _ h1 h4, List.filter_append, List.filter_append,
      List.filter_cons_of_neg (by simpa using hne.symm)]

/-- A slot picks nothing and nothing is left that it is open to; or it picks the first such entry,
    and the deques hold the others. -/
theorem Deals.slot (h : Deals byGroup left) (horder : InOrder left) {slot : Nat} (hslot : slot ≤ 4) :
    DeviceUniqueness.pick byGroup (5 - slot) = none ∧
      (left.find? fun x => eligible slot x.1) = none ∧
      (left.eraseP fun x => eligible slot x.1) = left ∨
    ∃ x ∈ left, DeviceUniqueness.pick byGroup (5 - slot) = some (x.2, x.1.group) ∧
      (left.find? fun x => eligible slot x.1) = some x ∧
      (left.eraseP fun x => eligible slot x.1).length + 1 = left.length ∧
      Deals (popFront byGroup x.1.group) (left.eraseP fun x => eligible slot x.1) := by
  have hpick := h.pick horder (show 1 ≤ 5 - slot by omega)
  change _ = Option.map _ (left.find? fun x => eligible slot x.1) at hpick
  rcases find?_eraseP_cases (fun x : Indexed => eligible slot x.1) left with
    ⟨hnone, herase⟩ | ⟨before, x, after, rfl, hx, hbefore, hfind, herase⟩
  · exact Or.inl ⟨by rw [hpick, hnone]; rfl, hnone, herase⟩
  · refine Or.inr ⟨x, by simp, by rw [hpick, hfind]; rfl, hfind, ?_, ?_⟩
    · rw [herase]
      simp [Nat.add_assoc]
    · rw [herase]
      refine h.pop fun y hy hgroup => ?_
      have hlow := hbefore y hy
      rw [eligible, hgroup] at hlow
      rw [eligible, hlow] at hx
      cases hx

/-! ### The loops -/

variable {entries : List QueuedEntry} {targetId : Nat}

/-- The picks of the loops: what `n` iterations from `i` on serve of what is left. -/
abbrev served (i n : Nat) (left : List Indexed) : List (Nat × Nat × Indexed) :=
  serveRounds (fun slot x => eligible slot x.1) iterationSlots i n left

/-- Where the target stands in a record that follows `position` earlier picks. -/
def standing (targetId position : Nat) (picks : List (Nat × Nat × Indexed)) :
    Option DrainEstimate :=
  ((picks.zipIdx (position + 1)).find? fun e => e.1.2.2.1.id = targetId).map fun e => ⟨e.2, e.1.1⟩

theorem standing_cons (position i slot : Nat) (x : Indexed) (picks : List (Nat × Nat × Indexed)) :
    standing targetId position ((i, slot, x) :: picks) =
      if x.1.id = targetId then some ⟨position + 1, i⟩
      else standing targetId (position + 1) picks := by
  rw [standing, List.zipIdx_cons, List.find?_cons]
  by_cases hid : x.1.id = targetId <;> simp [hid, standing]

theorem standing_append (position : Nat) (picks picks' : List (Nat × Nat × Indexed)) :
    standing targetId position (picks ++ picks') =
      (standing targetId position picks).or
        (standing targetId (position + picks.length) picks') := by
  rw [standing, List.zipIdx_append, List.find?_append, Option.map_or, standing, standing,
    Nat.add_right_comm]

/-- The slots take from the queue as a round does. -/
abbrev takeRound (slots : List Nat) (left : List Indexed) : List (Nat × Indexed) × List Indexed :=
  serveRound (fun slot x => eligible slot x.1) slots left

theorem takeRound_length (slots : List Nat) (left : List Indexed) :
    (takeRound slots left).1.length + (takeRound slots left).2.length = left.length := by
  have hperm : ((takeRound slots left).1.map Prod.snd ++ (takeRound slots left).2).Perm left :=
    serveRound_perm slots left
  simpa using hperm.length_eq

/-- One iteration: it ends with the target's standing, or goes on with what is left. -/
theorem drainSlots_eq (iteration : Nat) : ∀ {slots : List Nat} {byGroup : Deques}
    {left : List Indexed} {position : Nat}, (∀ slot ∈ slots, slot ≤ 4) → Deals byGroup left →
    InOrder left → (∀ x ∈ left, x ∈ entries.zipIdx) → position + left.length < 2 ^ 32 →
    (∃ estimate,
      standing targetId position ((takeRound slots left).1.map (iteration, ·)) = some estimate ∧
      drainSlots entries targetId iteration slots byGroup position = .error estimate) ∨
    standing targetId position ((takeRound slots left).1.map (iteration, ·)) = none ∧
      ∃ byGroup', Deals byGroup' (takeRound slots left).2 ∧
        drainSlots entries targetId iteration slots byGroup position =
          .ok (byGroup', position + (takeRound slots left).1.length)
  | [], byGroup, left, position, _, h, _, _, _ => Or.inr ⟨rfl, byGroup, h, rfl⟩
  | slot :: slots, byGroup, left, position, hslots, h, horder, hindexed, hfit => by
      have hslot : slot ≤ 4 := hslots slot (List.mem_cons_self ..)
      have hslots' : ∀ slot ∈ slots, slot ≤ 4 := fun s hs => hslots s (List.mem_cons_of_mem _ hs)
      have hsub : (left.eraseP fun x => eligible slot x.1).Sublist left := List.eraseP_sublist
      rw [takeRound, serveRound, drainSlots]
      rcases h.slot horder hslot with
        ⟨hpick, hnone, herase⟩ | ⟨x, hx, hpick, hfind, hlength, hpop⟩
      · rw [hpick, hnone, herase]
        exact drainSlots_eq iteration hslots' h horder hindexed hfit
      · rw [hpick, hfind]
        have hentry : entries[x.2]? = some x.1 := List.mem_zipIdx_iff_getElem?.mp (hindexed x hx)
        have hposition : (position + 1) % 2 ^ 32 = position + 1 := Nat.mod_eq_of_lt (by omega)
        have hrest := drainSlots_eq iteration hslots' hpop (horder.sublist hsub)
          (fun y hy => hindexed y (hsub.subset hy))
          (show position + 1 + (left.eraseP fun x => eligible slot x.1).length < 2 ^ 32 by omega)
        simp only [Option.map_some, Option.toList_some, List.singleton_append, List.map_cons,
          standing_cons, hentry, Option.any_some, hposition, decide_eq_true_eq, List.length_cons]
        split
        · exact Or.inl ⟨_, rfl, rfl⟩
        · rw [Nat.add_right_comm position 1] at hrest
          exact hrest

theorem iterationSlots_le {slot : Nat} (h : slot ∈ iterationSlots) : slot ≤ 4 := by
  have := (List.mem_range'_1.mp h).2
  rw [slotsPerIteration] at this
  omega

/-- The last slot is open to every group. -/
theorem iterationSlots_open : Open (fun slot (x : Indexed) => eligible slot x.1) iterationSlots :=
  ⟨4, by decide, fun x => by simpa [eligible] using x.1.group_range.1⟩

theorem drainIterations_eq : ∀ (n i : Nat) {byGroup : Deques} {left : List Indexed}
    {position : Nat}, Deals byGroup left → InOrder left → (∀ x ∈ left, x ∈ entries.zipIdx) →
    position + left.length < 2 ^ 32 →
    drainIterations entries targetId (List.range' i n) byGroup position =
      standing targetId position (served i n left)
  | 0, _, _, _, _, _, _, _, _ => rfl
  | n + 1, i, byGroup, left, position, h, horder, hindexed, hfit => by
      have hsub : (takeRound iterationSlots left).2.Sublist left := serveRound_sublist ..
      have hlength := takeRound_length iterationSlots left
      rw [List.range'_succ, drainIterations, served, serveRounds, standing_append, List.length_map]
      rcases drainSlots_eq i (fun _ => iterationSlots_le) h horder hindexed hfit with
        ⟨estimate, hstanding, hloop⟩ | ⟨hstanding, byGroup', h', hloop⟩
      · rw [hloop, hstanding]
        rfl
      · rw [hloop, hstanding, Option.none_or]
        have hfit' : position + (takeRound iterationSlots left).1.length +
            (takeRound iterationSlots left).2.length < 2 ^ 32 := by omega
        exact drainIterations_eq n (i + 1) h' (horder.sublist hsub)
          (fun x hx => hindexed x (hsub.subset hx)) hfit'

/-- The estimate is where the target stands in the record of the rounds. -/
theorem drainEstimate_eq (hfit : entries.length < 2 ^ 32) (targetId : Nat) :
    drainEstimate entries targetId =
      standing targetId 0 (served 1 entries.length entries.zipIdx) := by
  rw [drainEstimate, Nat.mod_eq_of_lt hfit]
  exact drainIterations_eq _ 1 (deal_deals entries) (inOrder_zipIdx entries) (fun _ h => h)
    (by simpa using hfit)

/-- The picks of an iteration are those of a round. -/
theorem slotPicks_eq : ∀ {slots : List Nat} {byGroup : Deques} {left : List Indexed},
    (∀ slot ∈ slots, slot ≤ 4) → Deals byGroup left → InOrder left →
    (slotPicks slots byGroup).1 = (takeRound slots left).1.map (Prod.map id Prod.snd) ∧
      Deals (slotPicks slots byGroup).2 (takeRound slots left).2
  | [], _, _, _, h, _ => ⟨rfl, h⟩
  | slot :: slots, byGroup, left, hslots, h, horder => by
      have hslots' : ∀ slot ∈ slots, slot ≤ 4 := fun s hs => hslots s (List.mem_cons_of_mem _ hs)
      have hsub : (left.eraseP fun x => eligible slot x.1).Sublist left := List.eraseP_sublist
      rw [takeRound, serveRound, slotPicks]
      rcases h.slot horder (hslots slot (List.mem_cons_self ..)) with
        ⟨hpick, hnone, herase⟩ | ⟨x, -, hpick, hfind, -, hpop⟩
      · rw [hpick, hnone, herase]
        exact slotPicks_eq hslots' h horder
      · obtain ⟨hpicks, hdeals⟩ := slotPicks_eq hslots' hpop (horder.sublist hsub)
        rw [hpick, hfind]
        exact ⟨congrArg _ hpicks, hdeals⟩

theorem iterationPicks_eq : ∀ {n : Nat} (i : Nat) {byGroup : Deques} {left : List Indexed},
    Deals byGroup left → InOrder left →
    iterationPicks i n byGroup = (served i n left).map fun e => (e.1, e.2.1, e.2.2.2)
  | 0, _, _, _, _, _ => rfl
  | n + 1, i, byGroup, left, h, horder => by
      obtain ⟨hpicks, hdeals⟩ := slotPicks_eq (fun _ => iterationSlots_le) h horder
      have hsub : (takeRound iterationSlots left).2.Sublist left := serveRound_sublist ..
      simp only [iterationPicks, hpicks, iterationPicks_eq (i + 1) hdeals (horder.sublist hsub),
        served, serveRounds, List.map_append, List.map_map]
      rfl

/-! ### Where an entry stands -/

theorem standing_eq_some : ∀ {picks : List (Nat × Nat × Indexed)} {k : Nat}
    {e : Nat × Nat × Indexed} (position : Nat), (picks.map fun e => e.2.2.1.id).Nodup →
    picks[k]? = some e →
    standing e.2.2.1.id position picks = some ⟨position + k + 1, e.1⟩
  | [], _, _, _, _, h => by cases h
  | (i, slot, x) :: picks, 0, e, position, _, h => by
      obtain rfl := Option.some.inj h
      rw [standing_cons, if_pos rfl]
  | (i, slot, x) :: picks, k + 1, e, position, hnodup, h => by
      rw [List.map_cons, List.nodup_cons] at hnodup
      rw [List.getElem?_cons_succ] at h
      rw [standing_cons, if_neg, standing_eq_some (position + 1) hnodup.2 h,
        Nat.add_right_comm position 1]
      · rfl
      · intro heq
        exact hnodup.1 (List.mem_map.mpr ⟨e, List.mem_of_getElem? h, heq.symm⟩)

variable (entries) in
/-- Everything the loops pick from the snapshot. -/
abbrev allServed : List (Nat × Nat × Indexed) := served 1 entries.length entries.zipIdx

theorem allServed_perm (entries : List QueuedEntry) :
    ((allServed entries).map fun e => e.2.2).Perm entries.zipIdx :=
  serveRounds_perm iterationSlots_open 1 (by simp)

/-- Every entry is picked once. -/
theorem allServed_entries (entries : List QueuedEntry) :
    ((allServed entries).map fun e => e.2.2.1).Perm entries := by
  have hperm := (allServed_perm entries).map Prod.fst
  rwa [List.map_map, List.zipIdx_map_fst] at hperm

/-- The estimate of what is picked in the `k`-th place. -/
theorem drainEstimate_served (hfit : entries.length < 2 ^ 32)
    (hids : (entries.map QueuedEntry.id).Nodup) {k : Nat} {e : Nat × Nat × Indexed}
    (hk : (allServed entries)[k]? = some e) :
    drainEstimate entries e.2.2.1.id = some ⟨k + 1, e.1⟩ := by
  have hnodup : ((allServed entries).map fun e => e.2.2.1.id).Nodup := by
    have hperm := (allServed_entries entries).map QueuedEntry.id
    rw [List.map_map] at hperm
    exact hperm.nodup_iff.mpr hids
  rw [drainEstimate_eq hfit, standing_eq_some 0 hnodup hk, Nat.zero_add]

/-- The positions of a snapshot are `1` to its length, each once. -/
theorem positions_perm (hfit : entries.length < 2 ^ 32)
    (hids : (entries.map QueuedEntry.id).Nodup) :
    (entries.map fun entry => (drainEstimate entries entry.id).map DrainEstimate.position).Perm
      ((List.range' 1 entries.length).map some) := by
  refine ((allServed_entries entries).map _).symm.trans (List.Perm.of_eq ?_)
  have hlength : (allServed entries).length = entries.length := by
    simpa using (allServed_perm entries).length_eq
  rw [List.map_map]
  refine List.ext_getElem? fun k => ?_
  rw [List.getElem?_map, List.getElem?_map]
  cases hk : (allServed entries)[k]? with
  | none =>
    rw [List.getElem?_eq_none_iff, hlength] at hk
    rw [List.getElem?_eq_none (by simpa using hk)]
    rfl
  | some e =>
    have hlt := (List.getElem?_eq_some_iff.mp hk).1
    rw [hlength] at hlt
    rw [List.getElem?_range' hlt, Option.map_some, comp_apply,
      drainEstimate_served hfit hids hk]
    simp [Nat.add_comm]

theorem ahead_zipIdx_le (entries : List QueuedEntry) (entry : QueuedEntry) (i : Nat) :
    ahead Prod.snd entries.zipIdx (entry, i) ≤ i := by
  have hnodup : (((entries.zipIdx.map Prod.snd).filter fun k => k < i)).Nodup := by
    have hsorted : (entries.zipIdx.map Prod.snd).Pairwise (· < ·) :=
      List.pairwise_map.mpr (inOrder_zipIdx entries)
    exact (hsorted.imp Nat.ne_of_lt).filter _
  have hsubset : ((entries.zipIdx.map Prod.snd).filter fun k => k < i) ⊆ List.range i := by
    intro k hk
    simpa using (List.mem_filter.mp hk).2
  have hle := (List.subperm_of_subset hnodup hsubset).length_le
  rw [List.length_range, List.filter_map, List.length_map, ← List.countP_eq_length_filter] at hle
  exact hle

/-- An entry with `i` entries before it is picked in one of the first `i + 1` iterations. -/
theorem iterations_le (hfit : entries.length < 2 ^ 32) (hids : (entries.map QueuedEntry.id).Nodup)
    {i : Nat} {entry : QueuedEntry} (hentry : entries[i]? = some entry) :
    ∃ estimate, drainEstimate entries entry.id = some estimate ∧ estimate.iterations ≤ i + 1 := by
  have hmem : (entry, i) ∈ entries.zipIdx := List.mem_zipIdx_iff_getElem?.mpr hentry
  have hahead := ahead_zipIdx_le entries entry i
  have hlt := (List.getElem?_eq_some_iff.mp hentry).1
  obtain ⟨e, he, hex, hle⟩ := serveRounds_within iterationSlots_open 1 (inOrder_zipIdx entries) hmem
    (lt_of_le_of_lt hahead hlt)
  obtain ⟨k, hk⟩ := List.getElem?_of_mem he
  refine ⟨⟨k + 1, e.1⟩, ?_, by change e.1 ≤ i + 1; omega⟩
  rw [← drainEstimate_served hfit hids hk, hex]

end DeviceUniqueness
