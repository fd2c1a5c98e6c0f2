import DeviceUniqueness.Queue.Exact
import DeviceUniqueness.Schemes.Overtaking

/-! The order in which a snapshot drains.

    The estimate of an entry is its place in the record of the rounds. So an entry is not overtaken
    from behind by one of its own or a lower group, entries of such groups behind it do not matter
    to it, and an entry that is raised to a higher group drains no later than it would have. -/

namespace DeviceUniqueness

open Schemes

variable {entries : List QueuedEntry}

/-- The record of the rounds over the entries themselves. -/
abbrev drainLog (n : Nat) (entries : List QueuedEntry) : List (Nat × Nat × QueuedEntry) :=
  serveRounds eligible iterationSlots 1 n entries

theorem eligible_open : Open eligible iterationSlots :=
  ⟨4, by decide, fun entry => by simpa [eligible] using entry.group_range.1⟩

theorem eligible_of_group_le {a b : QueuedEntry} (h : b.group ≤ a.group) (slot : Nat)
    (hb : eligible slot b = true) : eligible slot a = true := by
  rw [eligible, decide_eq_true_iff] at hb ⊢
  exact hb.trans h

/-- The estimate of what comes in the `k`-th place of the record. -/
theorem drainEstimate_drained (hfit : entries.length < 2 ^ 32)
    (hids : (entries.map QueuedEntry.id).Nodup) {n : Nat} (hn : entries.length ≤ n) {k : Nat}
    {e : Nat × Nat × QueuedEntry} (hk : (drainLog n entries)[k]? = some e) :
    drainEstimate entries e.2.2.id = some ⟨k + 1, e.1⟩ := by
  have hdrained : drainLog n entries =
      (allServed entries).map fun e => (e.1, e.2.1, e.2.2.1) := by
    rw [← serveRounds_map fun slot (x : Indexed) _ => rfl, List.zipIdx_map_fst]
    exact serveRounds_enough eligible_open 1 hn (le_refl _)
  rw [hdrained, List.getElem?_map] at hk
  obtain ⟨e', hk', rfl⟩ := Option.map_eq_some_iff.mp hk
  exact drainEstimate_served hfit hids hk'

/-- Every entry has a place in the record. -/
theorem exists_drained {n : Nat} (hn : entries.length ≤ n) {entry : QueuedEntry}
    (h : entry ∈ entries) :
    ∃ (k : Nat) (e : Nat × Nat × QueuedEntry), (drainLog n entries)[k]? = some e ∧ e.2.2 = entry := by
  have hmem := (serveRounds_perm eligible_open 1 hn).mem_iff.mpr h
  obtain ⟨e, he, rfl⟩ := List.mem_map.mp hmem
  obtain ⟨k, hk⟩ := List.getElem?_of_mem he
  exact ⟨k, e, hk, rfl⟩

/-- An entry drains before those behind it of its own or a lower group. -/
theorem drainEstimate_precedes (hfit : entries.length < 2 ^ 32)
    (hids : (entries.map QueuedEntry.id).Nodup) {a b : QueuedEntry} (hab : [a, b].Sublist entries)
    (hgroup : b.group ≤ a.group) :
    ∃ ea eb, drainEstimate entries a.id = some ea ∧ drainEstimate entries b.id = some eb ∧
      ea.position < eb.position ∧ ea.iterations ≤ eb.iterations := by
  have hserved := serveRounds_precedes eligible_open (eligible_of_group_le hgroup) 1 (le_refl _) hab
  obtain ⟨l, hsub, heq⟩ := List.sublist_map_iff.mp hserved
  obtain ⟨ea, l, rfl, rfl, hrest⟩ := List.map_eq_cons_iff.mp heq.symm
  obtain ⟨eb, l, rfl, rfl, -⟩ := List.map_eq_cons_iff.mp hrest
  obtain ⟨early, late, hrecord, ha, hb⟩ := List.cons_sublist_iff.mp hsub
  have hb : eb ∈ late := hb.subset (List.mem_cons_self ..)
  obtain ⟨k, hk, hka⟩ := List.getElem_of_mem ha
  obtain ⟨k', hk', hkb⟩ := List.getElem_of_mem hb
  have hrounds : (drainLog entries.length entries).Pairwise fun e e' => e.1 ≤ e'.1 :=
    serveRounds_rounds 1 entries.length entries
  rw [drainLog, hrecord] at hrounds
  refine ⟨⟨k + 1, ea.1⟩, ⟨early.length + k' + 1, eb.1⟩,
    drainEstimate_drained hfit hids (le_refl _) ?_, drainEstimate_drained hfit hids (le_refl _) ?_, ?_,
    (List.pairwise_append.mp hrounds).2.2 ea ha eb hb⟩
  · rw [drainLog, hrecord, List.getElem?_append_left hk, List.getElem?_eq_getElem hk, hka]
  · rw [drainLog, hrecord, List.getElem?_append_right (Nat.le_add_right ..), Nat.add_sub_cancel_left,
      List.getElem?_eq_getElem hk', hkb]
  · change k + 1 < early.length + k' + 1
    omega

/-- An entry that is served no later in one snapshot than another in another has an estimate that is
    no later. -/
theorem drainEstimate_sooner {R : List QueuedEntry → List QueuedEntry → Prop} {x x' : QueuedEntry}
    (h : Lockstep eligible x x' R) {q q' : List QueuedEntry} (hR : R q q') (hx : x ∈ q)
    (hfit : q.length < 2 ^ 32) (hfit' : q'.length < 2 ^ 32) (hids : (q.map QueuedEntry.id).Nodup)
    (hids' : (q'.map QueuedEntry.id).Nodup) :
    ∃ e e', drainEstimate q x.id = some e ∧ drainEstimate q' x'.id = some e' ∧
      e'.position ≤ e.position ∧ e'.iterations ≤ e.iterations := by
  obtain ⟨k, e, hk, rfl⟩ := exists_drained (Nat.le_max_left q.length q'.length) hx
  obtain ⟨k', e', hk', rfl, hle, hround⟩ := h.sooner hR hk rfl
  exact ⟨_, _, drainEstimate_drained hfit hids (Nat.le_max_left ..) hk,
    drainEstimate_drained hfit' hids' (Nat.le_max_right ..) hk', Nat.succ_le_succ hle, hround⟩

/-- In a snapshot of fewer than `2 ^ 32` entries with distinct ids, an entry has a smaller position
    than one behind it of its own or a lower group and is promoted in no later iteration. Its
    estimate is the same without any of those. -/
theorem no_overtaking {entries : List QueuedEntry} (hfit : entries.length < 2 ^ 32)
    (hids : (entries.map QueuedEntry.id).Nodup) {front back : List QueuedEntry} {a : QueuedEntry}
    (hsplit : entries = front ++ a :: back) :
    (∀ b ∈ back, b.group ≤ a.group →
      ∃ ea eb, drainEstimate entries a.id = some ea ∧ drainEstimate entries b.id = some eb ∧
        ea.position < eb.position ∧ ea.iterations ≤ eb.iterations) ∧
    ∀ kept : QueuedEntry → Bool, (∀ b ∈ back, kept b = false → b.group ≤ a.group) →
      drainEstimate entries a.id = drainEstimate (front ++ a :: back.filter kept) a.id := by
  subst hsplit
  constructor
  · intro b hb hgroup
    refine drainEstimate_precedes hfit hids ?_ hgroup
    exact ((List.singleton_sublist.mpr hb).cons_cons a).trans (List.sublist_append_right ..)
  · intro kept hlow
    have hdistinct := hids.of_map
    have hsub : (front ++ a :: back.filter kept).Sublist (front ++ a :: back) :=
      (List.filter_sublist.cons_cons a).append_left front
    have hfit' := hsub.length_le.trans_lt hfit
    have hids' := hids.sublist (hsub.map QueuedEntry.id)
    have hbehind : Behind eligible kept a (front ++ a :: back.filter kept) (front ++ a :: back) := by
      rw [List.nodup_append, List.nodup_cons] at hdistinct
      refine ⟨front, back, rfl, rfl, fun ha => ?_, hdistinct.2.1.1, fun w hw hkept slot => ?_⟩
      · exact hdistinct.2.2 a ha a (List.mem_cons_self ..) rfl
      · exact eligible_of_group_le (hlow w hw hkept) slot
    obtain ⟨e₁, e₂, h₁, h₂, hposition, hiterations⟩ := drainEstimate_sooner lockstep_behind hbehind
      (by simp) hfit' hfit hids' hids
    obtain ⟨e₃, e₄, h₃, h₄, hposition', hiterations'⟩ := drainEstimate_sooner lockstep_behind_symm hbehind
      (by simp) hfit hfit' hids hids'
    obtain rfl := Option.some.inj (h₁.symm.trans h₄)
    obtain rfl := Option.some.inj (h₂.symm.trans h₃)
    obtain ⟨p₁, i₁⟩ := e₁
    obtain ⟨p₂, i₂⟩ := e₂
    obtain rfl : p₂ = p₁ := le_antisymm hposition hposition'
    obtain rfl : i₂ = i₁ := le_antisymm hiterations hiterations'
    rw [h₁, h₂]

/-! ### Long snapshots -/

/-- An entry of one of the groups, counted from zero. -/
def entryOf (group : Fin 4) (id : Nat) : QueuedEntry := ⟨id, "alice", group + 1, by omega⟩

/-- An entry of some group, and `n` of the highest behind it. -/
def longSnapshot (group : Fin 4) (n : Nat) : List QueuedEntry :=
  entryOf group 0 :: (List.range' 1 n).map (entryOf 3)

theorem longSnapshot_ids (group : Fin 4) (n : Nat) :
    ((longSnapshot group n).map QueuedEntry.id).Nodup := by
  have hids : (longSnapshot group n).map QueuedEntry.id = List.range' 0 (n + 1) := by
    rw [longSnapshot, List.map_cons, List.map_map, List.range'_succ]
    exact congrArg (0 :: ·) (List.map_id _)
  rw [hids]
  exact List.nodup_range'

theorem longSnapshot_unplaced (group : Fin 4) {n : Nat} (hn : (n + 1) % 2 ^ 32 = 0) (id : Nat) :
    drainEstimate (longSnapshot group n) id = none := by
  refine drainEstimate_wraps ?_ id
  rwa [longSnapshot, List.length_cons, List.length_map, List.length_range']

/-- Of `2 ^ 32` entries of one group the first two have no position. -/
theorem long_snapshot_unordered :
    ∃ (back : List QueuedEntry) (a b : QueuedEntry), ((a :: back).map QueuedEntry.id).Nodup ∧ b ∈ back ∧
      b.group ≤ a.group ∧ drainEstimate (a :: back) a.id = none ∧
      drainEstimate (a :: back) b.id = none := by
  refine ⟨_, entryOf 3 0, entryOf 3 1, longSnapshot_ids 3 (2 ^ 32 - 1), ?_, le_refl _,
    longSnapshot_unplaced 3 (n := 2 ^ 32 - 1) (by decide) _,
    longSnapshot_unplaced 3 (n := 2 ^ 32 - 1) (by decide) _⟩
  exact List.mem_map_of_mem (List.mem_range'_1.mpr (by decide))

/-- An entry of the second group drains before one of the lowest, which does not matter to it. -/
theorem no_overtaking_second :
    ∃ ea eb, drainEstimate [entryOf 1 0, entryOf 3 1, entryOf 0 2] 0 = some ea ∧
      drainEstimate [entryOf 1 0, entryOf 3 1, entryOf 0 2] 2 = some eb ∧ ea.position < eb.position ∧
      drainEstimate [entryOf 1 0, entryOf 3 1, entryOf 0 2] 0 =
        drainEstimate [entryOf 1 0, entryOf 3 1] 0 := by
  obtain ⟨horder, hsame⟩ := no_overtaking
    (show [entryOf 1 0, entryOf 3 1, entryOf 0 2].length < 2 ^ 32 by decide) (by decide)
    (show _ = [] ++ entryOf 1 0 :: _ from rfl)
  obtain ⟨ea, eb, hea, heb, hposition, -⟩ := horder (entryOf 0 2) (by decide) (by decide)
  exact ⟨ea, eb, hea, heb, hposition, hsame (fun e => e.group = 4) (by decide)⟩

/-- In a snapshot of fewer than `2 ^ 32` entries with distinct ids, an entry whose group alone is
    raised has a position and an iteration that are no later than before. -/
theorem topping_up_helps {front back : List QueuedEntry} {entry raised : QueuedEntry}
    (hfit : (front ++ entry :: back).length < 2 ^ 32)
    (hids : ((front ++ entry :: back).map QueuedEntry.id).Nodup) (hid : raised.id = entry.id)
    (hgroup : entry.group ≤ raised.group) :
    ∃ before after, drainEstimate (front ++ entry :: back) entry.id = some before ∧
      drainEstimate (front ++ raised :: back) entry.id = some after ∧
      after.position ≤ before.position ∧ after.iterations ≤ before.iterations := by
  have hdistinct := hids.of_map
  rw [List.nodup_append, List.nodup_cons] at hdistinct
  have hswapped : Swapped entry raised (front ++ entry :: back) (front ++ raised :: back) :=
    ⟨front, back, rfl, rfl, fun h => hdistinct.2.2 entry h entry (List.mem_cons_self ..) rfl,
      hdistinct.2.1.1⟩
  have hsame : (front ++ raised :: back).map QueuedEntry.id =
      (front ++ entry :: back).map QueuedEntry.id := by
    simp [hid]
  have hlength : (front ++ raised :: back).length = (front ++ entry :: back).length := by simp
  obtain ⟨before, after, hbefore, hafter, hposition, hiterations⟩ :=
    drainEstimate_sooner (lockstep_swapped (eligible_of_group_le hgroup)) hswapped (by simp) hfit
      (hlength ▸ hfit) hids (hsame ▸ hids)
  exact ⟨before, after, hbefore, hid ▸ hafter, hposition, hiterations⟩

/-- Of `2 ^ 32` entries the first has no position, and none when its group is raised. -/
theorem long_snapshot_raised :
    ∃ (back : List QueuedEntry) (entry raised : QueuedEntry),
      ((entry :: back).map QueuedEntry.id).Nodup ∧ raised.id = entry.id ∧ entry.group < raised.group ∧
      drainEstimate (entry :: back) entry.id = none ∧ drainEstimate (raised :: back) entry.id = none :=
  ⟨_, entryOf 0 0, entryOf 3 0, longSnapshot_ids 0 (2 ^ 32 - 1), rfl, by decide,
    longSnapshot_unplaced 0 (n := 2 ^ 32 - 1) (by decide) _,
    longSnapshot_unplaced 3 (n := 2 ^ 32 - 1) (by decide) _⟩

/-- The first of three entries goes from the last position to the first. -/
theorem topping_up_helps_first :
    drainEstimate (longSnapshot 0 2) 0 = some ⟨3, 1⟩ ∧
    ∃ after, drainEstimate (longSnapshot 3 2) 0 = some after ∧ after.position ≤ 3 ∧
      after.iterations ≤ 1 := by
  have hlast : drainEstimate (longSnapshot 0 2) 0 = some ⟨3, 1⟩ := by decide +kernel
  obtain ⟨before, after, hbefore, hafter, hposition, hiterations⟩ := topping_up_helps
    (show ([] ++ entryOf 0 0 :: (List.range' 1 2).map (entryOf 3)).length < 2 ^ 32 by decide)
    (longSnapshot_ids 0 2) (show (entryOf 3 0).id = (entryOf 0 0).id from rfl) (by decide)
  obtain rfl := Option.some.inj (hlast.symm.trans hbefore)
  exact ⟨hlast, after, hafter, hposition, hiterations⟩

end DeviceUniqueness
