import DeviceUniqueness.Writer.Outcome

/-! The size of a lane's batches over time.

    A failed batch halves the size and remembers the size that failed as a ceiling; a success grows
    the size by one, up to below the ceiling. After a run of successes the ceiling is tried again. So
    against a chain that takes batches below some size, the lane comes to fail at just that size, and
    seldom. -/

namespace DeviceUniqueness

theorem settleBatchSize_failed (current most : Nat) :
    settleBatchSize current most false = max (current / 2) 1 := rfl

theorem settleBatchSize_succeeded (current most : Nat) :
    settleBatchSize current most true = min (min (current + 1) 65535) most := rfl

/-- How many steps at the end failed. -/
def failureStreak (steps : List Bool) : Nat := (steps.reverse.takeWhile fun success => !success).length

theorem failureStreak_snoc_true (steps : List Bool) : failureStreak (steps ++ [true]) = 0 := by
  simp [failureStreak]

theorem failureStreak_snoc_false (steps : List Bool) :
    failureStreak (steps ++ [false]) = failureStreak steps + 1 := by
  simp [failureStreak]

namespace BatchLane

def step (lane : BatchLane) (success : Bool) : BatchLane :=
  if success then lane.succeeded else lane.failed.2

def run (lane : BatchLane) (steps : List Bool) : BatchLane := steps.foldl step lane

theorem run_snoc (lane : BatchLane) (steps : List Bool) (success : Bool) :
    lane.run (steps ++ [success]) = (lane.run steps).step success := by
  rw [run, List.foldl_append, List.foldl_cons, List.foldl_nil, run]

/-! ### One step -/

/-- The size is in range, and below a remembered ceiling. -/
structure Sized (lane : BatchLane) : Prop where
  pos : 1 ≤ lane.size
  le_max : lane.size ≤ lane.max
  ceiling : ∀ c, lane.ceiling = some c → 2 ≤ c ∧ c ≤ lane.max ∧ lane.size ≤ c - 1

variable {lane : BatchLane}

theorem new_sized (most : Nat) : (new most).Sized :=
  ⟨Nat.le_max_right .., le_refl _, nofun⟩

theorem succeeded_size (lane : BatchLane) :
    lane.succeeded.size = settleBatchSize lane.size lane.succeeded.growLimit true := by
  rw [succeeded]
  dsimp only
  split <;> rfl

theorem succeeded_max (lane : BatchLane) : lane.succeeded.max = lane.max := by
  rw [succeeded]
  dsimp only
  split <;> rfl

/-- Short of the run that tries the ceiling again, a success leaves the ceiling and is counted. -/
theorem succeeded_early (h : lane.clean + 1 < 20) :
    lane.succeeded.ceiling = lane.ceiling ∧ lane.succeeded.clean = lane.clean + 1 := by
  have hclean : saturatingAdd16 lane.clean 1 = lane.clean + 1 := min_eq_left (by omega)
  rw [succeeded, hclean, ceilingProbeRun, if_neg (Nat.not_le.mpr h)]
  exact ⟨rfl, rfl⟩

/-- A success leaves the ceiling, or raises it by one, or forgets it. -/
theorem succeeded_ceiling {c : Nat} (h : lane.succeeded.ceiling = some c) :
    lane.ceiling = some c ∨ ∃ c', lane.ceiling = some c' ∧ c' < lane.max ∧ c = c' + 1 := by
  rw [succeeded] at h
  dsimp only at h
  split at h
  · obtain ⟨c', hc', hif⟩ := Option.bind_eq_some_iff.mp h
    split_ifs at hif with hlt
    exact .inr ⟨c', hc', hlt, (Option.some.inj hif).symm⟩
  · exact .inl h

theorem growLimit_of_ceiling {c : Nat} (hc : lane.ceiling = some c) (htwo : 2 ≤ c)
    (hmax : c ≤ lane.max) : lane.growLimit = c - 1 := by
  rw [growLimit, hc]
  dsimp only
  rw [min_eq_right (by omega)]
  exact Nat.max_eq_left (by omega)

theorem growLimit_of_none (hc : lane.ceiling = none) : lane.growLimit = lane.max := by
  rw [growLimit, hc]

theorem Sized.succeeded (h : lane.Sized) : lane.succeeded.Sized := by
  have hpos := h.pos
  have hle := h.le_max
  have hmax := lane.succeeded_max
  have hsize := lane.succeeded_size
  rw [settleBatchSize_succeeded] at hsize
  cases hceiling : lane.succeeded.ceiling with
  | none =>
    rw [growLimit_of_none hceiling] at hsize
    exact ⟨by omega, by omega, fun c hc => by cases hceiling.symm.trans hc⟩
  | some c =>
    have hc : 2 ≤ c ∧ c ≤ lane.max := by
      rcases succeeded_ceiling hceiling with hc | ⟨c', hc, hlt, rfl⟩
      · exact ⟨(h.ceiling c hc).1, (h.ceiling c hc).2.1⟩
      · exact ⟨Nat.le_succ_of_le (h.ceiling c' hc).1, hlt⟩
    rw [growLimit_of_ceiling hceiling hc.1 (hmax ▸ hc.2)] at hsize
    refine ⟨by omega, by omega, fun c' hc' => ?_⟩
    obtain rfl := Option.some.inj (hceiling.symm.trans hc')
    omega

theorem failed_size (lane : BatchLane) :
    lane.failed.2.size = settleBatchSize lane.size lane.max false := rfl

theorem failed_max (lane : BatchLane) : lane.failed.2.max = lane.max := rfl

/-- The size that failed is the ceiling from then on, unless it was one. -/
theorem failed_ceiling (h : lane.Sized) :
    lane.failed.2.ceiling = if 2 ≤ lane.size then some lane.size else lane.ceiling := by
  have hpos := h.pos
  have hhalved : lane.failed.2.size < lane.size ↔ 2 ≤ lane.size := by
    rw [failed_size, settleBatchSize_failed]
    omega
  have heq : lane.failed.2.ceiling = if lane.failed.2.size < lane.size then
      some ((lane.ceiling.map (min · lane.size)).getD lane.size) else lane.ceiling := rfl
  rw [heq]
  simp only [hhalved]
  split_ifs with htwo
  · cases hc : lane.ceiling with
    | none => rfl
    | some c =>
      obtain ⟨-, -, hbelow⟩ := h.ceiling c hc
      exact congrArg some (min_eq_right (by omega))
  · rfl

theorem Sized.failed (h : lane.Sized) : lane.failed.2.Sized := by
  have hpos := h.pos
  have hle := h.le_max
  have hsize := lane.failed_size
  rw [settleBatchSize_failed] at hsize
  refine ⟨by omega, by rw [failed_max]; omega, fun c hc => ?_⟩
  rw [failed_ceiling h] at hc
  rw [failed_max]
  split_ifs at hc with htwo
  · obtain rfl := Option.some.inj hc
    omega
  · obtain ⟨hc₁, hc₂, hc₃⟩ := h.ceiling c hc
    omega

theorem Sized.step (h : lane.Sized) (success : Bool) : (lane.step success).Sized := by
  cases success with
  | true => exact h.succeeded
  | false => exact h.failed

theorem step_max (lane : BatchLane) (success : Bool) : (lane.step success).max = lane.max := by
  cases success with
  | true => exact lane.succeeded_max
  | false => exact lane.failed_max

/-! ### Any steps -/

variable (most : Nat)

theorem run_sized (steps : List Bool) :
    ((new most).run steps).Sized ∧ ((new most).run steps).max = Nat.max most 1 := by
  induction steps using List.reverseRecOn with
  | nil => exact ⟨new_sized most, rfl⟩
  | append_singleton steps success ih =>
    rw [run_snoc, step_max]
    exact ⟨ih.1.step success, ih.2⟩

theorem succeeded_failures (lane : BatchLane) : lane.succeeded.failures = 0 := by
  rw [succeeded]
  dsimp only
  split <;> rfl

theorem run_failures (steps : List Bool) :
    ((new most).run steps).failures = min (failureStreak steps) 65535 := by
  induction steps using List.reverseRecOn with
  | nil => rfl
  | append_singleton steps success ih =>
    rw [run_snoc]
    cases success with
    | true =>
      rw [failureStreak_snoc_true]
      exact succeeded_failures _
    | false =>
      rw [failureStreak_snoc_false]
      have hfailures : (((new most).run steps).step false).failures =
          min (((new most).run steps).failures + 1) 65535 := rfl
      rw [hfailures, ih]
      omega

theorem run_backoff (steps : List Bool) :
    ((new most).run steps).failed.1 = seconds (2 ^ min (failureStreak (steps ++ [false])) 6) := by
  have hwait : ((new most).run steps).failed.1 =
      seconds (2 ^ Nat.max 1 (min (min (((new most).run steps).failures + 1) 65535) 6)) := rfl
  rw [hwait, run_failures, failureStreak_snoc_false]
  have hexponent : Nat.max 1 (min (min (min (failureStreak steps) 65535 + 1) 65535) 6) =
      min (failureStreak steps + 1) 6 := by
    refine (Nat.max_eq_right ?_).trans ?_ <;> omega
  rw [hexponent]

/-! ### A chain that takes batches below a size -/

/-- The lane before step `n`, when a batch fails exactly if it is of the size or larger. -/
def against (k : Nat) : Nat → BatchLane
  | 0 => new most
  | n + 1 => (against k n).step (decide ((against k n).size < k))

variable {most} {k : Nat}

theorem against_sized (most k n : Nat) : (against most k n).Sized := by
  induction n with
  | zero => exact new_sized most
  | succ n ih => exact ih.step _

theorem against_fails {n : Nat} (h : k ≤ (against most k n).size) :
    against most k (n + 1) = (against most k n).failed.2 := by
  rw [against, decide_eq_false (Nat.not_lt.mpr h)]
  rfl

theorem against_succeeds {n : Nat} (h : (against most k n).size < k) :
    against most k (n + 1) = (against most k n).succeeded := by
  rw [against, decide_eq_true h]
  rfl

/-- From a size of at most the threshold on, the size stays there: it grows by one at a time. -/
theorem against_le {n : Nat} (htwo : 2 ≤ k) (h : (against most k n).size ≤ k) (d : Nat) :
    (against most k (n + d)).size ≤ k := by
  induction d with
  | zero => exact h
  | succ d ih =>
    rw [← Nat.add_assoc]
    by_cases hfails : k ≤ (against most k (n + d)).size
    · rw [against_fails hfails, failed_size, settleBatchSize_failed]
      omega
    · rw [against_succeeds (Nat.lt_of_not_le hfails), succeeded_size, settleBatchSize_succeeded]
      omega

/-- After a failure at the threshold, the ceiling is there until it is tried again. -/
theorem against_ceiling {n : Nat} (htwo : 2 ≤ k) (h : (against most k n).size = k) {d : Nat}
    (hd : d < 20) :
    (against most k (n + 1 + d)).ceiling = some k ∧ (against most k (n + 1 + d)).clean = d ∧
      (against most k (n + 1 + d)).size < k := by
  induction d with
  | zero =>
    have hceiling := failed_ceiling (against_sized most k n)
    rw [h, if_pos htwo] at hceiling
    rw [Nat.add_zero, against_fails h.ge]
    refine ⟨hceiling, rfl, ?_⟩
    rw [failed_size, settleBatchSize_failed, h]
    omega
  | succ d ih =>
    obtain ⟨hceiling, hclean, hbelow⟩ := ih (Nat.lt_of_succ_lt hd)
    have hearly : (against most k (n + 1 + d)).clean + 1 < 20 := by omega
    obtain ⟨hceiling', hclean'⟩ := succeeded_early hearly
    have hsized := (against_sized most k (n + 1 + d)).succeeded
    rw [hceiling] at hceiling'
    obtain ⟨-, -, hsize⟩ := hsized.ceiling k hceiling'
    rw [← Nat.add_assoc, against_succeeds hbelow]
    exact ⟨hceiling', by rw [hclean', hclean], by omega⟩

/-- Between two failures, the first of them at the threshold, there are twenty successes. -/
theorem against_spaced {j j' : Nat} (htwo : 2 ≤ k) (hj : (against most k j).size = k) (hlt : j < j')
    (hj' : k ≤ (against most k j').size) :
    20 ≤ ((Finset.Ioo j j').filter fun m => (against most k m).size < k).card := by
  have hsuccess : ∀ m, j < m → m ≤ j + 20 → (against most k m).size < k := by
    intro m hm hle
    obtain ⟨d, rfl⟩ := Nat.exists_eq_add_of_le hm
    exact (against_ceiling htwo hj (by omega)).2.2
  have hlate : j + 20 < j' := by
    by_contra hle
    exact absurd (hsuccess j' hlt (Nat.le_of_not_lt hle)) (Nat.not_lt.mpr hj')
  calc 20 = (Finset.Ioc j (j + 20)).card := by rw [Nat.card_Ioc]; omega
    _ ≤ _ := Finset.card_le_card fun m hm => by
      obtain ⟨hm, hle⟩ := Finset.mem_Ioc.mp hm
      exact Finset.mem_filter.mpr
        ⟨Finset.mem_Ioo.mpr ⟨hm, hle.trans_lt hlate⟩, hsuccess m hm hle⟩

end BatchLane

/-- For every maximum and all steps, the size of a lane is between one and the maximum, below a
    remembered ceiling, and a failure waits for two to the number of failures in a row, up to six.
    When batches fail exactly from some size on, then after a failure at just that size every failure
    is, and any two are twenty successes apart. -/
theorem batch_size_adapts (most : Nat) :
    (∀ steps : List Bool,
      1 ≤ ((BatchLane.new most).run steps).size ∧
      ((BatchLane.new most).run steps).size ≤ max most 1 ∧
      (∀ c, ((BatchLane.new most).run steps).ceiling = some c →
        2 ≤ c ∧ c ≤ max most 1 ∧ ((BatchLane.new most).run steps).size ≤ c - 1) ∧
      ((BatchLane.new most).run steps).failed.1 =
        seconds (2 ^ min (failureStreak (steps ++ [false])) 6)) ∧
    ∀ k, 2 ≤ k → k ≤ max most 1 → ∀ i, (BatchLane.against most k i).size = k →
      (∀ j, i < j → k ≤ (BatchLane.against most k j).size → (BatchLane.against most k j).size = k) ∧
      ∀ j j', i ≤ j → j < j' → k ≤ (BatchLane.against most k j).size →
        k ≤ (BatchLane.against most k j').size →
        20 ≤ ((Finset.Ioo j j').filter fun m => (BatchLane.against most k m).size < k).card := by
  constructor
  · intro steps
    obtain ⟨hsized, hmax⟩ := BatchLane.run_sized most steps
    replace hmax : ((BatchLane.new most).run steps).max = max most 1 := hmax
    refine ⟨hsized.pos, hmax ▸ hsized.le_max, fun c hc => ?_, BatchLane.run_backoff most steps⟩
    exact hmax ▸ hsized.ceiling c hc
  · intro k htwo _ i hi
    have hle : ∀ j, i ≤ j → (BatchLane.against most k j).size ≤ k := by
      intro j hj
      obtain ⟨d, rfl⟩ := Nat.exists_eq_add_of_le hj
      exact BatchLane.against_le htwo hi.le d
    exact ⟨fun j hj hfails => (hle j hj.le).antisymm hfails, fun j j' hj hlt hfails hfails' =>
      BatchLane.against_spaced htwo ((hle j hj).antisymm hfails) hlt hfails'⟩

/-- With a maximum of 4, against a chain that takes no three: the failures are at steps 0, 2 and 23. -/
theorem batch_size_adapts_four :
    (BatchLane.against 4 3 0).size = 4 ∧ (BatchLane.against 4 3 2).size = 3 ∧
      (BatchLane.against 4 3 23).size = 3 ∧
      20 ≤ ((Finset.Ioo 2 23).filter fun m => (BatchLane.against 4 3 m).size < 3).card := by
  have hfirst : (BatchLane.against 4 3 2).size = 3 := by decide +kernel
  have hnext : (BatchLane.against 4 3 23).size = 3 := by decide +kernel
  obtain ⟨-, hspaced⟩ := (batch_size_adapts 4).2 3 (by decide) (by decide) 2 hfirst
  exact ⟨rfl, hfirst, hnext, hspaced 2 23 (le_refl _) (by decide) hfirst.ge hnext.ge⟩

end DeviceUniqueness
