import DeviceUniqueness.Outbox.Lanes

/-! The writer lease, in every interleaving of the statements that use it.

    Any number of processes take the lease, renew it, fence a transaction with it and make guarded
    updates, with any holder ids and for any time to live, while the clock moves on. The guards that
    acquisitions have returned are the ones that exist; `Usage` keeps them in the order in which they
    were returned. -/

namespace DeviceUniqueness

open Function Schemes

/-! ### What a step does to the leases -/

/-- The clock and every lease moved as leases do. -/
def LeasesEvolve (db db' : Db) : Prop :=
  ∀ name, Lease.Evolves (db.now, db.leases name) (db'.now, db'.leases name)

theorem LeasesEvolve.of_eq {db db' : Db} (hnow : db'.now = db.now) (hl : db'.leases = db.leases) :
    LeasesEvolve db db' := fun name => by
  rw [hnow, hl]
  exact .tick le_rfl

theorem tick_evolves (db : Db) (d : Nat) : LeasesEvolve db (db.tick d) := fun _ =>
  .tick (Int.le_add_of_nonneg_right (Int.natCast_nonneg d))

theorem tryAcquire_evolves (db : Db) (name holderId : String) (ttl : Nat) :
    LeasesEvolve db (db.tryAcquire name holderId ttl).2 := fun name' => by
  by_cases h : name' = name
  · subst h
    simpa [Db.tryAcquire] using Lease.Evolves.acquire _ holderId
  · simpa [Db.tryAcquire, update_of_ne h] using Lease.Evolves.tick le_rfl

theorem renew_evolves (db : Db) (g : Guard) (ttl : Nat) :
    LeasesEvolve db (db.renew g ttl).2 := fun name' => by
  by_cases h : name' = g.leaseName
  · subst h
    simpa [Db.renew] using Lease.Evolves.renew _ g.holderId g.epoch
  · simpa [Db.renew, update_of_ne h] using Lease.Evolves.tick le_rfl

theorem Stmt.Does.evolves {db db' : Db} {s : Stmt} {out : s.Out} (h : s.Does db out db') :
    LeasesEvolve db db' := by
  cases s with
  | tryAcquire name holderId ttl => exact (Prod.mk.inj h).2 ▸ tryAcquire_evolves db name holderId ttl
  | renew g ttl => exact (Prod.mk.inj h).2 ▸ renew_evolves db g ttl
  | claim l limit | submitting l => exact h.1 ▸ .of_eq rfl rfl
  | mark l g r tx attempt =>
    have hw := db.mark_wrote l g r tx attempt
    exact (Prod.mk.inj h).2 ▸ .of_eq hw.now_eq hw.leases_eq
  | settle l g r w =>
    have hw := db.settle_wrote l g r w
    exact (Prod.mk.inj h).2 ▸ .of_eq hw.now_eq hw.leases_eq
  | strandedQueued => exact h.2 ▸ .of_eq rfl rfl
  | fallbackDrain grace => exact (Prod.mk.inj h).2 ▸ .of_eq rfl rfl

/-- A guard issued before the step that is held after it was held before it. -/
theorem LeasesEvolve.held {db db' : Db} (h : LeasesEvolve db db') {g : Guard}
    (hissued : g.epoch ≤ Lease.reached (db.leases g.leaseName)) (hheld : db'.held g = true) :
    db.held g = true :=
  Lease.holds_of_evolves (h g.leaseName) hissued hheld

theorem LeasesEvolve.reached {db db' : Db} (h : LeasesEvolve db db') (name : String) :
    Lease.reached (db.leases name) ≤ Lease.reached (db'.leases name) :=
  Lease.reached_mono (h name)

/-! ### Using a lease -/

/-- The guard a statement hands out. -/
def Stmt.granted : (s : Stmt) → s.Out → Option Guard
  | .tryAcquire name holderId _, epoch => epoch.map fun epoch => ⟨name, holderId, epoch⟩
  | _, _ => none

/-- One step: a statement of a writer (it takes or renews a lease, makes a guarded update or reads),
    a fence, or time passing. A fence reads the lease and keeps others waiting; whether the
    transaction goes on is what `Db.held` says. -/
inductive Uses : Db → Option Guard → Db → Prop
  | stmt {db db' : Db} {s : Stmt} {out : s.Out} (h : s.Does db out db') :
      Uses db (s.granted out) db'
  | fence {db : Db} (g : Guard) : Uses db none db
  | tick {db : Db} (d : Nat) : Uses db none (db.tick d)

/-- Steps one after the other, with the guards they handed out. -/
inductive Usage : Db → List Guard → Db → Prop
  | nil {db : Db} : Usage db [] db
  | snoc {db db' db'' : Db} {gs : List Guard} {g : Option Guard} (r : Usage db gs db')
      (h : Uses db' g db'') : Usage db (gs ++ g.toList) db''

theorem Uses.evolves {db db' : Db} {g : Option Guard} (h : Uses db g db') : LeasesEvolve db db' := by
  cases h with
  | stmt h => exact h.evolves
  | fence g => exact .of_eq rfl rfl
  | tick d => exact tick_evolves db d

/-- A step hands out a guard with an epoch of its own, and the lease is that guard's; or it hands out
    none, and no epoch changes. -/
theorem Uses.granted {db db' : Db} {o : Option Guard} (h : Uses db o db') :
    (o = none ∧ ∀ name, Lease.reached (db'.leases name) = Lease.reached (db.leases name)) ∨
    ∃ g deadline, o = some g ∧ Lease.reached (db.leases g.leaseName) < g.epoch ∧
      db'.leases = update db.leases g.leaseName
        (some ⟨g.holderId, g.epoch, deadline⟩) := by
  cases h with
  | fence g | tick d => exact Or.inl ⟨rfl, fun _ => rfl⟩
  | @stmt _ s out h =>
    cases s with
    | tryAcquire name holderId ttl =>
      obtain ⟨hout, hdb⟩ := Prod.mk.inj h
      cases hepoch : out with
      | none =>
        refine Or.inl ⟨rfl, fun name' => ?_⟩
        have hsame := Lease.acquire_none (hout.symm.trans hepoch)
        rw [hdb]
        rcases eq_or_ne name' name with rfl | hne
        · simp [hsame]
        · simp [hne]
      | some epoch =>
        have htaken := hout.symm.trans hepoch
        refine Or.inr ⟨⟨name, holderId, epoch⟩, db.now + seconds (asI64 ttl), rfl,
          (Lease.acquire_epoch htaken).1, ?_⟩
        rw [hdb, ← Lease.acquire_taken htaken]
    | renew g ttl =>
      refine Or.inl ⟨rfl, fun name' => ?_⟩
      rw [(Prod.mk.inj h).2]
      rcases eq_or_ne name' g.leaseName with rfl | hne
      · simp [Lease.reached_renew]
      · simp [hne]
    | mark l g r tx attempt =>
      have hdb : db' = (db.mark l g r tx attempt).2 := (Prod.mk.inj h).2
      exact Or.inl ⟨rfl, fun _ => by rw [hdb, (db.mark_wrote l g r tx attempt).leases_eq]⟩
    | settle l g r w =>
      have hdb : db' = (db.settle l g r w).2 := (Prod.mk.inj h).2
      exact Or.inl ⟨rfl, fun _ => by rw [hdb, (db.settle_wrote l g r w).leases_eq]⟩
    | claim l limit | submitting l => exact Or.inl ⟨rfl, fun _ => h.1 ▸ rfl⟩
    | strandedQueued => exact Or.inl ⟨rfl, fun _ => h.2 ▸ rfl⟩
    | fallbackDrain grace => exact Or.inl ⟨rfl, fun _ => (Prod.mk.inj h).2 ▸ rfl⟩

theorem Db.held_issued {db : Db} {g : Guard} (h : db.held g = true) :
    g.epoch ≤ Lease.reached (db.leases g.leaseName) :=
  (Lease.reached_of_holds h).ge

theorem Db.held_unique {db : Db} {g g' : Guard} (hname : g.leaseName = g'.leaseName)
    (h : db.held g = true) (h' : db.held g' = true) : g = g' := by
  rw [Db.held, ← hname] at h'
  obtain ⟨hholder, hepoch⟩ := Lease.holds_unique h h'
  cases g
  cases g'
  simp only at hname hholder hepoch
  subst hname hholder hepoch
  rfl

/-- A guard that passes after a step passed before it, or the step handed it out. -/
theorem Uses.held {db db' : Db} {o : Option Guard} (h : Uses db o db') {g : Guard}
    (hheld : db'.held g = true) : db.held g = true ∨ o = some g := by
  by_cases hissued : g.epoch ≤ Lease.reached (db.leases g.leaseName)
  · exact Or.inl (h.evolves.held hissued hheld)
  · rcases h.granted with ⟨-, hsame⟩ | ⟨g', deadline, rfl, -, hleases⟩
    · exact absurd (hsame g.leaseName ▸ Db.held_issued hheld) hissued
    · have hname : g.leaseName = g'.leaseName := by
        by_contra hne
        have heq : db'.leases g.leaseName = db.leases g.leaseName := by
          rw [hleases, update_of_ne hne]
        exact hissued (heq ▸ Db.held_issued hheld)
      obtain ⟨l, hl, hholder, hepoch, -⟩ := Lease.holds_iff.mp hheld
      rw [hname, hleases, update_self, Option.some.injEq] at hl
      subst hl
      obtain ⟨name, holderId, epoch⟩ := g
      obtain ⟨name', holderId', epoch'⟩ := g'
      simp only at hname hholder hepoch
      subst hname hholder hepoch
      exact Or.inr rfl

/-! ### Whole runs -/

section Usage

variable {db db' : Db} {gs : List Guard}

theorem Usage.reached (r : Usage db gs db') (name : String) :
    Lease.reached (db.leases name) ≤ Lease.reached (db'.leases name) := by
  induction r with
  | nil => exact le_rfl
  | snoc _ h ih => exact ih.trans (h.evolves.reached name)

/-- A guard that was handed out has an epoch above the ones before the run and up to the one
    reached. -/
theorem Usage.issued (r : Usage db gs db') {g : Guard} (hg : g ∈ gs) :
    Lease.reached (db.leases g.leaseName) < g.epoch ∧
      g.epoch ≤ Lease.reached (db'.leases g.leaseName) := by
  induction r with
  | nil => cases hg
  | snoc r h ih =>
    rcases List.mem_append.mp hg with hg | hg
    · exact ⟨(ih hg).1, (ih hg).2.trans (h.evolves.reached _)⟩
    · rcases h.granted with ⟨rfl, -⟩ | ⟨g', deadline, rfl, habove, hleases⟩
      · cases hg
      · obtain rfl : g = g' := by simpa using hg
        refine ⟨(r.reached _).trans_lt habove, ?_⟩
        simp [hleases, Lease.reached]

theorem Usage.epochs_increase (r : Usage db gs db') (name : String) :
    (gs.filter fun g => g.leaseName = name).Pairwise fun g g' => g.epoch < g'.epoch := by
  induction r with
  | nil => exact .nil
  | snoc r h ih =>
    rw [List.filter_append, List.pairwise_append]
    rcases h.granted with ⟨rfl, -⟩ | ⟨g', deadline, rfl, habove, -⟩
    · exact ⟨ih, by simp, by simp⟩
    · refine ⟨ih, by by_cases hn : g'.leaseName = name <;> simp [hn], ?_⟩
      simp only [List.mem_filter, Option.toList_some, List.mem_singleton, decide_eq_true_eq]
      rintro g ⟨hg, hname⟩ _ ⟨rfl, hname'⟩
      have hreached := (r.issued hg).2
      rw [hname, ← hname'] at hreached
      exact hreached.trans_lt habove

/-- A guard that passes after some steps passed before them, or they handed it out. -/
theorem Usage.held (r : Usage db gs db') {g : Guard} (hheld : db'.held g = true) :
    db.held g = true ∨ g ∈ gs := by
  induction r with
  | nil => exact Or.inl hheld
  | snoc r h ih =>
    rcases h.held hheld with hbefore | rfl
    · exact (ih hbefore).imp_right (List.mem_append_left _)
    · exact Or.inr (by simp)

theorem Usage.append {db'' : Db} {gs' : List Guard} (r : Usage db gs db')
    (r' : Usage db' gs' db'') : Usage db (gs ++ gs') db'' := by
  induction r' with
  | nil => simpa using r
  | snoc _ h ih => rw [← List.append_assoc]; exact ih.snoc h

end Usage

/-- At every moment at most one guard of a lease passes the check; the epochs handed out for a lease
    increase; a guard that fails the check at one moment and passes it at a later one was handed out
    in between; so one that was handed out or passed before it failed never passes again. -/
theorem lease_exclusive {db db' db'' : Db} {gs gs' : List Guard} (r : Usage db gs db')
    (r' : Usage db' gs' db'') (name : String) :
    (∀ g g', g.leaseName = name → g'.leaseName = name → db''.held g = true → db''.held g' = true →
      g = g') ∧
    ((gs ++ gs').filter fun g => g.leaseName = name).Pairwise (fun g g' => g.epoch < g'.epoch) ∧
    ∀ g, g.leaseName = name → db'.held g = false →
      (db''.held g = true → g ∈ gs') ∧ (g ∈ gs ∨ db.held g = true → db''.held g = false) := by
  refine ⟨?_, (r.append r').epochs_increase name, ?_⟩
  · intro g g' hg hg' hheld hheld'
    exact Db.held_unique (hg.trans hg'.symm) hheld hheld'
  · intro g _ hfails
    have hpass : db''.held g = true → g ∈ gs' := fun hheld =>
      (r'.held hheld).resolve_left (by simp [hfails])
    refine ⟨hpass, fun hknown => Bool.eq_false_iff.mpr fun hheld => ?_⟩
    -- an epoch handed out later is above all that were known when the guard failed
    have habove := (r'.issued (hpass hheld)).1
    have hreached : g.epoch ≤ Lease.reached (db'.leases g.leaseName) := by
      rcases hknown with hg | hheld₀
      · exact (r.issued hg).2
      · exact (Db.held_issued hheld₀).trans (r.reached _)
    omega

/-- A lease that has run out and is then taken over by another holder. -/
theorem lease_exclusive_takeover :
    let a : Guard := ⟨"chain-writer", "a", 1⟩
    let db := ((Db.empty 0).tryAcquire "chain-writer" "a" 30).2
    let late := db.tick 31000000
    db.held a = true ∧ late.held a = false ∧
      (late.tryAcquire "chain-writer" "b" 30).2.held a = false := by
  intro a db late
  have r : Usage (Db.empty 0) ([] ++ [a] ++ []) late :=
    (Usage.nil.snoc (.stmt (s := .tryAcquire "chain-writer" "a" 30) rfl)).snoc (.tick 31000000)
  have r' : Usage late ([] ++ [⟨"chain-writer", "b", 2⟩])
      (late.tryAcquire "chain-writer" "b" 30).2 :=
    Usage.nil.snoc (.stmt (s := .tryAcquire "chain-writer" "b" 30) rfl)
  have hlate : late.held a = false := by decide
  exact ⟨by decide, hlate,
    ((lease_exclusive r r' "chain-writer").2.2 a rfl hlate).2 (Or.inl (by simp))⟩

end DeviceUniqueness
