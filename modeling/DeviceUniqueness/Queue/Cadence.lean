import DeviceUniqueness.Outbox.Schema

/-! The advancer's loop in time: it acquires its lease, and then sleeps, renews the lease and works,
    over and over, with a ticker that renews the lease while the work goes on.

    Statements take no time and go through, so the states are the points where the loop waits. Time
    passes up to the next deadline and no further (`step`), and at a deadline something has to
    happen; where the work is done just when the ticker fires, `select!` takes either. Between two
    renewals lie at most the rest of a period of the ticker and one sleep, which is what
    `validate_cadence` compares the ttl with. -/

namespace DeviceUniqueness

open Schemes

/-! ### Durations -/

/-- `std::time::Duration`, in nanoseconds. -/
structure Duration where
  nanos : Nat
  fits : nanos < 2 ^ 64 * 1000000000
  deriving DecidableEq

namespace Duration

def fromSecs (secs : UInt64) : Duration where
  nanos := secs.toNat * 1000000000
  fits := Nat.mul_lt_mul_of_pos_right secs.toNat_lt (by decide)

def asSecs (d : Duration) : Nat := d.nanos / 1000000000

/-- `d / 3`. -/
def third (d : Duration) : Duration where
  nanos := d.nanos / 3
  fits := (Nat.div_le_self ..).trans_lt d.fits

/-- `+`, which panics where this is nothing. -/
def add? (d d' : Duration) : Option Duration :=
  if h : d.nanos + d'.nanos < 2 ^ 64 * 1000000000 then some ⟨d.nanos + d'.nanos, h⟩ else none

theorem nanos_of_add? {d d' sum : Duration} (h : d.add? d' = some sum) :
    sum.nanos = d.nanos + d'.nanos := by
  unfold add? at h
  split at h
  · rw [← Option.some.inj h]
  · cases h

end Duration

/-- Nothing is a panic. -/
def validateCadence (interval leaseTtl : Duration) : Option (Except String Unit) :=
  if interval.nanos < (Duration.fromSecs 1).nanos then
    some (.error "QUEUE_ADVANCE_INTERVAL_SECS must be at least 1")
  else do
    let gap ← interval.add? leaseTtl.third
    if gap.nanos < leaseTtl.nanos then some (.ok ())
    else
      let ttl := leaseTtl.asSecs
      let interval := interval.asSecs
      let renewal := leaseTtl.third.asSecs
      some (.error (s!"QUEUE_LEASE_TTL_SECS ({ttl}) must exceed QUEUE_ADVANCE_INTERVAL_SECS " ++
        s!"({interval}) by more than one renewal period (ttl/3 = {renewal}s): the un-renewed gap " ++
        "between iterations can reach interval + ttl/3, and a lease that expires there makes a " ++
        "healthy advancer look dead every iteration"))

theorem gap_lt_of_validateCadence {interval leaseTtl : Duration}
    (h : validateCadence interval leaseTtl = some (.ok ())) :
    interval.nanos + leaseTtl.third.nanos < leaseTtl.nanos := by
  unfold validateCadence at h
  split at h
  · simp at h
  · cases hgap : interval.add? leaseTtl.third with
    | none => simp [hgap] at h
    | some gap =>
      simp only [hgap, Option.bind_eq_bind, Option.bind_some] at h
      split at h
      · next hlt => exact Duration.nanos_of_add? hgap ▸ hlt
      · simp at h

/-! ### The loop -/

structure AdvancerConfig where
  interval : Duration
  leaseTtl : Duration
  holderId : String

/-- Where the loop waits; the instants are in nanoseconds. -/
inductive Phase where
  /-- before `lease::try_acquire` -/
  | acquiring
  /-- asleep, as another instance holds the lease -/
  | waiting (wake : Int)
  /-- asleep before an iteration -/
  | resting (epoch : Nat) (wake : Int)
  /-- in the `select!` of an iteration whose work takes until `done` -/
  | working (epoch : Nat) (done tick : Int)
  deriving DecidableEq

namespace Phase

/-- Until when time may pass; statements run at once. -/
def deadline : Phase → Option Int
  | .acquiring => none
  | .waiting wake | .resting _ wake => some wake
  | .working _ done tick => some (min done tick)

/-- The epoch under which the loop takes itself to hold the lease. -/
def epoch : Phase → Option Nat
  | .acquiring | .waiting _ => none
  | .resting epoch _ | .working epoch _ _ => some epoch

end Phase

structure Advancer where
  clock : Int
  lease : Option (Lease String Int)
  phase : Phase
  deriving DecidableEq

/-- What the statements add to `now()` for a ttl. -/
def written (ttl : Duration) : Int := asI64 ttl.asSecs * 1000000000

namespace Advancer

/-- `lease::alive`. -/
def alive (st : Advancer) : Bool := st.lease.any fun l => st.clock < l.expires

/-- `lease::try_acquire`. -/
def tryAcquire (st : Advancer) (holderId : String) (ttl : Duration) :
    Option Nat × Option (Lease String Int) :=
  Lease.acquire st.clock (st.clock + written ttl) holderId st.lease

/-- `lease::renew`. -/
def renew (st : Advancer) (holderId : String) (epoch : Nat) (ttl : Duration) :
    Bool × Option (Lease String Int) :=
  Lease.renew st.clock (st.clock + written ttl) holderId epoch st.lease

section

variable {st : Advancer} {holderId : String} {epoch : Nat} {expires : Int} (ttl : Duration)

theorem renew_held (hlease : st.lease = some ⟨holderId, epoch, expires⟩)
    (hlt : st.clock < expires) :
    st.renew holderId epoch ttl = (true, some ⟨holderId, epoch, st.clock + written ttl⟩) := by
  have hheld : Lease.holds st.clock st.lease holderId epoch = true :=
    Lease.holds_iff.mpr ⟨_, hlease, rfl, rfl, hlt⟩
  rw [renew, Lease.renew, if_pos hheld, hlease]
  rfl

theorem renew_other (hlease : st.lease = some ⟨holderId, epoch, expires⟩) {other : String}
    (hne : other ≠ holderId) (epoch' : Nat) : (st.renew other epoch' ttl).2 = st.lease := by
  have hnot : ¬ Lease.holds st.clock st.lease other epoch' = true := by
    rw [Lease.holds_iff]
    rintro ⟨l, hl, rfl, -⟩
    rw [hlease] at hl
    exact hne (Option.some.inj hl ▸ rfl)
  rw [renew, Lease.renew, if_neg hnot]

end

end Advancer

inductive Beat where
  /-- time passes -/
  | pass (nanos : Nat)
  | acquire
  /-- the end of the sleep after an acquisition that failed -/
  | retry
  /-- the end of the sleep before an iteration whose work is going to take that long -/
  | iterate (work : Nat)
  | finish
  | tick
  /-- a renewal by another process -/
  | foreign (holderId : String) (epoch : Nat) (ttl : Duration)

/-- The time an iteration's work takes. -/
def Beat.work? : Beat → Option Nat
  | .iterate work => some work
  | _ => none

namespace AdvancerConfig

variable (config : AdvancerConfig)

/-- One event of `run_advancer`. -/
def step (st : Advancer) : Beat → Option Advancer
  | .pass nanos => do
      let deadline ← st.phase.deadline
      if st.clock + nanos ≤ deadline then some { st with clock := st.clock + nanos } else none
  | .acquire =>
      match st.phase with
      | .acquiring =>
          let (epoch, lease) := st.tryAcquire config.holderId config.leaseTtl
          let wake := st.clock + config.interval.nanos
          let phase := match epoch with
            | some epoch => .resting epoch wake
            | none => .waiting wake
          some { st with lease, phase }
      | _ => none
  | .retry =>
      match st.phase with
      | .waiting wake => if wake ≤ st.clock then some { st with phase := .acquiring } else none
      | _ => none
  | .iterate work =>
      match st.phase with
      | .resting epoch wake =>
          if wake ≤ st.clock then
            let (renewed, lease) := st.renew config.holderId epoch config.leaseTtl
            -- the ticker's first tick is consumed at once
            let tick := st.clock + config.leaseTtl.third.nanos
            let phase := if renewed then .working epoch (st.clock + work) tick else .acquiring
            some { st with lease, phase }
          else none
      | _ => none
  | .finish =>
      match st.phase with
      | .working epoch done _ =>
          if done ≤ st.clock then
            some { st with phase := .resting epoch (st.clock + config.interval.nanos) }
          else none
      | _ => none
  | .tick =>
      match st.phase with
      | .working epoch done tick =>
          if tick ≤ st.clock then
            let (renewed, lease) := st.renew config.holderId epoch config.leaseTtl
            let next := tick + config.leaseTtl.third.nanos
            let phase := if renewed then .working epoch done next else .acquiring
            some { st with lease, phase }
          else none
      | _ => none
  | .foreign holderId epoch ttl =>
      if holderId = config.holderId then none
      else some { st with lease := (st.renew holderId epoch ttl).2 }

def run : Advancer → List Beat → Option Advancer
  | st, [] => some st
  | st, beat :: beats => (config.step st beat).bind (run · beats)

/-! ### The lease is kept -/

/-- The next renewal is due before the lease runs out. While the work goes on it may end just before
    the ticker fires, and then the sleep comes on top. -/
def InTime (epoch : Nat) (clock expires : Int) : Phase → Prop
  | .acquiring | .waiting _ => False
  | .resting epoch' wake => epoch' = epoch ∧ clock ≤ wake ∧ wake < expires
  | .working epoch' done tick =>
      epoch' = epoch ∧ clock ≤ done ∧ clock ≤ tick ∧ tick + config.interval.nanos < expires

/-- The loop holds the lease, and is in time with it. -/
def Keeps (epoch : Nat) (st : Advancer) : Prop :=
  ∃ expires, st.lease = some ⟨config.holderId, epoch, expires⟩ ∧
    config.InTime epoch st.clock expires st.phase

/-- What the statements write is more than the longest gap between two renewals. -/
def Covered : Prop :=
  (config.interval.nanos + config.leaseTtl.third.nanos : Int) < written config.leaseTtl

variable {config} {epoch : Nat} {st st' : Advancer}
variable {clock expires : Int} {phase : Phase}

theorem InTime.clock_lt (h : config.InTime epoch clock expires phase) : clock < expires := by
  cases phase with
  | acquiring | waiting => cases h
  | resting epoch' wake => exact h.2.1.trans_lt h.2.2
  | working epoch' done tick =>
    obtain ⟨-, -, htick, hlt⟩ := h
    omega

theorem InTime.epoch_eq (h : config.InTime epoch clock expires phase) :
    phase.epoch = some epoch := by
  cases phase with
  | acquiring | waiting => cases h
  | resting | working => exact congrArg some h.1

/-- Time passes up to a deadline only. -/
theorem InTime.pass {clock' deadline : Int} (h : config.InTime epoch clock expires phase)
    (hdeadline : phase.deadline = some deadline) (hle : clock' ≤ deadline) :
    config.InTime epoch clock' expires phase := by
  cases phase with
  | acquiring | waiting => cases h
  | resting epoch' wake =>
    cases hdeadline
    exact ⟨h.1, hle, h.2.2⟩
  | working epoch' done tick =>
    cases hdeadline
    obtain ⟨hdone, htick⟩ := le_min_iff.mp hle
    exact ⟨h.1, hdone, htick, h.2.2.2⟩

/-- A fresh acquisition starts in time. -/
theorem keeps_of_acquire (hcovered : config.Covered) (hstep : config.step st .acquire = some st')
    (hepoch : st'.phase.epoch = some epoch) : config.Keeps epoch st' := by
  simp only [step] at hstep
  split at hstep
  · cases Option.some.inj hstep
    cases htaken : (st.tryAcquire config.holderId config.leaseTtl).1 with
    | none => simp [htaken, Phase.epoch] at hepoch
    | some epoch' =>
      simp only [htaken, Phase.epoch, Option.some.injEq] at hepoch
      subst hepoch
      refine ⟨st.clock + written config.leaseTtl, Lease.acquire_taken htaken, ?_⟩
      rw [Covered] at hcovered
      simp only [InTime, true_and]
      omega
  · cases hstep

/-- The loop that keeps its lease goes on keeping it, whatever happens. -/
theorem keeps_step (hcovered : config.Covered) (h : config.Keeps epoch st) {beat : Beat}
    (hstep : config.step st beat = some st') : config.Keeps epoch st' := by
  obtain ⟨clock, lease, phase⟩ := st
  obtain ⟨expires, hlease, hphase⟩ := h
  have hlt := hphase.clock_lt
  rw [Covered] at hcovered
  cases beat with
  | pass nanos =>
    obtain ⟨deadline, hdeadline, hstep⟩ := Option.bind_eq_some_iff.mp hstep
    split at hstep
    · next hle =>
      cases hstep
      exact ⟨expires, hlease, hphase.pass hdeadline hle⟩
    · cases hstep
  | acquire | retry =>
    cases phase with
    | acquiring | waiting => cases hphase
    | resting | working => cases hstep
  | iterate work =>
    cases phase with
    | resting epoch' wake =>
      obtain ⟨rfl, -, -⟩ := hphase
      simp only [step, Advancer.renew_held _ hlease hlt] at hstep
      split at hstep
      · cases hstep
        refine ⟨_, rfl, rfl, ?_⟩
        simp only
        omega
      · cases hstep
    | acquiring | waiting | working => cases hstep
  | finish =>
    cases phase with
    | working epoch' done tick =>
      obtain ⟨rfl, -, htick, hgap⟩ := hphase
      simp only [step] at hstep
      split at hstep
      · cases hstep
        refine ⟨expires, hlease, rfl, ?_⟩
        simp only at htick ⊢
        omega
      · cases hstep
    | acquiring | waiting | resting => cases hstep
  | tick =>
    cases phase with
    | working epoch' done tick =>
      obtain ⟨rfl, hdone, htick, -⟩ := hphase
      simp only [step, Advancer.renew_held _ hlease hlt] at hstep
      split at hstep
      · cases hstep
        refine ⟨_, rfl, rfl, hdone, ?_⟩
        simp only at htick ⊢
        omega
      · cases hstep
    | acquiring | waiting | resting => cases hstep
  | foreign holderId epoch' ttl =>
    simp only [step] at hstep
    split at hstep
    · cases hstep
    · next hne =>
      cases hstep
      exact ⟨expires, (Advancer.renew_other ttl hlease hne epoch').trans hlease, hphase⟩

theorem keeps_run (hcovered : config.Covered) {beats : List Beat} :
    ∀ {st st' : Advancer}, config.Keeps epoch st → config.run st beats = some st' →
      config.Keeps epoch st' := by
  induction beats with
  | nil =>
    intro st st' h hrun
    cases hrun
    exact h
  | cons beat beats ih =>
    intro st st' h hrun
    obtain ⟨mid, hstep, hrest⟩ := Option.bind_eq_some_iff.mp hrun
    exact ih (keeps_step hcovered h hstep) hrest

/-! ### Every sequence of work durations happens -/

theorem run_append (st : Advancer) (xs ys : List Beat) :
    config.run st (xs ++ ys) = (config.run st xs).bind (config.run · ys) := by
  induction xs generalizing st with
  | nil => rfl
  | cons beat xs ih => cases h : config.step st beat <;> simp [run, h, ih]

/-- The sleep before an iteration ends, and its work begins. -/
theorem exists_iterate (h : config.Keeps epoch st) {wake : Int}
    (hphase : st.phase = .resting epoch wake) (work : Nat) :
    ∃ beats st' done tick, config.run st beats = some st' ∧
      st'.phase = .working epoch done tick ∧ beats.filterMap Beat.work? = [work] := by
  obtain ⟨clock, lease, phase⟩ := st
  obtain ⟨expires, hlease, hin⟩ := h
  simp only at hphase
  subst hphase
  obtain ⟨-, (hclock : clock ≤ wake), hwake⟩ := hin
  obtain ⟨d, rfl⟩ := Int.le.dest hclock
  let asleep : Advancer := ⟨clock + d, lease, .resting epoch (clock + d)⟩
  have hpass : config.step ⟨clock, lease, .resting epoch (clock + d)⟩ (.pass d) = some asleep := by
    simp [step, Phase.deadline, asleep]
  have hrenew : asleep.renew config.holderId epoch config.leaseTtl = _ :=
    Advancer.renew_held _ hlease hwake
  let begun : Advancer := ⟨clock + d,
    some ⟨config.holderId, epoch, clock + d + written config.leaseTtl⟩,
    .working epoch (clock + d + work) (clock + d + config.leaseTtl.third.nanos)⟩
  have hbegin : config.step asleep (.iterate work) = some begun := by
    simp only [step, hrenew, asleep, le_refl, if_true, begun]
  refine ⟨[.pass d, .iterate work], begun, _, _, ?_, rfl, rfl⟩
  simp only [run, hpass, hbegin, Option.bind_some]

/-- The ticker fires until the work is done. -/
theorem exists_finish (hcovered : config.Covered) (hperiod : 0 < config.leaseTtl.third.nanos)
    {done tick : Int} (h : config.Keeps epoch st) (hphase : st.phase = .working epoch done tick) :
    ∃ beats st' wake, config.run st beats = some st' ∧ st'.phase = .resting epoch wake ∧
      beats.filterMap Beat.work? = [] := by
  -- the induction is on the time the work goes on after the next tick
  induction hleft : (done - tick).toNat using Nat.strong_induction_on generalizing st tick with
  | _ left ih =>
  obtain ⟨clock, lease, phase⟩ := st
  have hkeeps := h
  obtain ⟨expires, hlease, hin⟩ := h
  simp only at hphase
  subst hphase
  obtain ⟨-, (hdone : clock ≤ done), (htick : clock ≤ tick), hgap⟩ := hin
  rcases le_or_gt done tick with hle | hlt
  · obtain ⟨d, rfl⟩ := Int.le.dest hdone
    refine ⟨[.pass d, .finish], ⟨clock + d, lease, .resting epoch (clock + d +
      config.interval.nanos)⟩, _, ?_, rfl, rfl⟩
    simp [run, step, Phase.deadline, hle]
  · obtain ⟨d, rfl⟩ := Int.le.dest htick
    let fired : Advancer := ⟨clock + d, lease, .working epoch done (clock + d)⟩
    have hpass : config.step ⟨clock, lease, .working epoch done (clock + d)⟩ (.pass d) =
        some fired := by
      simp [step, Phase.deadline, fired, hlt.le]
    have hrenew : fired.renew config.holderId epoch config.leaseTtl = _ :=
      Advancer.renew_held _ hlease (lt_of_le_of_lt (le_add_of_nonneg_right (by simp)) hgap)
    have htock : config.step fired .tick = some ⟨clock + d,
        some ⟨config.holderId, epoch, clock + d + written config.leaseTtl⟩,
        .working epoch done (clock + d + config.leaseTtl.third.nanos)⟩ := by
      simp only [step, hrenew, fired, le_refl, if_true]
    obtain ⟨beats, st', wake, hrun, hrest, hworks⟩ := ih _ (by omega)
      (keeps_step hcovered (keeps_step hcovered hkeeps hpass) htock) rfl rfl
    refine ⟨.pass d :: .tick :: beats, st', wake, ?_, hrest, hworks⟩
    simp only [run, hpass, htock, Option.bind_some, hrun]

/-- Whatever times the iterations take, there is a run in which they take them. -/
theorem exists_run (hcovered : config.Covered) (hperiod : 0 < config.leaseTtl.third.nanos)
    (works : List Nat) : ∀ {st : Advancer} {wake : Int}, config.Keeps epoch st →
      st.phase = .resting epoch wake →
      ∃ beats st', config.run st beats = some st' ∧ beats.filterMap Beat.work? = works := by
  induction works with
  | nil => exact fun {st} {_} _ _ => ⟨[], st, rfl, rfl⟩
  | cons work works ih =>
    intro st wake h hphase
    obtain ⟨begun, mid, done, tick, hbegun, hworking, hwork⟩ := exists_iterate h hphase work
    have hmid := keeps_run hcovered h hbegun
    obtain ⟨ended, last, wake', hended, hresting, hnone⟩ :=
      exists_finish hcovered hperiod hmid hworking
    obtain ⟨beats, st', hrun, hworks⟩ := ih (keeps_run hcovered hmid hended) hresting
    refine ⟨begun ++ (ended ++ beats), st', ?_, ?_⟩
    · rw [run_append, hbegun, Option.bind_some, run_append, hended, Option.bind_some, hrun]
    · rw [List.filterMap_append, List.filterMap_append, hwork, hnone, hworks]
      rfl

theorem exists_run_default : let config : AdvancerConfig := ⟨.fromSecs 6, .fromSecs 30, "queue-1"⟩
    ∃ beats st', config.run ⟨0, some ⟨"queue-1", 1, 30000000000⟩, .resting 1 6000000000⟩ beats =
      some st' ∧ beats.filterMap Beat.work? = [60000000000, 0] :=
  exists_run (by rw [Covered]; decide +kernel) (by decide +kernel) _
    ⟨_, rfl, rfl, by decide, by decide⟩ rfl

end AdvancerConfig

/-- An advancer whose ttl is written as it is given never looks dead once it has acquired the lease:
    the lease is alive at every instant, every renewal goes through while it is, and the loop does
    not go back to acquisition. -/
theorem healthy_advancer_alive {config : AdvancerConfig}
    (haccepted : validateCadence config.interval config.leaseTtl = some (.ok ()))
    (hwritten : written config.leaseTtl = config.leaseTtl.nanos) {st acquired : Advancer}
    (hacquire : config.step st .acquire = some acquired) {epoch : Nat}
    (hepoch : acquired.phase.epoch = some epoch) {beats : List Beat} {now : Advancer}
    (hrun : config.run acquired beats = some now) :
    now.alive = true ∧ now.phase.epoch = some epoch ∧
      (now.renew config.holderId epoch config.leaseTtl).1 = true := by
  have hcovered : config.Covered := by
    have hgap := gap_lt_of_validateCadence haccepted
    rw [AdvancerConfig.Covered, hwritten]
    omega
  obtain ⟨expires, hlease, hphase⟩ := AdvancerConfig.keeps_run hcovered
    (AdvancerConfig.keeps_of_acquire hcovered hacquire hepoch) hrun
  refine ⟨?_, hphase.epoch_eq, ?_⟩
  · simp [Advancer.alive, hlease, hphase.clock_lt]
  · rw [Advancer.renew_held _ hlease hphase.clock_lt]

/-- A ttl of a fraction of a second is cut to its seconds, and one of `2 ^ 63` seconds or more wraps
    around: an accepted cadence with the first goes back to acquisition, and one with the second has
    run out as it is written. -/
theorem ttl_not_written :
    let start : Advancer := ⟨0, none, .acquiring⟩
    let cut : AdvancerConfig := ⟨.fromSecs 1, ⟨1999999999, by decide⟩, "queue-1"⟩
    let wrapped : AdvancerConfig := ⟨.fromSecs 1, .fromSecs 18446744073709551615, "queue-1"⟩
    validateCadence cut.interval cut.leaseTtl = some (.ok ()) ∧
      validateCadence wrapped.interval wrapped.leaseTtl = some (.ok ()) ∧
      (cut.run start [.acquire]).map (·.phase) = some (.resting 1 1000000000) ∧
      (cut.run start [.acquire, .pass 1000000000, .iterate 0]).map (·.phase) = some .acquiring ∧
      (wrapped.run start [.acquire]).map (·.phase) = some (.resting 1 1000000000) ∧
      (wrapped.run start [.acquire]).map (·.alive) = some false :=
  ⟨rfl, rfl, rfl, rfl, rfl, rfl⟩

/-- The default cadence, with a first iteration of 25 seconds whose ticker has fired twice. -/
theorem healthy_advancer_alive_default :
    let config : AdvancerConfig := ⟨.fromSecs 6, .fromSecs 30, "queue-1"⟩
    let beats : List Beat := [.pass 6000000000, .iterate 25000000000, .pass 10000000000, .tick,
      .pass 10000000000, .tick, .pass 5000000000, .finish, .pass 5999999999]
    let acquired : Advancer :=
      ⟨0, some ⟨"queue-1", 1, 30000000000⟩, .resting 1 6000000000⟩
    let now : Advancer :=
      ⟨36999999999, some ⟨"queue-1", 1, 56000000000⟩, .resting 1 37000000000⟩
    config.step ⟨0, none, .acquiring⟩ .acquire = some acquired ∧
      config.run acquired beats = some now ∧ now.alive = true ∧ now.phase.epoch = some 1 ∧
      (now.renew "queue-1" 1 config.leaseTtl).1 = true := by
  intro config beats acquired now
  have hacquire : config.step ⟨0, none, .acquiring⟩ .acquire = some acquired := by
    decide +kernel
  have hrun : config.run acquired beats = some now := by decide +kernel
  have haccepted : validateCadence config.interval config.leaseTtl = some (.ok ()) := by
    decide +kernel
  exact ⟨hacquire, hrun,
    healthy_advancer_alive haccepted (by decide +kernel) hacquire rfl hrun⟩

end DeviceUniqueness
