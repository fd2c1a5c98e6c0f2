import DeviceUniqueness.Schemes.Gcra

/-! The rate limiter of the services, for one key.

    The quota is the generic cell rate algorithm: with a window and a burst, one request is given back
    every `window / burst`. What is kept of a key is dropped when the key was idle for an hour,
    whatever the window. A refused request is told how long to wait, in whole seconds. -/

namespace DeviceUniqueness.RateLimit

open Schemes

/-! ### The limiter -/

/-- The part of `Config` that a key depends on. -/
structure Config where
  windowSecs : Nat := 60
  maxBurst : Nat := 30
  ttiSecs : Nat := 3600

def nanos : Nat := 1000000000

/-- The limiter of one key. Without an idle time nothing is ever dropped. -/
structure KeyLimiter where
  gcra : Gcra
  tti : Option Nat
  deriving DecidableEq

/-- The replenish interval in nanoseconds, as a `u64`. -/
def Config.period (config : Config) : Nat := config.windowSecs * nanos / config.maxBurst % 2 ^ 64

/-- `RateLimiter::new`: a period of zero is a panic, and so is a quota that takes 2^64 nanoseconds or
    more to give back a whole burst, which is a `u64` in the crate that keeps it. -/
def Config.limiter (config : Config) : Except String KeyLimiter :=
  if config.maxBurst = 0 then
    .error "Failed to construct the rate-limiter, max-burst must be non-zero"
  else if config.period = 0 then .error "rate limiter expects a valid period"
  else if 2 ^ 64 ≤ config.maxBurst * config.period then .error "Duration is longer than 584 years"
  else .ok ⟨.ofBurst config.period config.maxBurst, some (config.ttiSecs * nanos)⟩

/-- What is kept of a key, and when it was last looked up. -/
structure Entry where
  tat : Option Nat
  lastAccess : Nat

variable {t tti windowSecs maxBurst : Nat} {entry : Option Entry}

namespace KeyLimiter

variable (l : KeyLimiter)

/-- The same limiter, which never drops anything. -/
def kept : KeyLimiter := ⟨l.gcra, none⟩

/-- An entry is dropped once it was idle for so long. -/
def Idle (entry : Entry) (t : Nat) : Prop := ∃ tti, l.tti = some tti ∧ entry.lastAccess + tti ≤ t

instance (entry : Entry) (t : Nat) : Decidable (l.Idle entry t) :=
  match h : l.tti with
  | none => .isFalse fun ⟨_, htti, _⟩ => nomatch htti.symm.trans h
  | some tti =>
      decidable_of_iff (entry.lastAccess + tti ≤ t)
        ⟨fun hle => ⟨tti, h, hle⟩, fun ⟨_, htti, hle⟩ => Option.some.inj (htti.symm.trans h) ▸ hle⟩

/-- The due time that is found at `t`. -/
def found (entry : Option Entry) (t : Nat) : Option Nat :=
  match entry with
  | none => none
  | some entry => if l.Idle entry t then none else entry.tat

/-- A request at `t`: let through, or refused with the earliest time it may come. -/
def allow (entry : Option Entry) (t : Nat) : Except Nat Unit × Option Entry :=
  match l.gcra.check (l.found entry t) t with
  | .ok next => (.ok (), some ⟨some next, t⟩)
  | .error earliest => (.error earliest, some ⟨l.found entry t, t⟩)

/-- The answers to requests at the times. -/
def answers : Option Entry → List Nat → List (Except Nat Unit)
  | _, [] => []
  | entry, t :: ts => (l.allow entry t).1 :: answers (l.allow entry t).2 ts

/-- What is kept after requests at the times. -/
def after : Option Entry → List Nat → Option Entry
  | entry, [] => entry
  | entry, t :: ts => after (l.allow entry t).2 ts

variable {l}

theorem found_idle {entry : Entry} (h : l.Idle entry t) : l.found (some entry) t = none :=
  if_pos h

theorem found_live {entry : Entry} (h : ¬ l.Idle entry t) : l.found (some entry) t = entry.tat :=
  if_neg h

theorem not_idle_kept (entry : Entry) (t : Nat) : ¬ l.kept.Idle entry t :=
  fun ⟨_, hnone, _⟩ => nomatch hnone

theorem allow_ok {next : Nat} (h : l.gcra.check (l.found entry t) t = .ok next) :
    l.allow entry t = (.ok (), some ⟨some next, t⟩) := by
  rw [allow, h]

theorem allow_error {earliest : Nat} (h : l.gcra.check (l.found entry t) t = .error earliest) :
    l.allow entry t = (.error earliest, some ⟨l.found entry t, t⟩) := by
  rw [allow, h]

theorem answers_append (xs ys : List Nat) (entry : Option Entry) :
    l.answers entry (xs ++ ys) = l.answers entry xs ++ l.answers (l.after entry xs) ys := by
  induction xs generalizing entry with
  | nil => rfl
  | cons t xs ih => rw [List.cons_append, answers, ih, answers, after, List.cons_append]

theorem after_append (xs ys : List Nat) (entry : Option Entry) :
    l.after entry (xs ++ ys) = l.after (l.after entry xs) ys := by
  induction xs generalizing entry with
  | nil => rfl
  | cons t xs ih => rw [List.cons_append, after, ih, after]

theorem answers_length (ts : List Nat) (entry : Option Entry) :
    (l.answers entry ts).length = ts.length := by
  induction ts generalizing entry with
  | nil => rfl
  | cons t ts ih => rw [answers, List.length_cons, ih, List.length_cons]

/-! ### What an entry is worth -/

/-- The due time of an entry is at most a whole burst ahead of the last request. -/
def Sound (l : KeyLimiter) (now : Nat) : Option Entry → Prop
  | none => True
  | some entry => entry.lastAccess ≤ now ∧
      ∀ due, entry.tat = some due → due ≤ entry.lastAccess + (l.gcra.tolerance + l.gcra.period)

variable {now : Nat}

theorem found_sound {due : Nat} (h : l.Sound now entry) (ht : now ≤ t)
    (hdue : l.found entry t = some due) : due ≤ t + (l.gcra.tolerance + l.gcra.period) := by
  cases entry with
  | none => cases hdue
  | some entry =>
    rw [found] at hdue
    split at hdue
    · cases hdue
    · have := h.2 due hdue
      have := h.1
      omega

theorem allow_sound (h : l.Sound now entry) (ht : now ≤ t) : l.Sound t (l.allow entry t).2 := by
  cases hcheck : l.gcra.check (l.found entry t) t with
  | ok next =>
    rw [allow_ok hcheck]
    refine ⟨le_refl t, fun due hdue => ?_⟩
    obtain rfl := Option.some.inj hdue
    exact Gcra.check_ahead hcheck
  | error earliest =>
    rw [allow_error hcheck]
    exact ⟨le_refl t, fun due hdue => found_sound h ht hdue⟩

theorem after_sound {ts : List Nat} (h : l.Sound now entry)
    (hsorted : (now :: ts).Pairwise (· ≤ ·)) (ht : ∀ x ∈ now :: ts, x ≤ t) :
    l.Sound t (l.after entry ts) := by
  induction ts generalizing now entry with
  | nil =>
    cases entry with
    | none => trivial
    | some entry => exact ⟨h.1.trans (ht now (List.mem_cons_self ..)), h.2⟩
  | cons x ts ih =>
    have hnow : now ≤ x := (List.pairwise_cons.mp hsorted).1 x (List.mem_cons_self ..)
    exact ih (allow_sound h hnow) (List.pairwise_cons.mp hsorted).2
      fun y hy => ht y (List.mem_cons_of_mem _ hy)

/-! ### Idle entries -/

/-- An entry whose due time has passed when it is dropped is not missed. -/
theorem allow_kept (htti : l.tti = some tti) (hworth : l.gcra.tolerance + l.gcra.period ≤ tti)
    (h : l.Sound now entry) : l.allow entry t = l.kept.allow entry t := by
  cases entry with
  | none => rfl
  | some entry =>
    have hkept : l.kept.found (some entry) t = entry.tat := found_live (not_idle_kept entry t)
    by_cases hidle : l.Idle entry t
    · cases htat : entry.tat with
      | none =>
        rw [allow, allow, found_idle hidle, hkept, htat]
        rfl
      | some due =>
        have hpassed : due ≤ t := by
          obtain ⟨_, htti', hle⟩ := hidle
          obtain rfl := Option.some.inj (htti'.symm.trans htti)
          have := h.2 due htat
          omega
        rw [allow, allow, found_idle hidle, hkept, htat, kept, Gcra.check_passed hpassed,
          Gcra.check_none]
    · rw [allow, allow, found_live hidle, hkept]
      rfl

theorem answers_kept (htti : l.tti = some tti) (hworth : l.gcra.tolerance + l.gcra.period ≤ tti)
    (entry : Option Entry) {ts : List Nat} (h : l.Sound now entry)
    (hsorted : (now :: ts).Pairwise (· ≤ ·)) : l.answers entry ts = l.kept.answers entry ts := by
  induction ts generalizing now entry with
  | nil => rfl
  | cons t ts ih =>
    have hnow : now ≤ t := (List.pairwise_cons.mp hsorted).1 t (List.mem_cons_self ..)
    rw [answers, answers, allow_kept htti hworth h,
      ← ih _ (allow_kept htti hworth h ▸ allow_sound h hnow) (List.pairwise_cons.mp hsorted).2]

/-- Every request let through moves the due time on by a period, from `a` at least. -/
theorem admitted_moves_due (l : KeyLimiter) (entry : Option Entry) {a : Nat} {ts : List Nat}
    (hin : ∀ t ∈ ts, a ≤ t) : let due (entry : Option Entry) := max a ((entry.bind Entry.tat).getD a)
    due entry + (l.kept.answers entry ts).countP Except.isOk * l.gcra.period ≤
      due (l.kept.after entry ts) := by
  induction ts generalizing entry with
  | nil => simp [answers, after]
  | cons t ts ih =>
    obtain ⟨hat, hin⟩ := List.forall_mem_cons.mp hin
    have hfound : l.kept.found entry t = entry.bind Entry.tat := by
      cases entry with
      | none => rfl
      | some entry => exact found_live (not_idle_kept entry t)
    refine le_trans ?_ (ih (l.kept.allow entry t).2 hin)
    rw [answers, allow, hfound, Gcra.check]
    split_ifs
    · have hpresent : max a ((entry.bind Entry.tat).getD a) ≤
          max ((entry.bind Entry.tat).getD t) t := by
        cases entry.bind Entry.tat <;> simp <;> omega
      rw [List.countP_cons_of_pos rfl, Nat.succ_mul, ← Nat.add_assoc, Nat.add_right_comm]
      exact Nat.add_le_add_right (le_max_of_le_right (Nat.add_le_add_right hpresent _)) _
    · rw [List.countP_cons_of_neg Bool.false_ne_true]
      rfl

/-- Where entries are worth nothing once they are dropped: whatever was asked before `a`, the
    requests let through from then until `b` are a burst at most, and one for every period. -/
theorem admissions_bounded (htti : l.tti = some tti)
    (hworth : l.gcra.tolerance + l.gcra.period ≤ tti) {before times : List Nat} {a b : Nat}
    (hbefore : (before ++ [a]).Pairwise (· ≤ ·)) (htimes : (a :: times).Pairwise (· ≤ ·))
    (hend : ∀ t ∈ a :: times, t ≤ b) :
    (l.answers (l.after none before) times).countP Except.isOk * l.gcra.period ≤
      (b - a) + (l.gcra.tolerance + l.gcra.period) := by
  obtain ⟨hbefore, -, hcross⟩ := List.pairwise_append.mp hbefore
  have hsound : l.Sound a (l.after none before) := after_sound (show l.Sound 0 none from trivial)
    (List.pairwise_cons.mpr ⟨fun x _ => Nat.zero_le x, hbefore⟩)
    (List.forall_mem_cons.mpr ⟨Nat.zero_le a, fun x hx => hcross x hx a (by simp)⟩)
  have hlast : l.kept.Sound b _ := after_sound hsound htimes hend
  have hmoved := admitted_moves_due l (l.after none before) (List.pairwise_cons.mp htimes).1
  rw [answers_kept htti hworth _ hsound htimes]
  cases hdue : (l.kept.after (l.after none before) times).bind Entry.tat with
  | none =>
    simp only [hdue, Option.getD_none] at hmoved
    omega
  | some due =>
    obtain ⟨entry, hentry, htat⟩ := Option.bind_eq_some_iff.mp hdue
    rw [hentry] at hlast
    have hlead : due ≤ entry.lastAccess + (l.gcra.tolerance + l.gcra.period) := hlast.2 due htat
    have hrecent := hlast.1
    simp only [hdue, Option.getD_some] at hmoved
    omega

theorem admissions_bounded_minute : let l : KeyLimiter := ⟨.ofBurst 30 2, some 60⟩
    (l.answers (l.after none [0, 0]) [30, 31]).countP Except.isOk * 30 ≤ (31 - 0) + (30 + 30) :=
  admissions_bounded rfl (by decide) (by decide) (by decide) (by decide)

/-! ### A burst -/

section Burst

variable {period burst : Nat}

/-- A key of which nothing is found has a whole burst. -/
theorem burst_admitted (hgcra : l.gcra = .ofBurst period burst) (htti : l.tti ≠ some 0)
    (entry : Option Entry) (hnone : l.found entry t = none) : ∀ {k : Nat}, k < burst →
      l.answers entry (List.replicate (k + 1) t) = List.replicate (k + 1) (.ok ()) ∧
        l.after entry (List.replicate (k + 1) t) = some ⟨some (t + (k + 1) * period), t⟩
  | 0, _ => by
      have hallow : l.allow entry t = (.ok (), some ⟨some (t + 1 * period), t⟩) := by
        rw [allow, hnone, Gcra.check_none, hgcra, Nat.one_mul]
        rfl
      simp [answers, after, hallow]
  | k + 1, hk => by
      obtain ⟨hanswers, hafter⟩ := burst_admitted hgcra htti entry hnone (Nat.lt_of_succ_lt hk)
      have hlive : ¬ l.Idle ⟨some (t + (k + 1) * period), t⟩ t := by
        rintro ⟨tti, htti', hle⟩
        have hzero : tti = 0 := by
          have : t + tti ≤ t := hle
          omega
        exact htti (hzero ▸ htti')
      have hearly : t + (k + 1) * period ≤ t + (burst - 1) * period := by
        have := Nat.mul_le_mul_right period (show k + 1 ≤ burst - 1 by omega)
        omega
      have hallow : l.allow (some ⟨some (t + (k + 1) * period), t⟩) t =
          (.ok (), some ⟨some (t + (k + 1 + 1) * period), t⟩) := by
        rw [allow, found_live hlive, hgcra]
        rw [Gcra.check_early hearly (Nat.le_add_right _ _), Gcra.ofBurst, Nat.succ_mul (k + 1) period,
          Nat.add_assoc]
      rw [List.replicate_succ' (n := k + 1), answers_append, after_append, hanswers, hafter,
        List.replicate_succ' (n := k + 1)]
      simp [answers, after, hallow]

/-- As long as requests at one time are let through, each moves the due time on. -/
theorem all_admitted_due (hkept : l.tti = none) : ∀ {n due last : Nat}, t ≤ due →
    (∀ a ∈ l.answers (some ⟨some due, last⟩) (List.replicate (n + 1) t), a = .ok ()) →
    due + n * l.gcra.period ≤ t + l.gcra.tolerance
  | n, due, last, hdue, hall => by
      have hlive : ¬ l.Idle ⟨some due, last⟩ t := fun ⟨_, htti, _⟩ => nomatch htti.symm.trans hkept
      rw [List.replicate_succ, answers] at hall
      have hfirst := hall _ (List.mem_cons_self ..)
      have hearly : due ≤ t + l.gcra.tolerance := by
        cases hcheck : l.gcra.check (some due) t with
        | ok next => exact Gcra.check_isOk.mp ⟨next, hcheck⟩
        | error earliest =>
          rw [allow, found_live hlive, hcheck] at hfirst
          cases hfirst
      match n with
      | 0 => omega
      | n + 1 =>
        have hallow : l.allow (some ⟨some due, last⟩) t =
            (.ok (), some ⟨some (due + l.gcra.period), t⟩) := by
          rw [allow, found_live hlive, Gcra.check_early hearly hdue]
        rw [hallow] at hall
        have hrest := all_admitted_due hkept (Nat.le_add_right_of_le hdue)
          fun a ha => hall a (List.mem_cons_of_mem _ ha)
        rw [Nat.succ_mul]
        omega

end Burst

end KeyLimiter

/-! ### The limits -/

/-- A configuration of the services: the window and the burst are set, the idle time is not. -/
def serviceConfig (windowSecs maxBurst : Nat) : Config := { windowSecs := windowSecs, maxBurst := maxBurst }

theorem serviceConfig_limiter {limiter : KeyLimiter}
    (hnew : (serviceConfig windowSecs maxBurst).limiter = .ok limiter) : 1 ≤ maxBurst ∧
    limiter = ⟨.ofBurst (windowSecs * nanos / maxBurst % 2 ^ 64) maxBurst, some (3600 * nanos)⟩ := by
  rw [Config.limiter] at hnew
  split_ifs at hnew with hburst
  exact ⟨Nat.one_le_iff_ne_zero.mpr hburst, (Except.ok.inj hnew).symm⟩

/-! ### Construction -/

/-- A limiter is made unless the period comes out as zero or a burst takes too long, and then with
    that period. -/
theorem serviceConfig_limiter_iff {period : Nat} (hburst : 1 ≤ maxBurst) :
    (∃ limiter, (serviceConfig windowSecs maxBurst).limiter = .ok limiter ∧
        limiter.gcra.period = period) ↔
      period ≠ 0 ∧ maxBurst * period < 2 ^ 64 ∧ windowSecs * nanos / maxBurst % 2 ^ 64 = period := by
  have hne : (serviceConfig windowSecs maxBurst).maxBurst ≠ 0 := Nat.one_le_iff_ne_zero.mp hburst
  have hperiod : (serviceConfig windowSecs maxBurst).period =
      windowSecs * nanos / maxBurst % 2 ^ 64 := rfl
  have hsame : (serviceConfig windowSecs maxBurst).maxBurst = maxBurst := rfl
  rw [Config.limiter, if_neg hne, hperiod, hsame]
  constructor
  · rintro ⟨limiter, hnew, rfl⟩
    split_ifs at hnew with hzero hlong
    cases hnew
    exact ⟨hzero, Nat.lt_of_not_le hlong, rfl⟩
  · rintro ⟨hzero, hshort, rfl⟩
    rw [if_neg hzero, if_neg (Nat.not_le_of_lt hshort)]
    exact ⟨_, rfl, rfl⟩

/-- For every window and every burst that is not zero: a limiter is made, with the exact period,
    exactly if that is a nanosecond or more and so many as the burst fit 64 bits. -/
theorem limiter_constructed_iff {windowSecs maxBurst : Nat} (hburst : 1 ≤ maxBurst) :
    (∃ limiter, (serviceConfig windowSecs maxBurst).limiter = .ok limiter ∧
        limiter.gcra.period = windowSecs * nanos / maxBurst) ↔
      maxBurst ≤ windowSecs * nanos ∧ maxBurst * (windowSecs * nanos / maxBurst) < 2 ^ 64 := by
  rw [serviceConfig_limiter_iff hburst]
  refine and_congr ?_ (and_iff_left_of_imp fun hshort => Nat.mod_eq_of_lt ?_)
  · rw [← Nat.pos_iff_ne_zero, Nat.div_pos_iff]
    exact and_iff_right hburst
  · exact (Nat.le_mul_of_pos_left _ hburst).trans_lt hshort

/-- A burst above the nanoseconds of the window, and a window whose nanoseconds are a multiple of
    2^64, have no limiter; and one of 585 years has a limiter with a period of a third of a second. -/
theorem limiter_not_constructed :
    (serviceConfig 1 2000000000).limiter = .error "rate limiter expects a valid period" ∧
      (serviceConfig (2 ^ 55) 1).limiter = .error "rate limiter expects a valid period" ∧
      ∃ limiter, (serviceConfig 18446744074 1).limiter = .ok limiter ∧
        limiter.gcra.period = 290448384 :=
  ⟨by decide +kernel, by decide +kernel, ⟨.ofBurst 290448384 1, some (3600 * nanos)⟩,
    by decide +kernel, rfl⟩

theorem limiter_constructed_default :
    ∃ limiter, (serviceConfig 60 30).limiter = .ok limiter ∧ limiter.gcra.period = 60 * nanos / 30 :=
  (limiter_constructed_iff (by decide)).mpr (by decide +kernel)

/-- The due time of a whole burst is as far ahead as it gets. -/
theorem ofBurst_ahead {period burst : Nat} (h : 1 ≤ burst) :
    (Gcra.ofBurst period burst).tolerance + (Gcra.ofBurst period burst).period = burst * period := by
  obtain ⟨n, rfl⟩ := Nat.exists_eq_add_of_le' h
  exact (Nat.succ_mul n period).symm

/-- Two bursts, one as soon as the first is forgotten. -/
theorem second_burst_refused {period burst : Nat} (hburst : 1 ≤ burst) (htti : tti ≠ 0)
    (hahead : tti < burst * period) : let limiter : KeyLimiter := ⟨.ofBurst period burst, some tti⟩
    let times := List.replicate burst 0 ++ List.replicate burst tti
    limiter.answers none times = List.replicate (burst + burst) (.ok ()) ∧
      ¬ ∀ a ∈ limiter.kept.answers none times, a = .ok () := by
  obtain ⟨n, rfl⟩ := Nat.exists_eq_add_of_le' hburst
  intro limiter times
  obtain ⟨hfirst, hafter⟩ := limiter.burst_admitted rfl (fun h => htti (Option.some.inj h)) none
    (t := 0) rfl (Nat.lt_succ_self n)
  constructor
  · have hidle : limiter.Idle ⟨some (0 + (n + 1) * period), 0⟩ tti := ⟨tti, rfl, (Nat.zero_add tti).le⟩
    have hsecond := (limiter.burst_admitted rfl (fun h => htti (Option.some.inj h)) _
      (KeyLimiter.found_idle hidle) (Nat.lt_succ_self n)).1
    rw [KeyLimiter.answers_append, hfirst, hafter, hsecond, List.replicate_append_replicate]
  · intro hall
    have hafter' := (limiter.kept.burst_admitted rfl nofun none (t := 0) rfl (Nat.lt_succ_self n)).2
    rw [KeyLimiter.answers_append, hafter'] at hall
    have hdue := KeyLimiter.all_admitted_due (l := limiter.kept) rfl
      (by omega) fun a ha => hall a (List.mem_append_right _ ha)
    have htolerance : limiter.kept.gcra.tolerance = n * period := rfl
    have hperiod : limiter.kept.gcra.period = period := rfl
    rw [htolerance, hperiod] at hdue
    omega

/-- For every window and burst there is a limiter for: with idle entries dropped after an hour, only
    requests are let through that would be if entries were kept, exactly if a whole burst is given
    back within the hour. -/
theorem eviction_harmless_iff {windowSecs maxBurst : Nat} {limiter : KeyLimiter}
    (hnew : (serviceConfig windowSecs maxBurst).limiter = .ok limiter) :
    (∀ times : List Nat, times.Pairwise (· ≤ ·) → ∀ i : Nat,
      (limiter.answers none times)[i]? = some (.ok ()) →
      (limiter.kept.answers none times)[i]? = some (.ok ())) ↔
    maxBurst * (windowSecs * nanos / maxBurst % 2 ^ 64) ≤ 3600 * nanos := by
  obtain ⟨hburst, rfl⟩ := serviceConfig_limiter hnew
  constructor
  · intro h
    by_contra hahead
    obtain ⟨hall, hrefused⟩ := second_burst_refused hburst (by decide) (Nat.lt_of_not_le hahead)
    refine hrefused fun a ha => ?_
    obtain ⟨i, hi⟩ := List.getElem?_of_mem ha
    have hlength : i < maxBurst + maxBurst := by
      obtain ⟨hlt, -⟩ := List.getElem?_eq_some_iff.mp hi
      rwa [KeyLimiter.answers_length, List.length_append, List.length_replicate,
        List.length_replicate] at hlt
    have hok := h (List.replicate maxBurst 0 ++ List.replicate maxBurst (3600 * nanos)) ?_ i ?_
    · exact Option.some.inj (hi.symm.trans hok)
    · refine List.pairwise_append.mpr ⟨?_, ?_, ?_⟩
      · exact List.pairwise_replicate.mpr (.inr (le_refl _))
      · exact List.pairwise_replicate.mpr (.inr (le_refl _))
      · intro x hx y _
        rw [List.eq_of_mem_replicate hx]
        exact Nat.zero_le y
    · rw [hall, List.getElem?_replicate, if_pos hlength]
  · intro hworth times hsorted i hi
    have hkept := KeyLimiter.answers_kept
      (l := ⟨.ofBurst (windowSecs * nanos / maxBurst % 2 ^ 64) maxBurst, some (3600 * nanos)⟩)
      rfl ((ofBurst_ahead hburst).trans_le hworth) none trivial
      (List.pairwise_cons.mpr ⟨fun t _ => Nat.zero_le t, hsorted⟩)
    rwa [← hkept]

/-- With a window of two hours and a burst of one, a second request is let through after one hour. -/
theorem idle_hour_forgets :
    ∃ limiter, (serviceConfig 7200 1).limiter = .ok limiter ∧
      limiter.answers none [0, 3600 * nanos] = [.ok (), .ok ()] ∧
      limiter.kept.answers none [0, 3600 * nanos] = [.ok (), .error (7200 * nanos)] :=
  ⟨⟨.ofBurst (7200 * nanos) 1, some (3600 * nanos)⟩, by decide +kernel, by decide +kernel,
    by decide +kernel⟩

theorem eviction_harmless_minute :
    ∃ limiter, (serviceConfig 60 30).limiter = .ok limiter ∧
      ∀ times : List Nat, times.Pairwise (· ≤ ·) → ∀ i : Nat,
        (limiter.answers none times)[i]? = some (.ok ()) →
        (limiter.kept.answers none times)[i]? = some (.ok ()) := by
  have hnew : (serviceConfig 60 30).limiter =
      .ok ⟨.ofBurst (2 * nanos) 30, some (3600 * nanos)⟩ := by decide +kernel
  exact ⟨_, hnew, (eviction_harmless_iff hnew).mpr (by decide +kernel)⟩

/-! ### How long to wait -/

/-- `wait_time_from` the present, in whole seconds. -/
def retryAfterSecs (earliest now : Nat) : Nat := (earliest - now) / nanos

/-- How a route answers a request at `t`. The clock is read again, at `now`, when it is refused. -/
def KeyLimiter.checkRateLimit (l : KeyLimiter) (entry : Option Entry) (t now : Nat) :
    Except Nat Unit × Option Entry :=
  ((l.allow entry t).1.mapError fun earliest => retryAfterSecs earliest now, (l.allow entry t).2)

/-- How long the key, as it is found at `t`, has to wait at `now`. -/
def KeyLimiter.remaining (l : KeyLimiter) (entry : Option Entry) (t now : Nat) : Nat :=
  (l.found entry t).getD t - l.gcra.tolerance - now

/-- A key that waited for the whole seconds it was told is let through exactly if there was no
    fraction of a second left out, or if it is forgotten by then. -/
theorem KeyLimiter.retry_iff {l : KeyLimiter} (htti : l.tti = some tti) {now secs : Nat}
    (hrefused : (l.checkRateLimit entry t now).1 = .error secs) :
    (l.allow (l.checkRateLimit entry t now).2 (now + secs * nanos)).1 = .ok () ↔
      l.remaining entry t now % nanos = 0 ∨
        t + tti ≤ now + l.remaining entry t now / nanos * nanos := by
  rw [checkRateLimit] at hrefused ⊢
  cases hcheck : l.gcra.check (l.found entry t) t with
  | ok next =>
    rw [allow_ok hcheck] at hrefused
    cases hrefused
  | error earliest =>
    rw [allow_error hcheck] at hrefused ⊢
    obtain rfl : retryAfterSecs earliest now = secs := Except.error.inj hrefused
    obtain ⟨due, hfound, hdue, rfl⟩ := Gcra.check_refused hcheck
    rw [remaining, hfound, Option.getD_some, retryAfterSecs]
    generalize hw : due - l.gcra.tolerance - now = w
    have hwhole : w / nanos * nanos + w % nanos = w := Nat.div_add_mod' w nanos
    have hidle : l.Idle ⟨some due, t⟩ (now + w / nanos * nanos) ↔
        t + tti ≤ now + w / nanos * nanos := by
      simp [Idle, htti]
    by_cases hforgotten : l.Idle ⟨some due, t⟩ (now + w / nanos * nanos)
    · refine iff_of_true ?_ (.inr (hidle.mp hforgotten))
      rw [allow, found_idle hforgotten, Gcra.check_none]
    · have hearly : due ≤ now + w / nanos * nanos + l.gcra.tolerance ↔ w % nanos = 0 := by omega
      rw [or_iff_left fun hle => hforgotten (hidle.mpr hle), ← hearly, ← Gcra.check_isOk, allow,
        found_live hforgotten]
      constructor
      · intro hok
        cases hnext : l.gcra.check (some due) (now + w / nanos * nanos) with
        | ok next => exact ⟨next, rfl⟩
        | error e =>
          rw [hnext] at hok
          cases hok
      · rintro ⟨next, hnext⟩
        rw [hnext]

/-- For every window and burst there is a limiter for, after every sequence of requests, and whenever
    the clock is read again for the answer: a refused request that is made again after the seconds it
    was told is let through exactly if, at that reading, the wait was a whole number of seconds, or
    the retry is an hour or more after the request. -/
theorem retry_after_sufficient_iff {windowSecs maxBurst : Nat} {limiter : KeyLimiter}
    (hnew : (serviceConfig windowSecs maxBurst).limiter = .ok limiter) {times : List Nat}
    {t now secs : Nat}
    (hrefused : (limiter.checkRateLimit (limiter.after none times) t now).1 = .error secs) :
    (limiter.allow (limiter.checkRateLimit (limiter.after none times) t now).2
        (now + secs * nanos)).1 = .ok () ↔
      limiter.remaining (limiter.after none times) t now % nanos = 0 ∨
        t + 3600 * nanos ≤
          now + limiter.remaining (limiter.after none times) t now / nanos * nanos := by
  obtain ⟨-, rfl⟩ := serviceConfig_limiter hnew
  exact KeyLimiter.retry_iff rfl hrefused

/-- One request a second: half a second after one the next is told to wait for no seconds, and is
    refused again. -/
theorem retry_refused :
    ∃ limiter, (serviceConfig 1 1).limiter = .ok limiter ∧
      (limiter.checkRateLimit (limiter.after none [0]) 500000000 500000100).1 = .error 0 ∧
      (limiter.allow (limiter.checkRateLimit (limiter.after none [0]) 500000000 500000100).2
        (500000100 + 0 * nanos)).1 = .error nanos :=
  ⟨⟨.ofBurst nanos 1, some (3600 * nanos)⟩, by decide +kernel, by decide +kernel, by decide +kernel⟩

/-- One request in two seconds: when the clock is read again a second before the next is due, the
    request is let through after that second. -/
theorem retry_after_sufficient_second :
    ∃ limiter, (serviceConfig 2 1).limiter = .ok limiter ∧
      (limiter.checkRateLimit (limiter.after none [0]) 999999900 nanos).1 = .error 1 ∧
      (limiter.allow (limiter.checkRateLimit (limiter.after none [0]) 999999900 nanos).2
        (nanos + 1 * nanos)).1 = .ok () := by
  have hnew : (serviceConfig 2 1).limiter = .ok ⟨.ofBurst (2 * nanos) 1, some (3600 * nanos)⟩ := by
    decide +kernel
  have hrefused : (KeyLimiter.checkRateLimit ⟨.ofBurst (2 * nanos) 1, some (3600 * nanos)⟩
      (KeyLimiter.after ⟨.ofBurst (2 * nanos) 1, some (3600 * nanos)⟩ none [0]) 999999900 nanos).1 =
      .error 1 := by decide +kernel
  exact ⟨_, hnew, hrefused,
    (retry_after_sufficient_iff hnew hrefused).mpr (.inl (by decide +kernel))⟩

end DeviceUniqueness.RateLimit
