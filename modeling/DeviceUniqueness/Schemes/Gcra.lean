import Mathlib

/-! The generic cell rate algorithm.

    All that is kept of the cells let through is the time the next one is due (`tat`, the theoretical
    arrival time). A cell may come early by the tolerance; whenever one is let through, the due time
    moves on by one period, from the present at least. A due time that has passed is as good as
    none. -/

namespace Schemes

structure Gcra where
  period : Nat
  tolerance : Nat
  deriving DecidableEq

namespace Gcra

variable (g : Gcra)

/-- So many cells may come at once. -/
def ofBurst (period burst : Nat) : Gcra := ⟨period, (burst - 1) * period⟩

/-- A cell at time `t`: the due time of the next, or the earliest time it may come. -/
def check (tat : Option Nat) (t : Nat) : Except Nat Nat :=
  if tat.getD t ≤ t + g.tolerance then .ok (max (tat.getD t) t + g.period)
  else .error (tat.getD t - g.tolerance)

variable {g}

theorem check_none (t : Nat) : g.check none t = .ok (t + g.period) := by
  rw [check, Option.getD_none, if_pos (Nat.le_add_right t _), max_self]

theorem check_early {tat t : Nat} (h : tat ≤ t + g.tolerance) (hdue : t ≤ tat) :
    g.check (some tat) t = .ok (tat + g.period) := by
  rw [check, Option.getD_some, if_pos h, max_eq_left hdue]

/-- A due time that has passed is as good as none. -/
theorem check_passed {tat t : Nat} (h : tat ≤ t) : g.check (some tat) t = g.check none t := by
  rw [check_none, check, Option.getD_some, if_pos (Nat.le_add_right_of_le h), max_eq_right h]

/-- The due time is never further ahead than the tolerance and one period. -/
theorem check_ahead {tat : Option Nat} {t next : Nat} (h : g.check tat t = .ok next) :
    next ≤ t + (g.tolerance + g.period) := by
  rw [check] at h
  split at h
  · next hle =>
    obtain rfl := Except.ok.inj h
    rcases le_total (tat.getD t) t with hle' | hle'
    · rw [max_eq_right hle']
      omega
    · rw [max_eq_left hle']
      omega
  · cases h

/-- What is refused would have to wait. -/
theorem check_refused {tat : Option Nat} {t earliest : Nat} (h : g.check tat t = .error earliest) :
    ∃ due, tat = some due ∧ t + g.tolerance < due ∧ earliest = due - g.tolerance := by
  rw [check] at h
  split at h
  · cases h
  · next hnot =>
    cases tat with
    | none => exact absurd (Nat.le_add_right t _) hnot
    | some due => exact ⟨due, rfl, Nat.lt_of_not_le hnot, (Except.error.inj h).symm⟩

theorem check_isOk {due t : Nat} : (∃ next, g.check (some due) t = .ok next) ↔ due ≤ t + g.tolerance := by
  rw [check, Option.getD_some]
  split
  · next h => exact ⟨fun _ => h, fun _ => ⟨_, rfl⟩⟩
  · next h => exact ⟨fun ⟨_, hok⟩ => (by cases hok), fun hle => absurd hle h⟩

end Gcra

end Schemes
