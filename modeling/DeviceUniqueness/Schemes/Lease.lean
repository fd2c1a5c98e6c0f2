import Mathlib

/-! Leases with epochs.

    A lease is a register that names its holder, carries an epoch that every acquisition raises, and
    runs out at a time. Whoever acquired it keeps the pair of holder and epoch as a token; a write
    is let through when its token is the lease's and the lease has not run out.

    The one fact that writers rest on is `holds_of_evolves`: along any sequence of acquisitions,
    renewals and ticks of a clock that does not go back, a token that passes the check now has
    passed it at every moment since it was issued. A lease that ran out is never revived under its
    old epoch, because a renewal needs the check and an acquisition changes the epoch. -/

namespace Schemes

/-- The register: who holds it, under which epoch, until when. -/
structure Lease (H T : Type) where
  holder : H
  epoch : Nat
  expires : T
  deriving DecidableEq

namespace Lease

variable {H T : Type} [DecidableEq H] [LinearOrder T]

/-- The check a token has to pass. -/
def holds (now : T) (l : Option (Lease H T)) (h : H) (e : Nat) : Bool :=
  match l with
  | some l => l.holder = h && l.epoch = e && now < l.expires
  | none => false

/-- Take the lease: create it, take it over once it has run out, or take it anew as its holder. -/
def acquire (now deadline : T) (h : H) (l : Option (Lease H T)) :
    Option Nat × Option (Lease H T) :=
  match l with
  | none => (some 1, some ⟨h, 1, deadline⟩)
  | some l =>
      if l.expires < now ∨ l.holder = h then (some (l.epoch + 1), some ⟨h, l.epoch + 1, deadline⟩)
      else (none, some l)

/-- Put the deadline off, if the token still passes the check. -/
def renew (now deadline : T) (h : H) (e : Nat) (l : Option (Lease H T)) :
    Bool × Option (Lease H T) :=
  if holds now l h e then (true, l.map fun l => { l with expires := deadline }) else (false, l)

/-- The epoch reached so far: tokens issued have epochs up to it. -/
def reached (l : Option (Lease H T)) : Nat := (l.map Lease.epoch).getD 0

variable {now deadline : T} {l : Option (Lease H T)} {h : H} {e : Nat}

theorem holds_iff :
    holds now l h e = true ↔ ∃ x, l = some x ∧ x.holder = h ∧ x.epoch = e ∧ now < x.expires := by
  cases l <;> simp [holds, and_assoc]

/-- Two tokens that pass the check together are the same token. -/
theorem holds_unique {h' : H} {e' : Nat} (hh : holds now l h e = true)
    (hh' : holds now l h' e' = true) : h = h' ∧ e = e' := by
  obtain ⟨x, hx, rfl, rfl, _⟩ := holds_iff.mp hh
  obtain ⟨y, hy, rfl, rfl, _⟩ := holds_iff.mp hh'
  rw [hx, Option.some.injEq] at hy
  subst hy
  exact ⟨rfl, rfl⟩

theorem reached_of_holds (hh : holds now l h e = true) : reached l = e := by
  obtain ⟨x, rfl, _, rfl, _⟩ := holds_iff.mp hh
  rfl

/-- What can happen to a lease and the clock in one step. -/
inductive Evolves : T × Option (Lease H T) → T × Option (Lease H T) → Prop
  | tick {now now' : T} {l : Option (Lease H T)} (h : now ≤ now') : Evolves (now, l) (now', l)
  | acquire {now : T} {l : Option (Lease H T)} (deadline : T) (h : H) :
      Evolves (now, l) (now, (acquire now deadline h l).2)
  | renew {now : T} {l : Option (Lease H T)} (deadline : T) (h : H) (e : Nat) :
      Evolves (now, l) (now, (renew now deadline h e l).2)

/-- An acquisition that succeeds issues an epoch above all earlier ones. -/
theorem acquire_epoch (he : (acquire now deadline h l).1 = some e) :
    reached l < e ∧ reached (acquire now deadline h l).2 = e := by
  cases l with
  | none =>
    simp only [acquire, Option.some.injEq] at he ⊢
    simp [reached, ← he]
  | some l =>
    by_cases hc : l.expires < now ∨ l.holder = h
    · simp only [acquire, if_pos hc, Option.some.injEq] at he ⊢
      simp [reached, ← he]
    · simp [acquire, if_neg hc] at he

/-- What a successful acquisition leaves behind. -/
theorem acquire_taken (he : (acquire now deadline h l).1 = some e) :
    (acquire now deadline h l).2 = some ⟨h, e, deadline⟩ := by
  cases l with
  | none =>
    simp only [acquire, Option.some.injEq] at he ⊢
    rw [← he]
  | some l =>
    by_cases hc : l.expires < now ∨ l.holder = h
    · simp only [acquire, if_pos hc, Option.some.injEq] at he ⊢
      rw [← he]
    · simp [acquire, if_neg hc] at he

/-- An acquisition that fails leaves the lease as it is. -/
theorem acquire_none (he : (acquire now deadline h l).1 = none) :
    (acquire now deadline h l).2 = l := by
  cases l with
  | none => simp [acquire] at he
  | some l =>
    by_cases hc : l.expires < now ∨ l.holder = h
    · simp [acquire, if_pos hc] at he
    · simp [acquire, if_neg hc]

theorem reached_renew : reached (renew now deadline h e l).2 = reached l := by
  unfold renew
  split
  · cases l <;> simp [reached]
  · rfl

theorem reached_acquire : reached l ≤ reached (acquire now deadline h l).2 := by
  cases he : (acquire now deadline h l).1 with
  | none => exact (congrArg reached (acquire_none he)).ge
  | some e =>
    obtain ⟨hlt, heq⟩ := acquire_epoch he
    exact heq ▸ hlt.le

theorem reached_mono {x y : T × Option (Lease H T)} (hxy : Evolves x y) :
    reached x.2 ≤ reached y.2 := by
  cases hxy with
  | tick => exact le_rfl
  | acquire => exact reached_acquire
  | renew => exact reached_renew.ge

/-- A token issued before the step that passes the check after it has passed it before it. -/
theorem holds_of_evolves {x y : T × Option (Lease H T)} (hxy : Evolves x y)
    (hissued : e ≤ reached x.2) (hh : holds y.1 y.2 h e = true) : holds x.1 x.2 h e = true := by
  cases hxy with
  | tick hle =>
    obtain ⟨l, rfl, hl, he, hlt⟩ := holds_iff.mp hh
    exact holds_iff.mpr ⟨l, rfl, hl, he, lt_of_le_of_lt hle hlt⟩
  | @acquire now l deadline h' =>
    -- a successful acquisition leaves the old epoch behind, so it cannot be the one at hand
    cases he : (Lease.acquire now deadline h' l).1 with
    | none => rwa [acquire_none he] at hh
    | some e' =>
      obtain ⟨hlt, heq⟩ := acquire_epoch he
      have hreached := reached_of_holds hh
      simp only at hissued hreached
      omega
  | @renew now l deadline h' e' =>
    simp only [Lease.renew] at hh
    split at hh
    · next hheld =>
      obtain ⟨z, rfl, rfl, rfl, hlt⟩ := holds_iff.mp hheld
      obtain ⟨z', hz, rfl, rfl, _⟩ := holds_iff.mp hh
      rw [Option.map_some, Option.some.injEq] at hz
      subst hz
      exact hheld
    · exact hh

end Lease

end Schemes
