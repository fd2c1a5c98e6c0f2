import DeviceUniqueness.Writer.Disciplined

/-! Every writer keeps the discipline, part two: the process around the passes.

    Taking the lease starts a new book. The startup reconcile makes both lanes ready, a turn of the
    active loop keeps them so, and whatever goes wrong ends in taking the lease anew. -/

namespace DeviceUniqueness

open Schemes

variable {N : String} {b b' : Book}

namespace Writer

variable {config : WriterConfig} {w : Writer} {guard : Guard}

/-- Both lanes may be claimed from under the guard. -/
def Active (guard : Guard) (b : Book) : Prop := b.guard = some guard ∧ ∀ l, Ready l (b.lanes l)

theorem Active.same (h : Active guard b) (hs : Same b b') : Active guard b' :=
  ⟨hs.guard.trans h.1, by rw [hs.lanes]; exact h.2⟩

theorem acquireLease_allowed : ∀ (fuel : Nat) {w : Writer} {b : Book},
    (acquireLease config fuel).Sat (discipline config.leaseName) w b
      (fun b' got _ => ∀ guard, got = some guard →
        b'.guard = some guard ∧ b'.lanes = fun _ => LaneBook.new)
      (fun _ _ _ => True)
  | 0, _, _ => by simp [acquireLease]
  | fuel + 1, w, b => by
      simp only [acquireLease, Act.sat_bind]
      refine sat_dbCall.mpr ⟨rfl, fun reply _ => ⟨fun epoch hepoch => ?_, fun _ _ => trivial⟩⟩
      obtain rfl := Reply.seen_eq_ok.mp hepoch
      cases epoch with
      | none => exact acquireLease_allowed fuel
      | some epoch =>
        rintro guard ⟨⟩
        exact ⟨rfl, rfl⟩

theorem queue_same : (queue config).Sat (discipline N) w b (fun b' _ _ => Same b b')
    (fun _ _ _ => True) := by
  unfold queue
  split
  · simp only [onStranded, Ticker.due, Act.sat_bind, Act.sat_zoom, Act.sat_get]
    refine Act.sat_op.mpr ⟨trivial, fun now _ => ?_⟩
    split
    · simp only [Act.sat_bind, Act.sat_modify, Act.sat_pure, if_true, Act.sat_attempt]
      exact sat_dbCall.mpr ⟨trivial, fun _ _ =>
        ⟨fun _ _ => ⟨rfl, rfl, rfl⟩, fun _ _ => ⟨rfl, rfl, rfl⟩⟩⟩
    · exact ⟨rfl, rfl, rfl⟩
  · simp only [Act.sat_bind, Act.sat_attempt]
    exact sat_dbCall.mpr ⟨trivial, fun _ _ =>
      ⟨fun _ _ => ⟨rfl, rfl, rfl⟩, fun _ _ => ⟨rfl, rfl, rfl⟩⟩⟩

theorem periodic_same : (periodic config).Sat (discipline N) w b (fun b' _ _ => Same b b')
    (fun _ _ _ => True) := by
  have hqueue : ∀ {b₁ : Book} {w : Writer}, Same b b₁ →
      (queue config).Sat (discipline N) w b₁ (fun b' _ _ => Same b b') (fun _ _ _ => True) :=
    fun hs => queue_same.weaken (fun _ _ _ h => hs.trans h)
  simp only [periodic, onResources, Ticker.due, Act.sat_bind, Act.sat_zoom, Act.sat_get]
  refine Act.sat_op.mpr ⟨trivial, fun now _ => ?_⟩
  have hs₁ : Same b (b.next ⟨.instantNow, now⟩) := ⟨rfl, rfl, rfl⟩
  split
  · simp only [Act.sat_bind, Act.sat_modify, Act.sat_pure, if_true]
    refine Act.sat_op.mpr ⟨trivial, fun a _ => ?_⟩
    have hs₂ : Same b ((b.next ⟨.instantNow, now⟩).next ⟨.attesterResources, a⟩) := ⟨rfl, rfl, rfl⟩
    cases a with
    | error e => exact hqueue hs₂
    | ok _ =>
      simp only [onDotns, Act.sat_bind, Act.sat_zoom]
      exact Drain.linkUp_same.weaken (fun _ _ _ h => hqueue (hs₂.trans h.1))
  · exact hqueue hs₁

theorem turn_allowed (hactive : Active guard b) :
    (turn config guard).Sat (discipline N) w b (fun b' _ _ => Active guard b')
      (fun _ _ _ => True) := by
  simp only [turn, Act.sat_bind]
  refine heartbeat_allowed.mono ?_ fun _ _ _ _ => trivial
  intro b₁ held _ hs₁
  cases held with
  | false => exact trivial
  | true =>
    simp only [if_true, Act.sat_bind]
    refine periodic_same.weaken ?_
    intro b₂ _ _ hs₂
    have hactive₂ := (hactive.same hs₁).same hs₂
    simp only [onPeople, onDotns, Act.sat_zoom, Act.sat_pure]
    refine (Drain.pass_allowed (cxOf config guard) hactive₂.1 (hactive₂.2 _)).weaken ?_
    rintro b₃ _ _ ⟨hg₃, hothers₃, hready₃⟩
    have hg₃' : b₃.guard = some guard := hg₃.trans hactive₂.1
    have hdotns : Ready .dotns (b₃.lanes .dotns) := by
      rw [hothers₃ .dotns (by simp)]
      exact hactive₂.2 _
    refine (Drain.pass_allowed (cxOf config guard) hg₃' hdotns).weaken ?_
    rintro b₄ _ _ ⟨hg₄, hothers₄, hready₄⟩
    refine ⟨hg₄.trans hg₃', fun l => ?_⟩
    cases l with
    | people =>
      rw [hothers₄ .people (by simp)]
      exact hready₃
    | dotns => exact hready₄

theorem activeLoop_allowed : ∀ (fuel : Nat) {w : Writer} {b : Book}, Active guard b →
    (activeLoop config guard fuel).Sat (discipline N) w b (fun _ _ _ => True) (fun _ _ _ => True)
  | 0, _, _, _ => trivial
  | fuel + 1, w, b, h => by
      simp only [activeLoop, Act.sat_bind]
      exact (turn_allowed h).weaken (fun _ _ _ h => activeLoop_allowed fuel h)

/-- A reconcile that failed is reported, and the lane is ready all the same. -/
theorem failed_ready {l : Lane} {e : String} {a : Unit} (hg : b'.guard = b.guard)
    (hothers : ∀ l', l' ≠ l → b'.lanes l' = b.lanes l')
    (hasked : l = .people → (b'.lanes l).asked = true) :
    (b'.next ⟨.startupReconcileFailed l e, a⟩).guard = b.guard ∧
      (∀ l', l' ≠ l → (b'.next ⟨.startupReconcileFailed l e, a⟩).lanes l' = b.lanes l') ∧
      Ready l ((b'.next ⟨.startupReconcileFailed l e, a⟩).lanes l) := by
  refine ⟨hg, fun l' hl => ?_, fun hl => ?_, fun _ => ?_⟩
  · exact (Function.update_of_ne hl _ _).trans (hothers l' hl)
  · simpa [Book.next, Book.note, Book.onLane, Book.logged] using hasked hl
  · simp [Book.next, Book.note, Book.onLane, Book.logged]

/-- The dotNS half of the startup reconcile, from wherever the People half left the book. -/
theorem reconcileDotns_allowed {b₁ : Book} (hg : b.guard = some guard)
    (hnew : b.lanes = fun _ => LaneBook.new) (hg₁ : b₁.guard = b.guard)
    (hothers₁ : ∀ l', l' ≠ .people → b₁.lanes l' = b.lanes l')
    (hready₁ : Ready .people (b₁.lanes .people)) :
    (Act.attempt (onDotns (Drain.reconcileSubmitting (cxOf config guard))) :
        Act Outside Writer WriterError (Except WriterError Unit)).Sat (discipline N) w b₁
      (fun b' res w => (match res with
        | .ok () => (pure () : Act Outside Writer WriterError Unit)
        | .error e => startupReconcileFailed .dotns (WriterError.display e)).Sat (discipline N) w b'
          (fun b' _ _ => Active guard b') (fun _ _ _ => True))
      (fun _ _ _ => True) := by
  have hnew₁ : (b₁.lanes .dotns).asked = false := by
    rw [hothers₁ .dotns (by simp), hnew]
    rfl
  have hend : ∀ {b' : Book}, b'.guard = b₁.guard →
      (∀ l', l' ≠ .dotns → b'.lanes l' = b₁.lanes l') → Ready .dotns (b'.lanes .dotns) →
      Active guard b' := by
    intro b' hg' hothers' hready'
    refine ⟨(hg'.trans hg₁).trans hg, fun l => ?_⟩
    cases l with
    | people =>
      rw [hothers' .people (by simp)]
      exact hready₁
    | dotns => exact hready'
  simp only [onDotns, Act.sat_attempt, Act.sat_zoom]
  refine (Drain.reconcileSubmitting_allowed (cxOf config guard) (hg₁.trans hg) hnew₁).mono
    (fun b' _ _ h => hend h.1 h.2.1 h.2.2) ?_
  rintro b' e _ ⟨hg', hothers', hasked'⟩
  refine ⟨trivial, fun a _ => ?_⟩
  obtain ⟨h₁, h₂, h₃⟩ := failed_ready (e := e.display) (a := a) hg' hothers' hasked'
  exact hend h₁ h₂ h₃

theorem reconcile_allowed (hg : b.guard = some guard) (hnew : b.lanes = fun _ => LaneBook.new) :
    (reconcile config guard).Sat (discipline N) w b (fun b' _ _ => Active guard b')
      (fun _ _ _ => True) := by
  simp only [reconcile, onPeople, Act.sat_bind, Act.sat_attempt, Act.sat_zoom]
  refine (Drain.reconcileSubmitting_allowed (cxOf config guard) hg (by rw [hnew]; rfl)).mono
    ?_ ?_
  · rintro b₁ _ _ ⟨hg₁, hothers₁, hready₁⟩
    exact Act.sat_attempt.mp (reconcileDotns_allowed hg hnew hg₁ hothers₁ hready₁)
  · rintro b₁ e _ ⟨hg₁, hothers₁, hasked₁⟩
    refine ⟨trivial, fun a _ => ?_⟩
    obtain ⟨h₁, h₂, h₃⟩ := failed_ready (e := e.display) (a := a) hg₁ hothers₁ hasked₁
    exact Act.sat_attempt.mp (reconcileDotns_allowed hg hnew h₁ h₂ h₃)

theorem runForever_allowed (config : WriterConfig) (fuel : Nat) : ∀ (turns : Nat) {w : Writer} {b : Book},
    (runForever config fuel turns).Sat (discipline config.leaseName) w b (fun _ _ _ => True)
      (fun _ _ _ => True)
  | 0, _, _ => trivial
  | turns + 1, w, b => by
      simp only [runForever, Act.sat_bind]
      refine (acquireLease_allowed fuel).weaken ?_
      intro b₁ got _ hgot
      cases got with
      | none => exact trivial
      | some guard =>
        obtain ⟨hg₁, hnew₁⟩ := hgot guard rfl
        simp only [onPeople, onDotns, Drain.resetNonce, Act.sat_bind, Act.sat_zoom, Act.sat_modify,
          Act.sat_attempt]
        refine (reconcile_allowed hg₁ hnew₁).weaken ?_
        intro b₂ _ _ hactive
        exact (activeLoop_allowed fuel hactive).mono (fun _ _ _ _ => trivial)
          fun _ _ _ _ => runForever_allowed config fuel turns

/-- Every writer keeps the discipline, from an empty book. -/
theorem run_allowed (config : WriterConfig) (fuel : Nat) :
    (run config fuel).Sat (discipline config.leaseName) Book.new fun _ _ => True :=
  Prog.Sat.mono (fun _ _ _ => trivial) (runForever_allowed config fuel fuel)

end Writer

end DeviceUniqueness
