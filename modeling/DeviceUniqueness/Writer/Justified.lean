import DeviceUniqueness.Writer.Evidence

/-! Every settling write of the engine has its reason: one specification per function.

    The specifications speak of the history before and after a call. Up to the submission a pass
    keeps it `Quiet`; the submission appends itself and the wait; from then on, and wherever rows
    are only recorded, what is appended are `Records`, which take no row its reason. -/

namespace DeviceUniqueness

open Schemes

variable {α β σ : Type} {cx : Cx} {l : Lane} {s : σ} {h : Hist} {r : Reservation}

/-- From `h` to `h'` only outcomes were written down. -/
def Recorded (h h' : Hist) : Prop := ∃ rs, h' = h ++ rs ∧ Records rs

theorem Recorded.refl (h : Hist) : Recorded h h := ⟨[], by simp, by simp [Records]⟩

theorem Recorded.trans {h₁ h₂ h₃ : Hist} (r₁ : Recorded h₁ h₂) (r₂ : Recorded h₂ h₃) :
    Recorded h₁ h₃ := by
  obtain ⟨rs, rfl, hr⟩ := r₁
  obtain ⟨rs', rfl, hr'⟩ := r₂
  exact ⟨rs ++ rs', by simp, hr.append hr'⟩

theorem Recorded.clock (h : Hist) (t : Time) : Recorded h (h ++ [⟨.nowUtc, t⟩]) :=
  ⟨_, rfl, by simp [Records]⟩

variable {h' : Hist} {o : Outcome} {tx : Tx} {nonce : Nat} {rows : List (Reservation × Account)}
  {candidate : Account} {grounds : Lane → Hist → Reservation → Outcome → Prop}

theorem Recorded.why (hr : Recorded h h') (w : Why cx l h r o) : Why cx l h' r o := by
  obtain ⟨rs, rfl, hrs⟩ := hr
  exact w.append hrs

theorem Recorded.noSubmit (hr : Recorded h h') (n : NoSubmit h) : NoSubmit h' := by
  obtain ⟨rs, rfl, hrs⟩ := hr
  exact n.append hrs.noSubmit

theorem Recorded.quiet (hr : Recorded h h') (q : Quiet h) : Quiet h' := by
  obtain ⟨rs, rfl, hrs⟩ := hr
  intro e he
  rcases List.mem_append.mp he with he | he
  · exact q e he
  · obtain ⟨o, a⟩ := e
    rcases hrs _ he with rfl | ⟨l, g, r, w, rfl⟩ <;> exact ⟨rfl, rfl⟩

@[simp] theorem evidence_next (e : Ev Outside) : (evidence grounds).next h e = h ++ [e] := rfl

/-! ### Recording -/

theorem write_spec (now : Time) {doing : Op} (hw : grounds l h r o) :
    (write cx l r (writeOf l r now o) doing).Sat (evidence grounds) s h
      (fun h' _ _ => Recorded h h') (fun _ _ _ => True) := by
  simp only [write, Act.sat_bind]
  refine sat_dbCall.mpr ⟨⟨now, o, rfl, hw⟩, fun reply _ => ⟨fun done _ => ?_, fun _ _ => trivial⟩⟩
  have hrec : Recorded h (h ++ [⟨.stmt (.settle l cx.guard r (writeOf l r now o)), reply⟩]) :=
    ⟨_, rfl, by simp [Records]⟩
  cases done
  · exact trivial
  · exact hrec

/-- The reason has to stand when the clock has been read. -/
theorem record_reason (hw : ∀ h', Recorded h h' → grounds l h' r o) :
    (record cx l r o).Sat (evidence grounds) s h (fun h' _ _ => Recorded h h') (fun _ _ _ => True) := by
  have hnow := hw h (Recorded.refl h)
  cases o with
  | landed | observed => exact write_spec 0 hnow
  | retry reason | park reason =>
    refine ⟨trivial, fun t _ => ?_⟩
    exact (write_spec t (hw _ (Recorded.clock h t))).weaken
      (fun _ _ _ hr => (Recorded.clock h t).trans hr)
  | defer until_ reason cause | failed reason | expired reason => exact write_spec 0 hnow

theorem record_spec (hw : Why cx l h r o) : (record cx l r o).Sat (evidence (Why cx)) s h
    (fun h' _ _ => Recorded h h') (fun _ _ _ => True) :=
  record_reason fun _ hr => hr.why hw

/-- A loop that only records. -/
theorem forEach_spec {f : α → Act Outside σ WriterError Unit} {xs : List α}
    (turn : ∀ x ∈ xs, ∀ h' s, Recorded h h' →
      (f x).Sat (evidence grounds) s h' (fun h'' _ _ => Recorded h' h'') (fun _ _ _ => True)) :
    (Act.forEach f xs).Sat (evidence grounds) s h (fun h' _ _ => Recorded h h') (fun _ _ _ => True) := by
  refine (Act.sat_forEach (fun ys h' _ => Recorded h h' ∧ ∀ y ∈ ys, y ∈ xs) ?_
    ⟨Recorded.refl h, fun _ hy => hy⟩).weaken (fun _ _ _ hi => hi.1)
  rintro x ys h' s ⟨hr, hmem⟩
  exact (turn x (hmem x (List.mem_cons_self ..)) h' s hr).weaken
    (fun _ _ _ hr' => ⟨hr.trans hr', fun y hy => hmem y (List.mem_cons_of_mem _ hy)⟩)

/-- A loop that records some rows and keeps others, in order. -/
theorem collect_spec {f : α → Act Outside σ WriterError (Option β)} {xs : List α} {P : β → Prop}
    {g : β → α}
    (turn : ∀ x ∈ xs, ∀ h' s, Recorded h h' →
      (f x).Sat (evidence grounds) s h' (fun h'' y _ => Recorded h' h'' ∧ ∀ z ∈ y, P z ∧ g z = x)
        (fun _ _ _ => True)) :
    (Act.collect f xs).Sat (evidence grounds) s h
      (fun h' ys _ => Recorded h h' ∧ (∀ y ∈ ys, P y) ∧ (ys.map g).Sublist xs)
      (fun _ _ _ => True) := by
  refine (Act.sat_collect (fun zs ys h' _ => (Recorded h h' ∧ ∀ y ∈ ys, P y) ∧
    ∃ done, xs = done ++ zs ∧ (ys.map g).Sublist done) ?_
    ⟨⟨Recorded.refl h, by simp⟩, [], rfl, by simp⟩).weaken ?_
  · rintro x zs ys h' s ⟨⟨hr, hP⟩, done, rfl, hsub⟩
    refine (turn x (by simp) h' s hr).weaken ?_
    rintro h'' y _ ⟨hr', hy⟩
    refine ⟨⟨hr.trans hr', fun z hz => ?_⟩, done ++ [x], by simp, ?_⟩
    · rcases List.mem_append.mp hz with hz | hz
      · exact hP z hz
      · exact (hy z (by simpa using hz)).1
    · rw [List.map_append]
      refine hsub.append ?_
      cases y with
      | none => simp
      | some z => simp [(hy z rfl).2]
  · rintro h' ys _ ⟨⟨hr, hP⟩, done, hxs, hsub⟩
    rw [List.append_nil] at hxs
    exact ⟨hr, hP, hxs ▸ hsub⟩

/-! ### Submitting -/

/-- The wait appends its events, and ends as they say. -/
theorem finalize_spec : ∀ (ticks : Nat) {h : Hist},
    (finalize cx l tx ticks : Act Outside σ String Finalized).Sat (evidence (Why cx)) s h
      (fun h' fin _ => ∃ ws, h' = h ++ ws ∧ Waits l tx ws ∧ verdictOf ws = .ok fin)
      (fun h' e _ => ∃ ws, h' = h ++ ws ∧ Waits l tx ws ∧ verdictOf ws = .error e)
  | 0, h => ⟨[], by simp, by simp [Waits], rfl⟩
  | ticks + 1, h => by
      simp only [finalize, Act.sat_bind]
      refine Act.sat_op.mpr ⟨trivial, fun a _ => ?_⟩
      have hwait : Waits l tx [⟨.awaitFinalized l tx, a⟩] := by simp [Waits]
      cases a with
      | done verdict =>
        simp only [Act.sat_ofExcept]
        exact ⟨fun fin hv => ⟨_, rfl, hwait, hv⟩, fun e hv => ⟨_, rfl, hwait, hv⟩⟩
      | timeout => exact ⟨_, rfl, hwait, rfl⟩
      | renew =>
        simp only [Act.sat_bind, Act.sat_mapError, heartbeat]
        refine sat_dbCall.mpr ⟨trivial, fun reply _ => ?_⟩
        have hall : ∀ ws, Waits l tx ws → Waits l tx (⟨.awaitFinalized l tx, Watched.renew⟩ ::
            ⟨.stmt (.renew cx.guard cx.leaseTtl), reply⟩ :: ws) := by
          intro ws hws e he
          rcases List.mem_cons.mp he with rfl | he
          · exact Or.inl rfl
          · rcases List.mem_cons.mp he with rfl | he
            · exact Or.inr ⟨_, _, rfl⟩
            · exact hws e he
        have hnone : Waits l tx [] := by simp [Waits]
        refine ⟨fun kept hkept => ?_, fun e he => ⟨_, by simp, hall [] hnone, by simp [verdictOf, he]⟩⟩
        cases kept with
        | true =>
          refine (finalize_spec ticks).mono ?_ ?_
          · rintro h' fin _ ⟨ws, rfl, hws, hv⟩
            exact ⟨_, by simp, hall ws hws, by simp [verdictOf, hkept, hv]⟩
          · rintro h' e _ ⟨ws, rfl, hws, hv⟩
            exact ⟨_, by simp, hall ws hws, by simp [verdictOf, hkept, hv]⟩
        | false => exact ⟨_, by simp, hall [] hnone, by simp [verdictOf, hkept]⟩

/-- A submission appends itself and the wait. -/
theorem submit_spec : (submit cx l tx : Act Outside σ String Finalized).Sat (evidence (Why cx)) s h
      (fun h' fin _ => ∃ sent ws, h' = h ++ ⟨.submitAndWatch l tx, sent⟩ :: ws ∧ Waits l tx ws ∧
        submissionOf sent ws = .ok fin)
      (fun h' e _ => ∃ sent ws, h' = h ++ ⟨.submitAndWatch l tx, sent⟩ :: ws ∧ Waits l tx ws ∧
        submissionOf sent ws = .error e) := by
  simp only [submit, Act.sat_bind, Act.sat_ofExcept]
  refine Act.sat_op.mpr ⟨trivial, fun sent _ => ⟨fun _ hok => ?_, fun e he => ?_⟩⟩
  · refine (finalize_spec _).mono ?_ ?_
    · rintro h' fin _ ⟨ws, rfl, hws, hv⟩
      exact ⟨sent, ws, by simp, hws, by simp [submissionOf, hok, hv]⟩
    · rintro h' e _ ⟨ws, rfl, hws, hv⟩
      exact ⟨sent, ws, by simp, hws, by simp [submissionOf, hok, hv]⟩
  · exact ⟨sent, [], by simp, by simp [Waits], by simp [submissionOf, he]⟩

theorem sign_spec (q : Quiet h) :
    (sign cx l nonce rows : Act Outside σ String Tx).Sat (evidence (Why cx)) s h
      (fun h' tx _ => Quiet h' ∧ tx.rows = rows.map Prod.fst)
      (fun h' e _ => Quiet h' ∧ ∃ payload, (⟨.sign l payload nonce (rows.map Prod.fst),
        (Except.error e : Except String String)⟩ : Ev Outside) ∈ h') := by
  simp only [sign, Act.sat_bind, Act.sat_ofExcept, Act.sat_pure]
  refine Act.sat_op.mpr ⟨trivial, fun a _ => ⟨fun hash _ => ⟨q.concat ⟨rfl, rfl⟩, trivial⟩, fun e he => ?_⟩⟩
  subst he
  exact ⟨q.concat ⟨rfl, rfl⟩, _, List.mem_append_right _ (List.mem_singleton.mpr rfl)⟩

theorem markFailure_lost {reply : Reply Bool} (h : reply.seen = .ok false) :
    markFailure reply = some (WriterError.leaseLost .submitting).display := by
  cases reply with
  | ok out => rw [Except.ok.inj h]; rfl
  | lost out err | refused err => cases h

theorem markFailure_error {reply : Reply Bool} {e : WriterError} (h : reply.seen = .error e) :
    markFailure reply = some e.display := by
  cases reply with
  | ok out => cases h
  | lost out err | refused err => rw [← Except.error.inj h]; rfl

theorem mark_spec (q : Quiet h) :
    (mark cx l r tx : Act Outside σ WriterError Unit).Sat (evidence (Why cx)) s h
      (fun h' _ _ => Quiet h')
      (fun h' e _ => Quiet h' ∧ ∃ reply,
        (⟨.stmt (.mark l cx.guard r tx (l.attempt r + 1)), reply⟩ : Ev Outside) ∈ h' ∧
        markFailure reply = some e.display) := by
  simp only [mark, Act.sat_bind]
  refine sat_dbCall.mpr ⟨trivial, fun reply _ => ⟨fun done hdone => ?_, fun e he => ?_⟩⟩
  · cases done with
    | true => exact q.concat ⟨rfl, rfl⟩
    | false => exact ⟨q.concat ⟨rfl, rfl⟩, reply, by simp, markFailure_lost hdone⟩
  · exact ⟨q.concat ⟨rfl, rfl⟩, reply, by simp, markFailure_error he⟩

theorem submitOne_spec (q : Quiet h) :
    (submitOne cx l nonce r candidate : Act Outside σ String Unit).Sat (evidence (Why cx)) s h
      (fun h' _ _ => OwnCall l h' r [] (.ok ()))
      (fun h' reason _ => ∀ after, OwnFailure l (h' ++ after) r after reason) := by
  simp only [submitOne, Act.sat_bind, Act.sat_mapError, Act.sat_ofExcept]
  refine (sign_spec q).mono ?_ ?_
  · rintro h₁ tx _ ⟨q₁, htx⟩
    simp only [List.map_cons, List.map_nil] at htx
    refine (mark_spec q₁).mono ?_ ?_
    · intro h₂ _ _ q₂
      have hsent : ∀ sent ws after, Waits l tx ws →
          Sent l (h₂ ++ ⟨.submitAndWatch l tx, sent⟩ :: ws ++ after) tx sent ws after :=
        fun sent ws after hws => ⟨⟨h₂, by simp, q₂⟩, hws⟩
      refine submit_spec.mono ?_ ?_
      · rintro h₃ fin _ ⟨sent, ws, rfl, hws, hv⟩
        refine ⟨fun _ hc => ⟨tx, sent, ws, ?_, htx, by simp [oneOf, hv, hc]⟩, fun e he after => ?_⟩
        · simpa using hsent sent ws [] hws
        · exact .called ⟨tx, sent, ws, hsent sent ws after hws, htx, by simp [oneOf, hv, he]⟩
      · rintro h₃ e _ ⟨sent, ws, rfl, hws, hv⟩ after
        exact .called ⟨tx, sent, ws, hsent sent ws after hws, htx, by simp [oneOf, hv]⟩
    · rintro h₂ e _ ⟨q₂, reply, hmem, htext⟩ after
      exact .unsent rfl q₂ (.mark htx hmem htext)
  · rintro h₁ e _ ⟨q₁, payload, hmem⟩ after
    exact .unsent rfl q₁ (.sign hmem)

/-- The batch as a whole either delivers items or fails; rows are judged by the items only. -/
theorem submitBatch_spec (q : Quiet h) :
    (submitBatch cx l nonce rows : Act Outside σ String _).Sat (evidence (Why cx)) s h
      (fun h' items _ => ∃ tx sent ws, Sent l h' tx sent ws [] ∧ tx.rows = rows.map Prod.fst ∧
        itemsOf sent ws = .ok items)
      (fun _ _ _ => True) := by
  simp only [submitBatch, Act.sat_bind, Act.sat_ofExcept]
  refine (sign_spec q).mono ?_ fun _ _ _ _ => trivial
  rintro h₁ tx _ ⟨q₁, htx⟩
  refine (Act.sat_forEach (fun _ h _ => Quiet h) ?_ q₁).weaken ?_
  · intro row rows h s q
    simp only [Act.sat_mapError]
    exact (mark_spec q).mono (fun _ _ _ q => q) fun _ _ _ _ => trivial
  · intro h₂ _ _ q₂
    refine submit_spec.mono ?_ fun _ _ _ _ => trivial
    rintro h₃ fin _ ⟨sent, ws, rfl, hws, hv⟩
    refine ⟨fun _ hc => ⟨fun items hi => ⟨tx, sent, ws, ?_, htx, ?_⟩, fun _ _ => trivial⟩,
      fun _ _ => trivial⟩
    · exact ⟨⟨h₂, by simp, q₂⟩, hws⟩
    · simp [itemsOf, hv, hc, hi]

namespace Drain

variable {d : Drain l}
variable {reason : String} {items : List (Except String Unit)}

theorem defer_spec {rows : List Reservation} {backoff : Time} :
    (defer cx rows backoff reason).Sat (evidence (Why cx)) d h (fun h' _ _ => Recorded h h')
      (fun _ _ _ => True) := by
  refine ⟨trivial, fun t _ => ?_⟩
  refine (forEach_spec (h := h ++ [⟨.nowUtc, t⟩]) ?_).weaken
    (fun _ _ _ hr => (Recorded.clock h t).trans hr)
  intro r _ h' s _
  exact record_spec (.deferred _ _)

theorem retryBatch_spec {rows : List Reservation} :
    (retryBatch cx rows reason).Sat (evidence (Why cx)) d h (fun h' _ _ => Recorded h h')
      (fun _ _ _ => True) := by
  simp only [retryBatch, Act.sat_bind, Act.sat_get, Act.sat_modify]
  exact defer_spec

theorem settle_spec {observed : Option Account}
    (parsed : cx.ext.accountFromStr r.candidateAccountId = some candidate)
    (seen : Observed l h r reason observed) :
    (settle cx r candidate observed reason).Sat (evidence (Why cx)) d h (fun h' _ _ => Recorded h h')
      (fun _ _ _ => True) := by
  have hw : ∀ now, Why cx l h r (settleOutcome cx l r candidate observed reason now) :=
    fun now => .judged now parsed seen
  simp only [settleOutcome] at hw
  unfold settle
  split <;> rename_i hc <;> simp only [hc] at hw
  · exact record_spec (hw 0)
  · exact record_spec (hw 0)
  · exact record_spec (hw 0)
  · refine ⟨trivial, fun t _ => ?_⟩
    exact (record_spec ((Recorded.clock h t).why (hw t))).weaken
      (fun _ _ _ hr => (Recorded.clock h t).trans hr)
  · exact record_spec (hw 0)

theorem nextNonce_spec {rows : List Reservation} (q : Quiet h) :
    (nextNonce cx rows).Sat (evidence (Why cx)) d h (fun h' _ _ => Quiet h')
      (fun h' _ _ => ∃ signer e, (⟨.accountNonce l signer rows,
        (Except.error e : Except String Nat)⟩ : Ev Outside) ∈ h') := by
  simp only [nextNonce, Act.sat_bind, Act.sat_get]
  split
  · exact q
  · simp only [Act.sat_bind]
    refine Act.sat_op.mpr ⟨trivial, fun a _ => ?_⟩
    cases a with
    | ok n => exact q.concat ⟨rfl, rfl⟩
    | error e => exact ⟨_, e, List.mem_append_right _ (List.mem_singleton.mpr rfl)⟩

theorem one_spec (q : Quiet h)
    (parsed : cx.ext.accountFromStr r.candidateAccountId = some candidate) :
    (one cx r candidate).Sat (evidence (Why cx)) d h (fun _ _ _ => True) (fun _ _ _ => True) := by
  simp only [one, Act.sat_bind, Act.sat_attempt]
  refine (nextNonce_spec q).mono ?_ ?_
  · intro h₁ nonce _ q₁
    refine (submitOne_spec q₁).mono ?_ ?_
    · intro h₂ _ d₂ hcall
      simp only [succeeded, Act.sat_modify]
      exact (record_spec (.called hcall (by simp [Records]))).anyhow
    · intro h₂ reason d₂ hfail
      simp only [resetNonce, Act.sat_modify]
      refine Act.sat_op.mpr ⟨trivial, fun answer _ => ?_⟩
      have hseen : Observed l (h₂ ++ [⟨.owner l r.fullUsername, answer⟩]) r reason
          answer.toOption.join := .one (hfail _) (by simp [Records])
      exact (settle_spec parsed hseen).anyhow
  · rintro h₁ e _ ⟨signer, e', hmem⟩
    exact (record_spec (.nonceUnread _ hmem)).anyhow

theorem reconcileBatch_spec {sent : Except String Unit} {ws : Hist} (hsent : Sent l h tx sent ws [])
    (parsed : ∀ row ∈ rows, cx.ext.accountFromStr row.1.candidateAccountId = some row.2) :
    (reconcileBatch cx rows reason).Sat (evidence (Why cx)) d h (fun _ _ _ => True)
      (fun _ _ _ => True) := by
  simp only [reconcileBatch, Act.sat_bind]
  refine sat_ownersOf (fun hnil => ?_) fun _ => ⟨trivial, fun a _ => ?_⟩
  · -- no rows, nothing to read
    obtain rfl : rows = [] := by simpa using hnil
    exact trivial
  · cases a with
    | error e => exact defer_spec.anyhow
    | ok owners =>
      simp only [Act.sat_bind]
      refine (collect_spec (P := fun _ => True) (g := id) ?_).mono ?_ fun _ _ _ _ => trivial
      · rintro row hrow _ _ ⟨rs, rfl, hrs⟩
        split
        · next howned =>
          have hback : ReadBack cx.ext l (h ++ [_] ++ rs) row.1 :=
            ⟨row.2, tx, sent, ws, _, owners, rs, parsed row hrow,
              by simpa using hsent.append (t := ⟨.owners l _, .ok owners⟩ :: rs),
              List.mem_map_of_mem (f := fun row => row.1.fullUsername) hrow, howned, hrs⟩
          simp only [Act.sat_bind, Act.sat_pure]
          exact (record_spec (.readBack hback)).mono
            (fun _ _ _ hr => ⟨hr, by simp⟩) fun _ _ _ _ => trivial
        · exact ⟨Recorded.refl _, by simp⟩
      · intro h' unlanded _ _
        split
        · exact trivial
        · exact defer_spec.anyhow

theorem mem_failedNames {row : Reservation × Account} {e : String}
    (hmem : (row, Except.error e) ∈ rows.zip items) : row.1.fullUsername ∈ failedNames rows items :=
  List.mem_filterMap.mpr ⟨(row, .error e), hmem, rfl⟩

theorem of_mem_failedNames {name : String} (hname : name ∈ failedNames rows items) :
    ∃ row e, (row, Except.error e) ∈ rows.zip items ∧ row.1.fullUsername = name := by
  obtain ⟨⟨row, item⟩, hmem, hsome⟩ := List.mem_filterMap.mp hname
  cases item with
  | ok _ => cases hsome
  | error e => exact ⟨row, e, hmem, Option.some.inj hsome⟩

theorem apply_spec {sent : Except String Unit} {ws : Hist} (hsent : Sent l h tx sent ws [])
    (htx : tx.rows = rows.map Prod.fst) (hitems : itemsOf sent ws = .ok items)
    (hmany : 2 ≤ rows.length)
    (hdist : ClaimsDistinct h → (rows.map fun row => row.1.fullUsername).Nodup)
    (parsed : ∀ row ∈ rows, cx.ext.accountFromStr row.1.candidateAccountId = some row.2) :
    (apply cx rows items).Sat (evidence (Why cx)) d h (fun _ _ _ => True) (fun _ _ _ => True) := by
  unfold apply
  split
  · exact reconcileBatch_spec hsent parsed
  · next hlen =>
    have hzip : ∀ row item, (row, item) ∈ rows.zip items → (row.1, item) ∈ tx.rows.zip items := by
      intro row item hmem
      rw [htx, List.zip_map_left]
      exact List.mem_map.mpr ⟨(row, item), hmem, rfl⟩
    have hown : ∀ row item, (row, item) ∈ rows.zip items → ∀ after,
        ItemOf l (h ++ after) row.1 after item tx sent ws items := by
      intro row item hmem after
      refine ⟨hsent.append (t := after), ?_, hitems, ?_, hzip row item hmem, fun hd => ?_⟩
      · simpa [htx] using hmany
      · simpa [htx] using hlen
      · simpa [htx, Function.comp_def] using hdist (hd.mono (List.prefix_append ..))
    simp only [Act.sat_bind]
    refine sat_ownersOf (fun hnil => ?_) fun _ => ⟨trivial, fun answer _ => ?_⟩
    · -- no item failed
      refine (forEach_spec ?_).anyhow
      rintro ⟨row, item⟩ hmem h' _ ⟨rs, rfl, hrs⟩
      cases item with
      | ok _ => exact record_spec (.completed (hown row _ hmem ([] ++ rs)) (Or.inl rfl) hrs)
      | error reason => simpa [hnil] using mem_failedNames hmem
    · refine (forEach_spec ?_).anyhow
      rintro ⟨row, item⟩ hmem h' _ ⟨rs, rfl, hrs⟩
      have hitem := hown row item hmem
        (⟨.owners l (failedNames rows items), answer⟩ :: rs)
      rw [List.append_cons] at hitem
      cases item with
      | ok _ =>
        refine record_spec (.completed (q := [_]) hitem (Or.inr ⟨_, _, rfl, ?_⟩) hrs)
        intro name hname
        obtain ⟨row', e, hmem', rfl⟩ := of_mem_failedNames hname
        exact ⟨row'.1, e, hzip _ _ hmem', rfl⟩
      | error reason =>
        exact settle_spec (parsed row (List.of_mem_zip hmem).1)
          (.item (mem_failedNames hmem) ⟨tx, sent, ws, items, hitem⟩ hrs)

theorem batchRows_spec (q : Quiet h) (hmany : 2 ≤ rows.length)
    (hdist : ClaimsDistinct h → (rows.map fun row => row.1.fullUsername).Nodup)
    (parsed : ∀ row ∈ rows, cx.ext.accountFromStr row.1.candidateAccountId = some row.2) :
    (batchRows cx rows).Sat (evidence (Why cx)) d h (fun _ _ _ => True) (fun _ _ _ => True) := by
  simp only [batchRows, Act.sat_bind, Act.sat_attempt]
  refine (nextNonce_spec q).extends.mono ?_ fun _ _ _ _ =>
    retryBatch_spec.anyhow
  rintro h₁ nonce _ ⟨hp₁, q₁⟩
  refine (submitBatch_spec q₁).extends.mono ?_ ?_
  · rintro h₂ items _ ⟨hp₂, tx, sent, ws, hsent, htx, hitems⟩
    simp only [succeeded, Act.sat_modify]
    exact apply_spec hsent htx hitems hmany (fun hd => hdist (hd.mono (hp₁.trans hp₂))) parsed
  · intro h₂ e _ _
    simp only [resetNonce, Act.sat_modify]
    exact retryBatch_spec.anyhow

/-! ### The pass -/

theorem submitRows_spec (q : rows ≠ [] → Quiet h)
    (hdist : ClaimsDistinct h → (rows.map fun row => row.1.fullUsername).Nodup)
    (parsed : ∀ row ∈ rows, cx.ext.accountFromStr row.1.candidateAccountId = some row.2) :
    (submitRows cx rows).Sat (evidence (Why cx)) d h (fun _ _ _ => True) (fun _ _ _ => True) := by
  match rows with
  | [] => exact trivial
  | [(r, candidate)] => exact one_spec (q (by simp)) (parsed (r, candidate) (by simp))
  | _ :: _ :: _ => exact batchRows_spec (q (by simp)) (by simp) hdist parsed

theorem gateRow_spec {ctx : l.Ctx} {wall : Time} (n : NoSubmit h) :
    (gateRow cx ctx wall r).Sat (evidence (Why cx)) d h
      (fun h' y _ => Recorded h h' ∧
        ∀ z ∈ y, cx.ext.accountFromStr z.1.candidateAccountId = some z.2 ∧ z.1 = r)
      (fun _ _ _ => True) := by
  unfold gateRow
  split
  · next candidate hgate => exact ⟨Recorded.refl h, by simpa using Lane.gate_ok hgate⟩
  · next gate hgate =>
    simp only [Act.sat_bind, Act.sat_pure]
    exact (record_spec (.gated n hgate)).weaken (fun _ _ _ hr => ⟨hr, by simp⟩)

theorem checkOwner_spec {names : List String} {owners : Owners} {row : Reservation × Account}
    (n : NoSubmit h) (named : row.1.fullUsername ∈ names)
    (read : (⟨.owners l names, (Except.ok owners : Except String Owners)⟩ : Ev Outside) ∈ h)
    (parsed : cx.ext.accountFromStr row.1.candidateAccountId = some row.2) :
    (checkOwner cx owners row).Sat (evidence (Why cx)) d h
      (fun h' y _ => Recorded h h' ∧
        ∀ z ∈ y, cx.ext.accountFromStr z.1.candidateAccountId = some z.2 ∧ z = row)
      (fun _ _ _ => True) := by
  unfold checkOwner
  split
  · next owner hfound =>
    have hread : OwnerRead l h row.1 owner := ⟨named, hfound, read⟩
    simp only [Act.sat_bind, Act.sat_pure]
    refine (record_spec ?_).weaken (fun _ _ _ hr => ⟨hr, by simp⟩)
    split
    · next heq => exact .observed n parsed (heq ▸ hread)
    · next hne => exact .elsewhere n hread fun hc => hne (Option.some.inj (hc.symm.trans parsed))
  · exact ⟨Recorded.refl h, by simpa using parsed⟩

theorem triage_spec {ctx : l.Ctx} {due : List Reservation} (q : Quiet h) :
    (triage cx ctx due).Sat (evidence (Why cx)) d h
      (fun h' rows _ => (rows ≠ [] → Quiet h') ∧
        (∀ row ∈ rows, cx.ext.accountFromStr row.1.candidateAccountId = some row.2) ∧
        (rows.map Prod.fst).Sublist due)
      (fun _ _ _ => True) := by
  simp only [triage, Act.sat_mapError, Act.sat_bind]
  refine Act.sat_op.mpr ⟨trivial, fun wall _ => ?_⟩
  have hclock := Recorded.clock h wall
  refine (collect_spec (h := h ++ [⟨.nowUtc, wall⟩])
    (P := fun z : Reservation × Account =>
      cx.ext.accountFromStr z.1.candidateAccountId = some z.2) (g := Prod.fst)
    fun r _ h' _ hr => gateRow_spec (hr.noSubmit (hclock.quiet q).noSubmit)).weaken ?_
  rintro h₁ gated _ ⟨hr₁, parsed, hsub⟩
  have q₁ : Quiet h₁ := hr₁.quiet (hclock.quiet q)
  split
  · exact ⟨fun h => absurd rfl h, by simp⟩
  · simp only [Act.sat_bind]
    refine sat_ownersOf (fun hnil => ?_) fun _ => ⟨trivial, fun a _ => ?_⟩
    · obtain rfl : gated = [] := by simpa using hnil
      exact ⟨fun h => absurd rfl h, by simp⟩
    · cases a with
      | error e =>
        simp only [Act.sat_bind, Act.sat_pure]
        exact retryBatch_spec.weaken (fun _ _ _ _ => ⟨fun h => absurd rfl h, by simp⟩)
      | ok owners =>
        have q₂ : Quiet (h₁ ++ [⟨.owners l (gated.map fun row => row.1.fullUsername),
            (Except.ok owners : Except String Owners)⟩]) := q₁.concat ⟨rfl, rfl⟩
        refine (collect_spec
          (P := fun z => cx.ext.accountFromStr z.1.candidateAccountId = some z.2) (g := id)
          fun row hrow h' _ hr => checkOwner_spec (hr.noSubmit q₂.noSubmit)
            (List.mem_map_of_mem (f := fun row => row.1.fullUsername) hrow) ?_
            (parsed row hrow)).weaken ?_
        · obtain ⟨rs, rfl, _⟩ := hr
          simp
        · rintro h₂ rows _ ⟨hr₂, hrows, hsub'⟩
          rw [List.map_id] at hsub'
          exact ⟨fun _ => hr₂.quiet q₂, hrows, (hsub'.map Prod.fst).trans hsub⟩

theorem linkUp_spec (q : Quiet h) :
    (linkUp : Act Outside (Drain l) WriterError Bool).Sat (evidence grounds) d h
      (fun h' _ _ => Quiet h') (fun _ _ _ => True) := by
  simp only [linkUp, Act.sat_zoom]
  cases l with
  | people => exact q
  | dotns =>
    simp only [Lane.up, DotnsLink.up, Act.sat_bind, Act.sat_get]
    refine Act.sat_op.mpr ⟨trivial, fun now _ => ?_⟩
    have q₁ : Quiet (h ++ [⟨.instantNow, now⟩]) := q.concat ⟨rfl, rfl⟩
    split
    · exact q₁
    · exact q₁
    · simp only [Act.sat_bind]
      refine Act.sat_op.mpr ⟨trivial, fun a _ => ?_⟩
      cases a <;> exact q₁.concat ⟨rfl, rfl⟩

theorem linkCtx_spec (q : Quiet h) :
    (linkCtx : Act Outside (Drain l) WriterError _).Sat (evidence (Why cx)) d h
      (fun h' ctx _ => ctx.isOk → Quiet h') (fun _ _ _ => True) := by
  simp only [linkCtx, Act.sat_zoom]
  cases l with
  | people =>
    refine ⟨trivial, fun a _ => ?_⟩
    cases a with
    | ok form => exact fun _ => q.concat ⟨rfl, rfl⟩
    | error e => exact fun h => by cases h
  | dotns =>
    simp only [Lane.ctx, Act.sat_bind, Act.sat_get]
    split
    · exact fun h => by cases h
    · simp only [Act.sat_bind]
      refine Act.sat_op.mpr ⟨trivial, fun a _ => ?_⟩
      cases a with
      | ok form => exact fun _ => q.concat ⟨rfl, rfl⟩
      | error e => exact fun h => by cases h

theorem pass_spec (q : Quiet h) :
    (pass cx : Act Outside (Drain l) WriterError Bool).Sat (evidence (Why cx)) d h (fun _ _ _ => True)
      (fun _ _ _ => True) := by
  simp only [pass, Act.sat_bind]
  refine (linkUp_spec q).weaken ?_
  intro h₁ up d₁ q₁
  cases up with
  | false => exact trivial
  | true =>
    simp only [if_true, Act.sat_bind, Act.sat_get]
    refine sat_dbCall.mpr ⟨trivial, fun reply _ => ⟨fun due hdue => ?_, fun _ _ => trivial⟩⟩
    have hdist : ∀ h', h₁ ++ [⟨.stmt (.claim l d₁.batch.size), reply⟩] <+: h' →
        ClaimsDistinct h' → (due.map Reservation.fullUsername).Nodup := by
      rw [Reply.seen_eq_ok.mp hdue]
      exact fun h' hp hd => hd l d₁.batch.size due (hp.subset (by simp))
    have q₂ := q₁.concat (e := ⟨.stmt (.claim l d₁.batch.size), reply⟩) ⟨rfl, rfl⟩
    split
    · exact trivial
    · simp only [hold, heartbeat, Act.sat_bind]
      refine sat_dbCall.mpr ⟨trivial, fun kept _ => ⟨fun held _ => ?_, fun _ _ => trivial⟩⟩
      have q₃ := q₂.concat (e := ⟨.stmt (.renew cx.guard cx.leaseTtl), kept⟩) ⟨rfl, rfl⟩
      cases held with
      | false => exact trivial
      | true =>
        refine (linkCtx_spec q₃).extends.mono ?_ fun _ _ _ _ => trivial
        rintro h₄ ctx _ ⟨hp₄, q₄⟩
        cases ctx with
        | error e =>
          simp only [Act.sat_bind, Act.sat_pure]
          exact retryBatch_spec.weaken (fun _ _ _ _ => trivial)
        | ok ctx =>
          simp only [Act.sat_bind, Act.sat_pure]
          refine (triage_spec (q₄ rfl)).extends.mono ?_ fun _ _ _ h => trivial
          rintro h₅ rows _ ⟨hp₅, q₅, parsed, hsub⟩
          refine submitRows_spec q₅ (fun hd => ?_) parsed
          have hnames := (hsub.map Reservation.fullUsername).nodup
            (hdist h₅ ((List.prefix_append ..).trans (hp₄.trans hp₅)) hd)
          simpa [Function.comp_def] using hnames

/-! ### The startup reconcile -/

theorem parseRow_spec (n : NoSubmit h) :
    (parseRow cx r : Act Outside (Drain l) WriterError _).Sat (evidence (Reconciled cx)) d h
      (fun h' y _ => Recorded h h' ∧
        ∀ z ∈ y, cx.ext.accountFromStr z.1.candidateAccountId = some z.2 ∧ z.1 = r)
      (fun _ _ _ => True) := by
  unfold parseRow
  split
  · next candidate hparse =>
    refine ⟨Recorded.refl h, ?_⟩
    simp only [Option.mem_some_iff]
    rintro z rfl
    refine ⟨?_, rfl⟩
    unfold parseCandidate at hparse
    split at hparse
    · next ha => rw [ha, Except.ok.inj hparse]
    · cases hparse
  · next gate hparse =>
    simp only [Act.sat_bind, Act.sat_pure]
    exact (record_reason fun _ hr => .unparsed (hr.noSubmit n) hparse).weaken
      (fun _ _ _ hr => ⟨hr, by simp⟩)

theorem reconcileChunk_spec {unread : Nat} {chunk : List (Reservation × Account)} (n : NoSubmit h)
    (parsed : ∀ row ∈ chunk, cx.ext.accountFromStr row.1.candidateAccountId = some row.2) :
    (reconcileChunk cx unread chunk : Act Outside (Drain l) WriterError Nat).Sat (evidence (Reconciled cx)) d h
      (fun h' _ _ => NoSubmit h') (fun _ _ _ => True) := by
  simp only [reconcileChunk, Act.sat_bind]
  refine sat_ownersOf (fun hnil => ?_) fun _ => ⟨trivial, fun a _ => ?_⟩
  · obtain rfl : chunk = [] := by simpa using hnil
    exact n
  · cases a with
    | error e => exact n.concat rfl
    | ok owners =>
      simp only [Act.sat_bind, Act.sat_pure]
      refine (forEach_spec ?_).weaken (fun _ _ _ hr => hr.noSubmit (n.concat rfl))
      intro row hrow h' _ hr
      refine record_reason fun h'' hr' => ?_
      obtain ⟨rs, rfl, hrs⟩ := hr.trans hr'
      refine Reconciled.append (.read (n.concat rfl) (parsed row hrow)
        (List.mem_map_of_mem (f := fun row => row.1.fullUsername) hrow) (by simp) ?_) hrs
      rw [lastRead, evidence_next, List.foldl_concat]
      rfl

theorem mem_of_mem_chunks {n : Nat} : ∀ (fuel : Nat) (xs : List α) {c : List α} {x : α},
    c ∈ chunks.go n fuel xs → x ∈ c → x ∈ xs
  | 0, _, _, _, hc, _ | _ + 1, [], _, _, hc, _ => by simp [chunks.go] at hc
  | fuel + 1, y :: ys, c, x, hc, hx => by
      rcases List.mem_cons.mp hc with rfl | hc
      · exact List.mem_of_mem_take hx
      · exact List.mem_of_mem_drop (mem_of_mem_chunks fuel _ hc hx)

theorem reconcileSubmitting_spec (q : Quiet h) :
    (reconcileSubmitting cx : Act Outside (Drain l) WriterError Unit).Sat (evidence (Reconciled cx)) d h
      (fun _ _ _ => True) (fun _ _ _ => True) := by
  simp only [reconcileSubmitting, Act.sat_bind]
  refine (linkUp_spec q).weaken ?_
  intro h₁ up _ q₁
  cases up with
  | false => exact trivial
  | true =>
    simp only [if_true, Act.sat_bind]
    refine sat_dbCall.mpr ⟨trivial, fun reply _ => ⟨fun stuck _ => ?_, fun _ _ => trivial⟩⟩
    have q₂ := q₁.concat (e := ⟨.stmt (.submitting l), reply⟩) ⟨rfl, rfl⟩
    refine (collect_spec
      (P := fun z => cx.ext.accountFromStr z.1.candidateAccountId = some z.2) (g := Prod.fst)
      fun r _ h' _ hr => parseRow_spec (hr.noSubmit q₂.noSubmit)).weaken ?_
    rintro h₃ parsed _ ⟨hr, hparsed, _⟩
    refine (Act.sat_fold (fun cs _ h _ => NoSubmit h ∧
      ∀ c ∈ cs, ∀ row ∈ c, cx.ext.accountFromStr row.1.candidateAccountId = some row.2) ?_
      ⟨hr.noSubmit q₂.noSubmit, fun c hc row hrow =>
        hparsed row (mem_of_mem_chunks _ _ hc hrow)⟩).weaken ?_
    · rintro c cs unread h' s ⟨n, hcs⟩
      exact (reconcileChunk_spec n (hcs c (List.mem_cons_self ..))).weaken
        (fun _ _ _ n => ⟨n, fun c hc => hcs c (List.mem_cons_of_mem _ hc)⟩)
    · intro h₄ unread _ _
      split <;> exact trivial

end Drain

/-! ### Traces -/

/-- Every settling write of a pass has its reason in what the pass did before it. -/
theorem pass_why {d : Drain l} {t t₁ t₂ : Hist} {l' : Lane} {g : Guard} {w : Write}
    {a : Reply Bool} {res : Option (Except WriterError Bool × Drain l)}
    (ht : Prog.Trace (Drain.pass cx d) t res)
    (hsplit : t = t₁ ++ ⟨.stmt (.settle l' g r w), a⟩ :: t₂) :
    ∃ now o, w = writeOf l' r now o ∧ Why cx l' t₁ r o :=
  Prog.Sat.history (Justified (Why cx)) ht (Drain.pass_spec (h := []) (by simp [Quiet])) hsplit

/-- Every settling write of a startup reconcile rests on the parse gate or on its last owner read. -/
theorem reconcile_reason {d : Drain l} {t t₁ t₂ : Hist} {l' : Lane} {g : Guard} {w : Write}
    {a : Reply Bool} {res : Option (Except WriterError Unit × Drain l)}
    (ht : Prog.Trace (Drain.reconcileSubmitting cx d) t res)
    (hsplit : t = t₁ ++ ⟨.stmt (.settle l' g r w), a⟩ :: t₂) :
    ∃ now o, w = writeOf l' r now o ∧ Reconciled cx l' t₁ r o :=
  Prog.Sat.history (Justified (Reconciled cx)) ht
    (Drain.reconcileSubmitting_spec (h := []) (by simp [Quiet])) hsplit

end DeviceUniqueness
