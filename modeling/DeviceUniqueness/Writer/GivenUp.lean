import DeviceUniqueness.Writer.Turns

/-! When a row that was handed to the node may be given up.

    What was handed over may have landed whatever came back, so only the chain can say that it has
    not. The owner read after a failed submission is best effort: a read that failed counts as no
    owner. For most failures that is harmless, the row is retried. A failure that is final by its
    text, or by the attempts the row has spent, is recorded as such without the chain's word, and
    one whose text says that the row is registered lands it. `Spared` is what a failure must be for
    an unread owner to make no difference (`given_up_after_read`). -/

namespace DeviceUniqueness

open Schemes

variable {l : Lane} {h : Hist} {r : Reservation}

/-- The row's call was handed to the node, alone or in a batch. -/
def HandedOver (l : Lane) (h : Hist) (r : Reservation) : Prop :=
  ∃ tx sent, r ∈ tx.rows ∧ (⟨.submitAndWatch l tx, sent⟩ : Ev Outside) ∈ h

/-- The event is an owner read that covers the row's username, with this answer about it. -/
inductive ReadOf (l : Lane) (r : Reservation) :
    Ev Outside → Except String (Option Account) → Prop
  | one (answer : Except String (Option Account)) : ReadOf l r ⟨.owner l r.fullUsername, answer⟩ answer
  | all {names : List String} (named : r.fullUsername ∈ names) (answer : Except String Owners) :
      ReadOf l r ⟨.owners l names, answer⟩ (answer.map fun owners => owners.lookup r.fullUsername)

/-- After the row was handed over, an owner read about it came to `answer`. -/
def ReadAfter (l : Lane) (h : Hist) (r : Reservation) (answer : Except String (Option Account)) :
    Prop :=
  ∃ h₁ e h₂, h = h₁ ++ e :: h₂ ∧ HandedOver l h₁ r ∧ ReadOf l r e answer

/-- The row is recorded `FAILED_TERMINAL`; on the People lane an expiry is recorded so too. -/
def GivesUp (l : Lane) : Write → Prop
  | .failed _ => True
  | .expired _ => l = .people
  | _ => False

/-- A failure that leaves the row to be retried as long as no owner is seen. -/
def spared (reason : String) (completedAttempts maxAttempts : Int) : Bool :=
  !contains reason alreadyRegistered &&
    (contains reason unfundedSigner || isSignerContention reason ||
      (!isDeterministicRejection reason && completedAttempts < maxAttempts))

/-- The row's submission or item failed with `reason`, and so did the owner read that followed. -/
inductive Unread (l : Lane) (h : Hist) (r : Reservation) (reason : String) : Prop
  | one {e : String} {rs : Hist} (failure : OwnCall l h r
      (⟨.owner l r.fullUsername, (Except.error e : Except String (Option Account))⟩ :: rs)
      (.error reason))
  | item {names : List String} {e : String} {rs : Hist} (failure : OwnItem l h r
      (⟨.owners l names, (Except.error e : Except String Owners)⟩ :: rs) (.error reason))

/-- Whenever the owner read after a failed submission fails, the failure is one that is retried. -/
def Spared (cx : Cx) (l : Lane) (t : Hist) : Prop :=
  ∀ h r reason, h <+: t → Unread l h r reason →
    spared reason (l.attempt r + 1) cx.maxAttempts = true

/-- An owner read that failed. -/
def unread : Ev Outside → Bool
  | ⟨.owner .., (a : Except String (Option Account))⟩ => !a.isOk
  | ⟨.owners .., (a : Except String Owners)⟩ => !a.isOk
  | _ => false

variable {reason : String} {tx : Tx} {ws after : Hist} {e : Ev Outside}
  {answer : Except String (Option Account)} {sent : Except String Unit}

theorem Unread.failed (u : Unread l h r reason) : ∃ e ∈ h, unread e = true := by
  cases u with
  | one failure =>
    obtain ⟨tx, sent, ws, s, _⟩ := failure
    exact ⟨_, s.mem_of_mem_after (List.mem_cons_self ..), rfl⟩
  | item failure =>
    obtain ⟨tx, sent, ws, items, item⟩ := failure
    exact ⟨_, item.handed.mem_of_mem_after (List.mem_cons_self ..), rfl⟩

theorem classify_spared (candidate : Account) {completed most : Int}
    (hs : spared reason completed most = true) :
    classifySubmitFailure reason none candidate completed most ∈
      [SubmitFailureAction.park, .defer, .retry] := by
  simp only [spared, Bool.and_eq_true, Bool.or_eq_true, Bool.not_eq_true',
    decide_eq_true_eq] at hs
  obtain ⟨hreg, hs⟩ := hs
  simp only [classifySubmitFailure, hreg, reduceCtorEq, decide_false, Bool.or_self,
    Bool.false_eq_true, if_false]
  split_ifs with h₂ h₃ h₄
  · simp
  · simp
  · rcases hs with (hs | hs) | ⟨hdet, hlt⟩
    · exact absurd hs h₂
    · exact absurd hs h₃
    · simp only [hdet, Bool.false_or, decide_eq_true_eq] at h₄
      omega
  · simp

theorem writeOf_spared (cx : Cx) (candidate : Account) (now at_ : Time)
    (hs : spared reason (l.attempt r + 1) cx.maxAttempts = true) : ∃ until_ attempt err,
      writeOf l r now (settleOutcome cx l r candidate none reason at_) =
        .retry until_ attempt err := by
  have hc := classify_spared candidate hs
  simp only [List.mem_cons, List.not_mem_nil, or_false] at hc
  unfold settleOutcome
  rcases hc with hc | hc | hc <;> rw [hc] <;> exact ⟨_, _, _, rfl⟩

/-! ### Order of events -/

theorem Waits.noRead (hw : Waits l tx ws) (he : e ∈ ws) : ¬ReadOf l r e answer := by
  intro hread
  cases hread with
  | one | all => rcases hw _ he with heq | ⟨g, ttl, heq⟩ <;> cases heq

theorem Records.noRead {rs : Hist} (hr : Records rs) (he : e ∈ rs) : ¬ReadOf l r e answer := by
  intro hread
  cases hread with
  | one | all => rcases hr _ he with heq | ⟨l, g, r, w, heq⟩ <;> cases heq

theorem NoSubmit.not_handedOver (n : NoSubmit h) : ¬HandedOver l h r := by
  rintro ⟨tx, sent, _, hmem⟩
  exact absurd (n _ hmem) (by simp [isSubmit])

/-- What follows a submission follows the submission: the read is not among what preceded it. -/
theorem Sent.read_after (s : Sent l h tx sent ws after) (ra : ReadAfter l h r answer) :
    ∃ e ∈ after, ReadOf l r e answer := by
  obtain ⟨⟨before, hbefore, quiet⟩, waits⟩ := s
  obtain ⟨h₁, e, h₂, rfl, handed, hread⟩ := ra
  rcases List.append_eq_append_iff.mp hbefore with ⟨xs, hxs, _⟩ | ⟨xs, hxs, hrest⟩
  · -- the row would have been handed over before anything was
    have hquiet : NoSubmit h₁ := fun e he => (quiet e (hxs ▸ List.mem_append_left _ he)).1
    exact absurd handed hquiet.not_handedOver
  · cases xs with
    | nil =>
      rw [List.append_nil] at hxs
      exact absurd handed (hxs ▸ quiet.noSubmit.not_handedOver)
    | cons x xs =>
      rw [List.cons_append, List.cons.injEq] at hrest
      have hmem : e ∈ ws ++ after := by rw [hrest.2]; simp
      rcases List.mem_append.mp hmem with hmem | hmem
      · exact absurd hread (waits.noRead hmem)
      · exact ⟨e, hmem, hread⟩

/-- The read a submission was followed by is a read after it. -/
theorem Sent.readAfter {rs : Hist} (s : Sent l h tx sent ws (e :: rs)) (hrow : r ∈ tx.rows)
    (hread : ReadOf l r e answer) : ReadAfter l h r answer := by
  obtain ⟨⟨before, rfl, _⟩, _⟩ := s
  exact ⟨before ++ ⟨.submitAndWatch l tx, sent⟩ :: ws, e, rs, by simp,
    ⟨tx, sent, hrow, by simp⟩, hread⟩

theorem Sent.handedOver (s : Sent l h tx sent ws after) (hrow : r ∈ tx.rows) :
    HandedOver l h r := by
  obtain ⟨⟨before, rfl, _⟩, _⟩ := s
  exact ⟨tx, sent, hrow, by simp⟩

/-- A read of one name or of many is of the answer it carries. -/
theorem ReadOf.unique {answer' : Except String (Option Account)} (hread : ReadOf l r e answer)
    (hread' : ReadOf l r e answer') : answer = answer' := by
  cases hread <;> cases hread' <;> rfl

theorem ReadOf.named (hread : ReadOf l r e answer) {names : List String}
    {owners : Except String Owners} (he : e = ⟨.owners l names, owners⟩) :
    r.fullUsername ∈ names := by
  cases hread with
  | one => cases he
  | all named => cases he; exact named

/-! ### The two halves -/

theorem Observed.handedOver {observed : Option Account} (o : Observed l h r reason observed)
    (handed : HandedOver l h r) :
    ∃ answer : Except String (Option Account), observed = answer.toOption.join ∧
      ReadAfter l h r answer ∧ (∀ answer', ReadAfter l h r answer' → answer' = answer) ∧
      (∀ e, answer = .error e → Unread l h r reason) := by
  cases o with
  | @one answer rs failure records =>
    cases failure with
    | unsent split quiet _ =>
      -- nothing was handed over
      refine absurd handed (NoSubmit.not_handedOver ?_)
      rw [split]
      refine quiet.noSubmit.append fun e he => ?_
      rcases List.mem_cons.mp he with rfl | he
      · rfl
      · exact records.noSubmit e he
    | called call =>
      obtain ⟨tx, sent, ws, s, hrows, hone⟩ := call
      refine ⟨answer, rfl, s.readAfter (by simp [hrows]) (.one answer), fun answer' ra => ?_, ?_⟩
      · obtain ⟨e, he, hread⟩ := s.read_after ra
        rcases List.mem_cons.mp he with rfl | he
        · exact hread.unique (.one answer)
        · exact absurd hread (records.noRead he)
      · rintro e rfl
        exact .one ⟨tx, sent, ws, s, hrows, hone⟩
  | @item names answer rs named failure records =>
    obtain ⟨tx, sent, ws, items, own⟩ := failure
    refine ⟨answer.map fun owners => owners.lookup r.fullUsername, ?_,
      own.handed.readAfter (List.of_mem_zip own.own).1 (.all named answer), fun answer' ra => ?_, ?_⟩
    · cases answer <;> rfl
    · obtain ⟨e, he, hread⟩ := own.handed.read_after ra
      rcases List.mem_cons.mp he with rfl | he
      · exact hread.unique (.all named answer)
      · exact absurd hread (records.noRead he)
    · intro e he
      cases answer with
      | ok owners => cases he
      | error e' => exact .item ⟨tx, sent, ws, items, own⟩

/-- A completed item has a name of its own, so the read about the failed ones is not about it. -/
theorem ItemOf.not_named {items : List (Except String Unit)}
    (item : ItemOf l h r after (.ok ()) tx sent ws items) (hdist : ClaimsDistinct h)
    {r' : Reservation} {e : String} (failed : (r', Except.error e) ∈ tx.rows.zip items) :
    r'.fullUsername ≠ r.fullUsername := by
  intro hname
  obtain ⟨i, hi⟩ := List.mem_iff_getElem?.mp item.own
  obtain ⟨j, hj⟩ := List.mem_iff_getElem?.mp failed
  rw [List.getElem?_zip_eq_some] at hi hj
  have hij : i = j := by
    obtain ⟨hilt, _⟩ := List.getElem?_eq_some_iff.mp hi.1
    refine (List.getElem?_inj (by simpa using hilt) (item.distinct hdist)).mp ?_
    simp [hi.1, hj.1, hname]
  subst hij
  rw [hi.2] at hj
  cases hj.2

/-- A row that was handed over is given up only on a later owner read that succeeded and did not
    return its candidate, and a later owner read that failed leaves it to be retried; in every run
    in which the failures with an unread owner are ones that are retried. -/
theorem given_up_after_read {d : Drain l} {ts : List Turn} (run : Turns d ts)
    (hdist : ∀ turn ∈ ts, ClaimsDistinct turn.events)
    (hspared : ∀ turn ∈ ts, ∀ l', Spared turn.cx l' turn.events) :
    ∀ turn ∈ ts, ∀ t₁ t₂ l' g r w a,
      turn.events = t₁ ++ ⟨.stmt (.settle l' g r w), a⟩ :: t₂ → HandedOver l' t₁ r →
      (GivesUp l' w → ∃ owner, ReadAfter l' t₁ r (.ok owner) ∧
        turn.cx.ext.accountFromStr r.candidateAccountId ≠ owner) ∧
      (∀ e, ReadAfter l' t₁ r (.error e) → ∃ until_ attempt err, w = .retry until_ attempt err) := by
  intro turn hmem t₁ t₂ l' g r w a hsplit handed
  have hpre : t₁ <+: turn.events := hsplit ▸ List.prefix_append ..
  obtain ⟨now, o, rfl, why⟩ := run.why hmem hsplit
  cases why with
  | gated unsent | unparsed unsent | elsewhere unsent => exact absurd handed unsent.not_handedOver
  | observed unsent | requeued unsent => exact absurd handed unsent.not_handedOver
  | deferred | nonceUnread => exact ⟨fun h => h.elim, fun e _ => ⟨_, _, _, rfl⟩⟩
  | called call records =>
    refine ⟨fun h => h.elim, fun e ra => ?_⟩
    obtain ⟨tx, sent, ws, s, _⟩ := call
    obtain ⟨ev, he, hread⟩ := s.read_after ra
    exact absurd hread (records.noRead he)
  | completed item others records =>
    refine ⟨fun h => h.elim, fun e ra => ?_⟩
    obtain ⟨ev, he, hread⟩ := item.handed.read_after ra
    rcases List.mem_append.mp he with he | he
    · rcases others with rfl | ⟨names, answer, rfl, hnames⟩
      · cases he
      · obtain ⟨r', e', hfailed, hname⟩ := hnames _ (hread.named (List.mem_singleton.mp he))
        exact absurd hname (item.not_named ((hdist turn hmem).mono hpre) hfailed)
    · exact absurd hread (records.noRead he)
  | readBack read =>
    refine ⟨fun h => h.elim, fun e ra => ?_⟩
    obtain ⟨candidate, tx, sent, ws, names, owners, rs, _, s, named, found, records⟩ := read
    obtain ⟨ev, he, hread⟩ := s.read_after ra
    rcases List.mem_cons.mp he with rfl | he
    · cases hread.unique (.all named (.ok owners))
    · exact absurd hread (records.noRead he)
  | @judged candidate observed reason at_ parsed seen =>
    obtain ⟨answer, rfl, hread, honly, hunread⟩ := seen.handedOver handed
    cases answer with
    | ok owner =>
      refine ⟨fun hgive => ⟨owner, hread, ?_⟩, fun e ra => by cases honly _ ra⟩
      rintro hown
      -- the candidate as the owner would have landed the row
      have hassign : classifySubmitFailure reason owner candidate (l'.attempt r + 1)
          turn.cx.maxAttempts = .assign := by
        simp [classifySubmitFailure, ← hown, parsed]
      rw [settleOutcome, show (Except.ok owner).toOption.join = owner from rfl, hassign] at hgive
      exact hgive
    | error e =>
      have hs := hspared turn hmem l' t₁ r reason hpre (hunread e rfl)
      obtain ⟨until_, attempt, err, hw⟩ :=
        writeOf_spared turn.cx candidate now at_ hs
      refine ⟨fun hgive => ?_, fun _ _ => ⟨until_, attempt, err, hw⟩⟩
      rw [show (Except.error e : Except String (Option Account)).toOption.join = none from rfl, hw]
        at hgive
      exact hgive.elim

/-! ### A queue that filled in between -/

/-- What is written when the reservation queue was full. -/
def queueFull : Write :=
  .failed "rejected deterministically, not retried: proxied call failed: Resources::QueueFull"

def queueFullTurn (owner : Except String (Option Account)) : Turn :=
  aliceTurn "Resources::QueueFull" owner queueFull

set_option maxRecDepth 2000 in
theorem queueFullTurn_unread :
    Turns (Drain.new .people 1 ()) [queueFullTurn (.error "connection reset")] := by
  refine .crash ⟨none, ?_, rfl⟩ (.done (Drain.new .people 1 ()))
  show Prog.Trace _ (_ :: _ :: _ :: _ :: _ :: _ :: _ :: _ :: _ :: _ :: _ :: [_]) none
  repeat (first | exact .stop _ | apply Prog.Trace.call)

set_option maxRecDepth 2000 in
theorem queueFullTurn_free : Turns (Drain.new .people 1 ()) [queueFullTurn (.ok none)] := by
  refine .crash ⟨none, ?_, rfl⟩ (.done (Drain.new .people 1 ()))
  show Prog.Trace _ (_ :: _ :: _ :: _ :: _ :: _ :: _ :: _ :: _ :: _ :: _ :: [_]) none
  repeat (first | exact .stop _ | apply Prog.Trace.call)

theorem aliceFails_sent (text : String) (owner : Except String (Option Account)) :
    Sent .people (aliceFails text owner) aliceTx (.ok ())
      [⟨.awaitFinalized .people aliceTx, Watched.done (.ok (proxyFailed text))⟩]
      [⟨.owner .people "wonderland.07", owner⟩] where
  split := ⟨(aliceFails text owner).take 8, rfl, by
    simp [aliceFails, Quiet, isSubmit, failedRead, Except.isOk, Except.toBool]⟩
  waits := by simp [Waits]

theorem queueFullTurn_distinct (owner : Except String (Option Account)) :
    ClaimsDistinct (queueFullTurn owner).events := by
  intro l n rows hmem
  simp [queueFullTurn, aliceTurn, aliceFails] at hmem
  simp [hmem]

/-- A full reservation queue is final by its text: the row is given up although the owner read that
    followed its submission failed. -/
theorem given_up_unread : ∃ (turn : Turn) (t₁ t₂ : Hist) (g : Guard) (w : Write) (a : Reply Bool),
    Turns (Drain.new .people 1 ()) [turn] ∧ ClaimsDistinct turn.events ∧
    turn.events = t₁ ++ ⟨.stmt (.settle .people g aliceRow w), a⟩ :: t₂ ∧
    HandedOver .people t₁ aliceRow ∧ GivesUp .people w ∧
    (∃ e, ReadAfter .people t₁ aliceRow (.error e)) ∧
    ¬∃ owner, ReadAfter .people t₁ aliceRow (.ok owner) := by
  have hsent := aliceFails_sent "Resources::QueueFull" (.error "connection reset")
  refine ⟨_, aliceFails "Resources::QueueFull" (.error "connection reset"), [], _, queueFull, _,
    queueFullTurn_unread, queueFullTurn_distinct _, rfl, hsent.handedOver (by simp [aliceTx]),
    trivial, ⟨_, hsent.readAfter (by simp [aliceTx]) (.one _)⟩, ?_⟩
  rintro ⟨owner, ra⟩
  obtain ⟨e, he, hread⟩ := hsent.read_after ra
  rw [List.mem_singleton.mp he] at hread
  cases hread.unique (.one _)

theorem given_up_after_read_free : GivesUp .people queueFull ∧
    ∃ owner, ReadAfter .people (aliceFails "Resources::QueueFull" (.ok none)) aliceRow (.ok owner) ∧
      devExt.accountFromStr aliceSs58 ≠ owner := by
  refine ⟨trivial, (given_up_after_read queueFullTurn_free ?_ ?_ _ (List.mem_singleton.mpr rfl)
    (aliceFails "Resources::QueueFull" (.ok none)) [] .people _ aliceRow queueFull _ rfl
    ((aliceFails_sent _ _).handedOver (by simp [aliceTx]))).1 trivial⟩
  · intro turn hmem
    exact List.mem_singleton.mp hmem ▸ queueFullTurn_distinct _
  · -- no owner read of this run failed
    intro turn hmem l h r reason hpre hunread
    obtain ⟨ev, hev, hfailed⟩ := hunread.failed
    have hall : ∀ e ∈ turn.events, unread e = false := by
      rw [List.mem_singleton.mp hmem]
      simp [queueFullTurn, aliceTurn, aliceFails, unread, Except.isOk, Except.toBool]
    rw [hall ev (hpre.subset hev)] at hfailed
    cases hfailed

end DeviceUniqueness
