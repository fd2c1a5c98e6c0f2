import DeviceUniqueness.Writer.Justified

/-! What a run of passes and startup reconciles may conclude from what it saw.

    A run of the engine is a list of turns, each a pass or a startup reconcile with everything it
    asked and was answered. The results speak of one settling write inside one turn, and of the
    events of that turn before it: what a landed row rests on, when a row that was handed to the
    node may be given up, and when an attempt may be charged. -/

namespace DeviceUniqueness

open Schemes

variable {l : Lane} {h : Hist} {r : Reservation}

/-! ### Turns -/

/-- One pass or startup reconcile of a lane, as far as it got. -/
structure Turn where
  cx : Cx
  startup : Bool
  events : Hist

/-- The turn is one the drain can make; `none` is a turn that was cut off. -/
def Turn.Ran (turn : Turn) (d : Drain l) (d' : Option (Drain l)) : Prop :=
  if turn.startup then
    ∃ res, Prog.Trace (Drain.reconcileSubmitting turn.cx d) turn.events res ∧ res.map Prod.snd = d'
  else ∃ res, Prog.Trace (Drain.pass turn.cx d) turn.events res ∧ res.map Prod.snd = d'

/-- Turns of one lane, one after another. After one that was cut off a new process goes on, with a
    drain of its own. -/
inductive Turns : Drain l → List Turn → Prop
  | done (d : Drain l) : Turns d []
  | next {d d' : Drain l} {turn : Turn} {ts : List Turn} (ran : turn.Ran d (some d'))
      (rest : Turns d' ts) : Turns d (turn :: ts)
  | crash {d d' : Drain l} {turn : Turn} {ts : List Turn} (ran : turn.Ran d none)
      (rest : Turns d' ts) : Turns d (turn :: ts)

theorem Turns.ran {d : Drain l} {ts : List Turn} (run : Turns d ts) :
    ∀ turn ∈ ts, ∃ (d : Drain l) (d' : Option (Drain l)), turn.Ran d d' := by
  induction run with
  | done d => simp
  | @next d d' turn ts ran _ ih | @crash d d' turn ts ran _ ih =>
    intro turn' hmem
    rcases List.mem_cons.mp hmem with rfl | hmem
    · exact ⟨d, _, ran⟩
    · exact ih turn' hmem

/-- Every settling write of a run has its reason in the turn it was made in. -/
theorem Turns.why {d : Drain l} {ts : List Turn} (run : Turns d ts) {turn : Turn} (hmem : turn ∈ ts)
    {t₁ t₂ : Hist} {l' : Lane} {g : Guard} {w : Write} {a : Reply Bool}
    (hsplit : turn.events = t₁ ++ ⟨.stmt (.settle l' g r w), a⟩ :: t₂) :
    ∃ now o, w = writeOf l' r now o ∧ Why turn.cx l' t₁ r o := by
  obtain ⟨d, d', hran⟩ := run.ran turn hmem
  unfold Turn.Ran at hran
  split at hran
  · obtain ⟨res, ht, _⟩ := hran
    obtain ⟨now, o, hw, reason⟩ := reconcile_reason ht hsplit
    exact ⟨now, o, hw, reason.why⟩
  · obtain ⟨res, ht, _⟩ := hran
    exact pass_why ht hsplit

/-! ### Verdicts -/

variable {tx : Tx} {sent : Except String Unit} {ws after : Hist}

/-- A wait that came to a verdict saw the verdict. -/
theorem mem_of_verdictOf {fin : Finalized} : ∀ {ws : Hist}, Waits l tx ws →
    verdictOf ws = .ok fin →
    (⟨.awaitFinalized l tx, Watched.done (.ok fin)⟩ : Ev Outside) ∈ ws := by
  intro ws
  fun_induction verdictOf ws with
  | case1 l' tx' ws verdict =>
    intro hw hv
    subst hv
    rcases hw _ (List.mem_cons_self ..) with heq | ⟨g, ttl, heq⟩
    · cases heq
      exact List.mem_cons_self ..
    · cases heq
  | case3 l' tx' reply g ttl ws hseen ih =>
    intro hw hv
    exact List.mem_cons_of_mem _ (List.mem_cons_of_mem _ (ih
      (fun e he => hw e (List.mem_cons_of_mem _ (List.mem_cons_of_mem _ he))) hv))
  | _ => simp

theorem mem_of_submissionOf {fin : Finalized} (hw : Waits l tx ws)
    (hv : submissionOf sent ws = .ok fin) :
    (⟨.awaitFinalized l tx, Watched.done (.ok fin)⟩ : Ev Outside) ∈ ws := by
  unfold submissionOf at hv
  split at hv
  · exact mem_of_verdictOf hw hv
  · cases hv

theorem oneOf_ok (hone : oneOf sent ws = .ok ()) :
    ∃ fin, submissionOf sent ws = .ok fin ∧ checkProxiedCall fin.describe fin.events = .ok () := by
  unfold oneOf at hone
  split at hone
  · next fin hv => exact ⟨fin, hv, hone⟩
  · cases hone

theorem itemsOf_ok {items : List (Except String Unit)} (hitems : itemsOf sent ws = .ok items) :
    ∃ fin, submissionOf sent ws = .ok fin ∧ checkProxiedCall fin.describe fin.events = .ok () ∧
      itemResults fin = .ok items := by
  unfold itemsOf at hitems
  split at hitems
  · next fin hv =>
    split at hitems
    · next hc => exact ⟨fin, hv, hc, hitems⟩
    · cases hitems
  · cases hitems

theorem Sent.mem_of_mem_waits {e : Ev Outside} (s : Sent l h tx sent ws after) (he : e ∈ ws) :
    e ∈ h := by
  obtain ⟨⟨before, rfl, _⟩, _⟩ := s
  simp [he]

theorem Sent.mem_of_mem_after {e : Ev Outside} (s : Sent l h tx sent ws after) (he : e ∈ after) :
    e ∈ h := by
  obtain ⟨⟨before, rfl, _⟩, _⟩ := s
  simp [he]

/-! ### What a landed row rests on -/

/-- The row's own single call was finalized and dispatched well. -/
def CallFinalized (l : Lane) (h : Hist) (r : Reservation) : Prop :=
  ∃ tx fin, tx.rows = [r] ∧
    (⟨.awaitFinalized l tx, Watched.done (.ok fin)⟩ : Ev Outside) ∈ h ∧
    checkProxiedCall fin.describe fin.events = .ok ()

/-- The row was a call of a batch that reported as many items as it had calls, and the item in its
    place completed. -/
def ItemCompleted (l : Lane) (h : Hist) (r : Reservation) : Prop :=
  ∃ tx fin items, ∃ i : Nat,
    (⟨.awaitFinalized l tx, Watched.done (.ok fin)⟩ : Ev Outside) ∈ h ∧
    itemResults fin = .ok items ∧ items.length = tx.rows.length ∧
    tx.rows[i]? = some r ∧ items[i]? = some (.ok ())

/-- An owner read that succeeded returned exactly the row's candidate. -/
def Owned (ext : Ext) (l : Lane) (h : Hist) (r : Reservation) : Prop :=
  ∃ candidate, ext.accountFromStr r.candidateAccountId = some candidate ∧
    ((∃ names owners, r.fullUsername ∈ names ∧ owners.lookup r.fullUsername = some candidate ∧
        (⟨.owners l names, (Except.ok owners : Except String Owners)⟩ : Ev Outside) ∈ h) ∨
      (⟨.owner l r.fullUsername, (Except.ok (some candidate) : Except String (Option Account))⟩ :
        Ev Outside) ∈ h)

/-- The text of the row's own failed submission, or of its own failed item, says that it is already
    registered. -/
def SaysRegistered (l : Lane) (h : Hist) (r : Reservation) : Prop :=
  ∃ after reason, contains reason alreadyRegistered = true ∧
    (OwnFailure l h r after reason ∨ OwnItem l h r after (.error reason))

theorem OwnCall.finalized (c : OwnCall l h r after (.ok ())) : CallFinalized l h r := by
  obtain ⟨tx, sent, ws, s, hrows, hone⟩ := c
  obtain ⟨fin, hv, hc⟩ := oneOf_ok hone
  exact ⟨tx, fin, hrows, s.mem_of_mem_waits (mem_of_submissionOf s.waits hv), hc⟩

theorem ItemOf.completed {items : List (Except String Unit)}
    (item : ItemOf l h r after (.ok ()) tx sent ws items) : ItemCompleted l h r := by
  obtain ⟨fin, hv, _, hitems⟩ := itemsOf_ok item.reported
  obtain ⟨i, hi⟩ := List.mem_iff_getElem?.mp item.own
  rw [List.getElem?_zip_eq_some] at hi
  exact ⟨tx, fin, items, i, item.handed.mem_of_mem_waits (mem_of_submissionOf item.handed.waits hv),
    hitems, item.matched, hi.1, hi.2⟩

theorem OwnerRead.owned {ext : Ext} {candidate : Account} (o : OwnerRead l h r candidate)
    (parsed : ext.accountFromStr r.candidateAccountId = some candidate) : Owned ext l h r := by
  obtain ⟨named, found, read⟩ := o
  exact ⟨candidate, parsed, Or.inl ⟨_, _, named, found, read⟩⟩

theorem ReadBack.owned {ext : Ext} (b : ReadBack ext l h r) : Owned ext l h r := by
  obtain ⟨candidate, tx, sent, ws, names, owners, rs, parsed, s, named, found, _⟩ := b
  exact ⟨candidate, parsed, Or.inl ⟨names, owners, named, found, s.mem_of_mem_after (by simp)⟩⟩

/-- The owner a failed submission was judged by was read, and the failure has the text it was judged
    by. -/
theorem Observed.cases {reason : String} {observed : Option Account}
    (o : Observed l h r reason observed) :
    (∀ candidate ext, ext.accountFromStr r.candidateAccountId = some candidate →
      observed = some candidate → Owned ext l h r) ∧
    ∃ after, OwnFailure l h r after reason ∨ OwnItem l h r after (.error reason) := by
  cases o with
  | @one answer rs failure records =>
    refine ⟨fun candidate ext parsed hobs => ⟨candidate, parsed, Or.inr ?_⟩, _, Or.inl failure⟩
    match answer with
    | .ok (some owner) =>
      obtain rfl : owner = candidate := Option.some.inj hobs
      cases failure with
      | unsent split _ _ => rw [split]; simp
      | called call =>
        obtain ⟨tx, sent, ws, s, _⟩ := call
        exact s.mem_of_mem_after (by simp)
    | .ok none | .error e => cases hobs
  | @item names answer rs named failure records =>
    refine ⟨fun candidate ext parsed hobs => ⟨candidate, parsed, Or.inl ?_⟩, _, Or.inr failure⟩
    match answer with
    | .ok owners =>
      obtain ⟨tx, sent, ws, items, item⟩ := failure
      exact ⟨names, owners, named, hobs, item.handed.mem_of_mem_after (by simp)⟩
    | .error e => cases hobs

/-- A row is recorded as landed only for its own finalized call, its own completed item, an owner
    read that returned its candidate, or a failure of its own whose text says that it is already
    registered. -/
theorem landed_evidence {d : Drain l} {ts : List Turn} (run : Turns d ts) {turn : Turn}
    (hmem : turn ∈ ts) {t₁ t₂ : Hist} {l' : Lane} {g : Guard} {a : Reply Bool}
    (hsplit : turn.events = t₁ ++ ⟨.stmt (.settle l' g r .landed), a⟩ :: t₂) :
    CallFinalized l' t₁ r ∨ ItemCompleted l' t₁ r ∨ Owned turn.cx.ext l' t₁ r ∨
      SaysRegistered l' t₁ r := by
  obtain ⟨now, o, hw, why⟩ := run.why hmem hsplit
  cases why with
  | @gated ctx wall gate _ _ | @unparsed gate _ _ => cases gate <;> cases hw
  | elsewhere => cases hw
  | observed _ parsed read => exact Or.inr (Or.inr (Or.inl (read.owned parsed)))
  | requeued | deferred | nonceUnread => cases hw
  | called call => exact Or.inl call.finalized
  | completed item => exact Or.inr (Or.inl item.completed)
  | readBack read => exact Or.inr (Or.inr (Or.inl read.owned))
  | @judged candidate observed reason at_ parsed seen =>
    obtain ⟨howned, after, hfail⟩ := seen.cases
    have hassign : classifySubmitFailure reason observed candidate (l'.attempt r + 1)
        turn.cx.maxAttempts = .assign := by
      unfold settleOutcome at hw
      split at hw
      · next hc => exact hc
      all_goals cases hw
    rcases classify_assign hassign with hobs | htext
    · exact Or.inr (Or.inr (Or.inl (howned _ _ parsed hobs)))
    · exact Or.inr (Or.inr (Or.inr ⟨after, reason, htext, hfail⟩))

/-! ### A single submission of `alice` -/

def aliceCx : Cx where
  ext := devExt
  guard := ⟨"chain-writer", "writer-1", 1⟩
  signerAccount := bob
  proxyFor := some bob
  maxAttempts := 8
  finalizeTicks := 3
  leaseTtl := 30

def aliceTx : Tx := ⟨"0x01", 5, [aliceRow]⟩

/-- A module error of pallet 62, as the proxy reports it; `text` is the metadata's name for it. -/
def proxyFailed (text : String) : Finalized where
  events := [.ok ⟨"Proxy", "ProxyExecuted", [1, 3, 62, 3, 0, 0, 0]⟩]
  describe _ := text

/-- The row is claimed, free, marked and submitted; the proxied call fails with `text`, and the owner
    read that follows is answered with `owner`. -/
def aliceFails (text : String) (owner : Except String (Option Account)) : Hist :=
  [⟨.stmt (.claim .people 1), Reply.ok [aliceRow]⟩,
   ⟨.stmt (.renew aliceCx.guard 30), Reply.ok true⟩,
   ⟨.signatureForm .people, Except.ok AccountSignatureForm.plain⟩,
   ⟨.nowUtc, seconds 1760000200⟩,
   ⟨.owners .people ["wonderland.07"], Except.ok []⟩,
   ⟨.accountNonce .people bob [aliceRow], Except.ok 5⟩,
   ⟨.sign .people (Lane.people.tx [(aliceRow, alice)] (some bob)) 5 [aliceRow], Except.ok "0x01"⟩,
   ⟨.stmt (.mark .people aliceCx.guard aliceRow aliceTx 1), Reply.ok true⟩,
   ⟨.submitAndWatch .people aliceTx, Except.ok ()⟩,
   ⟨.awaitFinalized .people aliceTx, Watched.done (.ok (proxyFailed text))⟩,
   ⟨.owner .people "wonderland.07", owner⟩]

def aliceTurn (text : String) (owner : Except String (Option Account)) (w : Write) : Turn where
  cx := aliceCx
  startup := false
  events := aliceFails text owner ++ [⟨.stmt (.settle .people aliceCx.guard aliceRow w), Reply.ok true⟩]

set_option maxRecDepth 2000 in
theorem alice_lands_on_text : Turns (Drain.new .people 1 ())
    [aliceTurn "PeopleLite::AlreadyRegistered" (.error "connection reset") .landed] := by
  refine .crash ⟨none, ?_, rfl⟩ (.done (Drain.new .people 1 ()))
  show Prog.Trace _ (_ :: _ :: _ :: _ :: _ :: _ :: _ :: _ :: _ :: _ :: _ :: [_]) none
  repeat (first | exact .stop _ | apply Prog.Trace.call)

/-- The text of a failed submission alone lands a row: nothing was finalized well, no item was
    reported, and the one owner read that followed failed. -/
theorem landed_on_text_alone : ∃ (turn : Turn) (t₁ t₂ : Hist) (g : Guard) (a : Reply Bool),
    Turns (Drain.new .people 1 ()) [turn] ∧
    turn.events = t₁ ++ ⟨.stmt (.settle .people g aliceRow .landed), a⟩ :: t₂ ∧
    ¬(CallFinalized .people t₁ aliceRow ∨ ItemCompleted .people t₁ aliceRow ∨
      Owned turn.cx.ext .people t₁ aliceRow) := by
  refine ⟨_, aliceFails "PeopleLite::AlreadyRegistered" (.error "connection reset"), [], _, _,
    alice_lands_on_text, rfl, ?_⟩
  rintro (⟨tx, fin, _, hmem, hc⟩ | ⟨tx, fin, items, i, hmem, hitems, hlen, _⟩ |
    ⟨candidate, _, ⟨names, owners, named, found, hmem⟩ | hmem⟩)
  · simp [aliceFails] at hmem
    obtain ⟨rfl, rfl⟩ := hmem
    cases hc
  · simp [aliceFails] at hmem
    obtain ⟨rfl, rfl⟩ := hmem
    cases hitems
    cases hlen
  · simp [aliceFails] at hmem
    obtain ⟨rfl, rfl⟩ := hmem
    cases found
  · simp [aliceFails] at hmem

theorem landed_evidence_on_text : CallFinalized .people
      (aliceFails "PeopleLite::AlreadyRegistered" (.error "connection reset")) aliceRow ∨
    ItemCompleted .people
      (aliceFails "PeopleLite::AlreadyRegistered" (.error "connection reset")) aliceRow ∨
    Owned devExt .people
      (aliceFails "PeopleLite::AlreadyRegistered" (.error "connection reset")) aliceRow ∨
    SaysRegistered .people
      (aliceFails "PeopleLite::AlreadyRegistered" (.error "connection reset")) aliceRow :=
  landed_evidence alice_lands_on_text (List.mem_singleton.mpr rfl) rfl

end DeviceUniqueness
