import DeviceUniqueness.Tickets.Script

/-! One tick of the maintainer, against everything that can befall it.

    `TickFate` has the answers a tick gets: the count, the seeds it draws, what becomes of the
    submission, the events of the batch, of which some may not decode, and the replies to the inserts.
    The tick is evaluated against them step by step, down to the keys it takes for accepted. These
    are matched to the events by position (`completed`), after the events that do not decode were
    dropped. -/

namespace DeviceUniqueness.Tickets

open Schemes

/-! ### The events of a batch -/

/-- An event of the block, and what the decoder says if it cannot read it. -/
structure EventRecord where
  event : Event
  unreadable : Option String

def EventRecord.read (record : EventRecord) : Except String Event :=
  match record.unreadable with
  | none => .ok record.event
  | some err => .error err

/-- One entry for each call: whether it completed, and whether its event can be read. -/
def callItems (records : List EventRecord) : List (Bool × Bool) :=
  records.filterMap fun record =>
    (batchItem record.event).map fun item => (item.isOk, record.unreadable.isNone)

/-- Which calls completed. -/
def verdicts (records : List EventRecord) : List Bool := (callItems records).map Prod.fst

/-- Of which calls the event can be read. -/
def readable (records : List EventRecord) : List Bool := (callItems records).map Prod.snd

theorem finalizedItems_read (records : List EventRecord) :
    finalizedItems (records.map EventRecord.read) =
      ((callItems records).filter Prod.snd).map Prod.fst := by
  induction records with
  | nil => rfl
  | cons record records ih =>
    rw [finalizedItems, batchItemResults] at ih ⊢
    obtain ⟨event, unreadable⟩ := record
    cases unreadable with
    | none =>
      have hread : (EventRecord.read ⟨event, none⟩).toOption = some event := rfl
      rw [List.map_cons, List.filterMap_cons_some hread]
      cases hitem : batchItem event with
      | none => simpa [callItems, hitem] using ih
      | some item => simpa [callItems, hitem] using ih
    | some err =>
      rw [List.map_cons, List.filterMap_cons_none rfl, ih]
      cases hitem : batchItem event with
      | none | some item => simp [callItems, hitem]

/-! ### Keys by position -/

section Completed

variable {α β : Type}

/-- The keys at the positions that completed. -/
def completed (keys : List α) (done : List Bool) : List α :=
  ((keys.zip done).filter Prod.snd).map Prod.fst

@[simp] theorem completed_nil (keys : List α) : completed keys [] = [] := by
  rw [completed, List.zip_nil_right]
  rfl

@[simp] theorem completed_true (key : α) (keys : List α) (done : List Bool) :
    completed (key :: keys) (true :: done) = key :: completed keys done := rfl

@[simp] theorem completed_false (key : α) (keys : List α) (done : List Bool) :
    completed (key :: keys) (false :: done) = completed keys done := rfl

theorem completed_map (f : α → β) (keys : List α) (done : List Bool) :
    completed (keys.map f) done = (completed keys done).map f := by
  rw [completed, completed, List.zip_map_left, List.filter_map, List.map_map, List.map_map]
  rfl

variable {done : List Bool} {keys : List α}

theorem completed_mono (keys : List α) {done' : List Bool} (h : done' <+: done) :
    completed keys done' <+: completed keys done := by
  obtain ⟨rest, rfl⟩ := h
  induction done' generalizing keys with
  | nil =>
    rw [completed_nil]
    exact List.nil_prefix
  | cons b done' ih =>
    cases keys with
    | nil => exact List.prefix_refl _
    | cons key keys =>
      cases b with
      | true =>
        rw [List.cons_append, completed_true, completed_true, List.cons_prefix_cons]
        exact ⟨rfl, ih keys⟩
      | false =>
        rw [List.cons_append, completed_false, completed_false]
        exact ih keys

theorem completed_length (h : done.length ≤ keys.length) :
    (completed keys done).length = done.count true := by
  rw [completed, List.length_map, ← List.countP_eq_length_filter, List.count]
  have hsnd : done = (keys.zip done).map Prod.snd := (List.map_snd_zip h).symm
  conv_rhs => rw [hsnd]
  rw [List.countP_map]
  refine List.countP_congr fun x _ => ?_
  simp

theorem completed_sublist (keys : List α) (done : List Bool) : (completed keys done).Sublist keys := by
  induction keys generalizing done with
  | nil => exact List.Sublist.refl _
  | cons key keys ih =>
    match done with
    | [] => exact completed_nil (key :: keys) ▸ List.nil_sublist _
    | true :: done => exact (ih done).cons_cons key
    | false :: done => exact (ih done).cons key

theorem mem_completed {key : α} (h : key ∈ completed keys done) :
    ∃ i : Nat, keys[i]? = some key ∧ done[i]? = some true := by
  obtain ⟨⟨_, _⟩, hmem, rfl⟩ := List.mem_map.mp h
  obtain ⟨hzip, rfl⟩ := List.mem_filter.mp hmem
  obtain ⟨i, hi⟩ := List.getElem?_of_mem hzip
  exact ⟨i, List.getElem?_zip_eq_some.mp hi⟩

theorem completed_eq_nil (h : done.length ≤ keys.length) :
    completed keys done = [] ↔ true ∉ done := by
  rw [← List.length_eq_zero_iff, completed_length h, List.count_eq_zero]

/-- Keys that are all different cannot be the completed ones of two readings that are shifted
    against each other, unless there are none. -/
theorem completed_shifted {key : α} (hkeys : (key :: keys).Nodup) {done' : List Bool}
    (hsub : done'.Sublist done) (hlength : done.length ≤ keys.length)
    (h : completed (key :: keys) done' = completed keys done) : true ∉ done := by
  induction done generalizing key keys done' with
  | nil => exact List.not_mem_nil
  | cons b done ih =>
    cases keys with
    | nil => cases hlength
    | cons next keys =>
      have hlength' : done.length ≤ keys.length := Nat.le_of_succ_le_succ hlength
      cases done' with
      | nil =>
        rw [completed_nil] at h
        exact (completed_eq_nil hlength).mp h.symm
      | cons b' done' =>
        cases b' with
        | true =>
          -- the key before them all is not among the others
          have hmem : key ∈ completed (next :: keys) (b :: done) := by
            rw [← h, completed_true]
            exact List.mem_cons_self ..
          exact absurd ((completed_sublist _ _).mem hmem) (List.nodup_cons.mp hkeys).1
        | false =>
          rw [completed_false] at h
          cases b with
          | true =>
            -- fewer are left on the left
            have hrest : done'.Sublist done :=
              (List.sublist_cons_self false done').trans
                ((List.sublist_cons_iff.mp hsub).resolve_right (by simp))
            have hlengths := congrArg List.length h
            rw [completed_true, List.length_cons, completed_length hlength',
              completed_length (hrest.length_le.trans (hlength'.trans (Nat.le_succ _)))] at hlengths
            have hcount := hrest.count_le true
            omega
          | false =>
            have hnone := ih (List.nodup_cons.mp hkeys).2 (List.cons_sublist_cons.mp hsub) hlength' h
            simpa using hnone

/-- The positions stay as they are when only what follows the last success is dropped. -/
theorem completed_filter_iff (hkeys : keys.Nodup) {items : List (Bool × Bool)}
    (hlength : items.length ≤ keys.length) :
    completed keys ((items.filter Prod.snd).map Prod.fst) = completed keys (items.map Prod.fst) ↔
      ∀ i j : Nat, i ≤ j → (items.map Prod.fst)[j]? = some true → (items.map Prod.snd)[i]? = some true := by
  induction items generalizing keys with
  | nil => simp
  | cons item items ih =>
    obtain ⟨done, read⟩ := item
    cases keys with
    | nil => cases hlength
    | cons key keys =>
      have hlength' : items.length ≤ keys.length := Nat.le_of_succ_le_succ hlength
      cases read with
      | true =>
        have hih := ih (List.nodup_cons.mp hkeys).2 hlength'
        have hstep : completed (key :: keys) (done :: (items.filter Prod.snd).map Prod.fst) =
              completed (key :: keys) (done :: items.map Prod.fst) ↔
            completed keys ((items.filter Prod.snd).map Prod.fst) =
              completed keys (items.map Prod.fst) := by
          cases done <;> simp
        rw [List.filter_cons_of_pos rfl, List.map_cons, List.map_cons, List.map_cons, hstep, hih]
        constructor
        · intro h i j hij hj
          cases i with
          | zero => rfl
          | succ i =>
            cases j with
            | zero => cases hij
            | succ j => exact h i j (Nat.le_of_succ_le_succ hij) hj
        · exact fun h i j hij hj => h (i + 1) (j + 1) (Nat.succ_le_succ hij) hj
      | false =>
        rw [List.filter_cons_of_neg (by simp), List.map_cons, List.map_cons]
        have hsub : ((items.filter Prod.snd).map Prod.fst).Sublist (items.map Prod.fst) :=
          List.filter_sublist.map _
        have hle : (items.map Prod.fst).length ≤ keys.length := by rwa [List.length_map]
        constructor
        · -- nothing completed, or the two readings are shifted against each other
          intro h i j hij hj
          have hnone : true ∉ done :: items.map Prod.fst := by
            cases done with
            | true =>
              have hlengths := congrArg List.length h
              rw [completed_true, List.length_cons, completed_length hle,
                completed_length (hsub.length_le.trans (hle.trans (Nat.le_succ _)))] at hlengths
              have hcount := hsub.count_le true
              omega
            | false => simpa using completed_shifted hkeys hsub hle h
          exact absurd (List.mem_of_getElem? hj) hnone
        · intro h
          have hnone : true ∉ done :: items.map Prod.fst := by
            intro hmem
            obtain ⟨j, hj⟩ := List.getElem?_of_mem hmem
            cases h 0 j (Nat.zero_le j) hj
          have hnone' : true ∉ (items.filter Prod.snd).map Prod.fst :=
            fun hmem => hnone (List.mem_cons_of_mem _ (hsub.mem hmem))
          rw [(completed_eq_nil (by simpa using hle)).mpr hnone, (completed_eq_nil ?_).mpr hnone']
          exact hsub.length_le.trans (hle.trans (Nat.le_succ _))

/-- When nothing is read after something that is not, what is read is where it was. -/
theorem filter_snd_leading {items : List (Bool × Bool)}
    (h : (items.map Prod.snd).Pairwise fun a b => b = true → a = true) :
    (items.filter Prod.snd).map Prod.fst <+: items.map Prod.fst := by
  induction items with
  | nil => exact List.prefix_refl _
  | cons item items ih =>
    obtain ⟨done, read⟩ := item
    rw [List.map_cons, List.pairwise_cons] at h
    cases read with
    | true =>
      rw [List.filter_cons_of_pos rfl, List.map_cons, List.map_cons, List.cons_prefix_cons]
      exact ⟨rfl, ih h.2⟩
    | false =>
      have hnone : ((done, false) :: items).filter Prod.snd = [] := by
        rw [List.filter_cons_of_neg (by simp), List.filter_eq_nil_iff]
        intro x hx hread
        cases h.1 x.2 (List.mem_map_of_mem hx) hread
      rw [hnone]
      exact List.nil_prefix

end Completed

/-! ### What befalls a tick -/

/-- The answers a tick gets. `block` has the events of the batch, if it ever comes into a finalized
    block; `status k` is the status reported after `k` others, and `insert k` the reply to the insert
    after `k` others. -/
structure TickFate where
  available : Except String Nat
  invites : Except String Nat
  seed : Nat → FixedBytes 32
  client : Awaited Unit
  signed : Awaited Unit
  submitted : Awaited Unit
  status : Nat → Awaited (Option TxStatus)
  fetched : Awaited Unit
  block : Option (List EventRecord)
  insert : Nat → Reply Unit
  now : Time

/-- What a tick has done. -/
structure TickLog where
  drawn : Nat
  statuses : Nat
  handed : Option TicketBatch
  asked : List NewTicket
  table : TicketTable

/-- The keys that were handed over, in the order of the calls. -/
def TickLog.calls (log : TickLog) : List Account := log.handed.elim [] TicketBatch.tickets

variable {log : TickLog}

namespace TickFate

variable (fate : TickFate)

/-- The events of the batch, if there are any. -/
def events : List EventRecord := fate.block.getD []

def answer : (o : TicketAsk) → TickLog → o.Ans × TickLog
  | .count .., log => (fate.available, log)
  | .availableInvites .., log => (fate.invites, log)
  | .seed, log => (fate.seed log.drawn, { log with drawn := log.drawn + 1 })
  | .txClient, log => (fate.client, log)
  | .createSigned _, log => (fate.signed, log)
  | .submitAndWatch batch, log => (fate.submitted, { log with handed := some batch })
  | .nextStatus, log => (fate.status log.statuses, { log with statuses := log.statuses + 1 })
  | .waitForSuccess, log =>
      (match fate.fetched with
        | .elapsed => .elapsed
        | .ready (.error err) => .ready (.error err)
        | .ready (.ok ()) => .ready (.ok (fate.events.map EventRecord.read)), log)
  | .insertAvailable new, log =>
      (fate.insert log.asked.length,
        { log with
          asked := log.asked ++ [new]
          table := match fate.insert log.asked.length with
            | .ok () | .lost .. => log.table.insertAvailable new fate.now
            | .refused _ => log.table })
  -- a tick asks for nothing else
  | .allow _, log => (.ok (), log)
  | .nowUtc, log => (fate.now, log)
  | .begin, log | .rollback, log => (.ok (), log)
  | .selectOldest .., log => (.ok none, log)
  | .setClaimed _, log => (.ok 0, log)
  | .commit, log => (.ok (), log)
  | .nonce, log => (fate.seed log.drawn, log)
  | .tryLock, log => (.ok false, log)
  | .freeBalance _, log => (.ok 0, log)
  | .answer .., log | .unlock, log | .resize .., log => ((), log)

/-- The submission is taken, its finalization is reported before the timer is up, and its events are
    fetched. -/
def Followed (patience : Nat) : Prop :=
  fate.submitted = .ready (.ok ()) ∧
    (∃ k < patience, fate.status k = .ready (.ok (some .inFinalizedBlock)) ∧
      ∀ j < k, fate.status j = .ready (.ok (some .other))) ∧
    fate.fetched = .ready (.ok ())

/-- `Followed` from the status after `k` others on. -/
def Reported (k patience : Nat) : Prop :=
  (∃ n < patience, fate.status (k + n) = .ready (.ok (some .inFinalizedBlock)) ∧
    ∀ j < n, fate.status (k + j) = .ready (.ok (some .other))) ∧
  fate.fetched = .ready (.ok ())

variable {fate}

theorem reported_succ {k patience : Nat} :
    fate.Reported k (patience + 1) ↔
      (fate.status k = .ready (.ok (some .inFinalizedBlock)) ∧ fate.fetched = .ready (.ok ())) ∨
      (fate.status k = .ready (.ok (some .other)) ∧ fate.Reported (k + 1) patience) := by
  constructor
  · rintro ⟨⟨n, hn, hfin, hothers⟩, hfetched⟩
    cases n with
    | zero => exact .inl ⟨hfin, hfetched⟩
    | succ n =>
      refine .inr ⟨hothers 0 (Nat.succ_pos n), ⟨n, Nat.lt_of_succ_lt_succ hn, ?_, fun j hj => ?_⟩, hfetched⟩
      · rw [Nat.add_right_comm]
        exact hfin
      · rw [Nat.add_right_comm]
        exact hothers (j + 1) (Nat.succ_lt_succ hj)
  · rintro (⟨hfin, hfetched⟩ | ⟨hother, ⟨n, hn, hfin, hothers⟩, hfetched⟩)
    · exact ⟨⟨0, Nat.succ_pos _, hfin, fun _ hj => absurd hj (Nat.not_lt_zero _)⟩, hfetched⟩
    · refine ⟨⟨n + 1, Nat.succ_lt_succ hn, ?_, fun j hj => ?_⟩, hfetched⟩
      · rw [← Nat.add_assoc, Nat.add_right_comm]
        exact hfin
      · cases j with
        | zero => exact hother
        | succ j =>
          rw [← Nat.add_assoc, Nat.add_right_comm]
          exact hothers j (Nat.lt_of_succ_lt_succ hj)

/-- What becomes of the wait for the finalization. -/
def WatchedAs (fate : TickFate) (patience : Nat) (log : TickLog) : Prop :=
  ∃ n r, (watch patience).alone fate.answer log = (r, { log with statuses := n }) ∧
    (fate.Reported log.statuses patience →
      r = .ok (finalizedItems (fate.events.map EventRecord.read))) ∧
    (¬ fate.Reported log.statuses patience → ∃ e, r = .error e)

/-- A status that neither ends the wait well nor prolongs it. -/
theorem watchedAs_error {patience : Nat} {e : String}
    (hrun : (watch (patience + 1)).alone fate.answer log =
      (.error e, { log with statuses := log.statuses + 1 }))
    (hfin : fate.status log.statuses ≠ .ready (.ok (some .inFinalizedBlock)))
    (hother : fate.status log.statuses ≠ .ready (.ok (some .other))) :
    fate.WatchedAs (patience + 1) log := by
  refine ⟨_, _, hrun, fun h => ?_, fun _ => ⟨e, rfl⟩⟩
  rcases reported_succ.mp h with ⟨h, -⟩ | ⟨h, -⟩
  · exact absurd h hfin
  · exact absurd h hother

theorem watch_succ_alone (fate : TickFate) (patience : Nat) (log : TickLog) :
    (watch (patience + 1)).alone fate.answer log =
      (Act.ofExcept (awaited (fate.status log.statuses)) >>= fun status => match status with
        | some .inFinalizedBlock => do
            let events ← Act.ofExcept (awaited (← ticketAsk .waitForSuccess))
            pure (finalizedItems events)
        | some (.error message) => Act.fail ("tx error: " ++ message)
        | some (.invalid message) => Act.fail ("tx invalid: " ++ message)
        | some (.dropped message) => Act.fail ("tx dropped: " ++ message)
        | some .other => watch patience
        | none => Act.fail "tx status stream ended before finalization").alone fate.answer
      { log with statuses := log.statuses + 1 } := rfl

theorem watch_alone (fate : TickFate) :
    ∀ (patience : Nat) (log : TickLog), fate.WatchedAs patience log
  | 0, log =>
      ⟨log.statuses, _, rfl, fun h => absurd h.1.choose_spec.1 (Nat.not_lt_zero _), fun _ => ⟨_, rfl⟩⟩
  | patience + 1, log => by
      have hask := watch_succ_alone fate patience log
      rcases hstatus : fate.status log.statuses with _ | err | _ | _ | message | message | message | _
      case ready.ok.some.other =>
        rw [hstatus] at hask
        obtain ⟨n, r, hrun, hok, herr⟩ :=
          watch_alone fate patience { log with statuses := log.statuses + 1 }
        refine ⟨n, r, hask.trans hrun, fun h => ?_, fun h => ?_⟩
        · rcases reported_succ.mp h with ⟨h, -⟩ | ⟨-, h⟩
          · rw [hstatus] at h
            cases h
          · exact hok h
        · exact herr fun hrest => h (reported_succ.mpr (.inr ⟨hstatus, hrest⟩))
      case ready.ok.some.inFinalizedBlock =>
        rw [hstatus] at hask
        have hreported : fate.Reported log.statuses (patience + 1) ↔ fate.fetched = .ready (.ok ()) := by
          rw [reported_succ, hstatus]
          simp
        have hfetch : (watch (patience + 1)).alone fate.answer log =
            (Act.ofExcept (awaited (fate.answer .waitForSuccess log).1) >>= fun events =>
              (pure (finalizedItems events) : Maintaining _)).alone fate.answer
            { log with statuses := log.statuses + 1 } := hask
        rw [answer] at hfetch
        rcases hfetched : fate.fetched with _ | err | _
        case ready.ok =>
          rw [hfetched] at hfetch
          exact ⟨_, _, hfetch, fun _ => rfl, fun h => absurd (hreported.mpr hfetched) h⟩
        all_goals
          rw [hfetched] at hfetch
          refine ⟨_, _, hfetch, fun h => ?_, fun _ => ⟨_, rfl⟩⟩
          rw [hreported, hfetched] at h
          cases h
      all_goals
        rw [hstatus] at hask
        exact watchedAs_error hask (by simp [hstatus]) (by simp [hstatus])

/-- The client is there and the extrinsic is signed: now it goes out. -/
def Signed (fate : TickFate) : Prop := fate.client = .ready (.ok ()) ∧ fate.signed = .ready (.ok ())

theorem submit_alone (fate : TickFate) (patience : Nat) (batch : TicketBatch) (log : TickLog)
    (hnew : log.statuses = 0) :
    (fate.Signed ∧ ∃ n r, (submitTicketBatch patience batch).alone fate.answer log =
        (r, { log with statuses := n, handed := some batch }) ∧
      (fate.Followed patience → r = .ok (finalizedItems (fate.events.map EventRecord.read))) ∧
      (¬ fate.Followed patience → ∃ e, r = .error e)) ∨
    (¬ fate.Signed ∧ ∃ e, (submitTicketBatch patience batch).alone fate.answer log = (.error e, log)) := by
  have hask : (submitTicketBatch patience batch).alone fate.answer log =
      (Act.ofExcept (awaited fate.client) >>= fun _ => do
        Act.ofExcept (awaited (← ticketAsk (.createSigned batch)))
        Act.ofExcept (awaited (← ticketAsk (.submitAndWatch batch)))
        watch patience).alone fate.answer log := rfl
  have hawaited : ∀ a : Awaited Unit, a ≠ .ready (.ok ()) → ∃ e, awaited a = .error e := by
    intro a ha
    match a with
    | .elapsed => exact ⟨_, rfl⟩
    | .ready (.error e) => exact ⟨e, rfl⟩
    | .ready (.ok ()) => exact absurd rfl ha
  by_cases hclient : fate.client = .ready (.ok ())
  swap
  · obtain ⟨e, he⟩ := hawaited _ hclient
    rw [Act.alone_error he] at hask
    exact .inr ⟨fun h => hclient h.1, e, hask⟩
  rw [hclient] at hask
  have hsign : (submitTicketBatch patience batch).alone fate.answer log =
      (Act.ofExcept (awaited fate.signed) >>= fun _ => do
        Act.ofExcept (awaited (← ticketAsk (.submitAndWatch batch)))
        watch patience).alone fate.answer log := hask
  by_cases hsigned : fate.signed = .ready (.ok ())
  swap
  · obtain ⟨e, he⟩ := hawaited _ hsigned
    rw [Act.alone_error he] at hsign
    exact .inr ⟨fun h => hsigned h.2, e, hsign⟩
  refine .inl ⟨⟨hclient, hsigned⟩, ?_⟩
  rw [hsigned] at hsign
  have hsubmit : (submitTicketBatch patience batch).alone fate.answer log =
      (Act.ofExcept (awaited fate.submitted) >>= fun _ => watch patience).alone fate.answer
        { log with handed := some batch } := hsign
  by_cases hsubmitted : fate.submitted = .ready (.ok ())
  · rw [hsubmitted] at hsubmit
    obtain ⟨n, r, hrun, hok, herr⟩ :=
      watch_alone fate patience { log with handed := some batch }
    have hfollowed : fate.Followed patience ↔ fate.Reported log.statuses patience := by
      rw [hnew, Followed, Reported]
      simp only [Nat.zero_add, hsubmitted, true_and]
    refine ⟨n, r, hsubmit.trans hrun, fun h => hok (hfollowed.mp h), fun h => herr fun hrep => ?_⟩
    exact h (hfollowed.mpr hrep)
  · obtain ⟨e, he⟩ := hawaited _ hsubmitted
    rw [Act.alone_error he] at hsubmit
    exact ⟨log.statuses, .error e, hsubmit, fun h => absurd h.1 hsubmitted, fun _ => ⟨e, rfl⟩⟩

variable {ext : TicketExt}

theorem generate_drawn (fate : TickFate) (ext : TicketExt) (log : TickLog) :
    (generate ext).alone fate.answer log =
      (match made : fromStoredSecret ext (fate.seed log.drawn).1 with
        | .ok keypair => (pure ⟨keypair, fate.seed log.drawn, made⟩ : Maintaining (Generated ext))
        | .error e => Act.fail ("fresh seed is valid: " ++ e)).alone fate.answer
          { log with drawn := log.drawn + 1 } := rfl

theorem generate_alone (fate : TickFate) (ext : TicketExt) (log : TickLog) : ∃ r,
    (generate ext).alone fate.answer log = (r, { log with drawn := log.drawn + 1 }) ∧
      (∀ key, r = .ok key → key.seed = fate.seed log.drawn) ∧
      ((∃ keypair, fromStoredSecret ext (fate.seed log.drawn).1 = .ok keypair) → ∃ key, r = .ok key) := by
  rw [generate_drawn]
  split
  · next keypair made =>
    refine ⟨.ok ⟨keypair, fate.seed log.drawn, made⟩, rfl, fun key hkey => ?_, fun _ => ⟨_, rfl⟩⟩
    rw [← Except.ok.inj hkey]
  · next e made =>
    refine ⟨.error _, rfl, fun key hkey => (by cases hkey), ?_⟩
    rintro ⟨keypair, hkeypair⟩
    rw [made] at hkeypair
    cases hkeypair

/-- The seeds drawn are those of the keys, in order. -/
theorem collect_alone (fate : TickFate) (ext : TicketExt) :
    ∀ (xs : List Nat) (done : List (Generated ext)) (log : TickLog),
    ∃ r n, (Act.fold (fun ys (_ : Nat) => Act.bind (do pure (some (← generate ext))) fun y =>
        Act.pure (ys ++ y.toList)) done xs).alone fate.answer log = (r, { log with drawn := n }) ∧
      (∀ generated, r = .ok generated → ∃ new, generated = done ++ new ∧
        new.map Generated.seed = (List.range' log.drawn xs.length).map fate.seed) ∧
      ((∀ i ∈ List.range' log.drawn xs.length, ∃ keypair,
          fromStoredSecret ext (fate.seed i).1 = .ok keypair) → ∃ generated, r = .ok generated)
  | [], done, log => by
      refine ⟨.ok done, log.drawn, rfl, fun generated h => ?_, fun _ => ⟨done, rfl⟩⟩
      exact ⟨[], by rw [List.append_nil]; exact (Except.ok.inj h).symm, rfl⟩
  | x :: xs, done, log => by
      rw [List.length_cons, List.range'_succ]
      obtain ⟨r, hrun, hseed, hgood⟩ := generate_alone fate ext log
      match r with
      | .error e =>
        refine ⟨.error e, log.drawn + 1, ?_, fun _ h => (by cases h), fun h => ?_⟩
        · rw [Act.fold]
          exact Act.alone_bind_error (Act.alone_bind_error (Act.alone_bind_error hrun))
        · obtain ⟨key, hkey⟩ := hgood (h log.drawn (List.mem_cons_self ..))
          cases hkey
      | .ok key =>
        have hone : (Act.bind (do pure (some (← generate ext))) fun y =>
            Act.pure (done ++ y.toList) : Maintaining (List (Generated ext))).alone fate.answer log =
            (.ok (done ++ [key]), { log with drawn := log.drawn + 1 }) := by
          have hsome : (do pure (some (← generate ext)) :
              Maintaining (Option (Generated ext))).alone fate.answer log =
              (.ok (some key), { log with drawn := log.drawn + 1 }) := Act.alone_bind hrun
          rw [Act.alone_bind hsome]
          rfl
        obtain ⟨r, n, hrest, hnew, hall⟩ :=
          collect_alone fate ext xs (done ++ [key]) { log with drawn := log.drawn + 1 }
        refine ⟨r, n, ?_, fun generated h => ?_, fun h => ?_⟩
        · rw [Act.fold, Act.alone_bind hone, hrest]
        · obtain ⟨new, rfl, hseeds⟩ := hnew generated h
          refine ⟨key :: new, List.append_cons .. ▸ rfl, ?_⟩
          rw [List.map_cons, List.map_cons, hseed key rfl, hseeds]
        · exact hall fun i hi => h i (List.mem_cons_of_mem _ hi)

/-! ### The inserts -/

section Inserts

variable (identity : InviterIdentity) (dim : Dim) (network : Network) (items : List Bool)

/-- The tickets of the keys that are taken for accepted. -/
def accepted (generated : List (Generated ext)) (items : List Bool) : List NewTicket :=
  (completed generated items).map fun key => key.ticket identity dim network

/-- One key of the loop. -/
def insertOne (inserted : Nat) (x : Generated ext × Nat) : Maintaining Nat :=
  if itemAccepted items x.2 then do
    let reply ← ticketAsk (.insertAvailable (x.1.ticket identity dim network))
    Act.ofExcept ((reported reply).mapError ("inserting registered ticket: " ++ ·))
    pure (inserted + 1)
  else pure inserted

theorem completed_drop {α : Type} (key : α) (keys : List α) (k : Nat) :
    completed (key :: keys) (items.drop k) =
      if itemAccepted items k then key :: completed keys (items.drop (k + 1))
      else completed keys (items.drop (k + 1)) := by
  rw [itemAccepted]
  by_cases hk : k < items.length
  · rw [List.drop_eq_getElem_cons hk, List.getElem?_eq_getElem hk]
    cases items[k] with
    | true | false => simp
  · have hle : items.length ≤ k := Nat.le_of_not_lt hk
    rw [List.drop_eq_nil_of_le hle, List.drop_eq_nil_of_le (hle.trans (Nat.le_succ k)),
      List.getElem?_eq_none hle]
    simp

theorem inserts_alone (fate : TickFate) :
    ∀ (generated : List (Generated ext)) (k inserted : Nat) (log : TickLog),
    ∃ r log' asked, (Act.fold (insertOne identity dim network items) inserted
        (generated.zipIdx k)).alone fate.answer log = (r, log') ∧
      log'.handed = log.handed ∧ log'.asked = log.asked ++ asked ∧
      asked <+: accepted identity dim network generated (items.drop k) ∧
      ((∀ i < (accepted identity dim network generated (items.drop k)).length,
          fate.insert (log.asked.length + i) = .ok ()) →
        asked = accepted identity dim network generated (items.drop k) ∧ (∃ n, r = .ok n) ∧
        log'.table = asked.foldl (fun table new => table.insertAvailable new fate.now) log.table) ∧
      ((∃ i < (accepted identity dim network generated (items.drop k)).length,
          fate.insert (log.asked.length + i) ≠ .ok ()) → ∃ e, r = .error e)
  | [], k, inserted, log => by
      refine ⟨.ok inserted, log, [], rfl, rfl, (List.append_nil _).symm, List.prefix_refl _, ?_, ?_⟩
      · exact fun _ => ⟨rfl, ⟨inserted, rfl⟩, rfl⟩
      · rintro ⟨i, hi, -⟩
        exact absurd hi (Nat.not_lt_zero _)
  | key :: generated, k, inserted, log => by
      rw [List.zipIdx_cons, accepted, completed_drop items]
      by_cases haccepted : itemAccepted items k = true
      · rw [if_pos haccepted, List.map_cons]
        have hask : (insertOne identity dim network items inserted (key, k)).alone fate.answer log =
            (Act.ofExcept ((reported (fate.insert log.asked.length)).mapError
                ("inserting registered ticket: " ++ ·)) >>= fun _ =>
              (pure (inserted + 1) : Maintaining Nat)).alone fate.answer
            (fate.answer (.insertAvailable (key.ticket identity dim network)) log).2 := by
          rw [insertOne, if_pos haccepted]
          rfl
        match hreply : fate.insert log.asked.length with
        | .ok () =>
          have hone : (insertOne identity dim network items inserted (key, k)).alone fate.answer log =
              (.ok (inserted + 1),
                { log with
                  asked := log.asked ++ [key.ticket identity dim network]
                  table := log.table.insertAvailable (key.ticket identity dim network) fate.now }) := by
            rw [hask, answer, hreply]
            rfl
          obtain ⟨r, log', asked, hrun, hhanded, hasked, hprefix, hall, hsome⟩ :=
            inserts_alone fate generated (k + 1) (inserted + 1)
              { log with
                asked := log.asked ++ [key.ticket identity dim network]
                table := log.table.insertAvailable (key.ticket identity dim network) fate.now }
          rw [List.length_append, List.length_singleton] at hall hsome
          refine ⟨r, log', key.ticket identity dim network :: asked, ?_, hhanded, ?_, ?_, ?_, ?_⟩
          · rw [Act.fold, Act.alone_bind hone, hrun]
          · rw [hasked, List.append_assoc, List.singleton_append]
          · exact List.cons_prefix_cons.mpr ⟨rfl, hprefix⟩
          · intro h
            obtain ⟨heq, hok, htable⟩ := hall fun i hi => by
              rw [Nat.add_assoc, Nat.add_comm 1 i]
              exact h (i + 1) (Nat.succ_lt_succ hi)
            exact ⟨congrArg _ heq, hok, htable⟩
          · rintro ⟨i, hi, hne⟩
            cases i with
            | zero => exact absurd hreply hne
            | succ i =>
              refine hsome ⟨i, Nat.lt_of_succ_lt_succ hi, ?_⟩
              rw [Nat.add_assoc, Nat.add_comm 1 i]
              exact hne
        | .lost _ err | .refused err =>
          rw [hreply] at hask
          refine ⟨.error ("inserting registered ticket: " ++ err),
            (fate.answer (.insertAvailable (key.ticket identity dim network)) log).2,
            [key.ticket identity dim network], ?_, rfl, rfl, ?_, fun h => ?_, fun _ => ⟨_, rfl⟩⟩
          · rw [Act.fold, Act.alone_bind_error hask]
            rfl
          · exact List.cons_prefix_cons.mpr ⟨rfl, List.nil_prefix⟩
          · have hok := h 0 (Nat.succ_pos _)
            rw [Nat.add_zero, hreply] at hok
            cases hok
      · rw [if_neg haccepted]
        obtain ⟨r, log', asked, hrun, hrest⟩ := inserts_alone fate generated (k + 1) inserted log
        refine ⟨r, log', asked, ?_, hrest⟩
        have hskip : (insertOne identity dim network items inserted (key, k)).alone fate.answer log =
            (.ok inserted, log) := by
          rw [insertOne, if_neg haccepted]
          rfl
        rw [Act.fold, Act.alone_bind hskip, hrun]

end Inserts

/-! ### The tick -/

end TickFate

/-- What a tick is called with, and the table it finds. -/
structure TickJob where
  identity : InviterIdentity
  network : Network
  tuning : PoolTuning
  patience : Nat
  dim : Dim
  batchSize : Nat
  table : TicketTable

namespace TickFate

section Tick

variable (fate : TickFate) (ext : TicketExt) (job : TickJob)

def tick : Except String (Nat × Nat) × TickLog :=
  (tickPool ext job.identity job.network job.tuning job.patience job.dim job.batchSize).alone
    fate.answer ⟨0, 0, none, [], job.table⟩

/-- The shortfall, if it can be told. -/
def size : Nat :=
  match fate.available with
  | .ok available => planRefill available job.tuning.target job.batchSize
  | .error _ => 0

/-- There is a shortfall, and a batch for it goes out. -/
def Hands : Prop :=
  fate.size job ≠ 0 ∧
    (∀ i < fate.size job, ∃ keypair, fromStoredSecret ext (fate.seed i).1 = .ok keypair) ∧ fate.Signed

/-- The tickets of the keys that the tick takes for accepted. -/
def taken {ext : TicketExt} (generated : List (Generated ext)) : List NewTicket :=
  accepted job.identity job.dim job.network generated
    (finalizedItems (fate.events.map EventRecord.read))

/-- What the tick does with a batch that has gone out. -/
structure Handed {ext : TicketExt} (r : Except String (Nat × Nat)) (log : TickLog)
    (generated : List (Generated ext)) : Prop where
  handed : log.handed = some ⟨generated.map Generated.account, job.dim, job.identity.proxyFor⟩
  seeds : generated.map Generated.seed = (List.range' 0 (fate.size job)).map fate.seed
  lost : ¬ fate.Followed job.patience → (∃ e, r = .error e) ∧ log.asked = []
  asks : fate.Followed job.patience → log.asked <+: fate.taken job generated
  stores : fate.Followed job.patience →
    (∀ i < (fate.taken job generated).length, fate.insert i = .ok ()) →
    (∃ x, r = .ok x) ∧ log.asked = fate.taken job generated ∧
      log.table = (fate.taken job generated).foldl
        (fun table new => table.insertAvailable new fate.now) job.table
  breaks : fate.Followed job.patience →
    (∃ i < (fate.taken job generated).length, fate.insert i ≠ .ok ()) → ∃ e, r = .error e

variable {fate ext job}

/-- What is left of a tick once the shortfall is known. -/
def refill (ext : TicketExt) (job : TickJob) (size : Nat) : Maintaining (Nat × Nat) := do
  let generated ← Act.collect (fun _ => do pure (some (← generate ext))) (List.range size)
  let items ← submitTicketBatch job.patience
    ⟨generated.map Generated.account, job.dim, job.identity.proxyFor⟩
  let inserted ← insertAccepted ext job.identity job.network job.dim items generated
  pure (inserted, settleBatchSize job.batchSize job.tuning.batchMax (0 < inserted))

theorem tick_eq (fate : TickFate) (ext : TicketExt) (job : TickJob) :
    (∃ e, fate.tick ext job = (.error e, ⟨0, 0, none, [], job.table⟩) ∧ fate.size job = 0) ∨
    fate.tick ext job =
      (if fate.size job = 0 then (pure (0, job.batchSize) : Maintaining (Nat × Nat))
      else refill ext job (fate.size job)).alone fate.answer ⟨0, 0, none, [], job.table⟩ := by
  have hask : fate.tick ext job =
      (Act.ofExcept (fate.available.mapError ("counting available tickets: " ++ ·)) >>= fun available => do
        let _ ← ticketAsk (.availableInvites job.dim job.identity.inviter)
        if planRefill available job.tuning.target job.batchSize = 0 then pure (0, job.batchSize)
        else refill ext job (planRefill available job.tuning.target job.batchSize)).alone fate.answer
      ⟨0, 0, none, [], job.table⟩ := rfl
  rw [size]
  cases havailable : fate.available with
  | error e =>
    rw [havailable] at hask
    exact .inl ⟨_, hask, rfl⟩
  | ok available =>
    rw [havailable] at hask
    exact .inr hask

/-- The keys are made, all of them, or the tick ends. -/
theorem refill_alone (fate : TickFate) (ext : TicketExt) (job : TickJob) (log : TickLog)
    (hnew : log.drawn = 0) (size : Nat) :
    (∃ e n, (refill ext job size).alone fate.answer log = (.error e, { log with drawn := n }) ∧
      ¬ ∀ i < size, ∃ keypair, fromStoredSecret ext (fate.seed i).1 = .ok keypair) ∨
    ∃ n, ∃ generated : List (Generated ext),
      generated.map Generated.seed = (List.range' 0 size).map fate.seed ∧
      (∀ i < size, ∃ keypair, fromStoredSecret ext (fate.seed i).1 = .ok keypair) ∧
      (refill ext job size).alone fate.answer log = (do
        let items ← submitTicketBatch job.patience
          ⟨generated.map Generated.account, job.dim, job.identity.proxyFor⟩
        let inserted ← insertAccepted ext job.identity job.network job.dim items generated
        pure (inserted, settleBatchSize job.batchSize job.tuning.batchMax (0 < inserted)) :
          Maintaining (Nat × Nat)).alone fate.answer { log with drawn := n } := by
  obtain ⟨r, n, hrun, hseeds, hall⟩ := collect_alone fate ext (List.range size) [] log
  rw [List.length_range, hnew] at hseeds hall
  have hmem : ∀ i, i ∈ List.range' 0 size ↔ i < size := by simp [List.mem_range'_1]
  match r with
  | .error e =>
    left
    refine ⟨e, n, Act.alone_bind_error hrun, fun hgood => ?_⟩
    obtain ⟨generated, hgenerated⟩ := hall fun i hi => hgood i ((hmem i).mp hi)
    cases hgenerated
  | .ok generated =>
    right
    obtain ⟨new, hnew, hseeds⟩ := hseeds generated rfl
    rw [List.nil_append] at hnew
    subst hnew
    refine ⟨n, generated, hseeds, fun i hi => ?_, Act.alone_bind hrun⟩
    have hseed : fate.seed i ∈ generated.map Generated.seed := by
      rw [hseeds]
      exact List.mem_map_of_mem ((hmem i).mpr hi)
    obtain ⟨key, -, hkey⟩ := List.mem_map.mp hseed
    exact ⟨key.keypair, hkey ▸ key.made⟩

theorem tick_of_hands (hhands : fate.Hands ext job) : ∃ r log, ∃ generated : List (Generated ext),
    fate.tick ext job = (r, log) ∧ fate.Handed job r log generated := by
  obtain ⟨hsize, hgood, hsigned⟩ := hhands
  rcases tick_eq fate ext job with ⟨-, -, hzero⟩ | htick
  · exact absurd hzero hsize
  rw [if_neg hsize] at htick
  rcases refill_alone fate ext job ⟨0, 0, none, [], job.table⟩ rfl (fate.size job) with
    ⟨-, -, -, hbad⟩ | ⟨drawn, generated, hseeds, -, hrefill⟩
  · exact absurd hgood hbad
  rw [hrefill] at htick
  rcases submit_alone fate job.patience
      ⟨generated.map Generated.account, job.dim, job.identity.proxyFor⟩
      ⟨drawn, 0, none, [], job.table⟩ rfl with ⟨-, n, r, hsubmit, hok, herr⟩ | ⟨hnot, -⟩
  swap
  · exact absurd hsigned hnot
  by_cases hfollowed : fate.Followed job.patience
  · rw [hok hfollowed] at hsubmit
    have hinsert := htick.trans (Act.alone_bind hsubmit)
    obtain ⟨r, log, asked, hrun, hhanded, hasked, hprefix, hall, hsome⟩ :=
      inserts_alone job.identity job.dim job.network
        (finalizedItems (fate.events.map EventRecord.read)) fate generated 0 0
        ⟨drawn, n, some ⟨generated.map Generated.account, job.dim, job.identity.proxyFor⟩, [], job.table⟩
    rw [List.nil_append] at hasked
    subst hasked
    simp only [List.drop_zero, List.length_nil, Nat.zero_add] at hprefix hall hsome
    have hhanded : ∀ r', (∀ x, r = .ok x → ∃ y, r' = .ok y) → (∀ e, r = .error e → r' = .error e) →
        fate.Handed job r' log generated := by
      intro r' hok' herr'
      exact
        { handed := hhanded
          seeds := hseeds
          lost := fun h => absurd hfollowed h
          asks := fun _ => hprefix
          stores := fun _ h => by
            obtain ⟨heq, ⟨x, hx⟩, htable⟩ := hall h
            exact ⟨hok' x hx, heq, htable.trans (by rw [heq]; rfl)⟩
          breaks := fun _ h => by
            obtain ⟨e, he⟩ := hsome h
            exact ⟨e, herr' e he⟩ }
    cases r with
    | ok inserted =>
      refine ⟨_, log, generated, hinsert.trans (Act.alone_bind hrun), hhanded _ ?_ ?_⟩
      · exact fun _ _ => ⟨_, rfl⟩
      · exact fun _ h => (by cases h)
    | error e =>
      refine ⟨.error e, log, generated, hinsert.trans (Act.alone_bind_error hrun), hhanded _ ?_ ?_⟩
      · exact fun _ h => (by cases h)
      · exact fun _ h => by rw [Except.error.inj h]
  · obtain ⟨e, rfl⟩ := herr hfollowed
    refine ⟨.error e, _, generated, htick.trans (Act.alone_bind_error hsubmit), ?_⟩
    exact
      { handed := rfl
        seeds := hseeds
        lost := fun _ => ⟨⟨e, rfl⟩, rfl⟩
        asks := fun h => absurd h hfollowed
        stores := fun h => absurd h hfollowed
        breaks := fun h => absurd h hfollowed }

theorem tick_of_not_hands (hhands : ¬ fate.Hands ext job) : ∃ r log, fate.tick ext job = (r, log) ∧
    log.handed = none ∧ log.asked = [] ∧ log.table = job.table := by
  rcases tick_eq fate ext job with ⟨e, htick, -⟩ | htick
  · exact ⟨_, _, htick, rfl, rfl, rfl⟩
  by_cases hsize : fate.size job = 0
  · rw [if_pos hsize] at htick
    exact ⟨_, _, htick, rfl, rfl, rfl⟩
  rw [if_neg hsize] at htick
  rcases refill_alone fate ext job ⟨0, 0, none, [], job.table⟩ rfl (fate.size job) with
    ⟨e, n, hrefill, -⟩ | ⟨drawn, generated, -, hgood, hrefill⟩
  · exact ⟨_, _, htick.trans hrefill, rfl, rfl, rfl⟩
  rcases submit_alone fate job.patience
      ⟨generated.map Generated.account, job.dim, job.identity.proxyFor⟩
      ⟨drawn, 0, none, [], job.table⟩ rfl with ⟨hsigned, -⟩ | ⟨-, e, hsubmit⟩
  · exact absurd ⟨hsize, hgood, hsigned⟩ hhands
  · exact ⟨_, _, (htick.trans hrefill).trans (Act.alone_bind_error hsubmit), rfl, rfl, rfl⟩

theorem Handed.calls {r : Except String (Nat × Nat)} {generated : List (Generated ext)}
    (h : fate.Handed job r log generated) : log.calls = generated.map Generated.account := by
  rw [TickLog.calls, h.handed]
  rfl

/-- The keys that are taken for accepted are those that what can be read says completed. -/
theorem Handed.taken_keys {r : Except String (Nat × Nat)} {generated : List (Generated ext)}
    (h : fate.Handed job r log generated) : (fate.taken job generated).map NewTicket.publicKey =
      (completed log.calls (((callItems fate.events).filter Prod.snd).map Prod.fst)).map Subtype.val := by
  rw [taken, accepted, finalizedItems_read, h.calls, completed_map, List.map_map, List.map_map]
  rfl

end Tick

end TickFate

end DeviceUniqueness.Tickets
