import DeviceUniqueness.Indexer.Machine

/-! Seeding keeps to its terms.

    A snapshot is many transactions. Until the last statement there is no checkpoint, so all that has
    to hold on the way is that no row is made up: each is an entry of the block it was read at. What
    the scan has come across (`Scanned`) is in the tables or in the batch; when it is over and no
    item failed, that is everything the block holds. -/

namespace DeviceUniqueness.Indexer

open Schemes

variable {w : Chains} {ext : IndexExt} {chainOf : Nat → BlockHash} {p n : Nat} {σ : Type} {s : σ}
  {st : IndexState}

variable {number pageSize : Nat} {account : Account} {value : Bytes} {network : Ss58Prefix}

theorem blockNumberDb_ok {ε : Type} {tooLarge : Nat → ε} {m : Nat}
    (h : blockNumberDb tooLarge number = .ok m) : m = number := by
  rw [blockNumberDb] at h
  split_ifs at h
  exact (Except.ok.inj h).symm

/-! ### Whose projection it is -/

/-- There is no checkpoint, and no row is made up. -/
structure Unseeded (w : Chains) (ext : IndexExt) (store : Store) : Prop where
  sync : store.syncState = none
  sourced : Sourced w ext store

theorem Unseeded.sound {store : Store} (h : Unseeded w ext store) : Sound w ext store := by
  rw [Sound, h.sync]
  exact h.sourced

theorem Sound.unseeded {store : Store} (h : Sound w ext store) (hsync : store.syncState = none) :
    Unseeded w ext store := by
  rw [Sound, hsync] at h
  exact ⟨hsync, h⟩

theorem Sound.stamped {store : Store} (h : Sound w ext store) {c : Checkpoint}
    (hsync : store.syncState = some c) : c.genesisHash.isSome := by
  rw [Sound, hsync] at h
  obtain ⟨genesis, hgenesis, -⟩ := h
  rw [hgenesis]
  rfl

theorem discard_safe (h : Held chainOf p n (fun store => Sound w ext store ∧
      ∃ c, store.syncState = some c ∧ c.genesisHash ≠ some (chainOf p)) st) :
    (do
      fetch .database (ask .begin)
      let _ ← fetch .database (ask (.exec .deleteCheckpoint))
      let _ ← fetch .database (ask (.exec .deleteRows))
      confirm .database (ask .commit)
      pure CheckpointState.discarded : Seeding σ CheckpointState).Safe
      (indexTerms w ext chainOf p) s st
      (fun st x _ => x = .discarded ∧ Held chainOf p n (Unseeded w ext) st)
      (Keeps w ext chainOf p n) := by
  let Emptied (writes : List Write) (store : Store) (tx : IndexTx) : Prop :=
    (Sound w ext store ∧ ∃ c, store.syncState = some c ∧ c.genesisHash ≠ some (chainOf p)) ∧
      tx.writes = writes
  have hadd : ∀ writes write store tx, OwnWrite (chainOf p) store write →
      Emptied writes store tx → Emptied (writes ++ [write]) store (tx.add write) :=
    fun _ write _ _ _ h => ⟨h.1, congrArg (· ++ [write]) h.2⟩
  refine Act.Safe.then (safe_begin h fun _ _ _ h => h.mono fun _ h => h.1) fun st _ s h => ?_
  refine (safe_exec h (hadd [] _) fun _ _ _ h => h.held fun _ _ h => h.1.1).then fun st _ s h => ?_
  refine (safe_exec h (hadd [.deleteCheckpoint] _) fun _ _ _ h => h.held fun _ _ h => h.1.1).then
    fun st _ s h => ?_
  have hempty : ∀ {store tx}, Emptied [.deleteCheckpoint, .deleteRows] store tx →
      tx.view store = Store.empty := by
    rintro store tx ⟨-, hwrites⟩
    rw [IndexTx.view, hwrites]
    rfl
  refine (safe_commit h (fun store tx h => ?_) (fun store tx h => h.1.1) fun _ _ _ h => h).then
    fun st _ s h => ?_
  · obtain ⟨c, hsync, hother⟩ := h.1.2
    exact .discarded hsync hother (hempty h)
  · refine ⟨rfl, h.mono ?_⟩
    rintro _ ⟨store, tx, hR, rfl⟩
    rw [hempty hR]
    exact ⟨rfl, sourced_of_empty rfl⟩

theorem reconcileChainIdentity_safe (h : Held chainOf p n (Sound w ext) st) :
    (reconcileChainIdentity : Seeding σ CheckpointState).Safe (indexTerms w ext chainOf p) s st
      (fun st x _ => match x with
        | .usable => Held chainOf p n (Sound w ext) st
        | .absent | .discarded => Held chainOf p n (Unseeded w ext) st)
      (Keeps w ext chainOf p n) := by
  refine (safe_read rfl (fun hr h => h.after hr) h).then fun st live s h => ?_
  obtain ⟨h, -, hlive⟩ := h
  refine (safe_fetch (h.read .storedGenesis rfl)
    fun _ _ _ h => h.1).then fun st stored s hstored => ?_
  obtain ⟨h, ⟨-, hstored⟩, -⟩ := hstored
  have hsync := hstored stored rfl
  cases hc : st.store.syncState with
  | none =>
    obtain rfl : stored = none := by rw [hsync, hc]; rfl
    exact ⟨h.lock, h.height, h.store.unseeded hc⟩
  | some c =>
    obtain ⟨genesis, hgenesis⟩ := Option.isSome_iff_exists.mp (h.store.stamped hc)
    obtain rfl : stored = some (some genesis) := by rw [hsync, hc, Option.map_some, hgenesis]
    change Act.Safe _ (if genesis = live then pure CheckpointState.usable else _) s st _ _
    split_ifs with heq
    · exact h
    · have hother : c.genesisHash ≠ some (chainOf p) := by
        rw [hgenesis, ← hlive]
        exact fun h => heq (Option.some.inj h)
      refine (discard_safe ⟨h.lock, h.height, h.store, c, hc, hother⟩).weaken ?_
      rintro st x s ⟨rfl, h⟩
      exact h

/-! ### The snapshot -/

/-- What the scan of the block has come across is in the tables or about to be. -/
structure Scanned (w : Chains) (ext : IndexExt) (hash : BlockHash) (seen : List ScanItem)
    (scan : Scan) (store : Store) : Prop where
  unseeded : Unseeded w ext store
  records : ∀ record ∈ scan.batch, ReadAt w ext hash record
  found : ∀ account value, .entry account value ∈ seen → (w.content ext hash account).isSome →
    (∃ record ∈ scan.batch, record.accountId = account) ∨ Covered store hash account
  failed : scan.iteratorErrors = 0 → ∀ err, .failed err ∉ seen

theorem upsertBatch_safe {hash : BlockHash} {records : List AssignedUsername} {Q : Store → Prop}
    (hQ : ∀ store, Q store → Unseeded w ext store)
    (hrecords : ∀ record ∈ records, ReadAt w ext hash record) (h : Held chainOf p n Q st) :
    (upsertBatch records number : Seeding σ Unit).Safe (indexTerms w ext chainOf p) s st
      (fun st _ _ => Held chainOf p n (fun store' => Unseeded w ext store' ∧ ∃ store, Q store ∧
        ∀ account, (Covered store hash account ∨ ∃ record ∈ records, record.accountId = account) →
          Covered store' hash account) st)
      (Keeps w ext chainOf p n) := by
  let Batch (done : List AssignedUsername) (store : Store) (tx : IndexTx) : Prop :=
    Q store ∧ tx.writes = done.map fun record => Write.upsert record number
  have hsound : ∀ done store tx, Batch done store tx → Sound w ext store :=
    fun _ store _ h => (hQ store h.1).sound
  refine (safe_begin h fun _ _ _ h => h.mono fun store h => (hQ store h).sound).then
    fun st _ s h => ?_
  refine (Act.safe_forEach (fun rest st _ => ∃ done, records = done ++ rest ∧
    InTx chainOf p n (Batch done) st) ?_ ⟨[], rfl, h.mono fun _ _ h => h⟩).then fun st _ s h => ?_
  · rintro record rest st s ⟨done, hsplit, h⟩
    refine (safe_exec (Q := Batch (done ++ [record])) h ?_ fun _ _ _ h =>
      h.held (hsound done)).then fun st _ s h => ?_
    · rintro store tx - ⟨hq, hwrites⟩
      refine ⟨hq, ?_⟩
      rw [IndexTx.add, hwrites, List.map_append]
      rfl
    · exact ⟨done ++ [record], by rw [hsplit, List.append_assoc, List.singleton_append], h⟩
  · obtain ⟨done, hsplit, h⟩ := h
    obtain rfl : records = done := by rw [hsplit, List.append_nil]
    have hspec : ∀ {store tx}, Batch records store tx →
        Sourced w ext (tx.view store) ∧ (tx.view store).syncState = store.syncState ∧
        ∀ account, (Covered store hash account ∨ ∃ record ∈ records, record.accountId = account) →
          Covered (tx.view store) hash account := by
      rintro store tx ⟨hq, hwrites⟩
      rw [IndexTx.view, hwrites]
      exact upserts_spec tx.startedAt number hrecords (hQ store hq).sourced
    refine (safe_commit h (fun store tx hB => ?_) (hsound records) fun _ _ _ h => h).weaken
      (fun st _ s h => h.mono ?_)
    · obtain ⟨hsourced, hsync, -⟩ := hspec hB
      have hnone := (hQ store hB.1).sync
      exact .seeding hnone (hsync.trans hnone) hsourced
    · rintro _ ⟨store, tx, hB, rfl⟩
      obtain ⟨hsourced, hsync, hcovered⟩ := hspec hB
      exact ⟨⟨hsync.trans (hQ store hB.1).sync, hsourced⟩, store, hB.1, hcovered⟩

theorem flush_safe {hash : BlockHash} {seen : List ScanItem} {scan : Scan}
    (hrecords : ∀ record ∈ scan.batch, ReadAt w ext hash record)
    (h : Held chainOf p n (Scanned w ext hash seen scan) st) :
    (scan.flush number : Seeding σ Scan).Safe (indexTerms w ext chainOf p) s st
      (fun st scan' _ => scan'.batch = [] ∧ Held chainOf p n (Scanned w ext hash seen scan') st)
      (Keeps w ext chainOf p n) := by
  refine (upsertBatch_safe (fun _ h => h.unseeded) hrecords h).then fun st _ s h => ?_
  refine ⟨rfl, h.mono ?_⟩
  rintro store' ⟨hunseeded, store, hscanned, hcovered⟩
  refine ⟨hunseeded, nofun, fun account value hmem hsome => .inr (hcovered account ?_),
    hscanned.failed⟩
  exact (hscanned.found account value hmem hsome).symm

section Item

variable {hash : BlockHash} {seen : List ScanItem} {scan : Scan} {store : Store}

/-- An item that leaves no record behind because it holds none. -/
theorem Scanned.skip (h : Scanned w ext hash seen scan store) {item : ScanItem}
    (hitem : ∀ err, item ≠ .failed err)
    (hnone : ∀ account value, item = .entry account value → w.content ext hash account = none) :
    Scanned w ext hash (seen ++ [item]) scan.skip store where
  unseeded := h.unseeded
  records := h.records
  found account value hmem hsome := by
    rcases List.mem_append.mp hmem with hmem | hmem
    · exact h.found account value hmem hsome
    · rw [hnone account value (List.mem_singleton.mp hmem).symm] at hsome
      cases hsome
  failed hzero err hmem := by
    rcases List.mem_append.mp hmem with hmem | hmem
    · exact h.failed hzero err hmem
    · exact hitem err (List.mem_singleton.mp hmem).symm

theorem Scanned.fail (h : Scanned w ext hash seen scan store) (err : String) :
    Scanned w ext hash (seen ++ [.failed err])
      { scan.skip with iteratorErrors := scan.iteratorErrors + 1 } store where
  unseeded := h.unseeded
  records := h.records
  found account value hmem hsome := by
    rcases List.mem_append.mp hmem with hmem | hmem
    · exact h.found account value hmem hsome
    · cases List.mem_singleton.mp hmem
  failed hzero := absurd hzero (Nat.succ_ne_zero _)

theorem Scanned.push (h : Scanned w ext hash seen scan store) {record : AssignedUsername}
    (hr : ReadAt w ext hash record) (heq : record.accountId = account) :
    Scanned w ext hash (seen ++ [.entry account value])
      { scan with batch := scan.batch ++ [record] } store where
  unseeded := h.unseeded
  records record' hmem := by
    rcases List.mem_append.mp hmem with hmem | hmem
    · exact h.records record' hmem
    · rw [List.mem_singleton.mp hmem]
      exact hr
  found account' value' hmem hsome := by
    rcases List.mem_append.mp hmem with hmem | hmem
    · rcases h.found account' value' hmem hsome with ⟨record', hmem', heq'⟩ | hcovered
      · exact .inl ⟨record', List.mem_append_left _ hmem', heq'⟩
      · exact .inr hcovered
    · cases List.mem_singleton.mp hmem
      exact .inl ⟨record, List.mem_append_right _ (List.mem_singleton.mpr rfl), heq⟩
  failed hzero err hmem := by
    rcases List.mem_append.mp hmem with hmem | hmem
    · exact h.failed hzero err hmem
    · cases List.mem_singleton.mp hmem

end Item

/-- What the block holds for an account, once the value is read. -/
theorem content_of_value {hash : BlockHash} (hvalue : w.consumers hash account = some value) :
    w.content ext hash account = (ext.decodeValue value).toOption.bind ConsumerInfo.content := by
  rw [Chains.content, hvalue, Option.bind_some]

theorem readAt_decoded {hash : BlockHash} {consumer : ConsumerInfo} {record : AssignedUsername}
    (hvalue : w.consumers hash account = some value)
    (hconsumer : ext.decodeValue value = .ok consumer)
    (hrecord : decodeConsumer ext.toSs58Ext account consumer network hash number = .ok record) :
    ReadAt w ext hash record ∧ record.accountId = account := by
  obtain ⟨rfl, -, hblock, hcontent⟩ := decodeConsumer_ok hrecord
  refine ⟨⟨hblock, ?_⟩, rfl⟩
  rw [content_of_value hvalue, hconsumer]
  exact hcontent

theorem content_undecoded {hash : BlockHash} {consumer : ConsumerInfo} {e : DecodeError}
    (hvalue : w.consumers hash account = some value)
    (hconsumer : ext.decodeValue value = .ok consumer)
    (herror : decodeConsumer ext.toSs58Ext account consumer network hash number = .error e) :
    w.content ext hash account = none := by
  rw [content_of_value hvalue, hconsumer]
  exact decodeConsumer_error herror

theorem scanItem_safe {snapshot : BlockRef} {seen : List ScanItem} {scan : Scan} {item : ScanItem}
    (hsound : ∀ account value, item = .entry account value →
      w.consumers snapshot.hash account = some value)
    (h : Held chainOf p n (Scanned w ext snapshot.hash seen scan) st) :
    (scanItem ext pageSize network snapshot number scan item : Seeding σ Scan).Safe
      (indexTerms w ext chainOf p) s st
      (fun st scan' _ => Held chainOf p n (Scanned w ext snapshot.hash (seen ++ [item]) scan') st)
      (Keeps w ext chainOf p n) := by
  cases item with
  | failed err => exact h.mono fun _ h => h.fail err
  | badKey err => exact h.mono fun _ h => h.skip nofun nofun
  | entry account value =>
    have hvalue := hsound account value rfl
    rw [scanItem]
    cases hconsumer : ext.decodeValue value with
    | error e =>
      refine h.mono fun _ h => h.skip nofun ?_
      rintro _ _ ⟨⟩
      rw [content_of_value hvalue, hconsumer]
      rfl
    | ok consumer =>
      have hpushed : Held chainOf p n (Scanned w ext snapshot.hash (seen ++ [.entry account value])
          (scan.push (decodeConsumer ext.toSs58Ext account consumer network snapshot.hash
            snapshot.number))) st := by
        refine h.mono fun store h => ?_
        cases hrecord : decodeConsumer ext.toSs58Ext account consumer network snapshot.hash
            snapshot.number with
        | error e =>
          refine h.skip nofun ?_
          rintro _ _ ⟨⟩
          exact content_undecoded hvalue hconsumer hrecord
        | ok record =>
          obtain ⟨hr, heq⟩ := readAt_decoded hvalue hconsumer hrecord
          exact h.push hr heq
      dsimp only
      split_ifs
      · exact (flush_safe hpushed.store.records hpushed).weaken (fun _ _ _ h => h.2)
      · exact hpushed

theorem scan_safe {snapshot : BlockRef} {items : List ScanItem}
    (hlists : w.Lists snapshot.hash items) (h : Held chainOf p n (Unseeded w ext) st) :
    (Act.fold (scanItem ext pageSize network snapshot number) ⟨[], 0, 0, 0⟩ items :
      Seeding σ Scan).Safe (indexTerms w ext chainOf p) s st
      (fun st scan _ => Held chainOf p n (Scanned w ext snapshot.hash items scan) st)
      (Keeps w ext chainOf p n) := by
  refine (Act.safe_fold (fun rest scan st _ => ∃ seen, items = seen ++ rest ∧
    Held chainOf p n (Scanned w ext snapshot.hash seen scan) st) ?_ ⟨[], rfl, ?_⟩).weaken ?_
  · rintro item rest scan st s ⟨seen, hsplit, h⟩
    refine (scanItem_safe ?_ h).weaken (fun st scan' s h => ⟨seen ++ [item], ?_, h⟩)
    · rintro account value rfl
      refine hlists.sound account value ?_
      rw [hsplit]
      exact List.mem_append_right _ (List.mem_cons_self ..)
    · rw [hsplit, List.append_assoc, List.singleton_append]
  · exact h.mono fun _ h => ⟨h, nofun, nofun, fun _ _ => nofun⟩
  · rintro st scan s ⟨seen, hsplit, h⟩
    rw [List.append_nil] at hsplit
    rw [hsplit]
    exact h

theorem sourced_deleteOtherSnapshots {store : Store} (h : Sourced w ext store) (hash : BlockHash) :
    Sourced w ext (store.deleteOtherSnapshots hash) := by
  intro account row hrow
  rw [Store.confirmedRow_deleteOtherSnapshots, Option.filter_eq_some_iff] at hrow
  exact h account row hrow.1

/-- A scan that went through has covered the block. -/
theorem Scanned.all {hash : BlockHash} {items : List ScanItem} {scan : Scan} {store : Store}
    (h : Scanned w ext hash items scan store) (hlists : w.Lists hash items)
    (hbatch : scan.batch = []) (herrors : scan.iteratorErrors = 0) (account : Account)
    (hsome : (w.content ext hash account).isSome) : Covered store hash account := by
  cases hvalue : w.consumers hash account with
  | none =>
    rw [Chains.content, hvalue] at hsome
    cases hsome
  | some value =>
    have hmem := hlists.complete (h.failed herrors) account value hvalue
    rcases h.found account value hmem hsome with ⟨record, hmem, -⟩ | hcovered
    · rw [hbatch] at hmem
      cases hmem
    · exact hcovered

theorem bootstrapLocked_safe {trigger : BootstrapTrigger}
    (h : Held chainOf p n (Unseeded w ext) st) :
    (bootstrapLocked ext pageSize trigger : Seeding σ BootstrapReport).Safe
      (indexTerms w ext chainOf p) s st (Keeps w ext chainOf p n) (Keeps w ext chainOf p n) := by
  have hsound : ∀ {st : IndexState}, Held chainOf p n (Unseeded w ext) st →
      Held chainOf p n (Sound w ext) st := fun h => h.mono fun _ h => h.sound
  refine Act.Safe.then (safe_fetch (h.read .currentBlock rfl) fun _ _ _ h => hsound h.1)
    fun st snapshot s h => ?_
  obtain ⟨h, -, hplaced⟩ := h
  have hfinal := (hplaced snapshot rfl).2
  refine Act.Safe.then (Q := fun st number _ => number = snapshot.number ∧
    Held chainOf p n (Unseeded w ext) st)
    (Act.safe_ofExcept (fun _ hnumber => ⟨blockNumberDb_ok hnumber, h⟩) fun _ _ => hsound h)
    fun st number s h => ?_
  obtain ⟨rfl, h⟩ := h
  refine Act.Safe.then (safe_fetch (h.read (.ss58Prefix _) rfl) fun _ _ _ h => hsound h.1)
    fun st constant s h => ?_
  refine Act.Safe.then (Q := fun st _ _ => Held chainOf p n (Unseeded w ext) st)
    (Act.safe_ofExcept (fun _ _ => h.1) fun _ _ => hsound h.1) fun st network s h => ?_
  refine Act.Safe.then (safe_fetch (h.read (.consumers _) rfl) fun _ _ _ h => hsound h.1)
    fun st items s h => ?_
  obtain ⟨h, ⟨-, hlists⟩, -⟩ := h
  have hlists := hlists items rfl
  refine (scan_safe hlists h).then fun st scan s h => ?_
  -- the last batch
  refine Act.Safe.then (Q := fun st scan _ => scan.batch = [] ∧
    Held chainOf p n (Scanned w ext snapshot.hash items scan) st) ?_ fun st scan s h => ?_
  · rw [Scan.finish]
    split_ifs with hempty
    · exact ⟨List.isEmpty_iff.mp hempty, h⟩
    · exact flush_safe h.store.records h
  obtain ⟨hbatch, h⟩ := h
  split_ifs with herrors
  · exact h.mono fun _ h => h.unseeded.sound
  have hall := fun store (h : Scanned w ext snapshot.hash items scan store) =>
    h.all hlists hbatch (not_ne_iff.mp herrors)
  refine (safe_run h (fun store _ h => ?_) (fun _ h => h.unseeded.sound) fun _ _ _ h => h).then
    fun st _ s h => ?_
  · exact .seeding h.unseeded.sync h.unseeded.sync
      (sourced_deleteOtherSnapshots h.unseeded.sourced _)
  have hexact : Held chainOf p n (fun store => Unseeded w ext store ∧
      ExactAt w ext store snapshot.hash) st := by
    refine h.mono ?_
    rintro _ ⟨store, now, h, rfl⟩
    exact ⟨⟨h.unseeded.sync, sourced_deleteOtherSnapshots h.unseeded.sourced _⟩,
      exactAt_deleteOtherSnapshots h.unseeded.sourced (hall store h)⟩
  refine (safe_read rfl (fun hr h => h.after hr) hexact).then fun st genesis s h => ?_
  obtain ⟨h, -, hgenesis⟩ := h
  obtain rfl : genesis = chainOf p := hgenesis
  have hmoved : ∀ store now, (Unseeded w ext store ∧ ExactAt w ext store snapshot.hash) →
      Moved w ext (chainOf p) store (store.apply now (.writeCheckpoint
        ⟨snapshot.number, snapshot.hash, some (chainOf p), scan.indexed, scan.skipped⟩)) := by
    rintro store now ⟨hunseeded, hexact⟩
    refine .seeded hunseeded.sync rfl rfl ?_
    rw [← hfinal]
    exact hexact
  refine (safe_run h hmoved (fun _ h => h.1.sound) fun _ _ _ h => h).then fun st _ s h => ?_
  refine h.mono ?_
  rintro _ ⟨store, now, h, rfl⟩
  exact (hmoved store now h).sound h.1.sound

theorem ensureSeeded_safe (h : Unlocked w ext chainOf p n st) :
    (ensureSeeded ext pageSize : Seeding σ (Option BootstrapReport)).Safe
      (indexTerms w ext chainOf p) s st (Frees w ext chainOf p n)
      (Frees w ext chainOf p n) := by
  refine (safe_lock h fun _ _ _ h => h).then fun st _ s h => ?_
  refine safe_locked ((reconcileChainIdentity_safe h).then fun st found s h => ?_)
  cases found with
  | usable => exact h
  | absent | discarded => exact (bootstrapLocked_safe h).then fun _ _ _ h => h

end DeviceUniqueness.Indexer
