import DeviceUniqueness.Indexer.Sync

/-! What the projection is for: its confirmed rows are the consumer entries of one finalized block,
    decoded, and the checkpoint says of which.

    While there is no checkpoint the rows may be left over from any number of snapshots that were
    not finished, but each of them is an entry of the block whose hash it carries (`sourced`). That
    is enough for the next snapshot: it writes what it reads and deletes what carries another hash.
    `Move` lists how one step may change the tables from there. -/

namespace DeviceUniqueness.Indexer

open Schemes

/-! ### The chain, decoded -/

/-- What the consumer entry of the account at the block decodes to. -/
def Chains.content (w : Chains) (ext : IndexExt) (hash : BlockHash) (account : Account) :
    Option Content :=
  ((w.consumers hash account).bind fun value => (ext.decodeValue value).toOption).bind
    ConsumerInfo.content

/-- The account a watched event is about. -/
def ChainEvent.account? : ChainEvent → Option Account
  | .litePersonRegistered account | .personRegistered account | .identifierKeyUpdated account
  | .consumerRegistered account => some account
  | .other => none

/-- The accounts the watched events of the block name. -/
def Chains.named (w : Chains) (hash : BlockHash) : List Account :=
  (w.events hash).filterMap fun event => event.toOption.bind ChainEvent.account?

/-- A block changes no consumer entry of an account its watched events do not name. -/
def Chains.Watched (w : Chains) : Prop :=
  ∀ genesis number account, account ∉ w.named (w.final genesis (number + 1)) →
    w.consumers (w.final genesis (number + 1)) account = w.consumers (w.final genesis number) account

variable {account : Account} {hash : BlockHash} {record : AssignedUsername}

theorem decodeConsumer_ok {ext : Ss58Ext} {consumer : ConsumerInfo} {network : Ss58Prefix}
    {number : Nat} (h : decodeConsumer ext account consumer network hash number = .ok record) :
    record.accountId = account ∧ record.accountIdSs58 = address ext account network ∧
      record.snapshotHash = hash ∧ consumer.content = some record.content := by
  rw [ConsumerInfo.content]
  rw [decodeConsumer] at h
  cases hnames : decodeUsernames consumer.liteUsername consumer.fullUsername with
  | error e =>
    rw [hnames] at h
    cases h
  | ok names =>
    rw [hnames] at h
    cases h
    exact ⟨rfl, rfl, rfl, rfl⟩

theorem decodeConsumer_error {ext : Ss58Ext} {consumer : ConsumerInfo} {network : Ss58Prefix}
    {number : Nat} {e : DecodeError}
    (h : decodeConsumer ext account consumer network hash number = .error e) :
    consumer.content = none := by
  rw [ConsumerInfo.content]
  rw [decodeConsumer] at h
  cases hnames : decodeUsernames consumer.liteUsername consumer.fullUsername with
  | error e => rfl
  | ok names =>
    rw [hnames] at h
    cases h

section Events

variable {events : List (Except String ChainEvent)} {accounts : List Account}

theorem events_decoded {decoded : List ChainEvent}
    (h : (events.mapM fun event => event.mapError IndexError.storage) = .ok decoded) :
    events = decoded.map .ok := by
  induction events generalizing decoded with
  | nil =>
    cases h
    rfl
  | cons event events ih =>
    rw [List.mapM_cons] at h
    obtain ⟨first, hfirst, h⟩ := bind_eq_ok.mp h
    obtain ⟨rest, hrest, h⟩ := bind_eq_ok.mp h
    cases h
    cases event with
    | error e => cases hfirst
    | ok event =>
      cases hfirst
      rw [ih hrest, List.map_cons]

theorem findEvents_ok {read : ChainEvent → Option Account}
    (h : findEvents read events = .ok accounts) :
    accounts = events.filterMap fun event => event.toOption.bind read := by
  rw [findEvents] at h
  obtain ⟨decoded, hd, h⟩ := bind_eq_ok.mp h
  cases h
  rw [events_decoded hd, List.filterMap_map]
  rfl

/-- The four passes over the events find every account a watched event names. -/
theorem mem_accountsFromEvents (h : accountsFromEvents events = .ok accounts) : account ∈ accounts ↔
      account ∈ events.filterMap fun event => event.toOption.bind ChainEvent.account? := by
  rw [accountsFromEvents] at h
  obtain ⟨lite, hlite, h⟩ := bind_eq_ok.mp h
  obtain ⟨person, hperson, h⟩ := bind_eq_ok.mp h
  obtain ⟨updated, hupdated, h⟩ := bind_eq_ok.mp h
  obtain ⟨registered, hregistered, h⟩ := bind_eq_ok.mp h
  cases h
  rw [findEvents_ok hlite, findEvents_ok hperson, findEvents_ok hupdated, findEvents_ok hregistered]
  simp only [List.mem_append, List.mem_filterMap]
  constructor
  · rintro (((⟨event, hmem, he⟩ | ⟨event, hmem, he⟩) | ⟨event, hmem, he⟩) | ⟨event, hmem, he⟩) <;>
    · refine ⟨event, hmem, ?_⟩
      rcases event with e | event
      · cases he
      · cases event <;> first | exact he | cases he
  · rintro ⟨event, hmem, he⟩
    rcases event with e | event
    · cases he
    · cases event with
      | litePersonRegistered a => exact .inl (.inl (.inl ⟨_, hmem, he⟩))
      | personRegistered a => exact .inl (.inl (.inr ⟨_, hmem, he⟩))
      | identifierKeyUpdated a => exact .inl (.inr ⟨_, hmem, he⟩)
      | consumerRegistered a => exact .inr ⟨_, hmem, he⟩
      | other => cases he

end Events

theorem mem_dedupeAccounts {accounts : List Account} :
    account ∈ dedupeAccounts accounts ↔ account ∈ accounts := by
  rw [dedupeAccounts, List.mem_insertionSort, List.mem_dedup]

/-! ### The purpose of the tables -/

section Purpose

variable (w : Chains) (ext : IndexExt)

/-- Every confirmed row is an entry of the block whose hash it carries. -/
def Sourced (store : Store) : Prop :=
  ∀ account row, store.confirmedRow account = some row →
    w.content ext row.snapshotHash account = some row.content

/-- The confirmed rows are the entries of the block that decode. -/
def ExactAt (store : Store) (hash : BlockHash) : Prop :=
  ∀ account, store.confirmed account = w.content ext hash account

/-- With a checkpoint the rows are exact at its block. -/
def Sound (store : Store) : Prop :=
  match store.syncState with
  | none => Sourced w ext store
  | some c => ∃ genesis, c.genesisHash = some genesis ∧
      ExactAt w ext store (w.final genesis c.lastFinalizedNumber)

/-- What one step of a process that follows the chain `own` may do to the tables. -/
inductive Moved (own : BlockHash) (store store' : Store) : Prop
  | kept (rows : ∀ account, store'.confirmedRow account = store.confirmedRow account)
      (sync : store'.syncState = store.syncState)
  | seeding (before : store.syncState = none) (after : store'.syncState = none)
      (sourced : Sourced w ext store')
  | discarded {c : Checkpoint} (before : store.syncState = some c)
      (other : c.genesisHash ≠ some own) (after : store' = .empty)
  | seeded {c : Checkpoint} (before : store.syncState = none) (after : store'.syncState = some c)
      (stamped : c.genesisHash = some own)
      (exact : ExactAt w ext store' (w.final own c.lastFinalizedNumber))
  | advanced {c c' : Checkpoint} (before : store.syncState = some c)
      (after : store'.syncState = some c') (stamped : c.genesisHash = some own)
      (same : c'.genesisHash = some own)
      (next : c'.lastFinalizedNumber = c.lastFinalizedNumber + 1)
      (exact : ExactAt w ext store' (w.final own c'.lastFinalizedNumber))

variable {w ext} {own : BlockHash} {store store' : Store}

theorem Moved.refl : Moved w ext own store store := .kept (fun _ => rfl) rfl

theorem sourced_of_empty (h : store.rows = ∅) : Sourced w ext store := by
  intro account row hrow
  rw [Store.confirmedRow, h, AList.lookup_empty] at hrow
  cases hrow

theorem Moved.sound (h : Moved w ext own store store') (hs : Sound w ext store) :
    Sound w ext store' := by
  cases h with
  | kept rows sync =>
    have hconfirmed : ∀ account, store'.confirmed account = store.confirmed account := by
      intro account
      rw [Store.confirmed, rows, Store.confirmed]
    rw [Sound, sync]
    rw [Sound] at hs
    split at hs
    · exact fun account row hrow => hs account row (rows account ▸ hrow)
    · obtain ⟨genesis, hstamped, hexact⟩ := hs
      exact ⟨genesis, hstamped, fun account => (hconfirmed account).trans (hexact account)⟩
  | seeding before after sourced =>
    rw [Sound, after]
    exact sourced
  | discarded before other after =>
    rw [after]
    exact sourced_of_empty rfl
  | seeded before after stamped exact =>
    rw [Sound, after]
    exact ⟨_, stamped, exact⟩
  | advanced before after stamped same next exact =>
    rw [Sound, after]
    exact ⟨_, same, exact⟩

/-- The record is what the block holds for its account. -/
structure ReadAt (w : Chains) (ext : IndexExt) (hash : BlockHash) (record : AssignedUsername) :
    Prop where
  block : record.snapshotHash = hash
  content : w.content ext hash record.accountId = some record.content

/-- The account has a confirmed row, and it was read at the block. -/
def Covered (store : Store) (hash : BlockHash) (account : Account) : Prop :=
  ∃ row, store.confirmedRow account = some row ∧ row.snapshotHash = hash

theorem Sourced.upsert (h : Sourced w ext store) (hr : ReadAt w ext hash record) (now : Time)
    (n : Nat) : Sourced w ext (store.upsert now record n) := by
  intro account row hrow
  rw [Store.confirmedRow_upsert] at hrow
  split_ifs at hrow with heq
  · cases hrow
    rw [heq]
    change w.content ext record.snapshotHash record.accountId = some record.content
    rw [hr.block]
    exact hr.content
  · exact h account row hrow

theorem covered_upsert (hr : record.snapshotHash = hash) (now : Time) (n : Nat)
    (h : Covered store hash account ∨ account = record.accountId) :
    Covered (store.upsert now record n) hash account := by
  rw [Covered, Store.confirmedRow_upsert]
  split_ifs with heq
  · exact ⟨_, rfl, hr⟩
  · exact h.resolve_right heq

/-- A batch of records of one block, written over the tables. -/
theorem upserts_spec {records : List AssignedUsername} (now : Time) (n : Nat)
    (hrecords : ∀ record ∈ records, ReadAt w ext hash record) :
    ∀ {store : Store}, Sourced w ext store →
      let after := (records.map fun record => Write.upsert record n).foldl (Store.apply · now) store
      Sourced w ext after ∧ after.syncState = store.syncState ∧
        ∀ account, (Covered store hash account ∨ ∃ record ∈ records, record.accountId = account) →
          Covered after hash account := by
  induction records with
  | nil =>
    intro store hs
    refine ⟨hs, rfl, fun account h => ?_⟩
    exact h.resolve_right (by simp)
  | cons record records ih =>
    intro store hs
    have hr := hrecords record (List.mem_cons_self ..)
    obtain ⟨hsourced, hsync, hcovered⟩ := ih
      (fun record hmem => hrecords record (List.mem_cons_of_mem _ hmem)) (hs.upsert hr now n)
    refine ⟨hsourced, hsync, fun account h => hcovered account ?_⟩
    rcases h with h | ⟨record', hmem, rfl⟩
    · exact .inl (covered_upsert hr.block now n (.inl h))
    · rcases List.mem_cons.mp hmem with rfl | hmem
      · exact .inl (covered_upsert hr.block now n (.inr rfl))
      · exact .inr ⟨record', hmem, rfl⟩

/-- What is left of a finished snapshot: the rows of other blocks go, and those that stay are all
    the block holds. -/
theorem exactAt_deleteOtherSnapshots (hs : Sourced w ext store)
    (hall : ∀ account, (w.content ext hash account).isSome → Covered store hash account) :
    ExactAt w ext (store.deleteOtherSnapshots hash) hash := by
  intro account
  rw [Store.confirmed, Store.confirmedRow_deleteOtherSnapshots]
  cases hrow : store.confirmedRow account with
  | none =>
    cases hcontent : w.content ext hash account with
    | none => rfl
    | some content =>
      obtain ⟨row, hrow', -⟩ := hall account (by rw [hcontent]; rfl)
      rw [hrow] at hrow'
      cases hrow'
  | some row =>
    by_cases heq : row.snapshotHash = hash
    · rw [Option.filter_some_pos (by simpa using heq), Option.map_some, ← heq]
      exact (hs account row hrow).symm
    · rw [Option.filter_some_neg (by simpa using heq), Option.map_none]
      cases hcontent : w.content ext hash account with
      | none => rfl
      | some content =>
        obtain ⟨row', hrow', heq'⟩ := hall account (by rw [hcontent]; rfl)
        rw [hrow] at hrow'
        cases hrow'
        exact absurd heq' heq

/-- The write settles the account at the block and touches nothing else. -/
def Settles (w : Chains) (ext : IndexExt) (hash : BlockHash) (account : Account) (write : Write) :
    Prop :=
  ∀ (store : Store) (now : Time), (store.apply now write).syncState = store.syncState ∧
    ∀ other, (store.apply now write).confirmed other =
      if other = account then w.content ext hash account else store.confirmed other

theorem settles_upsert (hr : ReadAt w ext hash record) (n : Nat) :
    Settles w ext hash record.accountId (.upsert record n) := by
  intro store now
  refine ⟨rfl, fun other => ?_⟩
  rw [Store.confirmed, Store.apply, Store.confirmedRow_upsert]
  split_ifs
  · exact hr.content.symm
  · rfl

theorem settles_delete (hnone : w.content ext hash account = none) :
    Settles w ext hash account (.deleteAccount account) := by
  intro store now
  refine ⟨rfl, fun other => ?_⟩
  rw [Store.confirmed, Store.apply, Store.confirmedRow_deleteAccount]
  split_ifs
  · exact hnone.symm
  · rfl

/-- From one finalized block to the next: settling the accounts its events name is enough. -/
theorem exactAt_next (hw : w.Watched) {genesis : BlockHash} {n : Nat}
    (hexact : ExactAt w ext store (w.final genesis n)) {accounts : List Account}
    (hnamed : ∀ account, account ∈ accounts ↔ account ∈ w.named (w.final genesis (n + 1)))
    (hsettled : ∀ account, store'.confirmed account =
      if account ∈ accounts then w.content ext (w.final genesis (n + 1)) account
      else store.confirmed account) :
    ExactAt w ext store' (w.final genesis (n + 1)) := by
  intro account
  rw [hsettled]
  split_ifs with hmem
  · rfl
  · rw [hexact account, Chains.content, Chains.content,
      hw genesis n account fun h => hmem ((hnamed account).mpr h)]

end Purpose

end DeviceUniqueness.Indexer
