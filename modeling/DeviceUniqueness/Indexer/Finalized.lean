import DeviceUniqueness.Indexer.Seeding

/-! The passes keep to their terms, and with them the indexers.

    A finalized block is one transaction: the accounts its events name are settled at the block, and
    the checkpoint moves with them. That the block is of the chain the checkpoint is stamped with is
    not looked at anywhere on the way; it has to be given (`OwnChain`). -/

namespace DeviceUniqueness.Indexer

open Schemes

variable {w : Chains} {ext : IndexExt} {chainOf : Nat → BlockHash} {p n : Nat} {σ : Type} {s : σ}
  {st : IndexState}

/-! ### One block -/

/-- What a read of the account at the block comes to. -/
def Read (w : Chains) (ext : IndexExt) (hash : BlockHash) (account : Account) :
    Option (Except DecodeError AssignedUsername) → Prop
  | some (.ok record) => ReadAt w ext hash record ∧ record.accountId = account
  | some (.error _) | none => w.content ext hash account = none

variable {account : Account} {network : Ss58Prefix} {block : BlockRef} {number : Nat}
  {hash : BlockHash} {store : Store} {tx : IndexTx} {cache : SpeculativeCache}
  {bestHead : Option Nat} {speculative : Bool}

theorem readConsumer_safe {P : IndexState → Prop}
    (hP : ∀ {st st'}, Rely w ext p st st' → P st → P st') (h : P st)
    {err : IndexState → IndexError → σ → Prop} (herr : ∀ st e s, P st → err st e s) :
    (readConsumer ext account network block : Indexing σ _).Safe (indexTerms w ext chainOf p) s st
      (fun st out _ => P st ∧ Read w ext block.hash account out) err := by
  refine Act.Safe.then (safe_fetch (safe_read (o := .consumer _ _) rfl hP h)
    fun st e s h => herr st _ s h.1) fun st value s h => ?_
  obtain ⟨h, ⟨-, hvalue⟩, -⟩ := h
  have hvalue := hvalue value rfl
  cases value with
  | none =>
    refine ⟨h, ?_⟩
    rw [Read, Chains.content, ← hvalue]
    rfl
  | some value =>
    refine Act.Safe.then (Q := fun st consumer _ => P st ∧ ext.decodeValue value = .ok consumer)
      (Act.safe_ofExcept (fun consumer hconsumer => ⟨h, ?_⟩) fun e _ => herr _ _ _ h)
      fun st consumer s h => ?_
    · cases hdecode : ext.decodeValue value with
      | ok c =>
        rw [hdecode] at hconsumer
        cases hconsumer
        rfl
      | error e =>
        rw [hdecode] at hconsumer
        cases hconsumer
    · obtain ⟨h, hconsumer⟩ := h
      refine ⟨h, ?_⟩
      cases hrecord : decodeConsumer ext.toSs58Ext account consumer network block.hash
          block.number with
      | ok record => exact readAt_decoded hvalue.symm hconsumer hrecord
      | error e => exact content_undecoded hvalue.symm hconsumer hrecord

/-- The tables are sound, with the checkpoint at the number. -/
structure At (w : Chains) (ext : IndexExt) (number : Nat) (store : Store) : Prop where
  sound : Sound w ext store
  sync : ∃ c, store.syncState = some c ∧ c.lastFinalizedNumber = number

/-- The transaction has settled these accounts at the block. -/
structure SettledIn (w : Chains) (ext : IndexExt) (number : Nat) (hash : BlockHash)
    (done : List Account) (store : Store) (tx : IndexTx) : Prop where
  before : At w ext number store
  sync : (tx.view store).syncState = store.syncState
  rows : ∀ account, (tx.view store).confirmed account =
    if account ∈ done then w.content ext hash account else store.confirmed account

theorem SettledIn.nil (h : At w ext number store) (hwrites : tx.writes = []) :
    SettledIn w ext number hash [] store tx := by
  have hview : tx.view store = store := by
    rw [IndexTx.view, hwrites]
    rfl
  exact ⟨h, by rw [hview], fun account => by rw [hview, if_neg (by simp)]⟩

theorem SettledIn.snoc {done : List Account} (h : SettledIn w ext number hash done store tx)
    {write : Write} (hw : Settles w ext hash account write) :
    SettledIn w ext number hash (done ++ [account]) store (tx.add write) := by
  obtain ⟨hsync, hrows⟩ := hw (tx.view store) tx.startedAt
  refine ⟨h.before, ?_, fun other => ?_⟩
  · rw [IndexTx.view_add, hsync, h.sync]
  · rw [IndexTx.view_add, hrows, h.rows]
    rcases eq_or_ne other account with rfl | hne
    · rw [if_pos rfl, if_pos (List.mem_append_right _ (List.mem_singleton.mpr rfl))]
    · rw [if_neg hne]
      simp only [List.mem_append, List.mem_singleton, hne, or_false]

theorem indexAccount_safe {numberDb : Nat} {counts : BlockCounts} {done : List Account}
    (h : InTx chainOf p n (SettledIn w ext number block.hash done) st) :
    (indexAccount ext network block numberDb counts account : Indexing σ BlockCounts).Safe
      (indexTerms w ext chainOf p) s st
      (fun st _ _ => InTx chainOf p n (SettledIn w ext number block.hash (done ++ [account])) st)
      (Keeps w ext chainOf p n) := by
  have hsound : ∀ {st}, InTx chainOf p n (SettledIn w ext number block.hash done) st →
      Held chainOf p n (Sound w ext) st := fun h => h.held fun _ _ h => h.before.sound
  -- whichever statement it is, it settles the account
  have hwrite : ∀ {write : Write} {st : IndexState} {s : σ} (counts' : BlockCounts),
      Settles w ext block.hash account write →
      InTx chainOf p n (SettledIn w ext number block.hash done) st →
      (do let _ ← exec write; pure counts' : Indexing σ BlockCounts).Safe
        (indexTerms w ext chainOf p) s st
        (fun st _ _ => InTx chainOf p n (SettledIn w ext number block.hash (done ++ [account])) st)
        (Keeps w ext chainOf p n) := fun _ hw h =>
    Act.Safe.then (safe_exec h (fun _ _ _ h => h.snoc hw) fun _ _ _ h => hsound h) fun _ _ _ h => h
  refine Act.Safe.then (readConsumer_safe (fun hr h => h.after hr) h fun _ _ _ h => hsound h)
    fun st out s h => ?_
  obtain ⟨h, hread⟩ := h
  rcases out with _ | (e | record)
  · exact hwrite _ (settles_delete hread) h
  · exact hwrite _ (settles_delete hread) h
  · obtain ⟨hr, rfl⟩ := hread
    exact hwrite _ (settles_upsert hr numberDb) h

/-- The block is done: its accounts are settled and the checkpoint is about to move to it. -/
structure Advancing (w : Chains) (ext : IndexExt) (own : BlockHash) (number : Nat) (store : Store)
    (tx : IndexTx) : Prop where
  before : At w ext number store
  moved : Moved w ext own store (tx.view store)
  after : At w ext (number + 1) (tx.view store)

theorem SettledIn.advance (hw : w.Watched) {own : BlockHash}
    (hfinal : hash = w.final own (number + 1)) {accounts : List Account}
    (hnamed : ∀ account, account ∈ accounts ↔ account ∈ w.named hash)
    (h : SettledIn w ext number hash accounts store tx) {recordsIndexed failures : Nat}
    (hown : OwnWrite own store (.advanceCheckpoint (number + 1) hash recordsIndexed failures)) :
    Advancing w ext own number store
      (tx.add (.advanceCheckpoint (number + 1) hash recordsIndexed failures)) := by
  subst hfinal
  obtain ⟨c, hc, hnumber⟩ := h.before.sync
  have hstamped := hown c hc
  have hexact : ExactAt w ext store (w.final own number) := by
    have hsound := h.before.sound
    rw [Sound, hc] at hsound
    obtain ⟨genesis, hgenesis, hexact⟩ := hsound
    obtain rfl : genesis = own := Option.some.inj (hgenesis.symm.trans hstamped)
    rw [← hnumber]
    exact hexact
  have hnext := exactAt_next hw hexact hnamed h.rows
  have hsync : ((tx.view store).advanceCheckpoint (number + 1) (w.final own (number + 1))
      recordsIndexed failures).syncState = some { c with
        lastFinalizedNumber := number + 1, lastFinalizedHash := w.final own (number + 1)
        recordsIndexed, decodeFailures := failures } := by
    rw [Store.advanceCheckpoint, h.sync, hc]
    rfl
  have hmoved := Moved.advanced hc hsync hstamped hstamped (by rw [hnumber]) hnext
  refine ⟨h.before, ?_, ?_⟩
  · rw [IndexTx.view_add]
    exact hmoved
  · rw [IndexTx.view_add]
    exact ⟨hmoved.sound h.before.sound, _, hsync, rfl⟩

theorem commitBlock_safe {α : Type} {x : α}
    (h : InTx chainOf p n (Advancing w ext (chainOf p) number) st) :
    (do confirm .database (ask .commit); pure x : Indexing σ α).Safe (indexTerms w ext chainOf p)
      s st (fun st _ _ => Held chainOf p n (At w ext (number + 1)) st) (Keeps w ext chainOf p n) := by
  refine Act.Safe.then (safe_commit h (fun _ _ h => h.moved) (fun _ _ h => h.before.sound)
    fun _ _ _ h => h) fun st _ s h => ?_
  refine h.mono ?_
  rintro _ ⟨store, tx, h, rfl⟩
  exact h.after

theorem indexBlock_safe (hw : w.Watched) {report : IndexReport} (hn : number + 1 ≤ n)
    (h : Held chainOf p n (At w ext number) st) :
    (indexBlock ext (number + 1) report : Indexing σ IndexReport).Safe (indexTerms w ext chainOf p)
      s st (fun st _ _ => Held chainOf p n (At w ext (number + 1)) st) (Keeps w ext chainOf p n) := by
  have hsound : ∀ {st}, Held chainOf p n (At w ext number) st → Held chainOf p n (Sound w ext) st :=
    fun h => h.mono fun _ h => h.sound
  refine Act.Safe.then (safe_fetch (h.read (.atBlock _) rfl) fun _ _ _ h => hsound h.1)
    fun st block s h => ?_
  obtain ⟨h, ⟨-, hnumber⟩, hplaced⟩ := h
  have hnumber : block.number = number + 1 := hnumber block rfl
  have hfinal : block.hash = w.final (chainOf p) (number + 1) :=
    hplaced block rfl (hn.trans h.height)
  refine Act.Safe.then (Q := fun st numberDb _ => numberDb = number + 1 ∧
    Held chainOf p n (At w ext number) st)
    (Act.safe_ofExcept (fun _ hdb => ⟨(blockNumberDb_ok hdb).trans hnumber, h⟩) fun _ _ => hsound h)
    fun st numberDb s h => ?_
  obtain ⟨rfl, h⟩ := h
  refine Act.Safe.then (safe_fetch (h.read (.events _) rfl) fun _ _ _ h => hsound h.1)
    fun st events s h => ?_
  obtain ⟨h, ⟨-, hevents⟩, -⟩ := h
  have hevents : events = w.events block.hash := hevents events rfl
  refine Act.Safe.then (Q := fun st accounts _ => accountsFromEvents events = .ok accounts ∧
    Held chainOf p n (At w ext number) st)
    (Act.safe_ofExcept (fun _ haccounts => ⟨haccounts, h⟩) fun _ _ => hsound h)
    fun st accounts s h => ?_
  obtain ⟨haccounts, h⟩ := h
  have hnamed : ∀ account, account ∈ dedupeAccounts accounts ↔
      account ∈ w.named block.hash := by
    intro account
    rw [mem_dedupeAccounts, mem_accountsFromEvents haccounts, hevents]
    rfl
  have hbegin : ∀ {st : IndexState} {s : σ}, Held chainOf p n (At w ext number) st →
      (fetch .database (ask .begin) : Indexing σ Unit).Safe (indexTerms w ext chainOf p) s st
        (fun st _ _ => InTx chainOf p n (SettledIn w ext number block.hash []) st)
        (Keeps w ext chainOf p n) := fun h =>
    (safe_begin h fun _ _ _ h => hsound h).weaken
      (fun _ _ _ h => h.mono fun _ _ h => .nil h.1 h.2)
  dsimp only
  split_ifs with hempty
  · -- no account is named: only the checkpoint moves
    have hnone : dedupeAccounts accounts = [] := List.isEmpty_iff.mp hempty
    refine Act.Safe.then (hbegin h) fun st _ s h => ?_
    refine Act.Safe.then (safe_exec h (fun store tx hown h =>
      h.advance hw hfinal (by rw [← hnone]; exact hnamed) hown) fun _ _ _ h =>
        h.held fun _ _ h => h.before.sound) fun st _ s h => ?_
    exact commitBlock_safe h
  · refine Act.Safe.then (Q := fun st _ _ => Held chainOf p n (At w ext number) st) ?_
      fun st network s h => ?_
    · refine Act.Safe.then (safe_fetch (h.read (.ss58Prefix _) rfl) fun _ _ _ h => hsound h.1)
        fun st constant s h => ?_
      exact Act.safe_ofExcept (fun _ _ => h.1) fun _ _ => hsound h.1
    refine Act.Safe.then (hbegin h) fun st _ s h => ?_
    refine Act.Safe.then (Q := fun st _ _ => InTx chainOf p n (SettledIn w ext number
      block.hash (dedupeAccounts accounts)) st) ?_ fun st counts s h => ?_
    · refine (Act.safe_fold (fun rest _ st _ => ∃ done, dedupeAccounts accounts = done ++ rest ∧
        InTx chainOf p n (SettledIn w ext number block.hash done) st) ?_
        ⟨[], rfl, h⟩).weaken ?_
      · rintro account rest counts st s ⟨done, hsplit, h⟩
        refine (indexAccount_safe h).weaken (fun st _ s h => ⟨done ++ [account], ?_, h⟩)
        rw [hsplit, List.append_assoc, List.singleton_append]
      · rintro st counts s ⟨done, hsplit, h⟩
        rw [List.append_nil] at hsplit
        rw [hsplit]
        exact h
    refine Act.Safe.then (safe_exec h (fun store tx hown h => h.advance hw hfinal hnamed hown)
      fun _ _ _ h => h.held fun _ _ h => h.before.sound) fun st _ s h => ?_
    exact commitBlock_safe h

/-! ### The finalized range -/

theorem indexFromCheckpoint_safe (hw : w.Watched) {checkpoint : Nat}
    (h : Held chainOf p n (At w ext checkpoint) st) :
    (indexFromCheckpoint ext checkpoint n : Indexing σ _).Safe (indexTerms w ext chainOf p) s st
      (Keeps w ext chainOf p n) (Keeps w ext chainOf p n) := by
  rw [indexFromCheckpoint]
  split_ifs with hle
  · exact h.mono fun _ h => h.sound
  -- the checkpoint is at the block before the first of those still to come
  refine Act.Safe.then (Act.safe_fold (fun rest _ st _ => ∃ number, number ≤ n ∧
    rest = List.range' (number + 1) (n - number) ∧ Held chainOf p n (At w ext number) st) ?_
    ⟨checkpoint, by omega, rfl, h⟩) fun st _ s h => ?_
  · rintro number rest report st s ⟨number', hle', hrange, h⟩
    obtain ⟨m, hm⟩ : ∃ m, n - number' = m + 1 := by
      cases hm : n - number' with
      | zero => rw [hm] at hrange; cases hrange
      | succ m => exact ⟨m, rfl⟩
    rw [hm, List.range'_succ, List.cons.injEq] at hrange
    obtain ⟨rfl, rfl⟩ := hrange
    refine Act.Safe.then (indexBlock_safe hw (by omega) h) fun st report s h => ?_
    exact ⟨number' + 1, by omega, by congr 1; omega, h⟩
  · obtain ⟨number, -, -, h⟩ := h
    exact h.mono fun _ h => h.sound

theorem indexFinalizedRangeLocked_safe (hw : w.Watched) (h : Held chainOf p n (Sound w ext) st) :
    (indexFinalizedRangeLocked ext n : Indexing σ _).Safe (indexTerms w ext chainOf p) s st
      (Keeps w ext chainOf p n) (Keeps w ext chainOf p n) := by
  refine Act.Safe.then (safe_fetch (h.read .storedNumber rfl) fun _ _ _ h => h.1)
    fun st stored s h => ?_
  obtain ⟨h, ⟨-, hstored⟩, -⟩ := h
  have hsync := hstored stored rfl
  cases hc : st.store.syncState with
  | none =>
    obtain rfl : stored = none := by rw [hsync, hc]; rfl
    exact h
  | some c =>
    obtain rfl : stored = some c.lastFinalizedNumber := by rw [hsync, hc]; rfl
    exact indexFromCheckpoint_safe hw ⟨h.lock, h.height, h.store, c, hc, rfl⟩

/-! ### Speculation -/

/-- The transaction has only speculated. -/
structure Speculated (w : Chains) (ext : IndexExt) (store : Store) (tx : IndexTx) : Prop where
  before : Sound w ext store
  writes : ∀ write ∈ tx.writes, write.speculates = true

theorem Speculated.add (h : Speculated w ext store tx) {write : Write}
    (hspec : write.speculates = true) : Speculated w ext store (tx.add write) := by
  refine ⟨h.before, fun other hmem => ?_⟩
  rcases List.mem_append.mp hmem with hmem | hmem
  · exact h.writes other hmem
  · rw [List.mem_singleton.mp hmem]
    exact hspec

theorem Speculated.moved (h : Speculated w ext store tx) (own : BlockHash) :
    Moved w ext own store (tx.view store) := by
  obtain ⟨hrows, hsync⟩ := @Store.foldl_speculates tx.startedAt tx.writes store h.writes
  exact .kept hrows hsync

theorem scanBlock_safe {affected : List Account} (h : Held chainOf p n (Sound w ext) st) :
    (scanBlock affected number).Safe (indexTerms w ext chainOf p) cache st
      (Keeps w ext chainOf p n) (Keeps w ext chainOf p n) := by
  refine Act.Safe.then (safe_fetch (h.read (.atBlock _) rfl) fun _ _ _ h => h.1)
    fun st block cache h => ?_
  refine Act.Safe.then (Q := Keeps w ext chainOf p n) h.1 fun st cached cache h => ?_
  cases cached.get number block.hash with
  | some accounts => exact h
  | none =>
    refine Act.Safe.then (safe_fetch (h.read (.events _) rfl) fun _ _ _ h => h.1)
      fun st events cache h => ?_
    exact Act.Safe.then (Q := Keeps w ext chainOf p n)
      (Act.safe_ofExcept (fun _ _ => h.1) fun _ _ => h.1) fun _ _ _ h => h

theorem reconcileAccount_safe {numberDb : Nat} {report : SpeculativeReport}
    (h : InTx chainOf p n (Speculated w ext) st) :
    (reconcileAccount ext network block numberDb report account).Safe (indexTerms w ext chainOf p)
      cache st (fun st _ _ => InTx chainOf p n (Speculated w ext) st) (Keeps w ext chainOf p n) := by
  have hsound : ∀ {st}, InTx chainOf p n (Speculated w ext) st → Held chainOf p n (Sound w ext) st :=
    fun h => h.held fun _ _ h => h.before
  have hwrite : ∀ {write : Write} {st : IndexState} {cache : SpeculativeCache}
      (report' : Nat → SpeculativeReport), write.speculates = true →
      InTx chainOf p n (Speculated w ext) st →
      (do let affected ← exec write; pure (report' affected) : Speculating SpeculativeReport).Safe
        (indexTerms w ext chainOf p) cache st
        (fun st _ _ => InTx chainOf p n (Speculated w ext) st) (Keeps w ext chainOf p n) :=
    fun _ hspec h => Act.Safe.then
      (safe_exec h (fun _ _ _ h => h.add hspec) fun _ _ _ h => hsound h) fun _ _ _ h => h
  refine Act.Safe.then (readConsumer_safe (fun hr h => h.after hr) h fun _ _ _ h => hsound h)
    fun st out cache h => ?_
  obtain ⟨h, -⟩ := h
  rcases out with _ | (e | record)
  · exact hwrite (fun affected => if affected > 0 then
      { report with accountsRetracted := report.accountsRetracted + 1 } else report) rfl h
  · exact hwrite (fun affected => if affected > 0 then
      { report with
        decodeFailures := report.decodeFailures + 1
        accountsRetracted := report.accountsRetracted + 1 }
      else { report with decodeFailures := report.decodeFailures + 1 }) rfl h
  · exact hwrite (fun affected => if affected > 0 then
      { report with accountsAdmitted := report.accountsAdmitted + 1 } else report) rfl h

theorem reconcileAccounts_safe {head : Nat} {affected : List Account} {report : SpeculativeReport}
    (h : Held chainOf p n (Sound w ext) st) :
    (reconcileAccounts ext head affected report).Safe (indexTerms w ext chainOf p) cache st
      (Keeps w ext chainOf p n) (Keeps w ext chainOf p n) := by
  refine Act.Safe.then (safe_fetch (h.read (.atBlock _) rfl) fun _ _ _ h => h.1)
    fun st block cache h => ?_
  refine Act.Safe.then (Q := Keeps w ext chainOf p n)
    (Act.safe_ofExcept (fun _ _ => h.1) fun _ _ => h.1) fun st numberDb cache h => ?_
  refine Act.Safe.then (Q := Keeps w ext chainOf p n) ?_ fun st network cache h => ?_
  · refine Act.Safe.then (safe_fetch (h.read (.ss58Prefix _) rfl) fun _ _ _ h => h.1)
      fun st constant cache h => ?_
    exact Act.safe_ofExcept (fun _ _ => h.1) fun _ _ => h.1
  refine Act.Safe.then (safe_begin h fun _ _ _ h => h) fun st _ cache h => ?_
  refine Act.Safe.then (Act.safe_fold (fun _ _ st _ => InTx chainOf p n (Speculated w ext) st)
    (fun account _ report st cache h => reconcileAccount_safe h) (h.mono ?_))
    fun st report cache h => ?_
  · rintro store tx ⟨hsound, hwrites⟩
    exact ⟨hsound, by rw [hwrites]; exact nofun⟩
  refine Act.Safe.then (safe_commit h (fun _ _ h => h.moved _) (fun _ _ h => h.before)
    fun _ _ _ h => h) fun st _ cache h => ?_
  refine h.mono ?_
  rintro _ ⟨store, tx, h, rfl⟩
  exact (h.moved (chainOf p)).sound h.before

theorem indexSpeculativeWindow_safe {finalized best : Nat} (h : Held chainOf p n (Sound w ext) st) :
    (indexSpeculativeWindow ext finalized best).Safe (indexTerms w ext chainOf p) cache st
      (Keeps w ext chainOf p n) (Keeps w ext chainOf p n) := by
  refine Act.Safe.then (Q := Keeps w ext chainOf p n) h fun st _ cache h => ?_
  refine Act.Safe.then (Act.safe_fold (fun _ _ st _ => Held chainOf p n (Sound w ext) st)
    (fun _ _ _ _ _ h => scanBlock_safe h) h) fun st named cache h => ?_
  refine Act.Safe.then (safe_fetch (h.read .speculativeAccounts rfl) fun _ _ _ h => h.1)
    fun st held cache h => ?_
  refine Act.Safe.then (Q := Keeps w ext chainOf p n) ?_ fun st already cache h => ?_
  · rw [finalizedAccounts]
    split_ifs
    · exact h.1
    · exact (safe_fetch (h.1.read (.finalizedAccounts _) rfl)
        fun _ _ _ h => h.1).weaken (fun _ _ _ h => h.1)
  dsimp only
  split_ifs
  · exact h
  · exact reconcileAccounts_safe h

/-! ### The process -/

theorem Unlocked.mono (h : Unlocked w ext chainOf p n st) {m : Nat} (hm : m ≤ n) :
    Unlocked w ext chainOf p m st :=
  ⟨h.sound, hm.trans h.height⟩

theorem bestHeadOr_safe (h : Held chainOf p n (Sound w ext) st) :
    (bestHeadOr bestHead : Indexing σ Nat).Safe (indexTerms w ext chainOf p) s st
      (Keeps w ext chainOf p n) (Keeps w ext chainOf p n) := by
  cases bestHead with
  | some best => exact h
  | none =>
    refine Act.Safe.then (safe_fetch (h.read .bestHeader rfl) fun _ _ _ h => h.1)
      fun st header s h => ?_
    cases header with
    | none | some number => exact h.1

theorem reconcileSpeculative_safe {finalized : Nat} (h : Held chainOf p n (Sound w ext) st) :
    (reconcileSpeculative ext finalized bestHead).Safe (indexTerms w ext chainOf p) cache st
      (Keeps w ext chainOf p n) (Keeps w ext chainOf p n) := by
  refine Act.Safe.then (Q := Keeps w ext chainOf p n) (Act.safe_attempt (bestHeadOr_safe h))
    fun st best cache h => ?_
  cases best with
  | error e => exact h
  | ok best =>
    refine Act.Safe.then (Q := Keeps w ext chainOf p n)
      (Act.safe_attempt (indexSpeculativeWindow_safe h)) fun st report cache h => ?_
    cases report with
    | error e | ok report => exact h

theorem passLocked_safe (hw : w.Watched) (h : Held chainOf p n (Sound w ext) st) :
    (passLocked ext n bestHead speculative).Safe (indexTerms w ext chainOf p) cache st
      (Keeps w ext chainOf p n) (Keeps w ext chainOf p n) := by
  refine Act.Safe.then (indexFinalizedRangeLocked_safe hw h) fun st report cache h => ?_
  cases report with
  | none => exact h
  | some report =>
    cases speculative with
    | false => exact h
    | true => exact Act.Safe.then (reconcileSpeculative_safe h) fun _ _ _ h => h

theorem pass_safe (hw : w.Watched) (h : Unlocked w ext chainOf p 0 st) :
    (pass ext bestHead speculative).Safe (indexTerms w ext chainOf p) cache st
      (Frees w ext chainOf p 0) (Frees w ext chainOf p 0) := by
  -- the head is read before the lock is tried, and stays finalized
  refine Act.Safe.then (Q := fun st finalized _ => Unlocked w ext chainOf p finalized st) ?_
    fun st finalized cache h => ?_
  · refine Act.Safe.then (safe_fetch (safe_read (o := .currentBlock) rfl (fun hr h => h.after hr) h)
      fun _ _ _ h => h.1) fun st block cache h => ?_
    obtain ⟨h, -, hplaced⟩ := h
    exact ⟨h.sound, (hplaced block rfl).1⟩
  refine Act.Safe.then (safe_tryLock h fun _ _ _ h => h.mono (Nat.zero_le _))
    fun st taken cache h => ?_
  cases taken with
  | false => exact Unlocked.mono h (Nat.zero_le _)
  | true =>
    exact (safe_locked (passLocked_safe hw h)).mono (fun _ _ _ h => h.mono (Nat.zero_le _))
      fun _ _ _ h => h.mono (Nat.zero_le _)

theorem runPass_safe (hw : w.Watched) {ε : Type} {err : IndexState → ε → SpeculativeCache → Prop}
    (h : Unlocked w ext chainOf p 0 st) :
    (runPass ext bestHead speculative).Safe (indexTerms w ext chainOf p) cache st
      (Frees w ext chainOf p 0) err :=
  Act.Safe.then (Q := Frees w ext chainOf p 0)
    (Act.safe_attempt (pass_safe hw h)) fun _ _ _ h => h

theorem turn_safe (hw : w.Watched) {ε : Type} {err : IndexState → ε → SpeculativeCache → Prop}
    (h : Unlocked w ext chainOf p 0 st) :
    (turn ext speculative).Safe (indexTerms w ext chainOf p) cache st
      (Frees w ext chainOf p 0) err := by
  refine Act.Safe.then (safe_read (o := .wake) rfl (fun hr h => h.after hr) h)
    fun st wake cache h => ?_
  cases wake with
  | block number | timer => exact runPass_safe hw h.1
  | resubscribe =>
    refine Act.Safe.then (safe_read (o := .fallbackDue) rfl (fun hr h => h.after hr) h.1)
      fun st due cache h => ?_
    cases due with
    | true => exact runPass_safe hw h.1
    | false => exact h.1

theorem dropLeftovers_safe (h : Unlocked w ext chainOf p 0 st) :
    (dropLeftovers : Seeding σ Unit).Safe (indexTerms w ext chainOf p) s st
      (Frees w ext chainOf p 0) (Frees w ext chainOf p 0) := by
  have hmoved : ∀ (store : Store) (now : Time), Sound w ext store →
      Moved w ext (chainOf p) store (store.apply now .clearSpeculative) := by
    intro store now _
    obtain ⟨hrows, hsync⟩ := store.apply_speculates now (rfl : Write.clearSpeculative.speculates = true)
    exact .kept hrows hsync
  refine Act.Safe.then (safe_tryLock h fun _ _ _ h => h) fun st taken s h => ?_
  cases taken with
  | false => exact h
  | true =>
    refine safe_locked (Act.Safe.then (safe_run h hmoved (fun _ h => h) fun _ _ _ h => h)
      fun st _ s h => ?_)
    refine h.mono ?_
    rintro _ ⟨store, now, h, rfl⟩
    exact (hmoved store now h).sound h

theorem indexer_safe (hw : w.Watched) {pageSize : Nat} {turns : Nat}
    (h : Unlocked w ext chainOf p 0 st) :
    (indexer ext pageSize speculative turns).Safe (indexTerms w ext chainOf p) cache st
      (Frees w ext chainOf p 0) (Frees w ext chainOf p 0) := by
  refine Act.Safe.then (dropLeftovers_safe h) fun st _ cache h => ?_
  refine Act.Safe.then (ensureSeeded_safe h) fun st _ cache h => ?_
  exact Act.safe_forEach (fun _ st _ => Unlocked w ext chainOf p 0 st)
    (fun _ _ _ _ h => turn_safe hw h) h

/-! ### All of them -/

/-- The indexers, in runs in which nobody advances the checkpoint of a chain it does not follow. -/
abbrev OwnIndexers (w : Chains) (ext : IndexExt) (chainOf : Nat → BlockHash) :
    Machine IndexWorld IndexState IndexEvent (Except BootstrapError Unit × SpeculativeCache) :=
  (Indexers w ext chainOf).given (OwnChain chainOf)

theorem indexers_pact (hw : w.Watched) :
    Pact (OwnIndexers w ext chainOf) (indexTerms w ext chainOf) fun st => Sound w ext st.store where
  exec h := h
  trans := Rely.trans
  guar hne h := h.rely hne
  env h := h ▸ rely_env _ _
  die hne h := h ▸ (guar_release _ : Guar w ext chainOf _ _ _).rely hne
  inv_guar h hs := h.moved.sound hs
  inv_env {e st st'} h hs := by
    obtain rfl : st' = e.act st := h
    exact (rely_env (p := 0) e st).sound hs
  inv_die h hs := by
    rw [h]
    exact hs
  boot := by
    rintro p _ st ⟨pageSize, speculative, turns, rfl⟩ hs
    have hsafe : (indexer ext pageSize speculative turns).Safe (indexTerms w ext chainOf p) .new st
        (Frees w ext chainOf p 0) (Frees w ext chainOf p 0) :=
      indexer_safe hw ⟨hs, Nat.zero_le _⟩
    exact Prog.Safe.mono (fun _ _ _ => trivial) hsafe

end DeviceUniqueness.Indexer
