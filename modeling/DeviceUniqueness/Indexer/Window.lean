import DeviceUniqueness.Schemes.Alone
import DeviceUniqueness.Indexer.Machine

/-! One speculative pass, which has the tables to itself: the caller holds the projection lock.

    Wherever the pass has come to, confirmed rows and checkpoint are as they were. Where it returns,
    the speculative rows are settled: for every account it looked at, what its consumer entry at the
    head decodes to. The blocks the pass speaks of are those the node named when it was asked, and
    the record of the pass tells which they were (`asked`): first the window, then the head. -/

namespace DeviceUniqueness.Indexer

open Schemes

variable {w : Chains} {ext : IndexExt} {p : Nat} {quiet : Prop}

/-! ### What a row should say -/

/-- The record of the account's consumer entry at the block. -/
def Chains.decoded (w : Chains) (ext : IndexExt) (block : BlockRef) (account : Account) :
    Option AssignedUsername :=
  (validatePrefix (w.ss58Prefix block.hash)).toOption.bind fun network =>
    ((w.consumers block.hash account).bind fun value => (ext.decodeValue value).toOption).bind
      fun consumer => (decodeConsumer ext.toSs58Ext account consumer network block.hash
        block.number).toOption

variable {accounts : List Account} {number finalized : Nat} {hash : BlockHash}

namespace Store

variable (store : Store) (now : Time) (account : Account)

theorem pendingRow_isSome : (store.pendingRow account).isSome ↔ account ∈ store.speculativeAccounts := by
  rw [pendingRow, Option.isSome_iff_exists, speculativeAccounts, List.mem_map]
  constructor
  · rintro ⟨row, hrow⟩
    obtain ⟨hlookup, hspec⟩ := Option.filter_eq_some_iff.mp hrow
    exact ⟨⟨account, row⟩, List.mem_filter.mpr ⟨AList.mem_lookup_iff.mp hlookup, hspec⟩, rfl⟩
  · rintro ⟨⟨a, row⟩, hmem, rfl⟩
    obtain ⟨hentry, hspec⟩ := List.mem_filter.mp hmem
    exact ⟨row, Option.filter_eq_some_iff.mpr ⟨AList.mem_lookup_iff.mpr hentry, hspec⟩⟩

theorem mem_finalizedAccounts : account ∈ store.finalizedAccounts accounts ↔
      account ∈ accounts ∧ store.confirmedRow account ≠ none := by
  rw [confirmedRow, Option.ne_none_iff_exists', finalizedAccounts, List.mem_map]
  constructor
  · rintro ⟨⟨a, row⟩, hmem, rfl⟩
    obtain ⟨hentry, hcond⟩ := List.mem_filter.mp hmem
    rw [Bool.and_eq_true, List.contains_iff_mem] at hcond
    exact ⟨hcond.2, row, Option.filter_eq_some_iff.mpr ⟨AList.mem_lookup_iff.mpr hentry, hcond.1⟩⟩
  · rintro ⟨hmem, row, hrow⟩
    obtain ⟨hlookup, hspec⟩ := Option.filter_eq_some_iff.mp hrow
    refine ⟨⟨account, row⟩, List.mem_filter.mpr ⟨AList.mem_lookup_iff.mp hlookup, ?_⟩, rfl⟩
    rw [Bool.and_eq_true, List.contains_iff_mem]
    exact ⟨hspec, hmem⟩

/-- An account has one row, of one kind. -/
theorem pendingRow_of_confirmed (h : store.confirmedRow account ≠ none) :
    store.pendingRow account = none := by
  obtain ⟨row, hrow⟩ := Option.ne_none_iff_exists'.mp h
  obtain ⟨hlookup, hspec⟩ := Option.filter_eq_some_iff.mp hrow
  rw [pendingRow, hlookup, Option.filter_some_neg]
  simpa using hspec

theorem pendingRow_deleteIfSpeculative (gone : Account) :
    (store.deleteIfSpeculative gone).pendingRow account =
      if account = gone then none else store.pendingRow account := by
  rw [deleteIfSpeculative]
  split_ifs with hspec h h
  · rw [h, pendingRow, deleteAccount, Rows.lookup_erase, if_pos rfl]
    rfl
  · rw [pendingRow, deleteAccount, Rows.lookup_erase, if_neg h, pendingRow]
  · rw [h, pendingRow, Option.filter_eq_none_iff]
    intro row hrow hrowSpec
    exact hspec (by rw [holdsSpeculative, hrow]; exact hrowSpec)
  · rfl

/-- Unless the account is confirmed, its row says afterwards what the record says: it was written,
    or it said so before. -/
theorem said_upsertSpeculative (record : AssignedUsername) (n : Nat)
    (h : store.confirmedRow record.accountId = none) :
    ((store.upsertSpeculative now record n).pendingRow account).map Row.said =
      if account = record.accountId then some record.said
      else (store.pendingRow account).map Row.said := by
  rw [upsertSpeculative]
  split_ifs with hadmits haccount haccount
  · have hspec : (record.row n (store.admittedAt record.accountId n)
        (store.createdAt now record.accountId) now).speculative = true :=
      store.admittedAt_isSome hadmits n
    rw [haccount, pendingRow, Rows.lookup_insert, if_pos rfl, Option.filter_some_pos hspec]
    rfl
  · rw [pendingRow, Rows.lookup_insert, if_neg haccount, pendingRow]
  · rw [haccount, pendingRow]
    rw [admits] at hadmits
    cases hrow : store.rows.lookup record.accountId with
    | none =>
      rw [hrow] at hadmits
      exact absurd rfl hadmits
    | some row =>
      have hspec : row.speculative = true := by
        by_contra hnot
        rw [confirmedRow, hrow, Option.filter_some_pos (by simpa using hnot)] at h
        cases h
      simp only [hrow, hspec, Bool.true_and, decide_eq_true_eq, not_not] at hadmits
      rw [Option.filter_some_pos hspec, Option.map_some]
      exact congrArg some hadmits
  · rfl

end Store

/-- In a transaction over `store`, the accounts of `done` are settled at the block, and nothing else
    has changed. -/
structure SettledTip (w : Chains) (ext : IndexExt) (store : Store) (block : BlockRef)
    (done : List Account) (view : Store) : Prop where
  rows : ∀ account, view.confirmedRow account = store.confirmedRow account
  sync : view.syncState = store.syncState
  pending : ∀ account, (view.pendingRow account).map Row.said =
    if account ∈ done then (w.decoded ext block account).map AssignedUsername.said
    else (store.pendingRow account).map Row.said

namespace SettledTip

variable {store view : Store} {block : BlockRef} {done : List Account} {account : Account}

theorem refl : SettledTip w ext store block [] store :=
  ⟨fun _ => rfl, rfl, fun _ => by simp⟩

/-- One more account is settled by a statement that makes its row say what it should. -/
theorem settle (h : SettledTip w ext store block done view) (now : Time) {write : Write}
    (hspec : write.speculates = true)
    (hrow : ∀ other, ((view.apply now write).pendingRow other).map Row.said =
      if other = account then (w.decoded ext block account).map AssignedUsername.said
      else (view.pendingRow other).map Row.said) :
    SettledTip w ext store block (done ++ [account]) (view.apply now write) := by
  obtain ⟨hrows, hsync⟩ := view.apply_speculates now hspec
  refine ⟨fun other => (hrows other).trans (h.rows other), hsync.trans h.sync, fun other => ?_⟩
  rw [hrow, h.pending]
  by_cases hother : other = account
  · simp [hother]
  · simp [hother]

theorem upsert (h : SettledTip w ext store block done view) (now : Time) (n : Nat)
    {record : AssignedUsername} (hrecord : w.decoded ext block account = some record)
    (hid : record.accountId = account) (hfree : store.confirmedRow account = none) :
    SettledTip w ext store block (done ++ [account])
      (view.apply now (.upsertSpeculative record n)) := by
  refine h.settle now rfl fun other => ?_
  have hfree' : view.confirmedRow record.accountId = none := by rw [hid, h.rows, hfree]
  rw [hrecord, ← hid]
  exact view.said_upsertSpeculative now other record n hfree'

theorem delete (h : SettledTip w ext store block done view) (now : Time)
    (hgone : w.decoded ext block account = none) :
    SettledTip w ext store block (done ++ [account])
      (view.apply now (.deleteIfSpeculative account)) := by
  refine h.settle now rfl fun other => ?_
  rw [hgone]
  change ((view.deleteIfSpeculative account).pendingRow other).map Row.said = _
  rw [view.pendingRow_deleteIfSpeculative other account]
  split_ifs <;> rfl

end SettledTip

/-! ### The pass and its record -/

abbrev IndexLog := List (Ev IndexWorld)

/-- The block the node named, if that was the question. -/
def named? : Ev IndexWorld → Option BlockRef
  | ⟨.atBlock _, answer⟩ => Except.toOption (answer : Except String BlockRef)
  | _ => none

/-- The blocks the node named, in the order in which it was asked for them. -/
def asked (log : IndexLog) : List BlockRef := log.filterMap named?

theorem asked_snoc (log : IndexLog) (e : Ev IndexWorld) :
    asked (log ++ [e]) = asked log ++ (named? e).toList := by
  rw [asked, List.filterMap_append, asked]
  cases h : named? e <;> simp [h]

/-- Confirmed rows and checkpoint stay; when the pass is to keep `quiet`, no account becomes
    speculative. -/
structure Undisturbed (quiet : Prop) (st st' : IndexState) : Prop where
  rows : ∀ account, st'.store.confirmedRow account = st.store.confirmedRow account
  sync : st'.store.syncState = st.store.syncState
  quiet : quiet → ∀ account, (st'.store.pendingRow account).isSome →
    (st.store.pendingRow account).isSome

theorem Undisturbed.refl (st : IndexState) : Undisturbed quiet st st :=
  ⟨fun _ => rfl, rfl, fun _ _ h => h⟩

theorem Undisturbed.trans {a b c : IndexState} (h : Undisturbed quiet a b)
    (h' : Undisturbed quiet b c) : Undisturbed quiet a c :=
  ⟨fun account => (h'.rows account).trans (h.rows account), h'.sync.trans h.sync,
    fun hq account hc => h.quiet hq account (h'.quiet hq account hc)⟩

theorem undisturbed_of_store {st st' : IndexState} (h : st'.store = st.store) :
    Undisturbed quiet st st' :=
  ⟨fun _ => by rw [h], by rw [h], fun _ _ hp => by rwa [h] at hp⟩

/-- The operations of a process, as the world does them. -/
abbrev doing (w : Chains) (p : Nat) (o : IndexAsk) (st : IndexState) (a : o.Ans) (st' : IndexState) :
    Prop :=
  IndexAsk.Does w p st o a st'

abbrev passTerms (w : Chains) (p : Nat) (quiet : Prop) : Terms IndexWorld (IndexState × IndexLog) :=
  .alone (doing w p) (Undisturbed quiet)

section Operations

variable {σ ε : Type} {s : σ} {x : IndexState × IndexLog}
  {err : IndexState × IndexLog → ε → σ → Prop} {wrap : String → ε}

/-- A query. The record grows by it, which matters only if it was for a block. -/
theorem alone_read {o : IndexAsk} (ho : o.reads = true) :
    (ask o).Safe (passTerms w p quiet) s x
      (fun y a s' => s = s' ∧ y.1 = x.1 ∧ asked y.2 = asked x.2 ++ (named? ⟨o, a⟩).toList ∧
        IndexAsk.Does w p x.1 o a x.1) err := by
  refine Act.safe_op ?_
  rintro _ a ⟨st', log⟩ rfl ⟨hdoes, hlog⟩
  obtain rfl := IndexAsk.reads_same ho hdoes
  refine ⟨.refl _, rfl, rfl, ?_, hdoes⟩
  rw [hlog]
  exact asked_snoc _ _

/-- The process has a transaction that is as `R` says, over tables that are as they were. -/
structure Writing (p : Nat) (store : Store) (blocks : List BlockRef) (R : Store → Prop)
    (x : IndexState × IndexLog) : Prop where
  same : x.1.store = store
  blocks : asked x.2 = blocks
  tx : ∃ tx, x.1.txs p = some tx ∧ R (tx.view store)

variable {store : Store} {blocks : List BlockRef} {R R' : Store → Prop}

theorem alone_begin (hstore : x.1.store = store) (hblocks : asked x.2 = blocks) (hR : R store)
    (herr : ∀ y e, err y e s) :
    (fetch wrap (ask .begin)).Safe (passTerms w p quiet) s x
      (fun y _ s' => s = s' ∧ Writing p store blocks R y) err := by
  refine safe_answer (E := fun _ s' => s = s') (fun y e s' h => h ▸ herr y e) (Act.safe_op ?_)
  rintro _ a ⟨st', log⟩ rfl ⟨hdoes, hlog⟩
  have hasked : asked log = blocks := by
    rw [← hblocks, show log = _ from hlog, asked_snoc]
    exact List.append_nil _
  cases a with
  | ok u =>
    obtain rfl : st' = _ := hdoes
    refine ⟨undisturbed_of_store rfl, rfl, hstore, hasked, ⟨x.1.now, []⟩, ?_, hR⟩
    exact Function.update_self ..
  | error e =>
    obtain rfl : st' = _ := hdoes
    exact ⟨.refl _, rfl⟩

theorem alone_exec {write : Write} (h : Writing p store blocks R x)
    (hR' : ∀ view now, R view → R' (view.apply now write)) (herr : ∀ y e, err y e s) :
    (fetch wrap (ask (.exec write))).Safe (passTerms w p quiet) s x
      (fun y _ s' => s = s' ∧ Writing p store blocks R' y) err := by
  refine safe_answer (E := fun _ s' => s = s') (fun y e s' h => h ▸ herr y e) (Act.safe_op ?_)
  rintro _ a ⟨st', log⟩ rfl ⟨hdoes, hlog⟩
  have hasked : asked log = blocks := by
    rw [← h.blocks, show log = _ from hlog, asked_snoc]
    exact List.append_nil _
  cases a with
  | ok out =>
    obtain ⟨tx, htx, -, rfl⟩ := hdoes
    obtain ⟨tx₀, htx₀, hR⟩ := h.tx
    obtain rfl : tx₀ = tx := Option.some.inj (htx₀.symm.trans htx)
    refine ⟨undisturbed_of_store rfl, rfl, h.same, hasked, tx₀.add write, ?_, ?_⟩
    · exact Function.update_self ..
    · rw [IndexTx.view_add]
      exact hR' _ _ hR
  | error e =>
    obtain rfl : st' = _ := hdoes
    exact ⟨.refl _, rfl⟩

theorem alone_commit (h : Writing p store blocks R x)
    (hguar : ∀ view, R view → Undisturbed quiet x.1 (x.1.setStore view))
    (herr : ∀ y e, err y e s) :
    (confirm wrap (ask .commit)).Safe (passTerms w p quiet) s x
      (fun y _ s' => s = s' ∧ R y.1.store ∧ asked y.2 = blocks) err := by
  refine safe_reply (E := fun _ s' => s = s') (fun y e s' h => h ▸ herr y e) (Act.safe_op ?_)
  rintro _ a ⟨st', log⟩ rfl ⟨hdoes, hlog⟩
  have hasked : asked log = blocks := by
    rw [← h.blocks, show log = _ from hlog, asked_snoc]
    exact List.append_nil _
  obtain ⟨tx, htx, hR⟩ := h.tx
  -- the two replies of a commit that took effect
  have hdone : (∃ tx, x.1.txs p = some tx ∧
      st' = (x.1.setTx p none).setStore (tx.view x.1.store)) →
      Undisturbed quiet x.1 st' ∧ R st'.store := by
    rintro ⟨tx', htx', rfl⟩
    obtain rfl : tx = tx' := Option.some.inj (htx.symm.trans htx')
    rw [h.same]
    exact ⟨(hguar _ hR).trans (undisturbed_of_store rfl), hR⟩
  cases a with
  | ok u => exact ⟨(hdone hdoes).1, rfl, (hdone hdoes).2, hasked⟩
  | lost u e => exact ⟨(hdone hdoes).1, rfl⟩
  | refused e =>
    obtain rfl : st' = _ := hdoes
    exact ⟨undisturbed_of_store rfl, rfl⟩

end Operations

/-! ### Scanning -/

/-- Every entry of the cache is what the events of its block name. -/
def Fresh (w : Chains) (cache : SpeculativeCache) : Prop :=
  ∀ number hash accounts, cache.get number hash = some accounts →
    accountsFromEvents (w.events hash) = .ok accounts

namespace SpeculativeCache

variable (cache : SpeculativeCache)

theorem get_eq_some : cache.get number hash = some accounts ↔
      cache.entries.lookup number = some ⟨hash, accounts⟩ := by
  rw [get, Option.map_eq_some_iff]
  constructor
  · rintro ⟨⟨hash', accounts'⟩, hentry, rfl⟩
    obtain ⟨hlookup, hhash⟩ := Option.filter_eq_some_iff.mp hentry
    rw [hlookup, ← of_decide_eq_true hhash]
  · intro h
    exact ⟨_, Option.filter_eq_some_iff.mpr ⟨h, decide_eq_true rfl⟩, rfl⟩

theorem get_insert (number number' : Nat) (hash hash' : BlockHash) (accounts : List Account) :
    (cache.insert number hash accounts).get number' hash' =
      if number' = number then (if hash = hash' then some accounts else none)
      else cache.get number' hash' := by
  rw [get, insert]
  split_ifs with hn hh
  · rw [hn, AList.lookup_insert, Option.filter_some_pos (by simpa using hh)]
    rfl
  · rw [hn, AList.lookup_insert, Option.filter_some_neg (by simpa using hh)]
    rfl
  · rw [AList.lookup_insert_ne hn, get]

/-- What is left was there before. -/
theorem get_pruneFinalized (h : (cache.pruneFinalized finalized).get number hash = some accounts) :
    cache.get number hash = some accounts := by
  rw [get_eq_some, ← Option.mem_def, AList.mem_lookup_iff] at h ⊢
  exact (List.mem_filter.mp h).1

end SpeculativeCache

theorem Fresh.insert {cache : SpeculativeCache} (h : Fresh w cache)
    (haccounts : accountsFromEvents (w.events hash) = .ok accounts) (number : Nat) :
    Fresh w (cache.insert number hash accounts) := by
  intro number' hash' accounts' hget
  rw [SpeculativeCache.get_insert] at hget
  split_ifs at hget with hn hh
  · cases hget
    rw [← hh, haccounts]
  · exact h _ _ _ hget

section Pass

variable {x : IndexState × IndexLog} {cache : SpeculativeCache}

/-- However the pass fails, the cache is good for the next one. -/
abbrev Spoiled (w : Chains) {ε : Type} (_ : IndexState × IndexLog) (_ : ε)
    (cache : SpeculativeCache) : Prop :=
  Fresh w cache

theorem scanBlock_alone {affected : List Account} (hcache : Fresh w cache) :
    (scanBlock affected number).Safe (passTerms w p quiet) cache x
      (fun y out cache => y.1 = x.1 ∧ Fresh w cache ∧ ∃ block : BlockRef, block.number = number ∧
        asked y.2 = asked x.2 ++ [block] ∧
        ∀ account, account ∈ out ↔ account ∈ affected ∨ account ∈ w.named block.hash)
      (Spoiled w) := by
  refine Act.Safe.then (safe_fetch (alone_read (o := .atBlock _) rfl) fun _ _ _ h => h.1 ▸ hcache) ?_
  rintro y block _ ⟨rfl, hst, hasked, -, hnumber⟩
  refine Act.Safe.then (Q := fun z cached c => y = z ∧ cache = c ∧ cache = cached)
    (Act.safe_get.mpr ⟨rfl, rfl, rfl⟩) ?_
  rintro _ _ _ ⟨rfl, rfl, rfl⟩
  have hmem : ∀ {accounts}, accountsFromEvents (w.events block.hash) = .ok accounts →
      ∀ account, account ∈ affected ++ accounts ↔
        account ∈ affected ∨ account ∈ w.named block.hash := by
    intro accounts haccounts account
    rw [List.mem_append, mem_accountsFromEvents haccounts]
    rfl
  cases hget : cache.get number block.hash with
  | some accounts => exact ⟨hst, hcache, block, hnumber block rfl, hasked, hmem (hcache _ _ _ hget)⟩
  | none =>
    refine Act.Safe.then (safe_fetch (alone_read (o := .events _) rfl) fun _ _ _ h => h.1 ▸ hcache) ?_
    rintro z events _ ⟨rfl, hst', hasked', -, hevents⟩
    obtain rfl := hevents events rfl
    refine Act.Safe.then (Q := fun u accounts c => z = u ∧ cache = c ∧
      accountsFromEvents (w.events block.hash) = .ok accounts)
      (Act.safe_ofExcept (fun accounts h => ⟨rfl, rfl, h⟩) fun _ _ => hcache) ?_
    rintro _ accounts _ ⟨rfl, rfl, haccounts⟩
    refine ⟨hst'.trans hst, hcache.insert haccounts number, block, hnumber block rfl, ?_,
      hmem haccounts⟩
    rw [hasked', hasked]
    exact List.append_nil _

theorem scan_alone {window : List Nat} (hcache : Fresh w cache) :
    (Act.fold scanBlock [] window).Safe (passTerms w p quiet) cache x
      (fun y named cache => y.1 = x.1 ∧ Fresh w cache ∧ ∃ scanned : List BlockRef,
        scanned.map BlockRef.number = window ∧ asked y.2 = asked x.2 ++ scanned ∧
        ∀ account, account ∈ named ↔ account ∈ scanned.flatMap fun block => w.named block.hash)
      (Spoiled w) := by
  -- what is left of the window, and the blocks that were found for the rest
  refine (Act.safe_fold (fun rest named y cache => y.1 = x.1 ∧ Fresh w cache ∧
    ∃ scanned : List BlockRef, scanned.map BlockRef.number ++ rest = window ∧
      asked y.2 = asked x.2 ++ scanned ∧
      ∀ account, account ∈ named ↔ account ∈ scanned.flatMap fun block => w.named block.hash) ?_
    ⟨rfl, hcache, [], rfl, (List.append_nil _).symm, fun _ => by simp⟩).weaken ?_
  · rintro number rest named y cache ⟨hst, hcache, scanned, hwindow, hasked, hnamed⟩
    refine (scanBlock_alone hcache).weaken ?_
    rintro z named' cache' ⟨hst', hcache', block, hnumber, hasked', hnamed'⟩
    refine ⟨hst'.trans hst, hcache', scanned ++ [block], ?_, ?_, fun account => ?_⟩
    · simp [← hwindow, hnumber]
    · rw [hasked', hasked, List.append_assoc]
    · rw [hnamed', hnamed, List.flatMap_append, List.mem_append]
      simp
  · rintro y named cache' ⟨hst, hcache', scanned, hwindow, hasked, hnamed⟩
    rw [List.append_nil] at hwindow
    exact ⟨hst, hcache', scanned, hwindow, hasked, hnamed⟩

/-! ### Settling -/

/-- What a read of the account at the block comes to. -/
def Found (w : Chains) (ext : IndexExt) (block : BlockRef) (account : Account) :
    Option (Except DecodeError AssignedUsername) → Prop
  | some (.ok record) => w.decoded ext block account = some record ∧ record.accountId = account
  | some (.error _) | none => w.decoded ext block account = none

variable {account : Account}

theorem readConsumer_alone {network : Ss58Prefix} {block : BlockRef}
    (hnetwork : validatePrefix (w.ss58Prefix block.hash) = .ok network) (hcache : Fresh w cache) :
    (readConsumer ext account network block : Speculating _).Safe (passTerms w p quiet) cache x
      (fun y out c => cache = c ∧ y.1 = x.1 ∧ asked y.2 = asked x.2 ∧ Found w ext block account out)
      (Spoiled w) := by
  refine Act.Safe.then (safe_fetch (alone_read (o := .consumer _ _) rfl) fun _ _ _ h => h.1 ▸ hcache) ?_
  rintro y value _ ⟨rfl, hst, hasked, -, hvalue⟩
  have hvalue := hvalue value rfl
  replace hasked : asked y.2 = asked x.2 := hasked.trans (List.append_nil _)
  cases value with
  | none =>
    refine ⟨rfl, hst, hasked, ?_⟩
    rw [Found, Chains.decoded, hnetwork, ← hvalue]
    rfl
  | some value =>
    refine Act.Safe.then (Q := fun z consumer c => cache = c ∧ y = z ∧
      ext.decodeValue value = .ok consumer) (Act.safe_ofExcept ?_ fun _ _ => hcache) ?_
    · intro consumer hconsumer
      cases hdecode : ext.decodeValue value with
      | error e =>
        rw [hdecode] at hconsumer
        cases hconsumer
      | ok c =>
        rw [hdecode] at hconsumer
        cases hconsumer
        exact ⟨rfl, rfl, rfl⟩
    · rintro _ consumer _ ⟨rfl, rfl, hconsumer⟩
      refine ⟨rfl, hst, hasked, ?_⟩
      have hdecoded : w.decoded ext block account =
          (decodeConsumer ext.toSs58Ext account consumer network block.hash
            block.number).toOption := by
        rw [Chains.decoded, hnetwork, ← hvalue, Except.toOption, Option.bind_some, Option.bind_some,
          hconsumer, Except.toOption, Option.bind_some]
      cases hrecord : decodeConsumer ext.toSs58Ext account consumer network block.hash
          block.number with
      | error e => rw [Found, hdecoded, hrecord]; rfl
      | ok record =>
        rw [Found, hdecoded, hrecord]
        exact ⟨rfl, (decodeConsumer_ok hrecord).1⟩

variable {store : Store} {blocks : List BlockRef}

theorem reconcileAccount_alone {network : Ss58Prefix} {block : BlockRef} {numberDb : Nat}
    {report : SpeculativeReport} {done : List Account}
    (hnetwork : validatePrefix (w.ss58Prefix block.hash) = .ok network) (hcache : Fresh w cache)
    (hfree : store.confirmedRow account = none)
    (h : Writing p store blocks (SettledTip w ext store block done) x) :
    (reconcileAccount ext network block numberDb report account).Safe (passTerms w p quiet) cache x
      (fun y _ c => cache = c ∧
        Writing p store blocks (SettledTip w ext store block (done ++ [account])) y)
      (Spoiled w) := by
  refine Act.Safe.then (readConsumer_alone hnetwork hcache) ?_
  rintro y out _ ⟨rfl, hst, hasked, hfound⟩
  have hy : Writing p store blocks (SettledTip w ext store block done) y := by
    obtain ⟨tx, htx, hR⟩ := h.tx
    exact ⟨by rw [hst, h.same], hasked.trans h.blocks, tx, by rw [hst, htx], hR⟩
  rcases out with _ | (e | record)
  · exact Act.Safe.then (alone_exec hy (fun view now hR => hR.delete now hfound) fun _ _ => hcache)
      fun _ _ _ h => h
  · exact Act.Safe.then (alone_exec hy (fun view now hR => hR.delete now hfound) fun _ _ => hcache)
      fun _ _ _ h => h
  · exact Act.Safe.then (alone_exec hy (fun view now hR =>
      hR.upsert now numberDb hfound.1 hfound.2 hfree) fun _ _ => hcache) fun _ _ _ h => h

theorem reconcileAccounts_alone {head : Nat} {affected : List Account} {report : SpeculativeReport}
    (hcache : Fresh w cache) (hfree : ∀ account ∈ affected, x.1.store.confirmedRow account = none)
    (hquiet : quiet → ∀ account ∈ affected, (x.1.store.pendingRow account).isSome) :
    (reconcileAccounts ext head affected report).Safe (passTerms w p quiet) cache x
      (fun y _ c => cache = c ∧ ∃ block : BlockRef, block.number = head ∧
        asked y.2 = asked x.2 ++ [block] ∧ SettledTip w ext x.1.store block affected y.1.store)
      (Spoiled w) := by
  refine Act.Safe.then (safe_fetch (alone_read (o := .atBlock _) rfl) fun _ _ _ h => h.1 ▸ hcache) ?_
  rintro y block _ ⟨rfl, hst, hasked, -, hnumber⟩
  refine Act.Safe.then (Q := fun z _ c => cache = c ∧ y = z)
    (Act.safe_ofExcept (fun _ _ => ⟨rfl, rfl⟩) fun _ _ => hcache) ?_
  rintro _ numberDb _ ⟨rfl, rfl⟩
  refine Act.Safe.then (Q := fun z network c => cache = c ∧ z.1 = x.1 ∧
    asked z.2 = asked x.2 ++ [block] ∧
    validatePrefix (w.ss58Prefix block.hash) = .ok network) ?_ ?_
  · refine Act.Safe.then (safe_fetch (alone_read (o := .ss58Prefix _) rfl) fun _ _ _ h => h.1 ▸ hcache) ?_
    rintro z constant _ ⟨rfl, hst', hasked', -, hconstant⟩
    obtain rfl := hconstant constant rfl
    refine Act.safe_ofExcept (fun network hnetwork => ⟨rfl, hst'.trans hst, ?_, ?_⟩)
      fun _ _ => hcache
    · rw [hasked', hasked]
      exact List.append_nil _
    · cases hvalid : validatePrefix (w.ss58Prefix block.hash) with
      | ok network' =>
        rw [hvalid] at hnetwork
        cases hnetwork
        rfl
      | error e =>
        rw [hvalid] at hnetwork
        cases hnetwork
  rintro z network _ ⟨rfl, hst', hasked', hnetwork⟩
  refine Act.Safe.then (alone_begin (R := SettledTip w ext x.1.store block [])
    (congrArg IndexState.store hst') hasked' .refl fun _ _ => hcache) ?_
  rintro u _ _ ⟨rfl, hu⟩
  refine Act.Safe.then (Act.safe_fold (fun rest _ v c => cache = c ∧ ∃ done,
    done ++ rest = affected ∧ Writing p x.1.store (asked x.2 ++ [block])
      (SettledTip w ext x.1.store block done) v) ?_ ⟨rfl, [], rfl, hu⟩) ?_
  · rintro account rest report v _ ⟨rfl, done, hsplit, hv⟩
    have hmem : account ∈ affected := hsplit ▸ List.mem_append_right _ (List.mem_cons_self ..)
    refine (reconcileAccount_alone hnetwork hcache (hfree account hmem) hv).weaken ?_
    rintro v' _ _ ⟨rfl, hv'⟩
    exact ⟨rfl, done ++ [account], by simpa using hsplit, hv'⟩
  rintro v report _ ⟨rfl, done, hsplit, hv⟩
  obtain rfl : done = affected := by simpa using hsplit
  refine Act.Safe.then (alone_commit hv (fun view hR => ?_) fun _ _ => hcache) ?_
  · refine ⟨fun account => ?_, ?_, fun hq account hsome => ?_⟩
    · rw [hv.same]
      exact hR.rows account
    · rw [hv.same]
      exact hR.sync
    · rw [hv.same]
      by_cases hmem : account ∈ done
      · exact hquiet hq account hmem
      · have hpending := hR.pending account
        rw [if_neg hmem] at hpending
        have hsome' : ((view.pendingRow account).map Row.said).isSome := by
          rw [Option.isSome_map]
          exact hsome
        rwa [hpending, Option.isSome_map] at hsome'
  · rintro y' _ _ ⟨rfl, hR, hblocks⟩
    exact ⟨rfl, block, hnumber block rfl, hblocks, hR⟩

/-- The accounts that may be speculative after the pass: a scanned block names them or they were
    before, and they are not confirmed. -/
def Eligible (w : Chains) (store : Store) (scanned : List BlockRef) (account : Account) : Prop :=
  (account ∈ scanned.flatMap (fun block => w.named block.hash) ∨
    (store.pendingRow account).isSome) ∧ store.confirmedRow account = none

instance (w : Chains) (store : Store) (scanned : List BlockRef) (account : Account) :
    Decidable (Eligible w store scanned account) :=
  inferInstanceAs (Decidable (_ ∧ _))

/-- What a pass that returned has made of the tables. `scanned` and `head` are the blocks the node
    named; the head is read just if there is an account to look at. -/
def Speculates (w : Chains) (ext : IndexExt) (finalized best : Nat) (store : Store)
    (blocks : List BlockRef) (store' : Store) : Prop :=
  ∃ (scanned : List BlockRef) (head : Option BlockRef), blocks = scanned ++ head.toList ∧
    scanned.map BlockRef.number = (speculativePlan finalized best).1 ∧
    (∀ block ∈ head, block.number = max best finalized) ∧
    (head = none → ∀ account, ¬ Eligible w store scanned account) ∧
    ∀ account, (store'.pendingRow account).map Row.said =
      if Eligible w store scanned account then
        (head.bind fun block => w.decoded ext block account).map AssignedUsername.said
      else none

theorem not_eligible_pending {scanned : List BlockRef} (h : ¬ Eligible w store scanned account) :
    store.pendingRow account = none := by
  by_contra hsome
  refine h ⟨.inr (Option.isSome_iff_ne_none.mpr hsome), ?_⟩
  by_contra hconfirmed
  exact hsome (store.pendingRow_of_confirmed account hconfirmed)

theorem indexSpeculativeWindow_alone {best : Nat}
    (hquiet : quiet → (speculativePlan finalized best).1 = []) (hcache : Fresh w cache)
    (hlog : x.2 = []) :
    (indexSpeculativeWindow ext finalized best).Safe (passTerms w p quiet) cache x
      (fun y _ cache => Fresh w cache ∧
        Speculates w ext finalized best x.1.store (asked y.2) y.1.store)
      (Spoiled w) := by
  refine Act.Safe.then (Q := fun z _ c => x = z ∧ Fresh w c) ?_ ?_
  · exact Act.safe_modify.mpr ⟨rfl, fun _ _ _ h => hcache _ _ _ (cache.get_pruneFinalized h)⟩
  rintro _ _ cache ⟨rfl, hcache⟩
  refine Act.Safe.then (scan_alone hcache) ?_
  rintro y named cache ⟨hst, hcache, scanned, hwindow, hasked, hnamed⟩
  replace hasked : asked y.2 = scanned := by rw [hasked, hlog]; rfl
  refine Act.Safe.then
    (safe_fetch (alone_read (o := .speculativeAccounts) rfl) fun _ _ _ h => h.1 ▸ hcache) ?_
  rintro z held _ ⟨rfl, hst', hasked', -, hheld⟩
  obtain rfl := hheld held rfl
  replace hst' : z.1 = x.1 := hst'.trans hst
  replace hasked' : asked z.2 = scanned := (hasked'.trans (List.append_nil _)).trans hasked
  rw [hst]
  set affected := dedupeAccounts (named ++ x.1.store.speculativeAccounts) with haffected
  have hmem : ∀ account, account ∈ affected ↔
      account ∈ scanned.flatMap (fun block => w.named block.hash) ∨
        (x.1.store.pendingRow account).isSome := by
    intro account
    rw [haffected, mem_dedupeAccounts, List.mem_append, hnamed, Store.pendingRow_isSome]
  refine Act.Safe.then (Q := fun u already c => cache = c ∧ u.1 = x.1 ∧ asked u.2 = scanned ∧
    ∀ account ∈ affected, account ∈ already ↔ x.1.store.confirmedRow account ≠ none) ?_ ?_
  · rw [finalizedAccounts]
    split_ifs with hempty
    · refine ⟨rfl, hst', hasked', fun account hmem => ?_⟩
      rw [List.isEmpty_iff.mp hempty] at hmem
      cases hmem
    · refine (safe_fetch (alone_read (o := .finalizedAccounts _) rfl) fun _ _ _ h => h.1 ▸ hcache).weaken ?_
      rintro u already _ ⟨rfl, hst'', hasked'', -, halready⟩
      obtain rfl := halready already rfl
      refine ⟨rfl, hst''.trans hst', (hasked''.trans (List.append_nil _)).trans hasked',
        fun account hmem => ?_⟩
      rw [hst', Store.mem_finalizedAccounts]
      exact and_iff_right hmem
  rintro u already _ ⟨rfl, hst'', hasked'', halready⟩
  have hfilter : ∀ account, account ∈ affected.filter (fun account => !already.contains account) ↔
      Eligible w x.1.store scanned account := by
    intro account
    rw [List.mem_filter, Eligible, ← hmem]
    refine and_congr_right fun hmem => ?_
    rw [Bool.not_eq_true', ← Bool.not_eq_true, List.contains_iff_mem, halready account hmem, not_not]
  dsimp only
  split_ifs with hempty
  · have hnot : ∀ account, ¬ Eligible w x.1.store scanned account := fun account => by
      rw [← hfilter, List.isEmpty_iff.mp hempty]
      exact List.not_mem_nil
    refine ⟨hcache, ⟨scanned, none, ?_, hwindow, by simp, fun _ => hnot, fun account => ?_⟩⟩
    · rw [hasked'']
      exact (List.append_nil _).symm
    · rw [if_neg (hnot account), hst'', not_eligible_pending (hnot account), Option.map_none]
  · refine (reconcileAccounts_alone hcache (fun account h => ?_) fun hq account h => ?_).weaken ?_
    · rw [hst'']
      exact ((hfilter account).mp h).2
    · rw [hst'']
      obtain ⟨hnamed | hpending, -⟩ := (hfilter account).mp h
      · rw [List.map_eq_nil_iff.mp (hwindow.trans (hquiet hq))] at hnamed
        cases hnamed
      · exact hpending
    · rintro v _ _ ⟨rfl, block, hnumber, hblocks, hsettled⟩
      refine ⟨hcache, ⟨scanned, some block, ?_, hwindow, ?_, nofun, fun account => ?_⟩⟩
      · rw [hblocks, hasked'']
        rfl
      · rintro _ ⟨⟩
        exact hnumber
      · rw [hsettled.pending account, hst'']
        by_cases helig : Eligible w x.1.store scanned account
        · rw [if_pos ((hfilter account).mpr helig), if_pos helig]
          rfl
        · rw [if_neg fun h => helig ((hfilter account).mp h), if_neg helig,
            not_eligible_pending helig, Option.map_none]

/-- The pass at any point it comes to, and where it ends. -/
theorem pass_goes {best : Nat} {st st' : IndexState} {t : IndexLog}
    {rest : Prog IndexWorld (Except IndexError SpeculativeReport × SpeculativeCache)}
    (hquiet : quiet → (speculativePlan finalized best).1 = []) (hcache : Fresh w cache)
    (run : Prog.Goes (doing w p) (indexSpeculativeWindow ext finalized best cache) st t rest st') :
    Undisturbed quiet st st' ∧
      (∀ report cache', rest = .ret (.ok report, cache') →
        Speculates w ext finalized best st.store (asked t) st'.store) ∧
      ∀ r cache', rest = .ret (r, cache') → Fresh w cache' := by
  have hsafe : (indexSpeculativeWindow ext finalized best).Safe (passTerms w p quiet) cache (st, [])
      (fun y _ cache => Fresh w cache ∧
        Speculates w ext finalized best st.store (asked y.2) y.1.store) (Spoiled w) :=
    indexSpeculativeWindow_alone hquiet hcache rfl
  obtain ⟨hguar, hend⟩ := Prog.Safe.goes .refl .trans run hsafe
  refine ⟨hguar, ?_, ?_⟩
  · rintro report cache' rfl
    exact hend.2
  · rintro (e | report) cache' rfl
    · exact hend
    · exact hend.1

end Pass

end DeviceUniqueness.Indexer
