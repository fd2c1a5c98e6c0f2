import DeviceUniqueness.Indexer.Exact

/-! Any number of indexers on one database, each following a chain of its own.

    Between two operations of an indexer the others run, blocks are finalized, and any process may
    be lost with all it holds. What it may count on while it has the projection lock is that the
    tables stay as they are; what it owes the others is that every change it makes to them is one
    of `Moved`, and is made under the lock. -/

namespace DeviceUniqueness.Indexer

open Function Schemes

/-- What else happens: time passes, and a chain finalizes blocks. -/
inductive IndexEvent where
  | tick (d : Nat)
  | finalize (genesis : BlockHash) (d : Nat)

def IndexEvent.act (st : IndexState) : IndexEvent → IndexState
  | .tick d => { st with now := st.now + d }
  | .finalize genesis d =>
      { st with height := update st.height genesis (st.height genesis + d) }

/-- `chainOf p` is the genesis of the chain the node of process `p` follows, which stays the same as
    long as the process runs: a node that is pointed to another chain is one of another process. -/
def Indexers (w : Chains) (ext : IndexExt) (chainOf : Nat → BlockHash) :
    Machine IndexWorld IndexState IndexEvent (Except BootstrapError Unit × SpeculativeCache) where
  exec p o st a st' := IndexAsk.Does w p st o a st' ∧ IndexAsk.Placed w (chainOf p) st o a
  env e st st' := st' = e.act st
  boot _ prog := ∃ pageSize speculative turns,
    prog = indexer ext pageSize speculative turns SpeculativeCache.new
  die p st st' := st' = st.release p

def IndexState.init (now : Time) (height : BlockHash → Nat) : IndexState :=
  ⟨now, .empty, none, fun _ => none, height⟩

/-- A process advances a checkpoint only if it is stamped with the chain its node follows. -/
def OwnWrite (genesis : BlockHash) (store : Store) : Write → Prop
  | .advanceCheckpoint .. => ∀ c, store.syncState = some c → c.genesisHash = some genesis
  | _ => True

def OwnChain (chainOf : Nat → BlockHash) (p : Nat) (o : IndexAsk) (st : IndexState) : Prop :=
  match o with
  | .exec write => OwnWrite (chainOf p) st.store write
  | _ => True

/-! ### Terms -/

section Terms

variable (w : Chains) (ext : IndexExt) (chainOf : Nat → BlockHash) (p : Nat)

structure Rely (st st' : IndexState) : Prop where
  sound : Sound w ext st.store → Sound w ext st'.store
  held : st.lock = some p → st'.lock = some p ∧ st'.store = st.store
  tx : st'.txs p = st.txs p
  height : ∀ genesis, st.height genesis ≤ st'.height genesis

structure Guar (st st' : IndexState) : Prop where
  moved : Moved w ext (chainOf p) st.store st'.store
  owned : st.lock ≠ some p → st'.store = st.store
  lock : ∀ q, q ≠ p → st.lock = some q → st'.lock = some q
  txs : ∀ q, q ≠ p → st'.txs q = st.txs q
  height : st'.height = st.height

def indexTerms : Terms IndexWorld IndexState where
  exec o st a st' := OwnChain chainOf p o st ∧ IndexAsk.Does w p st o a st' ∧
    IndexAsk.Placed w (chainOf p) st o a
  rely := Rely w ext p
  guar := Guar w ext chainOf p

variable {w ext chainOf p}

theorem Rely.refl (st : IndexState) : Rely w ext p st st :=
  ⟨id, fun h => ⟨h, rfl⟩, rfl, fun _ => le_rfl⟩

theorem Rely.trans {a b c : IndexState} (h : Rely w ext p a b) (h' : Rely w ext p b c) :
    Rely w ext p a c where
  sound hs := h'.sound (h.sound hs)
  held hl := by
    obtain ⟨hb, hstore⟩ := h.held hl
    obtain ⟨hc, hstore'⟩ := h'.held hb
    exact ⟨hc, hstore'.trans hstore⟩
  tx := h'.tx.trans h.tx
  height genesis := (h.height genesis).trans (h'.height genesis)

/-- What one process guarantees, another relies on. -/
theorem Guar.rely {q : Nat} (hne : p ≠ q) {st st' : IndexState} (h : Guar w ext chainOf p st st') :
    Rely w ext q st st' where
  sound := h.moved.sound
  held hl := by
    refine ⟨h.lock q hne.symm hl, h.owned ?_⟩
    rw [hl]
    exact fun heq => hne (Option.some.inj heq).symm
  tx := h.txs q hne.symm
  height genesis := by rw [h.height]

theorem Guar.same (st : IndexState) : Guar w ext chainOf p st st :=
  ⟨.refl, fun _ => rfl, fun _ _ h => h, fun _ _ => rfl, rfl⟩

theorem rely_env (e : IndexEvent) (st : IndexState) : Rely w ext p st (e.act st) := by
  cases e with
  | tick d => exact ⟨id, fun h => ⟨h, rfl⟩, rfl, fun _ => le_rfl⟩
  | finalize genesis d =>
    refine ⟨id, fun h => ⟨h, rfl⟩, rfl, fun other => ?_⟩
    change st.height other ≤ update st.height genesis (st.height genesis + d) other
    rcases eq_or_ne other genesis with rfl | hne
    · rw [update_self]
      exact Nat.le_add_right _ _
    · rw [update_of_ne hne]

theorem guar_release (st : IndexState) : Guar w ext chainOf p st (st.release p) where
  moved := .refl
  owned _ := rfl
  lock q hne hl := by
    rw [IndexState.release, IndexState.setLock, hl, if_neg fun h => hne (Option.some.inj h)]
  txs q hne := update_of_ne hne _ _
  height := rfl

theorem guar_setTx (st : IndexState) (tx : Option IndexTx) : Guar w ext chainOf p st (st.setTx p tx) :=
  ⟨.refl, fun _ => rfl, fun _ _ h => h, fun _ hne => update_of_ne hne _ _, rfl⟩

theorem guar_lock {st : IndexState} (h : st.lock = none) :
    Guar w ext chainOf p st (st.setLock (some p)) :=
  ⟨.refl, fun _ => rfl, fun _ _ hl => absurd (h.symm.trans hl) nofun, fun _ _ => rfl, rfl⟩

/-- A change of the tables under the lock. -/
theorem guar_setStore {st : IndexState} (h : st.lock = some p) {store : Store}
    (hmoved : Moved w ext (chainOf p) st.store store) : Guar w ext chainOf p st (st.setStore store) :=
  ⟨hmoved, fun hne => absurd h hne, fun _ _ h => h, fun _ _ => rfl, rfl⟩

end Terms

/-! ### What an indexer knows at a point -/

section Points

variable (w : Chains) (ext : IndexExt) (chainOf : Nat → BlockHash) (p n : Nat)

/-- It does not have the lock; its chain is finalized up to `n`. -/
structure Unlocked (st : IndexState) : Prop where
  sound : Sound w ext st.store
  height : n ≤ st.height (chainOf p)

/-- It has the lock, and the tables are as `Q` says. -/
structure Held (Q : Store → Prop) (st : IndexState) : Prop where
  lock : st.lock = some p
  height : n ≤ st.height (chainOf p)
  store : Q st.store

/-- The lock is still held, and the tables are sound. -/
abbrev Keeps {α σ : Type} : IndexState → α → σ → Prop :=
  fun st _ _ => Held chainOf p n (Sound w ext) st

/-- The lock is not held, and the tables are sound. -/
abbrev Frees {α σ : Type} : IndexState → α → σ → Prop :=
  fun st _ _ => Unlocked w ext chainOf p n st

/-- It has the lock and a transaction. -/
structure InTx (R : Store → IndexTx → Prop) (st : IndexState) : Prop where
  lock : st.lock = some p
  height : n ≤ st.height (chainOf p)
  tx : ∃ tx, st.txs p = some tx ∧ R st.store tx

variable {w ext chainOf p n} {st st' : IndexState} {Q Q' : Store → Prop}
  {R R' : Store → IndexTx → Prop}

theorem Unlocked.after (h : Unlocked w ext chainOf p n st) (hr : Rely w ext p st st') :
    Unlocked w ext chainOf p n st' :=
  ⟨hr.sound h.sound, h.height.trans (hr.height _)⟩

theorem Held.after (h : Held chainOf p n Q st) (hr : Rely w ext p st st') :
    Held chainOf p n Q st' := by
  obtain ⟨hlock, hstore⟩ := hr.held h.lock
  exact ⟨hlock, h.height.trans (hr.height _), hstore ▸ h.store⟩

theorem InTx.after (h : InTx chainOf p n R st) (hr : Rely w ext p st st') :
    InTx chainOf p n R st' := by
  obtain ⟨hlock, hstore⟩ := hr.held h.lock
  obtain ⟨tx, htx, hR⟩ := h.tx
  exact ⟨hlock, h.height.trans (hr.height _), tx, hr.tx.trans htx, hstore ▸ hR⟩

theorem Held.mono (h : Held chainOf p n Q st) (hq : ∀ store, Q store → Q' store) :
    Held chainOf p n Q' st :=
  ⟨h.lock, h.height, hq _ h.store⟩

theorem InTx.mono (h : InTx chainOf p n R st) (hr : ∀ store tx, R store tx → R' store tx) :
    InTx chainOf p n R' st := by
  obtain ⟨tx, htx, hR⟩ := h.tx
  exact ⟨h.lock, h.height, tx, htx, hr _ _ hR⟩

theorem InTx.held (h : InTx chainOf p n R st) (hq : ∀ store tx, R store tx → Q store) :
    Held chainOf p n Q st := by
  obtain ⟨tx, -, hR⟩ := h.tx
  exact ⟨h.lock, h.height, hq _ _ hR⟩

end Points

/-! ### The operations -/

section Operations

variable {w : Chains} {ext : IndexExt} {chainOf : Nat → BlockHash} {p n : Nat} {σ ε α : Type}
  {s : σ} {st : IndexState} {err : IndexState → ε → σ → Prop} {wrap : String → ε}

theorem safe_fetch {S : Type} {T : Terms IndexWorld S} {st : S} {err : S → ε → σ → Prop}
    {m : Act IndexWorld σ ε (Except String α)} {Q : S → Except String α → σ → Prop}
    (hm : m.Safe T s st Q err) (herr : ∀ st e s, Q st (.error e) s → err st (wrap e) s) :
    (fetch wrap m).Safe T s st (fun st x s => Q st (.ok x) s) err := by
  refine hm.then fun st answer s hQ => ?_
  cases answer with
  | ok x => exact hQ
  | error e => exact herr st e s hQ

/-- An operation of which two things are known: what an answer leaves, and what an error does. -/
theorem safe_answer {S : Type} {T : Terms IndexWorld S} {st : S} {err : S → ε → σ → Prop}
    {m : Act IndexWorld σ ε (Except String α)} {P : S → α → σ → Prop} {E : S → σ → Prop}
    (herr : ∀ st e s, E st s → err st e s) (hm : m.Safe T s st (fun st answer s =>
      match answer with
      | .ok x => P st x s
      | .error _ => E st s) err) : (fetch wrap m).Safe T s st P err :=
  safe_fetch hm fun st _ s h => herr st _ s h

theorem safe_reply {S : Type} {T : Terms IndexWorld S} {st : S} {err : S → ε → σ → Prop}
    {m : Act IndexWorld σ ε (Reply α)} {P : S → α → σ → Prop} {E : S → σ → Prop}
    (herr : ∀ st e s, E st s → err st e s) (hm : m.Safe T s st (fun st reply s =>
      match reply with
      | .ok x => P st x s
      | _ => E st s) err) : (confirm wrap m).Safe T s st P err := by
  refine hm.then fun st reply s h => ?_
  cases reply with
  | ok x => exact h
  | lost x e | refused e => exact herr st _ s h

/-- The queries: they leave everything as it is. -/
def IndexAsk.reads : IndexAsk → Bool
  | .lock | .tryLock | .unlock | .begin | .exec _ | .commit | .run _ => false
  | _ => true

theorem IndexAsk.reads_same {o : IndexAsk} (ho : o.reads = true) {a : o.Ans} {st st' : IndexState}
    (h : IndexAsk.Does w p st o a st') : st' = st := by
  cases o with
  | genesisHash | currentBlock | bestHeader | wake | fallbackDue => exact h
  | atBlock | events | ss58Prefix | consumers | consumer | storedGenesis | storedNumber
  | speculativeAccounts | finalizedAccounts => exact h.1
  | lock | tryLock | unlock | begin | exec | commit | run => cases ho

/-- A query, made while something is known that outlasts the others. -/
theorem safe_read {o : IndexAsk} (ho : o.reads = true) {P : IndexState → Prop}
    (hP : ∀ {st st'}, Rely w ext p st st' → P st → P st') (h : P st) :
    (ask o).Safe (indexTerms w ext chainOf p) s st
      (fun st a _ => P st ∧ IndexAsk.Does w p st o a st ∧ IndexAsk.Placed w (chainOf p) st o a)
      err := by
  refine Act.safe_op fun st₁ a st₂ hr he => ?_
  obtain ⟨-, hdoes, hplaced⟩ := he
  obtain rfl := IndexAsk.reads_same ho hdoes
  exact ⟨.same _, hP hr h, hdoes, hplaced⟩

theorem Held.read {Q : Store → Prop} (h : Held chainOf p n Q st) (o : IndexAsk)
    (ho : o.reads = true) : (ask o).Safe (indexTerms w ext chainOf p) s st (fun st a _ =>
      Held chainOf p n Q st ∧ IndexAsk.Does w p st o a st ∧ IndexAsk.Placed w (chainOf p) st o a)
      err :=
  safe_read ho (fun hr h => h.after hr) h

theorem safe_begin {Q : Store → Prop} (h : Held chainOf p n Q st)
    (herr : ∀ st e s, Held chainOf p n Q st → err st e s) :
    (fetch wrap (ask .begin)).Safe (indexTerms w ext chainOf p) s st
      (fun st _ _ => InTx chainOf p n (fun store tx => Q store ∧ tx.writes = []) st) err := by
  refine safe_answer herr (Act.safe_op fun st₁ a st₂ hr he => ?_)
  have h₁ := h.after hr
  cases a with
  | ok u =>
    obtain rfl : st₂ = st₁.setTx p (some ⟨st₁.now, []⟩) := he.2.1
    refine ⟨guar_setTx _ _, h₁.lock, h₁.height, ⟨st₁.now, []⟩, ?_, h₁.store, rfl⟩
    exact update_self ..
  | error e =>
    obtain rfl : st₂ = st₁ := he.2.1
    exact ⟨.same _, h₁⟩

/-- What the transaction will have written, and one more statement. -/
def IndexTx.add (tx : IndexTx) (write : Write) : IndexTx := { tx with writes := tx.writes ++ [write] }

@[simp] theorem IndexTx.view_add (tx : IndexTx) (write : Write) (store : Store) :
    (tx.add write).view store = (tx.view store).apply tx.startedAt write := by
  simp [view, add]

theorem safe_exec {R Q : Store → IndexTx → Prop} {write : Write} (h : InTx chainOf p n R st)
    (hQ : ∀ store tx, OwnWrite (chainOf p) store write → R store tx → Q store (tx.add write))
    (herr : ∀ st e s, InTx chainOf p n R st → err st e s) :
    (fetch wrap (ask (.exec write))).Safe (indexTerms w ext chainOf p) s st
      (fun st _ _ => InTx chainOf p n Q st) err := by
  refine safe_answer herr (Act.safe_op fun st₁ a st₂ hr he => ?_)
  have h₁ := h.after hr
  cases a with
  | ok out =>
    obtain ⟨hown, ⟨tx, htx, -, rfl⟩, -⟩ := he
    obtain ⟨tx₀, htx₀, hR⟩ := h₁.tx
    obtain rfl : tx₀ = tx := Option.some.inj (htx₀.symm.trans htx)
    refine ⟨guar_setTx _ _, h₁.lock, h₁.height, tx₀.add write, ?_, hQ _ _ hown hR⟩
    exact update_self ..
  | error e =>
    obtain rfl : st₂ = st₁ := he.2.1
    exact ⟨.same _, h₁⟩

theorem safe_commit {R : Store → IndexTx → Prop} (h : InTx chainOf p n R st)
    (hmoved : ∀ store tx, R store tx → Moved w ext (chainOf p) store (tx.view store))
    (hsound : ∀ store tx, R store tx → Sound w ext store)
    (herr : ∀ st e s, Held chainOf p n (Sound w ext) st → err st e s) :
    (confirm wrap (ask .commit)).Safe (indexTerms w ext chainOf p) s st
      (fun st _ _ => Held chainOf p n (fun store' => ∃ store tx, R store tx ∧
        store' = tx.view store) st) err := by
  refine safe_reply herr (Act.safe_op fun st₁ a st₂ hr he => ?_)
  have h₁ := h.after hr
  obtain ⟨tx, htx, hR⟩ := h₁.tx
  -- the two replies of a commit that took effect
  have hdone : ∀ {st₂}, (∃ tx, st₁.txs p = some tx ∧
      st₂ = (st₁.setTx p none).setStore (tx.view st₁.store)) →
      Guar w ext chainOf p st₁ st₂ ∧ Held chainOf p n (fun store' => Sound w ext store' ∧
        ∃ store tx, R store tx ∧ store' = tx.view store) st₂ := by
    rintro _ ⟨tx', htx', rfl⟩
    obtain rfl : tx = tx' := Option.some.inj (htx.symm.trans htx')
    have hstep := hmoved _ _ hR
    exact ⟨⟨hstep, fun hne => absurd h₁.lock hne, fun _ _ h => h, fun _ hne => update_of_ne hne _ _,
      rfl⟩, h₁.lock, h₁.height, hstep.sound (hsound _ _ hR), _, _, hR, rfl⟩
  cases a with
  | ok u => exact (hdone he.2.1).imp_right fun h => h.mono fun _ => And.right
  | lost u e => exact (hdone he.2.1).imp_right fun h => h.mono fun _ => And.left
  | refused e =>
    obtain rfl : st₂ = st₁.setTx p none := he.2.1
    exact ⟨guar_setTx _ _, h₁.lock, h₁.height, hsound _ _ hR⟩

theorem safe_run {Q : Store → Prop} {write : Write} (h : Held chainOf p n Q st)
    (hmoved : ∀ store now, Q store → Moved w ext (chainOf p) store (store.apply now write))
    (hsound : ∀ store, Q store → Sound w ext store)
    (herr : ∀ st e s, Held chainOf p n (Sound w ext) st → err st e s) :
    (confirm wrap (ask (.run write))).Safe (indexTerms w ext chainOf p) s st
      (fun st _ _ => Held chainOf p n (fun store' => ∃ store now, Q store ∧
        store' = store.apply now write) st) err := by
  refine safe_reply herr (Act.safe_op fun st₁ a st₂ hr he => ?_)
  have h₁ := h.after hr
  have hdone : ∀ {st₂}, st₂ = st₁.setStore (st₁.store.apply st₁.now write) →
      Guar w ext chainOf p st₁ st₂ ∧ Held chainOf p n (fun store' => Sound w ext store' ∧
        ∃ store now, Q store ∧ store' = store.apply now write) st₂ := by
    rintro _ rfl
    have hstep := hmoved _ st₁.now h₁.store
    exact ⟨guar_setStore h₁.lock hstep, h₁.lock, h₁.height, hstep.sound (hsound _ h₁.store), _, _,
      h₁.store, rfl⟩
  cases a with
  | ok out => exact (hdone he.2.1.2).imp_right fun h => h.mono fun _ => And.right
  | lost out e => exact (hdone he.2.1.2).imp_right fun h => h.mono fun _ => And.left
  | refused e =>
    obtain rfl : st₂ = st₁ := he.2.1
    exact ⟨.same _, h₁.mono hsound⟩

theorem safe_lock (h : Unlocked w ext chainOf p n st)
    (herr : ∀ st e s, Unlocked w ext chainOf p n st → err st e s) :
    (fetch wrap (ask .lock)).Safe (indexTerms w ext chainOf p) s st
      (fun st _ _ => Held chainOf p n (Sound w ext) st) err := by
  refine safe_answer herr (Act.safe_op fun st₁ a st₂ hr he => ?_)
  have h₁ := h.after hr
  cases a with
  | ok u =>
    obtain ⟨hnone, rfl⟩ : st₁.lock = none ∧ st₂ = st₁.setLock (some p) := he.2.1
    exact ⟨guar_lock hnone, rfl, h₁.height, h₁.sound⟩
  | error e =>
    obtain rfl : st₂ = st₁ := he.2.1
    exact ⟨.same _, h₁⟩

theorem safe_tryLock (h : Unlocked w ext chainOf p n st)
    (herr : ∀ st e s, Unlocked w ext chainOf p n st → err st e s) :
    (fetch wrap (ask .tryLock)).Safe (indexTerms w ext chainOf p) s st
      (fun st taken _ => if taken then Held chainOf p n (Sound w ext) st
        else Unlocked w ext chainOf p n st) err := by
  refine safe_answer herr (Act.safe_op fun st₁ a st₂ hr he => ?_)
  have h₁ := h.after hr
  cases a with
  | ok taken =>
    cases taken with
    | true =>
      obtain ⟨hnone, rfl⟩ : st₁.lock = none ∧ st₂ = st₁.setLock (some p) := he.2.1
      exact ⟨guar_lock hnone, rfl, h₁.height, h₁.sound⟩
    | false =>
      obtain ⟨-, rfl⟩ : st₁.lock.isSome ∧ st₂ = st₁ := he.2.1
      exact ⟨.same _, h₁⟩
  | error e =>
    obtain rfl : st₂ = st₁ := he.2.1
    exact ⟨.same _, h₁⟩

/-- However the steps end, the lock is given back. -/
theorem safe_locked {m : Act IndexWorld σ ε α}
    (hm : m.Safe (indexTerms w ext chainOf p) s st (Keeps w ext chainOf p n)
      (Keeps w ext chainOf p n)) :
    (locked m).Safe (indexTerms w ext chainOf p) s st
      (Frees w ext chainOf p n) (Frees w ext chainOf p n) := by
  refine Act.Safe.then (Q := Keeps w ext chainOf p n) (Act.safe_attempt hm)
    fun st out s h => ?_
  refine Act.Safe.then (Q := Frees w ext chainOf p n)
    (Act.safe_op fun st₁ a st₂ hr he => ?_) fun st _ s h => ?_
  · have h₁ := h.after hr
    obtain rfl : st₂ = st₁.release p := he.2.1
    exact ⟨guar_release _, h₁.store, h₁.height⟩
  · exact Act.safe_ofExcept (fun _ _ => h) fun _ _ => h

end Operations

end DeviceUniqueness.Indexer
