import DeviceUniqueness.Indexer.Finalized

/-! Whole runs of the indexers.

    Over a run the checkpoint only goes forward, until a process that follows another chain empties
    both tables at once; the chain of a process stays the same, so that a switch of chains is a
    process that comes in with the new one. Nothing keeps an old process from then going on with a
    checkpoint that is no longer its own: the second half of the file plays such a run. -/

namespace DeviceUniqueness.Indexer

open Schemes

section Runs

variable {w : Chains} {ext : IndexExt} {chainOf : Nat → BlockHash} {now : Time}
  {height : BlockHash → Nat}

abbrev IndexSys := Sys IndexWorld IndexState (Except BootstrapError Unit × SpeculativeCache)

abbrev IndexLabel := Label IndexWorld IndexEvent

/-- On the way from `s` to `t` a process found the checkpoint of another chain and emptied the
    tables. -/
def Discards (M : Machine IndexWorld IndexState IndexEvent (Except BootstrapError Unit ×
    SpeculativeCache)) (chainOf : Nat → BlockHash) (s : IndexSys) (ls : List IndexLabel)
    (t : IndexSys) : Prop :=
  ∃ ls₁ p e ls₂ u v c, ls = ls₁ ++ .op p e :: ls₂ ∧ Run M s ls₁ u ∧ Step M u (.op p e) v ∧
    Run M v ls₂ t ∧ u.st.store.syncState = some c ∧ c.genesisHash ≠ some (chainOf p) ∧
    v.st.store = .empty

theorem init_sound : Sound w ext (IndexState.init now height).store := sourced_of_empty rfl

theorem step_moved (hw : w.Watched) {ls : List IndexLabel} {s t : IndexSys} {l : IndexLabel}
    (r : Reachable (OwnIndexers w ext chainOf) (.init now height) ls s)
    (d : Step (OwnIndexers w ext chainOf) s l t) :
    t.st.store = s.st.store ∨
      ∃ p e, l = .op p e ∧ Moved w ext (chainOf p) s.st.store t.st.store := by
  have hkept := ((indexers_pact hw).reachable (fun _ => Rely.refl) init_sound r).2
  cases l with
  | op p e => exact .inr ⟨p, e, rfl, ((indexers_pact hw).op_guar hkept (fun _ => Rely.refl) d).moved⟩
  | env e =>
    cases d with
    | env done =>
      obtain rfl := done
      cases e <;> exact .inl rfl
  | start p =>
    cases d
    exact .inl rfl
  | kill p =>
    cases d with
    | kill done =>
      obtain rfl := done
      exact .inl rfl

/-- A checkpoint goes only when a process of another chain empties the tables. -/
theorem Moved.lost {own : BlockHash} {store store' : Store} (h : Moved w ext own store store')
    {c : Checkpoint} (hc : store.syncState = some c) (hnone : store'.syncState = none) :
    c.genesisHash ≠ some own ∧ store' = .empty := by
  cases h with
  | kept rows sync => rw [sync, hc] at hnone; cases hnone
  | seeding before => rw [hc] at before; cases before
  | discarded before other after =>
    obtain rfl := Option.some.inj (hc.symm.trans before)
    exact ⟨other, after⟩
  | seeded before => rw [hc] at before; cases before
  | advanced before after => rw [hnone] at after; cases after

/-- A checkpoint that stays is of the same chain and no further back. -/
theorem Moved.forward {own : BlockHash} {store store' : Store} (h : Moved w ext own store store')
    {c c' : Checkpoint} (hc : store.syncState = some c) (hc' : store'.syncState = some c') :
    c'.genesisHash = c.genesisHash ∧ c.lastFinalizedNumber ≤ c'.lastFinalizedNumber := by
  cases h with
  | kept rows sync =>
    obtain rfl := Option.some.inj (hc.symm.trans (sync.symm.trans hc'))
    exact ⟨rfl, le_rfl⟩
  | seeding before => rw [hc] at before; cases before
  | discarded before other after => rw [after] at hc'; cases hc'
  | seeded before => rw [hc] at before; cases before
  | advanced before after stamped same next =>
    obtain rfl := Option.some.inj (hc.symm.trans before)
    obtain rfl := Option.some.inj (hc'.symm.trans after)
    exact ⟨same.trans stamped.symm, next ▸ Nat.le_succ _⟩

theorem run_forward (hw : w.Watched) {ls ls' : List IndexLabel} {s t : IndexSys}
    (r : Reachable (OwnIndexers w ext chainOf) (.init now height) ls s)
    (run : Run (OwnIndexers w ext chainOf) s ls' t) {c : Checkpoint}
    (hc : s.st.store.syncState = some c) :
    (∃ c', t.st.store.syncState = some c' ∧ c'.genesisHash = c.genesisHash ∧
      c.lastFinalizedNumber ≤ c'.lastFinalizedNumber) ∨
    Discards (OwnIndexers w ext chainOf) chainOf s ls' t := by
  induction run with
  | nil => exact .inl ⟨c, hc, rfl, le_rfl⟩
  | @snoc ls' t u l run d ih =>
    rcases ih with ⟨c', hc', hgenesis, hle⟩ | hdiscards
    · rcases step_moved hw (Run.append r run) d with hsame | ⟨p, e, rfl, hmoved⟩
      · exact .inl ⟨c', hsame ▸ hc', hgenesis, hle⟩
      · cases hu : u.st.store.syncState with
        | none =>
          obtain ⟨hother, hempty⟩ := hmoved.lost hc' hu
          exact .inr ⟨ls', p, e, [], t, u, c', rfl, run, d, .nil, hc', hother, hempty⟩
        | some c'' =>
          obtain ⟨hgenesis', hle'⟩ := hmoved.forward hc' hu
          exact .inl ⟨c'', rfl, hgenesis'.trans hgenesis, hle.trans hle'⟩
    · obtain ⟨ls₁, p, e, ls₂, a, b, c', rfl, r₁, d', r₂, hc', hother, hempty⟩ := hdiscards
      exact .inr ⟨ls₁, p, e, ls₂ ++ [l], a, b, c', by simp, r₁, d', r₂.snoc d, hc', hother, hempty⟩

/-- The projection is exact at its checkpoint, in every run in which no process advances the
    checkpoint of a chain it does not follow. -/
theorem projection_exact (hw : w.Watched) {ls : List IndexLabel} {s : IndexSys}
    (r : Reachable (OwnIndexers w ext chainOf) (.init now height) ls s) :
    (∀ c, s.st.store.syncState = some c → ∃ genesis, c.genesisHash = some genesis ∧
      ∀ account, s.st.store.confirmed account =
        w.content ext (w.final genesis c.lastFinalizedNumber) account) ∧
    (∀ l t c, Step (OwnIndexers w ext chainOf) s l t → s.st.store.syncState = some c →
      t.st.store.syncState = none → t.st.store = .empty) ∧
    (∀ ls' t c c', Run (OwnIndexers w ext chainOf) s ls' t → s.st.store.syncState = some c →
      t.st.store.syncState = some c' →
      c'.genesisHash = c.genesisHash ∧ c.lastFinalizedNumber ≤ c'.lastFinalizedNumber ∨
      Discards (OwnIndexers w ext chainOf) chainOf s ls' t) := by
  refine ⟨fun c hc => ?_, fun l t c d hc hnone => ?_, fun ls' t c c' run hc hc' => ?_⟩
  · have hsound := ((indexers_pact hw).reachable (fun _ => Rely.refl) init_sound r).1
    rw [Sound, hc] at hsound
    exact hsound
  · rcases step_moved hw r d with hsame | ⟨p, e, rfl, hmoved⟩
    · rw [hsame, hc] at hnone
      cases hnone
    · exact (hmoved.lost hc hnone).2
  · rcases run_forward hw r run hc with ⟨c'', hc'', hforward⟩ | hdiscards
    · obtain rfl := Option.some.inj (hc'.symm.trans hc'')
      exact .inl hforward
    · exact .inr hdiscards

end Runs

/-! ### Scripted runs -/

instance (genesis : BlockHash) (store : Store) (write : Write) :
    Decidable (OwnWrite genesis store write) := by
  unfold OwnWrite
  split
  · exact decidable_of_iff (store.syncState.all fun c => c.genesisHash = some genesis)
      (by simp [Option.all_eq_true])
  · infer_instance

instance (chainOf : Nat → BlockHash) (p : Nat) (o : IndexAsk) (st : IndexState) :
    Decidable (OwnChain chainOf p o st) := by
  unfold OwnChain
  split <;> infer_instance

section Script

variable (w : Chains) (ext : IndexExt) (chainOf : Nat → BlockHash)
  (items : BlockHash → List ScanItem) (hitems : ∀ hash, w.Lists hash (items hash))

/-- The answer when nothing goes wrong: the finalized head is as high as the chain is finalized, and
    a wake comes as the script says. -/
def smoothly (p : Nat) (st : IndexState) (hint : Wake) :
    (o : IndexAsk) → Option { x : o.Ans × IndexState //
      IndexAsk.Does w p st o x.1 x.2 ∧ IndexAsk.Placed w (chainOf p) st o x.1 }
  | .genesisHash => some ⟨(chainOf p, st), rfl, rfl⟩
  | .currentBlock =>
      let number := st.height (chainOf p)
      some ⟨((.ok ⟨w.final (chainOf p) number, number⟩ : Except String BlockRef), st), rfl,
        by rintro _ ⟨⟩; exact ⟨le_rfl, rfl⟩⟩
  | .atBlock number =>
      some ⟨((.ok ⟨w.final (chainOf p) number, number⟩ : Except String BlockRef), st),
        ⟨rfl, by rintro _ ⟨⟩; rfl⟩, by rintro _ ⟨⟩ _; rfl⟩
  | .events hash => told (w.events hash)
  | .ss58Prefix hash => told (w.ss58Prefix hash)
  | .consumers hash =>
      some ⟨((.ok (items hash) : Except String (List ScanItem)), st),
        ⟨rfl, by rintro _ ⟨⟩; exact hitems hash⟩, trivial⟩
  | .consumer hash account => told (w.consumers hash account)
  | .bestHeader => some ⟨((.ok none : Except String (Option Nat)), st), rfl, trivial⟩
  | .lock =>
      if hlock : st.lock = none then
        some ⟨((.ok () : Except String Unit), st.setLock (some p)), ⟨hlock, rfl⟩, trivial⟩
      else none
  | .tryLock =>
      if hlock : st.lock = none then
        some ⟨((.ok true : Except String Bool), st.setLock (some p)), ⟨hlock, rfl⟩, trivial⟩
      else some ⟨((.ok false : Except String Bool), st),
        ⟨Option.isSome_iff_ne_none.mpr hlock, rfl⟩, trivial⟩
  | .unlock => some ⟨((), st.release p), rfl, trivial⟩
  | .storedGenesis => told (st.store.syncState.map Checkpoint.genesisHash)
  | .storedNumber => told (st.store.syncState.map Checkpoint.lastFinalizedNumber)
  | .speculativeAccounts => told st.store.speculativeAccounts
  | .finalizedAccounts accounts => told (st.store.finalizedAccounts accounts)
  | .begin =>
      some ⟨((.ok () : Except String Unit), st.setTx p (some ⟨st.now, []⟩)), rfl, trivial⟩
  | .exec write =>
      (st.txs p).attach.map fun tx =>
        ⟨((.ok ((tx.1.view st.store).affected write) : Except String Nat),
          st.setTx p (some { tx.1 with writes := tx.1.writes ++ [write] })),
          ⟨tx.1, tx.2, rfl, rfl⟩, trivial⟩
  | .commit =>
      (st.txs p).attach.map fun tx =>
        ⟨((.ok () : Reply Unit), (st.setTx p none).setStore (tx.1.view st.store)),
          ⟨tx.1, tx.2, rfl⟩, trivial⟩
  | .run write =>
      some ⟨((.ok (st.store.affected write) : Reply Nat),
        st.setStore (st.store.apply st.now write)), ⟨rfl, rfl⟩, trivial⟩
  | .wake => some ⟨(hint, st), rfl, trivial⟩
  | .fallbackDue => some ⟨(false, st), rfl, trivial⟩
where
  /-- What a read returns that reads what is there. -/
  told {α : Type} (out : α) : Option { x : Except String α × IndexState //
      (x.2 = st ∧ ∀ y, x.1 = .ok y → y = out) ∧ True } :=
    some ⟨(.ok out, st), ⟨rfl, by rintro _ ⟨⟩; rfl⟩, trivial⟩

/-- The processes are started with their page size, whether they speculate, and their turns. -/
def indexPlayer : Player (Indexers w ext chainOf) Wake (Nat × Bool × Nat) where
  answer p o st hint := smoothly w chainOf items hitems p st hint o
  act e st := some ⟨e.act st, rfl⟩
  image k := ⟨indexer ext k.1 k.2.1 k.2.2 .new, fun _ => ⟨k.1, k.2.1, k.2.2, rfl⟩⟩
  lose p st := ⟨st.release p, rfl⟩

end Script

/-! ### Two chains -/

/-- A hash of one repeated byte. -/
def hashOf (b : UInt8) : BlockHash := ⟨List.replicate 32 b, by simp⟩

/-- The genesis hashes of a chain and of the one that takes its place. -/
def oldGenesis : BlockHash := hashOf 160
def newGenesis : BlockHash := hashOf 176

def aliceAccount : Account := ⟨List.replicate 32 1, by simp⟩

/-- The SCALE value of a consumer: its key, no full username, its lite username. -/
def aliceValue : Bytes := List.replicate 65 2 ++ [0] ++ [32] ++ utf8 "alice.42"

def aliceConsumer : ConsumerInfo := ⟨⟨List.replicate 65 2, by simp⟩, utf8 "alice.42", none⟩

/-- On the old chain alice registers in block 1; on the new one nobody does. -/
def twoChains : Chains where
  events hash := if hash = hashOf 161 then [.ok .other, .ok (.litePersonRegistered aliceAccount)]
    else []
  ss58Prefix _ := 42
  consumers hash account :=
    if hash = hashOf 161 ∧ account = aliceAccount then some aliceValue else none
  final genesis number :=
    if genesis = oldGenesis then (if number = 0 then oldGenesis else hashOf 161)
    else if number = 0 then newGenesis else hashOf 177

def twoChainItems (hash : BlockHash) : List ScanItem :=
  if hash = hashOf 161 then [.entry aliceAccount aliceValue] else []

def aliceDigest : Bytes :=
  [8, 250, 25, 160, 219, 97, 158, 28, 32, 147, 213, 21, 14, 84, 217, 102, 221, 122, 20, 232, 130,
    176, 51, 84, 231, 60, 126, 177, 6, 37, 240, 93, 77, 68, 94, 121, 45, 131, 165, 56, 38, 211, 174,
    178, 35, 81, 86, 14, 57, 245, 8, 211, 114, 5, 197, 20, 231, 58, 75, 128, 249, 185, 252, 246]

def testIndexExt : IndexExt where
  blake2b512 _ := aliceDigest
  bs58 _ := "5C62Ck4UrFPiBtoCmeSrgF7x9yv9mn38446dhCpsi2mLHiFT"
  decodeValue value := if value = aliceValue then .ok aliceConsumer else .error "not a consumer"

theorem twoChains_watched : twoChains.Watched := by
  intro genesis number account hnamed
  simp only [twoChains, Chains.named] at hnamed ⊢
  by_cases hgenesis : genesis = oldGenesis
  · cases number with
    | zero =>
      have hne : account ≠ aliceAccount := by
        rintro rfl
        simp [hgenesis, Except.toOption, ChainEvent.account?] at hnamed
      simp [hne]
    | succ number => simp [hgenesis]
  · have hnew : hashOf 177 ≠ hashOf 161 ∧ newGenesis ≠ hashOf 161 := by decide
    cases number <;> simp [hgenesis, hnew]

theorem twoChains_lists (hash : BlockHash) : twoChains.Lists hash (twoChainItems hash) := by
  constructor
  · intro account value hmem
    rw [twoChainItems] at hmem
    split_ifs at hmem with hhash
    · cases List.mem_singleton.mp hmem
      exact if_pos ⟨hhash, rfl⟩
    · cases hmem
  · intro _ account value hvalue
    simp only [twoChains] at hvalue
    split_ifs at hvalue with h
    cases hvalue
    rw [twoChainItems, if_pos h.1, h.2]
    exact List.mem_singleton.mpr rfl

/-- Process 0 follows the old chain, the others the new one. -/
def repointed (p : Nat) : BlockHash := if p = 0 then oldGenesis else newGenesis

/-- The process goes on, for a number of operations. -/
def goesOn (p n : Nat) : List (Move Wake IndexEvent (Nat × Bool × Nat)) :=
  List.replicate n (.op p .timer)

/-- A process seeds the projection, and after a block it is woken and indexes it. -/
def seedsAndFollows : List (Move Wake IndexEvent (Nat × Bool × Nat)) :=
  [.start 0 (100, true, 1)] ++ goesOn 0 13 ++ [.env (.finalize oldGenesis 1), .op 0 (.block 1)] ++
    goesOn 0 11

/-- As before, but a process of the new chain takes the projection over before the block. -/
def takenOver : List (Move Wake IndexEvent (Nat × Bool × Nat)) :=
  [.start 0 (100, true, 1)] ++ goesOn 0 13 ++ [.start 1 (100, true, 0)] ++ goesOn 1 17 ++
    [.env (.finalize oldGenesis 1), .op 0 (.block 1)] ++ goesOn 0 11

def Store.standsAt (store : Store) (genesis : BlockHash) (number : Nat) : Bool :=
  store.syncState.any fun c => c.genesisHash = some genesis && c.lastFinalizedNumber = number

/-- An old process goes on with the checkpoint of the new chain: it stands at block 1 of a chain
    where nobody is registered, and alice has a confirmed row. -/
theorem foreign_block_indexed :
    twoChains.Watched ∧ ∃ ls s c,
      Reachable (Indexers twoChains testIndexExt repointed) (.init 0 fun _ => 0) ls s ∧
      s.st.store.syncState = some c ∧ c.genesisHash = some newGenesis ∧
      (s.st.store.confirmed aliceAccount).isSome ∧
      twoChains.content testIndexExt (twoChains.final newGenesis c.lastFinalizedNumber)
        aliceAccount = none := by
  refine ⟨twoChains_watched, ?_⟩
  obtain ⟨ls, s, r, htest⟩ := (indexPlayer twoChains testIndexExt repointed twoChainItems
    twoChains_lists).reaches (.init 0 fun _ => 0) takenOver
    (fun _ s => s.st.store.standsAt newGenesis 1 && (s.st.store.confirmed aliceAccount).isSome)
    (by decide +kernel)
  rw [Bool.and_eq_true, Store.standsAt, Option.any_eq_true] at htest
  obtain ⟨⟨c, hc, hstands⟩, halice⟩ := htest
  simp only [Bool.and_eq_true, decide_eq_true_eq] at hstands
  refine ⟨ls, s, c, r, hc, hstands.1, halice, ?_⟩
  rw [hstands.2]
  decide +kernel

/-- A run that meets the condition: the checkpoint stands at the block alice registered in. -/
theorem projection_exact_followed :
    ∃ ls s, Reachable (OwnIndexers twoChains testIndexExt repointed) (.init 0 fun _ => 0) ls s ∧
      s.st.store.standsAt oldGenesis 1 = true ∧
      (s.st.store.confirmed aliceAccount).isSome ∧
      ∀ c, s.st.store.syncState = some c → ∃ genesis, c.genesisHash = some genesis ∧
        ∀ account, s.st.store.confirmed account =
          twoChains.content testIndexExt (twoChains.final genesis c.lastFinalizedNumber)
            account := by
  obtain ⟨ls, s, r, htest⟩ := ((indexPlayer twoChains testIndexExt repointed twoChainItems
    twoChains_lists).given (OwnChain repointed)).reaches (.init 0 fun _ => 0) seedsAndFollows
    (fun _ s => s.st.store.standsAt oldGenesis 1 && (s.st.store.confirmed aliceAccount).isSome)
    (by decide +kernel)
  rw [Bool.and_eq_true] at htest
  exact ⟨ls, s, r, htest.1, htest.2, (projection_exact twoChains_watched r).1⟩

end DeviceUniqueness.Indexer
