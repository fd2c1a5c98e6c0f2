import DeviceUniqueness.Indexer.Window
import DeviceUniqueness.Indexer.Projected

/-! The cache of a speculative pass changes nothing but the questions it saves.

    A pass looks at each block of its window once, by number, and asks for the hash first: an entry
    under another hash is as good as none. So a pass with a cache that earlier passes left, and a
    pass with an empty one, ask and are told the same, but for the events of blocks already known. -/

namespace DeviceUniqueness.Indexer

open Schemes

variable {w : Chains} {ext : IndexExt}

/-- The cache after any number of passes, over whatever the node named in each of them, whether they
    returned or failed. -/
inductive LeftBy (w : Chains) (ext : IndexExt) : SpeculativeCache → Prop
  | new : LeftBy w ext .new
  | pass {cache cache' : SpeculativeCache} {p finalized best : Nat} {st st' : IndexState}
      {t : IndexLog} {r : Except IndexError SpeculativeReport} (before : LeftBy w ext cache)
      (run : Prog.Goes (doing w p) (indexSpeculativeWindow ext finalized best cache) st t
        (.ret (r, cache')) st') : LeftBy w ext cache'

variable {cache : SpeculativeCache} {number : Nat}

theorem LeftBy.fresh (h : LeftBy w ext cache) : Fresh w cache := by
  induction h with
  | new => exact nofun
  | pass _ run ih => exact (pass_goes (nofun : False → _) ih run).2.2 _ _ rfl

/-! ### What a cache saves -/

def IndexAsk.isEvents : IndexAsk → Bool
  | .events _ => true
  | _ => false

/-- The events of a block are known by its hash. -/
def EventsKnown (w : Chains) : (o : IndexAsk) → o.Ans → Prop
  | .events hash, answer => answer = .ok (w.events hash)
  | _, _ => False

/-- Of the blocks still to come, one cache knows at most the truth and the other nothing. -/
def Ahead (w : Chains) (window : List Nat) (cache empty : SpeculativeCache) : Prop :=
  window.Nodup ∧ ∀ number ∈ window, ∀ hash, empty.get number hash = none ∧
    ∀ accounts, cache.get number hash = some accounts →
      accountsFromEvents (w.events hash) = .ok accounts

theorem Ahead.tail {window : List Nat} {empty cache' empty' : SpeculativeCache}
    (h : Ahead w (number :: window) cache empty)
    (hcache : ∀ number' hash, number' ≠ number → cache'.get number' hash = cache.get number' hash)
    (hempty : ∀ number' hash, number' ≠ number → empty'.get number' hash = empty.get number' hash) :
    Ahead w window cache' empty' := by
  obtain ⟨hnodup, hrest⟩ := h
  obtain ⟨hnot, hnodup⟩ := List.nodup_cons.mp hnodup
  refine ⟨hnodup, fun number' hmem hash => ?_⟩
  have hne : number' ≠ number := fun heq => hnot (heq ▸ hmem)
  rw [hcache _ _ hne, hempty _ _ hne]
  exact hrest number' (List.mem_cons_of_mem _ hmem) hash

theorem get_insert_ne (cache : SpeculativeCache) (hash : BlockHash) (accounts : List Account)
    (number' : Nat) (hash' : BlockHash) (hne : number' ≠ number) :
    (cache.insert number hash accounts).get number' hash' = cache.get number' hash' := by
  rw [SpeculativeCache.get_insert, if_neg hne]

section Steps

variable {σ ε α : Type} {s s' : σ} {Q : α → σ → σ → Prop} {wrap : String → ε}

theorem spares_ask {o : IndexAsk} {Q : o.Ans → σ → σ → Prop} (h : ∀ a, Q a s s') :
    Act.Spares (EventsKnown w) Q (ask o : Act IndexWorld σ ε o.Ans) (ask o) s s' :=
  Act.spares_op h

theorem spares_fetch {m m' : Act IndexWorld σ ε (Except String α)}
    (hm : Act.Spares (EventsKnown w) (fun r s s' => ∀ x, r = .ok x → Q x s s') m m' s s') :
    Act.Spares (EventsKnown w) Q (fetch wrap m) (fetch wrap m') s s' := by
  refine hm.then fun r s s' h => Act.spares_ofExcept fun x hx => h x ?_
  cases r with
  | ok y =>
    cases hx
    rfl
  | error e => cases hx

theorem spares_confirm {m m' : Act IndexWorld σ ε (Reply α)}
    (hm : Act.Spares (EventsKnown w) (fun _ s s' => ∀ x, Q x s s') m m' s s') :
    Act.Spares (EventsKnown w) Q (confirm wrap m) (confirm wrap m') s s' :=
  hm.then fun _ _ _ h => Act.spares_ofExcept fun x _ => h x

end Steps

/-- A block that is there: what one pass finds in its cache, the other asks for. The two passes
    differ, so the programs are compared as they stand. -/
theorem scanFound_spares {affected : List Account} {window : List Nat} {empty : SpeculativeCache}
    (h : Ahead w (number :: window) cache empty) (block : BlockRef) :
    let found (c : SpeculativeCache) : Speculating (List Account) :=
      match c.get number block.hash with
      | some accounts => pure (affected ++ accounts)
      | none => do
          let events ← fetchEvents block.hash
          let accounts ← Act.ofExcept (accountsFromEvents events)
          Act.modify fun cache => cache.insert number block.hash accounts
          pure (affected ++ accounts)
    Act.Spares (EventsKnown w) (fun _ cache empty => Ahead w window cache empty) (found cache)
      (found empty) cache empty := by
  dsimp only
  obtain ⟨hnone, hknown⟩ := h.2 number (List.mem_cons_self ..) block.hash
  rw [hnone]
  cases hget : cache.get number block.hash with
  | some accounts =>
    have haccounts := hknown accounts hget
    refine .skip (I := IndexWorld) (o := IndexAsk.events block.hash)
      (a := .ok (w.events block.hash)) rfl ?_
    change Prog.Spares _ _ _ (((Act.ofExcept (accountsFromEvents (w.events block.hash)) >>=
      fun accounts => (Act.modify fun cache => cache.insert number block.hash accounts) >>=
        fun _ => pure (affected ++ accounts)) : Speculating (List Account)) empty)
    rw [haccounts]
    refine .ret ⟨rfl, fun _ _ => h.tail (fun _ _ _ => rfl) ?_⟩
    exact get_insert_ne empty block.hash accounts
  | none =>
    refine Act.Spares.then (Q := fun _ c e => cache = c ∧ empty = e)
      (spares_fetch (spares_ask (o := .events _) fun _ _ _ => ⟨rfl, rfl⟩)) ?_
    rintro events _ _ ⟨rfl, rfl⟩
    refine Act.Spares.then (Q := fun _ c e => cache = c ∧ empty = e)
      (Act.spares_ofExcept fun _ _ => ⟨rfl, rfl⟩) ?_
    rintro accounts _ _ ⟨rfl, rfl⟩
    exact .ret ⟨rfl, fun _ _ => h.tail (get_insert_ne cache block.hash accounts)
      (get_insert_ne empty block.hash accounts)⟩

theorem scanBlock_spares {affected : List Account} {window : List Nat} {empty : SpeculativeCache}
    (h : Ahead w (number :: window) cache empty) :
    Act.Spares (EventsKnown w) (fun _ cache empty => Ahead w window cache empty)
      (scanBlock affected number) (scanBlock affected number) cache empty := by
  refine Act.Spares.then (Q := fun _ c e => cache = c ∧ empty = e)
    (spares_fetch (spares_ask (o := .atBlock _) fun _ _ _ => ⟨rfl, rfl⟩)) ?_
  rintro block _ _ ⟨rfl, rfl⟩
  exact scanFound_spares h block

/-- Steps that do not look at the cache. -/
abbrev Blind {α : Type} (w : Chains) (m : Speculating α) : Prop :=
  ∀ cache empty, Act.Spares (EventsKnown w) (fun _ _ _ => True) m m cache empty

theorem reconcileAccount_blind {network : Ss58Prefix} {block : BlockRef} {numberDb : Nat}
    {report : SpeculativeReport} {account : Account} :
    Blind w (reconcileAccount ext network block numberDb report account) := by
  intro cache empty
  refine Act.Spares.then (Q := fun _ _ _ => True) ?_ fun out _ _ _ => ?_
  · refine Act.Spares.then (Q := fun _ _ _ => True)
      (spares_fetch (spares_ask (o := .consumer ..) fun _ _ _ => trivial)) fun value _ _ _ => ?_
    cases value with
    | none => exact Act.spares_pure trivial
    | some value =>
      exact Act.Spares.then (Q := fun _ _ _ => True) (Act.spares_ofExcept fun _ _ => trivial)
        fun _ _ _ _ => Act.spares_pure trivial
  · rcases out with _ | (e | record) <;>
    · exact Act.Spares.then (Q := fun _ _ _ => True)
        (spares_fetch (spares_ask (o := .exec _) fun _ _ _ => trivial)) fun _ _ _ _ => Act.spares_pure trivial

theorem reconcileAccounts_blind {head : Nat} {affected : List Account}
    {report : SpeculativeReport} : Blind w (reconcileAccounts ext head affected report) := by
  intro cache empty
  refine Act.Spares.then (Q := fun _ _ _ => True)
    (spares_fetch (spares_ask (o := .atBlock _) fun _ _ _ => trivial)) fun block _ _ _ => ?_
  refine Act.Spares.then (Q := fun _ _ _ => True) (Act.spares_ofExcept fun _ _ => trivial)
    fun numberDb _ _ _ => ?_
  refine Act.Spares.then (Q := fun _ _ _ => True) ?_ fun network _ _ _ => ?_
  · exact Act.Spares.then (Q := fun _ _ _ => True)
      (spares_fetch (spares_ask (o := .ss58Prefix _) fun _ _ _ => trivial))
      fun _ _ _ _ => Act.spares_ofExcept fun _ _ => trivial
  refine Act.Spares.then (Q := fun _ _ _ => True)
    (spares_fetch (spares_ask (o := .begin) fun _ _ _ => trivial)) fun _ _ _ _ => ?_
  refine Act.Spares.then (Q := fun _ _ _ => True) (Act.spares_fold (fun _ _ _ => True)
    (fun account _ report cache empty _ => reconcileAccount_blind cache empty) trivial)
    fun report _ _ _ => ?_
  exact Act.Spares.then (Q := fun _ _ _ => True)
    (spares_confirm (spares_ask (o := .commit) fun _ _ => trivial)) fun _ _ _ _ => Act.spares_pure trivial

theorem indexSpeculativeWindow_spares {finalized best : Nat} (hcache : Fresh w cache) :
    Act.Spares (EventsKnown w) (fun _ _ _ => True) (indexSpeculativeWindow ext finalized best)
      (indexSpeculativeWindow ext finalized best) cache .new := by
  have hwindow : (speculativePlan finalized best).1.Nodup := by
    rw [speculativePlan]
    cases planSpeculativeWindow finalized best with
    | nothing | standDown => exact List.nodup_nil
    | scan fromBlock toBlock => exact List.nodup_range'
  have hahead : Ahead w (speculativePlan finalized best).1 (cache.pruneFinalized finalized)
      (SpeculativeCache.new.pruneFinalized finalized) :=
    ⟨hwindow, fun number _ hash => ⟨rfl, fun accounts h =>
      hcache _ _ _ (cache.get_pruneFinalized h)⟩⟩
  refine Act.Spares.then (Q := fun _ c e => cache.pruneFinalized finalized = c ∧
    SpeculativeCache.new.pruneFinalized finalized = e) (.ret ⟨rfl, fun _ _ => ⟨rfl, rfl⟩⟩) ?_
  rintro _ _ _ ⟨rfl, rfl⟩
  refine Act.Spares.then (Act.spares_fold (Ahead w)
    (fun number window affected cache empty h => scanBlock_spares h) hahead) fun named _ _ _ => ?_
  refine Act.Spares.then (Q := fun _ _ _ => True)
    (spares_fetch (spares_ask (o := .speculativeAccounts) fun _ _ _ => trivial)) fun held _ _ _ => ?_
  refine Act.Spares.then (Q := fun _ _ _ => True) ?_ fun already _ _ _ => ?_
  · rw [finalizedAccounts]
    split_ifs
    · exact Act.spares_pure trivial
    · exact spares_fetch (spares_ask (o := .finalizedAccounts _) fun _ _ _ => trivial)
  · dsimp only
    split_ifs
    · exact Act.spares_pure trivial
    · exact reconcileAccounts_blind _ _

theorem window_of_quiet {finalized best : Nat}
    (h : best ≤ finalized ∨ maxSpeculativeWindow < best - finalized) :
    (speculativePlan finalized best).1 = [] := by
  rw [speculativePlan, planSpeculativeWindow]
  split_ifs with hle hwide
  · rfl
  · rfl
  · omega

/-- A speculative pass, with any cache that earlier passes left: wherever it is, confirmed rows and
    checkpoint are untouched, and over a window that is empty or too wide no account has become
    speculative; where it returns, the speculative rows are exactly those of the blocks it was
    given; and it comes to what it would come to with an empty cache. -/
theorem speculation_exact {cache : SpeculativeCache} (hcache : LeftBy w ext cache)
    (p finalized best : Nat) (st : IndexState) :
    (∀ t rest st', Prog.Goes (doing w p) (indexSpeculativeWindow ext finalized best cache) st t
        rest st' →
      (∀ account, st'.store.confirmedRow account = st.store.confirmedRow account) ∧
      st'.store.syncState = st.store.syncState ∧
      (best ≤ finalized ∨ maxSpeculativeWindow < best - finalized → ∀ account,
        (st'.store.pendingRow account).isSome → (st.store.pendingRow account).isSome) ∧
      ∀ report cache', rest = .ret (.ok report, cache') →
        Speculates w ext finalized best st.store (asked t) st'.store) ∧
    (∀ t r cache' st', Prog.Goes (doing w p) (indexSpeculativeWindow ext finalized best cache) st t
        (.ret (r, cache')) st' →
      ∃ t' cache'', Prog.Goes (doing w p) (indexSpeculativeWindow ext finalized best .new) st t'
        (.ret (r, cache'')) st' ∧
        Prog.asides IndexAsk.isEvents t' = Prog.asides IndexAsk.isEvents t) ∧
    ∀ t r cache' st', Prog.Goes (doing w p) (indexSpeculativeWindow ext finalized best .new) st t
        (.ret (r, cache')) st' →
      (∀ hash (err : String), (⟨.events hash, .error err⟩ : Ev IndexWorld) ∉ t) →
      ∃ t' cache'', Prog.Goes (doing w p) (indexSpeculativeWindow ext finalized best cache) st t'
        (.ret (r, cache'')) st' ∧
        Prog.asides IndexAsk.isEvents t' = Prog.asides IndexAsk.isEvents t := by
  have hspares : Act.Spares (EventsKnown w) (fun _ _ _ => True)
      (indexSpeculativeWindow ext finalized best) (indexSpeculativeWindow ext finalized best)
      cache .new := indexSpeculativeWindow_spares hcache.fresh
  have hspared : ∀ {o : IndexAsk} {a : o.Ans}, EventsKnown w o a → o.isEvents = true := by
    intro o a hk
    cases o <;> first | rfl | exact hk.elim
  refine ⟨fun t rest st' run => ?_, fun t r cache' st' run => ?_, fun t r cache' st' run htold => ?_⟩
  · obtain ⟨hguar, hexact, -⟩ := pass_goes window_of_quiet hcache.fresh run
    exact ⟨hguar.rows, hguar.sync, hguar.quiet, hexact⟩
  · obtain ⟨t', ⟨r', cache''⟩, run', ⟨rfl, -⟩, hasides⟩ := hspares.long hspared (by
      intro o a st hk
      cases o <;> first | exact hk.elim | skip
      obtain rfl := hk
      exact ⟨rfl, fun events h => (Except.ok.inj h).symm⟩) run
    exact ⟨t', cache'', run', hasides⟩
  · obtain ⟨t', ⟨r', cache''⟩, run', ⟨rfl, -⟩, hasides⟩ := hspares.short hspared
      (fun e => ∀ hash (err : String), e ≠ ⟨.events hash, .error err⟩) (by
      intro o a a' st st' hk htold hdone
      cases o <;> first | exact hk.elim | skip
      obtain rfl := hk
      cases a' with
      | error e => exact absurd rfl (htold _ _)
      | ok events =>
        obtain ⟨rfl, hevents⟩ := hdone
        exact ⟨congrArg Except.ok (hevents events rfl), rfl⟩) run
      (fun e he hash err heq => htold hash err (heq ▸ he))
    exact ⟨t', cache'', run', hasides⟩

/-! ### A block that is replaced -/

/-- A pass over block 1 while the node follows the given chain, and nothing goes wrong. -/
def passOver (genesis : BlockHash) (cache : SpeculativeCache) (st : IndexState) :
    Option { x : (Except IndexError SpeculativeReport × SpeculativeCache) × IndexState //
      ∃ t, Prog.Goes (doing twoChains 0) (indexSpeculativeWindow testIndexExt 0 1 cache) st t
        (.ret x.1) x.2 } :=
  (indexSpeculativeWindow testIndexExt 0 1 cache).play
    (fun o st => (smoothly twoChains (fun _ => genesis) twoChainItems twoChains_lists 0 st .timer
      o).map fun x => ⟨x.1, x.2.1⟩) st

/-- Alice is speculative and her block cached, and the pass that ended as `out` says has retracted
    her. -/
def retractedBy (cache : SpeculativeCache) (st : IndexState)
    (out : (Except IndexError SpeculativeReport × SpeculativeCache) × IndexState) : Bool :=
  (cache.get 1 (hashOf 161)).isSome && (st.store.pendingRow aliceAccount).isSome &&
    (out.1.1.toOption.map SpeculativeReport.accountsRetracted == some 1) &&
    (out.2.store.pendingRow aliceAccount).isNone

/-- Block 1 names alice and is scanned; then it is replaced by one that does not. -/
theorem passOver_replaced :
    (passOver oldGenesis .new (.init 0 fun _ => 0)).any (fun first =>
      (passOver newGenesis first.1.1.2 first.1.2).any fun second =>
        retractedBy first.1.1.2 first.1.2 second.1) = true := by
  decide +kernel

/-- The second pass, with what the first one cached, retracts what the first one admitted. -/
theorem replaced_block_retracted :
    ∃ cache st t report cache' st', LeftBy twoChains testIndexExt cache ∧
      (cache.get 1 (hashOf 161)).isSome = true ∧
      (st.store.pendingRow aliceAccount).isSome = true ∧
      Prog.Goes (doing twoChains 0) (indexSpeculativeWindow testIndexExt 0 1 cache) st t
        (.ret (.ok report, cache')) st' ∧
      report.accountsRetracted = 1 ∧ st'.store.pendingRow aliceAccount = none ∧
      Speculates twoChains testIndexExt 0 1 st.store (asked t) st'.store := by
  have hruns := passOver_replaced
  rw [Option.any_eq_true] at hruns
  obtain ⟨⟨⟨⟨r, cache⟩, st⟩, t, first⟩, -, hsecond⟩ := hruns
  rw [Option.any_eq_true] at hsecond
  obtain ⟨⟨⟨⟨r', cache'⟩, st'⟩, t', second⟩, -, htest⟩ := hsecond
  simp only [retractedBy, Bool.and_eq_true, beq_iff_eq, Option.isNone_iff_eq_none] at htest
  obtain ⟨⟨⟨hcached, hpending⟩, hreport⟩, hgone⟩ := htest
  have hleft : LeftBy twoChains testIndexExt cache := .pass .new first
  cases r' with
  | error e => cases hreport
  | ok report =>
    have hexact := (speculation_exact hleft 0 0 1 st).1 t' _ st' second
    exact ⟨cache, st, t', report, cache', st', hleft, hcached, hpending, second,
      Option.some.inj hreport, hgone, hexact.2.2.2 report cache' rfl⟩

end DeviceUniqueness.Indexer
