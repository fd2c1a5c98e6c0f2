import DeviceUniqueness.Outbox.Schema
import DeviceUniqueness.Schemes.Since
import DeviceUniqueness.Schemes.System

/-! The ring roots that proofs are checked against.

    One refresher keeps a snapshot of the accepted roots in a cache. It checks the genesis hash of the
    node, then reads the roots at every tick until a read fails, and starts over. Requests read the
    cache at any time, and take no snapshot older than a maximum age. -/

namespace DeviceUniqueness.Turn

open Function Schemes

/-! ### A snapshot -/

inductive RingExponent where
  | r2e9
  | r2e10
  | r2e14
  deriving DecidableEq

inductive RingDomainSize where
  | domain11
  | domain12
  | domain16
  deriving DecidableEq

def RingExponent.domain : RingExponent → RingDomainSize
  | .r2e9 => .domain11
  | .r2e10 => .domain12
  | .r2e14 => .domain16

/-- The ring commitments, and how one is decoded from the front of some bytes. -/
structure RingExt where
  Members : Type
  decode : Bytes → Except String (Members × Bytes)

structure AcceptedRoot (ext : RingExt) where
  ringIndex : Nat
  revision : Nat
  members : ext.Members

structure Snapshot (ext : RingExt) where
  domain : RingDomainSize
  roots : List (AcceptedRoot ext)

/-- What the reads of the collection's storage give, at one block. -/
structure RingView where
  collections : Except String (Option RingExponent)
  currentRingIndex : Except String (Option Bytes)
  root : Nat → Except String (Option Bytes)
  oldRoot : Nat → Nat → Except String (Option Bytes)

/-- `u32::decode`, with what is left of the bytes. -/
def decodeU32 : Bytes → Except String (Nat × Bytes)
  | b₀ :: b₁ :: b₂ :: b₃ :: rest =>
      .ok (b₀.toNat + 256 * (b₁.toNat + 256 * (b₂.toNat + 256 * b₃.toNat)), rest)
  | _ => .error "Not enough data to fill buffer"

section Refresh

variable (ext : RingExt)

/-- One ring: its current root, and the one before that if it is kept. -/
def pushRing (view : RingView) (roots : List (AcceptedRoot ext)) (ringIndex : Nat) :
    Except String (List (AcceptedRoot ext)) := do
  match ← view.root ringIndex with
  | none => return roots
  | some value =>
      let (members, cursor) ← (ext.decode value).mapError fun e =>
        "ring " ++ toString ringIndex ++ " root is not the pinned encoding: " ++ e
      let (revision, _) ← decodeU32 cursor
      let roots := roots ++ [⟨ringIndex, revision, members⟩]
      if revision = 0 then return roots
      match ← view.oldRoot ringIndex (revision - 1) with
      | none => return roots
      | some old =>
          let (members, _) ← (ext.decode old).mapError fun e =>
            "ring " ++ toString ringIndex ++ " old root " ++ toString (revision - 1) ++
              " does not decode: " ++ e
          return roots ++ [⟨ringIndex, revision - 1, members⟩]

/-- `refresh`, from what the node answered. -/
def refreshed (reply : Except String RingView) : Except String (Snapshot ext) := do
  let view ← reply
  match ← view.collections with
  | none => .error "collection not found on chain"
  | some ringSize =>
      let currentRing ← match ← view.currentRingIndex with
        | none => pure 0
        | some value => (decodeU32 value).map Prod.fst
      let roots ← (List.range (currentRing + 1)).foldlM (pushRing ext view) []
      return ⟨ringSize.domain, roots⟩

end Refresh

/-! ### The refresher -/

abbrev Hash := FixedBytes 32

/-- Instants are in nanoseconds. -/
abbrev Instant := Nat

inductive RootAsk (ext : RingExt) where
  | connect
  | atCurrentBlock
  | genesisHash
  | tick
  | refresh
  | now
  | set (snapshot : Snapshot ext) (observedAt : Instant)
  | clear

@[reducible] def RootAsk.Ans {ext : RingExt} : RootAsk ext → Type
  | .connect | .atCurrentBlock => Bool
  | .genesisHash => Option Hash
  | .refresh => Except String RingView
  | .now => Instant
  | .tick | .set .. | .clear => Unit

abbrev RootWorld (ext : RingExt) : Iface := ⟨RootAsk ext, RootAsk.Ans⟩

abbrev Refreshing (ext : RingExt) := Act (RootWorld ext) Unit Unit

def askRoot {ext : RingExt} (o : RootAsk ext) : Refreshing ext o.Ans := Act.op (I := RootWorld ext) o

section Refresher

variable (ext : RingExt) (genesis : Hash)

/-- The inner loop, followed for so many turns. -/
def refreshLoop : Nat → Refreshing ext Unit
  | 0 => Act.fail ()
  | n + 1 => do
      askRoot .tick
      match refreshed ext (← askRoot .refresh) with
      | .ok snapshot =>
          let observedAt ← askRoot .now
          askRoot (.set snapshot observedAt)
          refreshLoop n
      | .error _ => pure ()

/-- The outer loop, followed for so many turns. -/
def refreshTurns : Nat → Refreshing ext Unit
  | 0 => Act.fail ()
  | n + 1 => do
      if ← askRoot .atCurrentBlock then
        let found ← askRoot .genesisHash
        if found.any (· ≠ genesis) then
          askRoot .tick
          askRoot .clear
          refreshTurns n
        else
          refreshLoop ext n
          refreshTurns n
      else refreshTurns n

/-- `spawn_refresher`. -/
def refresher (turns : Nat) : Refreshing ext Unit := do
  if ← askRoot .connect then refreshTurns ext genesis turns else Act.fail ()

end Refresher

/-! ### The cache -/

structure RootCache (ext : RingExt) where
  inner : Option (Snapshot ext × Instant)
  now : Instant

namespace RootCache

variable {ext : RingExt}

def empty : RootCache ext := ⟨none, 0⟩

/-- `RootCache::snapshot`, at the present instant. -/
def snapshot (cache : RootCache ext) (maxAge : Nat) : Option (Snapshot ext) :=
  match cache.inner with
  | none => none
  | some (snapshot, observedAt) => if cache.now - observedAt ≤ maxAge then some snapshot else none

end RootCache

/-- Time passes, or a request reads the cache. -/
inductive RootEvent (ext : RingExt) where
  | wait (d : Nat)
  | read (maxAge : Nat) (found : Option (Snapshot ext))

section System

variable {ext : RingExt}

/-- What an operation does. The node may answer anything. -/
def RootAsk.Does (st : RootCache ext) : (o : RootAsk ext) → o.Ans → RootCache ext → Prop
  | .now, instant, st' => instant = st.now ∧ st' = st
  | .set snapshot observedAt, _, st' => st' = { st with inner := some (snapshot, observedAt) }
  | .clear, _, st' => st' = { st with inner := none }
  | .connect, _, st' | .atCurrentBlock, _, st' | .genesisHash, _, st' | .tick, _, st'
  | .refresh, _, st' => st' = st

def RootEvent.Does : RootEvent ext → RootCache ext → RootCache ext → Prop
  | .wait d, st, st' => st' = { st with now := st.now + d }
  | .read maxAge found, st, st' => found = st.snapshot maxAge ∧ st' = st

/-- The refresher of a cache, and requests that come at any time. -/
def Spawned (ext : RingExt) (genesis : Hash) :
    Machine (RootWorld ext) (RootCache ext) (RootEvent ext) (Except Unit Unit × Unit) where
  exec _ o st a st' := RootAsk.Does st o a st'
  env e st st' := e.Does st st'
  boot _ prog := ∃ turns, prog = refresher ext genesis turns ()
  die _ st st' := st' = st

/-- There is one refresher, and when it panics it is not started again. -/
def Refreshed (ext : RingExt) (genesis : Hash) :
    Machine (RootWorld ext) (RootCache ext) (RootEvent ext) (Except Unit Unit × Unit) :=
  (Spawned ext genesis).solo

end System

/-! ### Where the refresher stands -/

inductive RootStage (ext : RingExt) where
  | connecting
  | outer
  | reading
  | mismatched
  | clearing
  | inner
  | ticked
  | fresh (snapshot : Snapshot ext)
  | stamped (snapshot : Snapshot ext) (observedAt : Instant)

section Stages

variable (ext : RingExt) (genesis : Hash)

def rootNext : RootStage ext → Ev (RootWorld ext) → RootStage ext
  | .connecting, ⟨.connect, _⟩ => .outer
  | .outer, ⟨.atCurrentBlock, found⟩ => if found then .reading else .outer
  | .reading, ⟨.genesisHash, found⟩ =>
      if (found : Option Hash).any (· ≠ genesis) then .mismatched else .inner
  | .mismatched, ⟨.tick, _⟩ => .clearing
  | .clearing, ⟨.clear, _⟩ => .outer
  | .inner, ⟨.tick, _⟩ => .ticked
  | .ticked, ⟨.refresh, reply⟩ =>
      match refreshed ext reply with
      | .ok snapshot => .fresh snapshot
      | .error _ => .outer
  | .fresh snapshot, ⟨.now, observedAt⟩ => .stamped snapshot observedAt
  | .stamped .., ⟨.set .., _⟩ => .inner
  | stage, _ => stage

def rootMonitor : Monitor (RootWorld ext) (RootStage ext) where
  next := rootNext ext genesis
  ok stage o :=
    match stage, o with
    | .connecting, .connect | .outer, .atCurrentBlock | .reading, .genesisHash | .mismatched, .tick
    | .clearing, .clear | .inner, .tick | .ticked, .refresh | .fresh _, .now => True
    | .stamped snapshot observedAt, .set snapshot' observedAt' =>
        snapshot' = snapshot ∧ observedAt' = observedAt
    | _, _ => False
  adm _ _ := True

theorem refreshLoop_sat : ∀ n : Nat,
    (refreshLoop ext n).Sat (rootMonitor ext genesis) () .inner (fun stage _ _ => stage = .outer) Anyhow
  | 0 => trivial
  | n + 1 => by
      refine Act.sat_bind.mpr ⟨trivial, fun _ _ => Act.sat_bind.mpr ⟨trivial, fun reply _ => ?_⟩⟩
      change Act.Sat _ _ () (rootNext ext genesis .ticked ⟨.refresh, reply⟩) _ _
      rw [rootNext]
      cases refreshed ext reply with
      | ok snapshot =>
        exact Act.sat_bind.mpr ⟨trivial, fun observedAt _ =>
          Act.sat_bind.mpr ⟨⟨rfl, rfl⟩, fun _ _ => refreshLoop_sat n⟩⟩
      | error e => exact rfl

theorem refreshTurns_sat : ∀ n : Nat,
    (refreshTurns ext genesis n).Sat (rootMonitor ext genesis) () .outer Anyhow Anyhow
  | 0 => trivial
  | n + 1 => by
      refine Act.sat_bind.mpr ⟨trivial, fun (found : Bool) _ => ?_⟩
      cases found with
      | false => exact refreshTurns_sat n
      | true =>
        refine Act.sat_bind.mpr ⟨trivial, fun found _ => ?_⟩
        change Act.Sat _ _ () (rootNext ext genesis .reading ⟨.genesisHash, found⟩) _ _
        rw [rootNext]
        split_ifs with hmismatch
        · exact Act.sat_bind.mpr ⟨trivial, fun _ _ =>
            Act.sat_bind.mpr ⟨trivial, fun _ _ => refreshTurns_sat n⟩⟩
        · refine Act.sat_bind.mpr (Act.Sat.mono (refreshLoop_sat ext genesis n) ?_ fun _ _ _ h => h)
          rintro _ _ _ rfl
          exact refreshTurns_sat n

theorem refresher_sat (turns : Nat) :
    (refresher ext genesis turns).Sat (rootMonitor ext genesis) () .connecting Anyhow Anyhow := by
  refine Act.sat_bind.mpr ⟨trivial, fun (connected : Bool) _ => ?_⟩
  cases connected with
  | false => exact trivial
  | true => exact refreshTurns_sat ext genesis turns

theorem refreshed_bound :
    Bound (Refreshed ext genesis) .empty (rootMonitor ext genesis) .connecting where
  boot := by
    rintro p _ ⟨-, turns, rfl⟩
    exact Prog.Sat.mono (fun _ _ _ => trivial) (refresher_sat ext genesis turns)
  adm _ _ _ _ _ _ _ _ := trivial

end Stages

/-! ### What a run shows -/

abbrev RootLabel (ext : RingExt) := Label (RootWorld ext) (RootEvent ext)

section Labels

variable {ext : RingExt}

/-- The genesis hash read is the configured one. -/
def Matches (genesis : Hash) : RootLabel ext → Prop
  | .op _ ⟨.genesisHash, found⟩ => found = some genesis
  | _ => False

/-- The genesis hash read is another one. -/
def Mismatches (genesis : Hash) : RootLabel ext → Prop
  | .op _ ⟨.genesisHash, found⟩ => ∃ g, found = some g ∧ g ≠ genesis
  | _ => False

def Refreshes : RootLabel ext → Prop
  | .op _ ⟨.refresh, reply⟩ => ∃ snapshot, refreshed ext reply = .ok snapshot
  | _ => False

def FailsRefresh : RootLabel ext → Prop
  | .op _ ⟨.refresh, reply⟩ => ∃ e, refreshed ext reply = .error e
  | _ => False

def Stores : RootLabel ext → Prop
  | .op _ ⟨.set .., _⟩ => True
  | _ => False

def Clears : RootLabel ext → Prop
  | .op _ ⟨.clear, _⟩ => True
  | _ => False

/-- How much time has passed. -/
def clock : List (RootLabel ext) → Nat
  | [] => 0
  | .env (.wait d) :: ls => d + clock ls
  | _ :: ls => clock ls

theorem clock_append : ∀ ls ls' : List (RootLabel ext), clock (ls ++ ls') = clock ls + clock ls'
  | [], ls' => (Nat.zero_add _).symm
  | .env (.wait d) :: ls, ls' => by
      rw [List.cons_append, clock, clock, clock_append ls, Nat.add_assoc]
  | .env (.read ..) :: ls, ls' | .op .. :: ls, ls' | .start _ :: ls, ls' | .kill _ :: ls, ls' =>
      clock_append ls ls'

/-- A matching read, and later a refresh that succeeds. -/
def Followed (genesis : Hash) (ls : List (RootLabel ext)) : Prop :=
  ∃ early l mid l' late, ls = early ++ l :: (mid ++ l' :: late) ∧ Matches genesis l ∧ Refreshes l'

/-- After some mismatch there was no matching read with a successful refresh. -/
def Barred (genesis : Hash) (ls : List (RootLabel ext)) : Prop :=
  ∃ early l late, ls = early ++ l :: late ∧ Mismatches genesis l ∧ ¬Followed genesis late

variable {genesis : Hash} {ls : List (RootLabel ext)} {l : RootLabel ext}

theorem Followed.snoc (h : Followed genesis ls) : Followed genesis (ls ++ [l]) := by
  obtain ⟨early, l₁, mid, l₂, late, rfl, h₁, h₂⟩ := h
  exact ⟨early, l₁, mid, l₂, late ++ [l], by simp, h₁, h₂⟩

theorem Barred.of_snoc (h : Barred genesis (ls ++ [l])) (hl : ¬Mismatches genesis l) :
    Barred genesis ls := by
  obtain ⟨early, l', late, heq, hmismatch, hnot⟩ := h
  rcases List.eq_nil_or_concat late with rfl | ⟨late, l'', rfl⟩
  · obtain ⟨-, hlast⟩ := List.append_inj' heq rfl
    exact absurd hmismatch (List.singleton_inj.mp hlast ▸ hl)
  · rw [List.concat_eq_append, ← List.cons_append, ← List.append_assoc] at heq
    obtain ⟨rfl, -⟩ := List.append_inj' heq rfl
    rw [List.concat_eq_append] at hnot
    exact ⟨early, l', late, rfl, hmismatch, fun hfollowed => hnot hfollowed.snoc⟩

/-- A successful refresh, with a matching read since every mismatch. -/
theorem not_barred_of_refreshes (hl : Refreshes l) (hnot : ¬Mismatches genesis l)
    (hmatched : ¬Since (Mismatches genesis) (Matches genesis) ls) : ¬Barred genesis (ls ++ [l]) := by
  rintro ⟨early, l', late, heq, hmismatch, hunfollowed⟩
  rcases List.eq_nil_or_concat late with rfl | ⟨late, l'', rfl⟩
  · obtain ⟨-, hlast⟩ := List.append_inj' heq rfl
    exact absurd hmismatch (List.singleton_inj.mp hlast ▸ hnot)
  · rw [List.concat_eq_append, ← List.cons_append, ← List.append_assoc] at heq
    obtain ⟨rfl, hlast⟩ := List.append_inj' heq rfl
    obtain rfl := List.singleton_inj.mp hlast
    refine hmatched ⟨early, l', late, rfl, hmismatch, fun m hm hmatch => hunfollowed ?_⟩
    obtain ⟨late₁, late₂, rfl⟩ := List.append_of_mem hm
    exact ⟨late₁, m, late₂, l, [], by simp, hmatch, hl⟩

end Labels

/-! ### What holds where the refresher stands -/

section Invariant

variable {ext : RingExt}

/-- The snapshot in the cache: where it was stored, and that nothing changed since. -/
def StoredAt (ls : List (RootLabel ext)) (snapshot : Snapshot ext) (observedAt : Instant) : Prop :=
  ∃ early p late, ls = early ++ .op p ⟨.set snapshot observedAt, ()⟩ :: late ∧
    (∀ l ∈ late, ¬Stores l ∧ ¬Clears l) ∧ observedAt ≤ clock early

def StageHolds (genesis : Hash) (ls : List (RootLabel ext)) (st : RootCache ext) :
    RootStage ext → Prop
  | .connecting | .outer | .reading => Barred genesis ls → st.inner = none
  | .mismatched | .clearing => Since (Mismatches genesis) Clears ls
  | .inner | .ticked => Since (Matches genesis) FailsRefresh ls ∧
      ¬Since (Mismatches genesis) (Matches genesis) ls ∧ (Barred genesis ls → st.inner = none)
  | .fresh _ | .stamped .. => Since (Matches genesis) FailsRefresh ls ∧
      ¬Since (Mismatches genesis) (Matches genesis) ls ∧ ¬Barred genesis ls

/-- Every genesis hash asked for was there. -/
def Present (ls : List (RootLabel ext)) : Prop := ∀ p, .op p ⟨.genesisHash, none⟩ ∉ ls

structure RootInv (genesis : Hash) (ls : List (RootLabel ext)) (st : RootCache ext)
    (watch : Nat → Option (RootStage ext)) : Prop where
  clock : st.now = clock ls
  stored : ∀ snapshot observedAt, st.inner = some (snapshot, observedAt) → StoredAt ls snapshot observedAt
  only : ∀ p, p ≠ 0 → watch p = none
  unstarted : watch 0 = none → st.inner = none
  stamped : ∀ snapshot observedAt, watch 0 = some (.stamped snapshot observedAt) → observedAt ≤ st.now
  stage : Present ls → ∀ stage, watch 0 = some stage → StageHolds genesis ls st stage

variable {genesis : Hash} {ls : List (RootLabel ext)} {l : RootLabel ext} {st st' : RootCache ext}
  {watch : Nat → Option (RootStage ext)} {stage : RootStage ext} {p : Nat}
variable {snapshot : Snapshot ext} {o : RootAsk ext} {a : o.Ans}

theorem StoredAt.snoc {observedAt : Instant} (h : StoredAt ls snapshot observedAt)
    (hl : ¬Stores l ∧ ¬Clears l) : StoredAt (ls ++ [l]) snapshot observedAt := by
  obtain ⟨early, p, late, rfl, hlate, hclock⟩ := h
  refine ⟨early, p, late ++ [l], by simp, fun l' hl' => ?_, hclock⟩
  rcases List.mem_append.mp hl' with hl' | hl'
  · exact hlate l' hl'
  · exact List.mem_singleton.mp hl' ▸ hl

/-- A step that no stage is about. -/
theorem StageHolds.quiet (stage : RootStage ext) (h : StageHolds genesis ls st stage)
    (hmismatch : ¬Mismatches genesis l) (hfails : ¬FailsRefresh l) (hclears : ¬Clears l)
    (hinner : st'.inner = st.inner) : StageHolds genesis (ls ++ [l]) st' stage := by
  have hbarred : (Barred genesis ls → st.inner = none) →
      Barred genesis (ls ++ [l]) → st'.inner = none := by
    intro hclosed hbarred
    rw [hinner]
    exact hclosed (hbarred.of_snoc hmismatch)
  have hsince : ¬Since (Mismatches genesis) (Matches genesis) ls →
      ¬Since (Mismatches genesis) (Matches genesis) (ls ++ [l]) :=
    fun hnot hsince => hnot (hsince.of_snoc hmismatch).1
  cases stage with
  | connecting | outer | reading => exact hbarred h
  | mismatched | clearing => exact Since.snoc h hclears
  | inner | ticked => exact ⟨h.1.snoc hfails, hsince h.2.1, hbarred h.2.2⟩
  | fresh | stamped =>
    exact ⟨h.1.snoc hfails, hsince h.2.1, fun hbarred => h.2.2 (hbarred.of_snoc hmismatch)⟩

/-- The genesis hash is read. -/
theorem StageHolds.read (h : StageHolds genesis ls st .reading) (found : Hash) :
    StageHolds genesis (ls ++ [.op p ⟨.genesisHash, some found⟩]) st
      (rootNext ext genesis .reading ⟨.genesisHash, some found⟩) := by
  rw [rootNext]
  split_ifs with hany
  · have hne : found ≠ genesis := of_decide_eq_true hany
    exact Since.now ⟨found, rfl, hne⟩
  · obtain rfl : found = genesis := not_not.mp fun hne => hany (decide_eq_true hne)
    have hnot : ¬Mismatches found (.op p ⟨.genesisHash, some found⟩ : RootLabel ext) := by
      rintro ⟨g, heq, hne⟩
      exact hne (Option.some.inj heq).symm
    exact ⟨Since.now rfl, fun hsince => (hsince.of_snoc hnot).2 rfl, fun hbarred => h (hbarred.of_snoc hnot)⟩

/-- The roots are read. -/
theorem StageHolds.refresh (h : StageHolds genesis ls st .ticked) (reply : Except String RingView) :
    StageHolds genesis (ls ++ [.op p ⟨.refresh, reply⟩]) st
      (rootNext ext genesis .ticked ⟨.refresh, reply⟩) := by
  obtain ⟨hmatched, hsince, hclosed⟩ := h
  rw [rootNext]
  split
  · next snapshot hreply =>
    refine ⟨hmatched.snoc ?_, fun hnot => hsince (hnot.of_snoc id).1,
      not_barred_of_refreshes ⟨snapshot, hreply⟩ id hsince⟩
    rintro ⟨e, herror⟩
    cases hreply.symm.trans herror
  · exact fun hbarred => hclosed (hbarred.of_snoc id)

/-- What an operation of the refresher leaves. -/
theorem StageHolds.op (h : StageHolds genesis ls st stage)
    (hok : (rootMonitor ext genesis).ok stage o) (hexec : RootAsk.Does st o a st')
    (hpresent : Present (ls ++ [.op p ⟨o, a⟩])) :
    StageHolds genesis (ls ++ [.op p ⟨o, a⟩]) st' (rootNext ext genesis stage ⟨o, a⟩) := by
  cases stage with
  | connecting =>
    cases o with
    | connect =>
      obtain rfl : st' = st := hexec
      exact StageHolds.quiet .outer h id id id rfl
    | _ => exact hok.elim
  | outer =>
    cases o with
    | atCurrentBlock =>
      obtain rfl : st' = st := hexec
      rw [rootNext]
      split_ifs
      · exact StageHolds.quiet .reading h id id id rfl
      · exact StageHolds.quiet .outer h id id id rfl
    | _ => exact hok.elim
  | reading =>
    cases o with
    | genesisHash =>
      obtain rfl : st' = st := hexec
      match (a : Option Hash) with
      | none => exact (hpresent p (List.mem_append_right _ (List.mem_singleton_self _))).elim
      | some found => exact h.read found
    | _ => exact hok.elim
  | mismatched =>
    cases o with
    | tick =>
      obtain rfl : st' = st := hexec
      exact StageHolds.quiet .clearing h id id id rfl
    | _ => exact hok.elim
  | clearing =>
    cases o with
    | clear =>
      obtain rfl : st' = { st with inner := none } := hexec
      exact fun _ => rfl
    | _ => exact hok.elim
  | inner =>
    cases o with
    | tick =>
      obtain rfl : st' = st := hexec
      exact StageHolds.quiet .ticked h id id id rfl
    | _ => exact hok.elim
  | ticked =>
    cases o with
    | refresh =>
      obtain rfl : st' = st := hexec
      exact h.refresh a
    | _ => exact hok.elim
  | fresh snapshot =>
    cases o with
    | now =>
      obtain ⟨-, rfl⟩ := hexec
      exact StageHolds.quiet (.stamped snapshot a) h id id id rfl
    | _ => exact hok.elim
  | stamped snapshot observedAt =>
    cases o with
    | set snapshot' observedAt' =>
      obtain ⟨hmatched, hsince, hfree⟩ := h
      exact ⟨hmatched.snoc id, fun hnot => hsince (hnot.of_snoc id).1,
        fun hbarred => (hfree (hbarred.of_snoc id)).elim⟩
    | _ => exact hok.elim

/-- What is in the cache after an operation was stored, by it or before. -/
theorem RootInv.stored_op (h : RootInv genesis ls st watch) (hp : watch 0 = some stage)
    (hok : (rootMonitor ext genesis).ok stage o) (hexec : RootAsk.Does st o a st')
    (snapshot : Snapshot ext) (observedAt : Instant)
    (hinner : st'.inner = some (snapshot, observedAt)) :
    StoredAt (ls ++ [.op p ⟨o, a⟩]) snapshot observedAt := by
  cases o with
  | set snapshot' observedAt' =>
    obtain rfl : st' = { st with inner := some (snapshot', observedAt') } := hexec
    obtain ⟨rfl, rfl⟩ := Prod.mk.inj (Option.some.inj hinner)
    refine ⟨ls, p, [], rfl, nofun, ?_⟩
    cases stage with
    | stamped =>
      obtain ⟨rfl, rfl⟩ := hok
      exact h.clock ▸ h.stamped _ _ hp
    | _ => exact hok.elim
  | clear =>
    obtain rfl : st' = { st with inner := none } := hexec
    cases hinner
  | now =>
    obtain ⟨-, rfl⟩ := hexec
    exact (h.stored _ _ hinner).snoc ⟨id, id⟩
  | connect | atCurrentBlock | genesisHash | tick | refresh =>
    obtain rfl : st' = st := hexec
    exact (h.stored _ _ hinner).snoc ⟨id, id⟩

theorem does_now (hexec : RootAsk.Does st o a st') : st'.now = st.now := by
  cases o with
  | now => exact congrArg RootCache.now hexec.2
  | set snapshot observedAt =>
    obtain rfl : st' = { st with inner := some (snapshot, observedAt) } := hexec
    rfl
  | clear =>
    obtain rfl : st' = { st with inner := none } := hexec
    rfl
  | connect | atCurrentBlock | genesisHash | tick | refresh => exact congrArg RootCache.now hexec

/-- A snapshot is stamped with an instant that has come. -/
theorem stamped_op (hok : (rootMonitor ext genesis).ok stage o) (hexec : RootAsk.Does st o a st')
    {observedAt : Instant}
    (hstage : rootNext ext genesis stage ⟨o, a⟩ = .stamped snapshot observedAt) :
    observedAt ≤ st'.now := by
  cases stage with
  | fresh =>
    cases o with
    | now =>
      obtain ⟨rfl, rfl⟩ := hexec
      cases hstage
      exact le_refl _
    | _ => exact hok.elim
  | outer =>
    cases o with
    | atCurrentBlock =>
      rw [rootNext] at hstage
      split_ifs at hstage
    | _ => exact hok.elim
  | reading =>
    cases o with
    | genesisHash =>
      rw [rootNext] at hstage
      split_ifs at hstage
    | _ => exact hok.elim
  | ticked =>
    cases o with
    | refresh =>
      rw [rootNext] at hstage
      split at hstage <;> cases hstage
    | _ => exact hok.elim
  | connecting | mismatched | clearing | inner | stamped =>
    cases o <;> first | exact hok.elim | cases hstage

theorem Present.of_snoc (h : Present (ls ++ [l])) : Present ls :=
  fun p hp => h p (List.mem_append_left _ hp)

theorem RootInv.op (h : RootInv genesis ls st watch) (hp : watch p = some stage)
    (hok : (rootMonitor ext genesis).ok stage o) (hexec : RootAsk.Does st o a st') :
    RootInv genesis (ls ++ [.op p ⟨o, a⟩]) st'
      (update watch p (some (rootNext ext genesis stage ⟨o, a⟩))) := by
  obtain rfl : p = 0 := by
    by_contra hne
    cases (h.only p hne).symm.trans hp
  refine ⟨?_, h.stored_op hp hok hexec, fun q hq => ?_, fun hnone => ?_, fun _ _ hstage => ?_,
    fun hpresent stage' hstage => ?_⟩
  · rw [does_now hexec, h.clock, clock_append]
    rfl
  · rw [update_of_ne hq]
    exact h.only q hq
  · rw [update_self] at hnone
    cases hnone
  · rw [update_self] at hstage
    exact stamped_op hok hexec (Option.some.inj hstage)
  · rw [update_self] at hstage
    obtain rfl := Option.some.inj hstage
    exact (h.stage hpresent.of_snoc stage hp).op hok hexec hpresent

/-- Time passes, or a request reads the cache. -/
theorem RootInv.env {e : RootEvent ext} (h : RootInv genesis ls st watch) (henv : e.Does st st') :
    RootInv genesis (ls ++ [.env e]) st' watch := by
  have hinner : st'.inner = st.inner := by
    cases e with
    | wait d =>
      obtain rfl : st' = { st with now := st.now + d } := henv
      rfl
    | read => exact congrArg RootCache.inner henv.2
  have hclock : st'.now = Turn.clock (ls ++ [.env e]) := by
    rw [clock_append, ← h.clock]
    cases e with
    | wait => exact congrArg RootCache.now henv
    | read => exact congrArg RootCache.now henv.2
  refine ⟨hclock, fun snapshot observedAt hstored => ?_, h.only, fun hnone => ?_, fun _ _ hstage => ?_,
    fun hpresent stage hstage => ?_⟩
  · rw [hinner] at hstored
    exact (h.stored _ _ hstored).snoc ⟨id, id⟩
  · rw [hinner]
    exact h.unstarted hnone
  · refine (h.stamped _ _ hstage).trans ?_
    rw [hclock, clock_append, h.clock]
    exact Nat.le_add_right _ _
  · exact StageHolds.quiet stage (h.stage hpresent.of_snoc stage hstage) id id id hinner

/-- The refresher is started. -/
theorem RootInv.start (h : RootInv genesis ls st watch) (hp : watch 0 = none) :
    RootInv genesis (ls ++ [.start 0]) st (update watch 0 (some .connecting)) := by
  refine ⟨?_, fun _ _ hstored => (h.stored _ _ hstored).snoc ⟨id, id⟩, fun q hq => ?_, fun hnone => ?_,
    fun _ _ hstage => ?_, fun _ stage hstage => ?_⟩
  · rw [clock_append]
    exact h.clock
  · rw [update_of_ne hq]
    exact h.only q hq
  · rw [update_self] at hnone
    cases hnone
  · rw [update_self] at hstage
    cases hstage
  · rw [update_self] at hstage
    obtain rfl := Option.some.inj hstage
    exact fun _ => h.unstarted hp

theorem reachable_rootInv {s : Sys (RootWorld ext) (RootCache ext) (Except Unit Unit × Unit)}
    (r : Reachable (Refreshed ext genesis) .empty ls s) :
    RootInv genesis ls s.st (s.watch (rootMonitor ext genesis) .connecting) := by
  induction r with
  | nil => exact ⟨rfl, nofun, fun _ _ => rfl, fun _ => rfl, nofun, nofun⟩
  | @snoc ls t u l r d ih =>
    cases l with
    | op p e =>
      obtain ⟨stage, hp, hok, hexec, heq⟩ := d.op_inv (Reachable.trusted (refreshed_bound ext genesis) r)
      rw [heq]
      exact ih.op hp hok hexec
    | env e =>
      cases d with
      | env done => exact ih.env done
    | start p =>
      cases d with
      | start free boots =>
        obtain rfl : p = 0 := boots.1
        rw [Sys.watch_update]
        exact ih.start (by simp [Sys.watch, Sys.hist, free])
    | kill p =>
      cases d with
      | kill done => exact done.elim

/-- What a request finds was stored, at most the maximum age before. -/
theorem RootInv.found_stored (h : RootInv genesis ls st watch) {maxAge : Nat}
    (hfound : some snapshot = st.snapshot maxAge) :
    ∃ early p observedAt late, ls = early ++ .op p ⟨.set snapshot observedAt, ()⟩ :: late ∧
      (∀ l ∈ late, ¬Stores l ∧ ¬Clears l) ∧ Turn.clock ls ≤ Turn.clock early + maxAge := by
  rw [RootCache.snapshot] at hfound
  split at hfound
  · cases hfound
  · next snapshot' observedAt hinner =>
    split_ifs at hfound with hage
    obtain rfl := Option.some.inj hfound
    obtain ⟨early, p, late, heq, hlate, hclock⟩ := h.stored _ _ hinner
    refine ⟨early, p, observedAt, late, heq, hlate, ?_⟩
    rw [← h.clock, Nat.add_comm]
    exact (Nat.sub_le_iff_le_add.mp hage).trans (Nat.add_le_add_left hclock maxAge)

/-- With something in the cache and no clearing due, there was a refresh since every mismatch. -/
theorem RootInv.found_free (h : RootInv genesis ls st watch) (hpresent : Present ls)
    (hinner : st.inner ≠ none) (hdue : ¬Since (Mismatches genesis) Clears ls) : ¬Barred genesis ls := by
  cases hstage : watch 0 with
  | none => exact absurd (h.unstarted hstage) hinner
  | some stage =>
    have hholds := h.stage hpresent stage hstage
    cases stage with
    | connecting | outer | reading => exact fun hbarred => hinner (hholds hbarred)
    | mismatched | clearing => exact absurd hholds hdue
    | inner | ticked => exact fun hbarred => hinner (hholds.2.2 hbarred)
    | fresh | stamped => exact hholds.2.2

end Invariant

/-- In every run of the refresher and of requests that read the cache: a request never finds a
    snapshot that was stored longer ago than its maximum age. If every genesis hash asked for was
    there, a snapshot is stored only if a matching one was read after the last failed refresh; and if
    besides no request comes between a mismatch and the clearing that is due, with a snapshot in the
    cache, then a request finds a snapshot only if every mismatch before was followed by a matching
    read and then a successful refresh. -/
theorem roots_fail_closed {ext : RingExt} {genesis : Hash} {ls : List (RootLabel ext)}
    {s : Sys (RootWorld ext) (RootCache ext) (Except Unit Unit × Unit)}
    (r : Reachable (Refreshed ext genesis) .empty ls s) :
    (∀ before maxAge snapshot after, ls = before ++ .env (.read maxAge (some snapshot)) :: after →
      ∃ early p observedAt late, before = early ++ .op p ⟨.set snapshot observedAt, ()⟩ :: late ∧
        (∀ l ∈ late, ¬Stores l ∧ ¬Clears l) ∧ clock before ≤ clock early + maxAge) ∧
    ((∀ p, .op p ⟨.genesisHash, none⟩ ∉ ls) →
      (∀ before p snapshot observedAt after,
        ls = before ++ .op p ⟨.set snapshot observedAt, ()⟩ :: after →
        Since (Matches genesis) FailsRefresh before) ∧
      ((∀ before maxAge found after, ls = before ++ .env (.read maxAge found) :: after →
          Since (Mismatches genesis) Clears before → ¬Since Stores Clears before) →
        ∀ before maxAge snapshot after, ls = before ++ .env (.read maxAge (some snapshot)) :: after →
          ∀ early l late, before = early ++ l :: late → Mismatches genesis l →
            Followed genesis late)) := by
  refine ⟨?_, fun hpresent => ⟨?_, fun hclosed => ?_⟩⟩
  · rintro before maxAge snapshot after rfl
    obtain ⟨u, v, r, d⟩ := r.cut_at
    cases d with
    | env done => exact (reachable_rootInv r).found_stored done.1
  · rintro before p snapshot observedAt after rfl
    obtain ⟨u, v, r, d⟩ := r.cut_at
    have h := reachable_rootInv r
    obtain ⟨stage, hp, hok, -⟩ := d.op_inv (Reachable.trusted (refreshed_bound ext genesis) r)
    obtain rfl : p = 0 := by
      by_contra hne
      cases (h.only p hne).symm.trans hp
    have hholds := h.stage (fun p hp => hpresent p (List.mem_append_left _ hp)) stage hp
    cases stage with
    | stamped => exact hholds.1
    | _ => exact hok.elim
  · rintro before maxAge snapshot after rfl
    have hdue := hclosed before maxAge (some snapshot) after rfl
    obtain ⟨u, v, r, d⟩ := r.cut_at
    have h := reachable_rootInv r
    cases d with
    | env done =>
      obtain ⟨early, p, observedAt, late, heq, hlate, -⟩ := h.found_stored done.1
      have hstored : Since Stores Clears before :=
        ⟨early, _, late, heq, trivial, fun l hl => (hlate l hl).2⟩
      have hinner : u.st.inner ≠ none := by
        intro hnone
        have hfound : some snapshot = u.st.snapshot maxAge := done.1
        rw [RootCache.snapshot, hnone] at hfound
        cases hfound
      have hfree := h.found_free (fun p hp => hpresent p (List.mem_append_left _ hp)) hinner
        fun hsince => hdue hsince hstored
      intro early l late heq hmismatch
      by_contra hnot
      exact hfree ⟨early, l, late, heq, hmismatch, hnot⟩

/-! ### Scripted runs -/

section Decidable

variable {ext : RingExt}

instance [DecidableEq ext.Members] : DecidableEq (AcceptedRoot ext) := fun a b =>
  decidable_of_iff (a.ringIndex = b.ringIndex ∧ a.revision = b.revision ∧ a.members = b.members) (by
    cases a
    cases b
    simp)

instance [DecidableEq ext.Members] : DecidableEq (Snapshot ext) := fun a b =>
  decidable_of_iff (a.domain = b.domain ∧ a.roots = b.roots) (by
    cases a
    cases b
    simp)

instance (genesis : Hash) : DecidablePred (Mismatches genesis : RootLabel ext → Prop) := fun l => by
  unfold Mismatches
  split
  · next found => exact decidable_of_iff (found.any (· ≠ genesis)) (by simp [Option.any_eq_true])
  · infer_instance

instance (genesis : Hash) : DecidablePred (Matches genesis : RootLabel ext → Prop) := fun l => by
  unfold Matches
  split <;> infer_instance

instance : DecidablePred (Clears : RootLabel ext → Prop) := fun l => by
  unfold Clears
  split <;> infer_instance

end Decidable

/-- What the node answers. -/
inductive RootHint where
  | goesOn
  | genesis (found : Option Hash)
  | view (reply : Except String RingView)

def RootHint.answer {ext : RingExt} (st : RootCache ext) :
    (o : RootAsk ext) → RootHint →
      Option { x : o.Ans × RootCache ext // RootAsk.Does st o x.1 x.2 }
  | .connect, _ | .atCurrentBlock, _ => some ⟨(true, st), rfl⟩
  | .genesisHash, .genesis found => some ⟨(found, st), rfl⟩
  | .genesisHash, _ => none
  | .tick, _ => some ⟨((), st), rfl⟩
  | .refresh, .view reply => some ⟨(reply, st), rfl⟩
  | .refresh, _ => none
  | .now, _ => some ⟨(st.now, st), rfl, rfl⟩
  | .set snapshot observedAt, _ => some ⟨((), { st with inner := some (snapshot, observedAt) }), rfl⟩
  | .clear, _ => some ⟨((), { st with inner := none }), rfl⟩

def RootEvent.act {ext : RingExt} [DecidableEq ext.Members] (st : RootCache ext) :
    (e : RootEvent ext) → Option { st' : RootCache ext // e.Does st st' }
  | .wait d => some ⟨{ st with now := st.now + d }, rfl⟩
  | .read maxAge found => if hfound : found = st.snapshot maxAge then some ⟨st, hfound, rfl⟩ else none

def rootPlayer (ext : RingExt) [DecidableEq ext.Members] (genesis : Hash) :
    Player (Spawned ext genesis) RootHint Unit where
  answer _ o st hint := hint.answer st o
  act e st := e.act st
  image _ := ⟨refresher ext genesis 9 (), fun _ => ⟨9, rfl⟩⟩
  lose _ st := ⟨st, rfl⟩

/-- No commitment is decoded from fewer bytes than it has. -/
def noRings : RingExt := ⟨Unit, fun _ => .error "Not enough data to fill buffer"⟩

instance : DecidableEq noRings.Members := inferInstanceAs (DecidableEq Unit)

def ownGenesis : Hash := ⟨List.replicate 32 7, rfl⟩

def otherGenesis : Hash := ⟨List.replicate 32 8, rfl⟩

/-- A collection that has no ring yet. -/
def noRootView : RingView := ⟨.ok (some .r2e9), .ok none, fun _ => .ok none, fun _ _ => .ok none⟩

def noRoots : Snapshot noRings := ⟨.domain11, []⟩

/-- From the genesis read to the stored snapshot. -/
def storesRoots (found : Option Hash) : List (Move RootHint (RootEvent noRings) Unit) :=
  [.op 0 .goesOn, .op 0 (.genesis found), .op 0 .goesOn, .op 0 (.view (.ok noRootView)), .op 0 .goesOn,
    .op 0 .goesOn]

/-- The roots are read once. Then the node fails, and is one of another chain when it is back. A
    request that comes before the next tick finds the snapshot. -/
def readsMismatched : List (Move RootHint (RootEvent noRings) Unit) :=
  [.start 0 (), .op 0 .goesOn] ++ storesRoots (some ownGenesis) ++
    [.op 0 .goesOn, .op 0 (.view (.error "connection closed")), .op 0 .goesOn,
      .op 0 (.genesis (some otherGenesis)), .env (.read 600 (some noRoots))]

/-- The last label is a request that finds the snapshot, right after a mismatch. -/
def servesMismatched (ls : List (RootLabel noRings)) : Bool :=
  match ls.reverse with
  | .env (.read 600 (some snapshot)) :: l :: _ =>
      snapshot == noRoots && decide (Mismatches ownGenesis l)
  | _ => false

def storesLast (ls : List (RootLabel noRings)) : Bool :=
  match ls.getLast? with
  | some (.op 0 ⟨.set .., _⟩) => true
  | _ => false

/-- A request finds a snapshot right after a mismatch, and a snapshot is stored with no matching
    genesis hash ever read. -/
theorem mismatched_roots_served :
    (∃ before l s, Reachable (Refreshed noRings ownGenesis) .empty
        (before ++ [l] ++ [.env (.read 600 (some noRoots))]) s ∧ Mismatches ownGenesis l) ∧
    ∃ before snapshot observedAt s, Reachable (Refreshed noRings ownGenesis) .empty
        (before ++ [.op 0 ⟨.set snapshot observedAt, ()⟩]) s ∧
      ∀ l ∈ before, ¬Matches ownGenesis l := by
  constructor
  · obtain ⟨ls, s, r, htest⟩ := (rootPlayer noRings ownGenesis).reaches .empty readsMismatched
      (fun ls _ => ls.all Label.isSolo && servesMismatched ls) (by decide +kernel)
    rw [Bool.and_eq_true] at htest
    obtain ⟨hsolo, hlast⟩ := htest
    unfold servesMismatched at hlast
    split at hlast
    · next snapshot l rest hreverse =>
      rw [Bool.and_eq_true, beq_iff_eq, decide_eq_true_iff] at hlast
      obtain ⟨rfl, hmismatch⟩ := hlast
      obtain rfl : ls = rest.reverse ++ [l] ++ [.env (.read 600 (some noRoots))] := by
        rw [← List.reverse_reverse ls, hreverse]
        simp
      exact ⟨_, l, s, Run.solo r hsolo, hmismatch⟩
    · cases hlast
  · obtain ⟨ls, s, r, htest⟩ := (rootPlayer noRings ownGenesis).reaches .empty
      ([.start 0 (), .op 0 .goesOn] ++ storesRoots none)
      (fun ls _ => ls.all Label.isSolo && ls.all (fun l => !decide (Matches ownGenesis l)) &&
        storesLast ls) (by decide +kernel)
    rw [Bool.and_eq_true, Bool.and_eq_true] at htest
    obtain ⟨⟨hsolo, hnone⟩, hlast⟩ := htest
    unfold storesLast at hlast
    split at hlast
    · next snapshot observedAt _ hlabel =>
      obtain ⟨before, rfl⟩ := List.getLast?_eq_some_iff.mp hlabel
      refine ⟨before, snapshot, observedAt, s, Run.solo r hsolo, fun l hl hmatch => ?_⟩
      have hnot := List.all_eq_true.mp hnone l (List.mem_append_left _ hl)
      rw [decide_eq_true hmatch] at hnot
      cases hnot
    · cases hlast

/-- A node of another chain is found first, and the roots are read from the right one later. -/
def readsMatched : List (Move RootHint (RootEvent noRings) Unit) :=
  [.start 0 (), .op 0 .goesOn, .op 0 .goesOn, .op 0 (.genesis (some otherGenesis)), .op 0 .goesOn,
      .op 0 .goesOn] ++
    storesRoots (some ownGenesis) ++ [.env (.wait 600), .env (.read 600 (some noRoots))]

def isRead {ext : RingExt} : RootLabel ext → Bool
  | .env (.read ..) => true
  | _ => false

def isAbsent {ext : RingExt} : RootLabel ext → Bool
  | .op _ ⟨.genesisHash, none⟩ => true
  | _ => false

/-- The last label is a request that finds the snapshot, the only one that reads, when the mismatch
    is no longer due. -/
def servesMatched (ls : List (RootLabel noRings)) : Bool :=
  match ls.reverse with
  | .env (.read 600 (some snapshot)) :: rest =>
      snapshot == noRoots && !rest.any isRead &&
        !decide (Since (Mismatches ownGenesis) Clears rest.reverse)
  | _ => false

theorem roots_fail_closed_matched :
    ∃ before s l early late, Reachable (Refreshed noRings ownGenesis) .empty
        (before ++ [.env (.read 600 (some noRoots))]) s ∧
      before = early ++ l :: late ∧ Mismatches ownGenesis l ∧ Followed ownGenesis late ∧
      ∃ early p observedAt late, before = early ++ .op p ⟨.set noRoots observedAt, ()⟩ :: late ∧
        clock before ≤ clock early + 600 ∧ Since (Matches ownGenesis) FailsRefresh early := by
  obtain ⟨ls, s, r, htest⟩ := (rootPlayer noRings ownGenesis).reaches .empty readsMatched
    (fun ls _ => ls.all Label.isSolo && !ls.any isAbsent &&
      ls.any (fun l => decide (Mismatches ownGenesis l)) && servesMatched ls) (by decide +kernel)
  simp only [Bool.and_eq_true, Bool.not_eq_true'] at htest
  obtain ⟨⟨⟨hsolo, habsent⟩, hmismatch⟩, hlast⟩ := htest
  unfold servesMatched at hlast
  split at hlast
  · next snapshot rest hreverse =>
    simp only [Bool.and_eq_true, beq_iff_eq, Bool.not_eq_true', decide_eq_false_iff_not] at hlast
    obtain ⟨⟨rfl, hreads⟩, hdue⟩ := hlast
    obtain rfl : ls = rest.reverse ++ [.env (.read 600 (some noRoots))] := by
      rw [← List.reverse_reverse ls, hreverse, List.reverse_cons]
    have r' : Reachable (Refreshed noRings ownGenesis) .empty _ s := Run.solo r hsolo
    obtain ⟨l, hl, hmismatch⟩ := List.any_eq_true.mp hmismatch
    rw [decide_eq_true_iff] at hmismatch
    have hbefore : l ∈ rest.reverse := by
      rcases List.mem_append.mp hl with hl | hl
      · exact hl
      · cases List.mem_singleton.mp hl
        exact hmismatch.elim
    obtain ⟨early, late, hsplit⟩ := List.append_of_mem hbefore
    obtain ⟨hage, hrest⟩ := roots_fail_closed r'
    obtain ⟨hset, hclosed⟩ := hrest fun p hp => by
      have := List.any_eq_false.mp habsent _ hp
      exact this rfl
    have hfollowed := hclosed ?_ rest.reverse 600 noRoots [] rfl early l late hsplit hmismatch
    · obtain ⟨early', p, observedAt, late', hsplit', -, hclock⟩ := hage rest.reverse 600 noRoots [] rfl
      refine ⟨rest.reverse, s, l, early, late, r', hsplit, hmismatch, hfollowed, early', p, observedAt,
        late', hsplit', hclock, ?_⟩
      refine hset early' p noRoots observedAt (late' ++ [.env (.read 600 (some noRoots))]) ?_
      rw [hsplit', List.append_assoc]
      rfl
    · -- the one read is the last step
      intro before maxAge found after heq hsince
      rcases List.eq_nil_or_concat after with rfl | ⟨after, l', rfl⟩
      · obtain ⟨rfl, -⟩ := List.append_inj' heq rfl
        exact absurd hsince hdue
      · rw [List.concat_eq_append, ← List.cons_append, ← List.append_assoc] at heq
        obtain ⟨heq, -⟩ := List.append_inj' heq rfl
        have hmem : .env (.read maxAge found) ∈ rest := by
          rw [← List.mem_reverse, heq]
          exact List.mem_append_right _ (List.mem_cons_self ..)
        exact absurd rfl (List.any_eq_false.mp hreads _ hmem)
  · cases hlast

end DeviceUniqueness.Turn
