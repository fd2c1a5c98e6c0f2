import DeviceUniqueness.Writer.World
import DeviceUniqueness.Schemes.Interference
import DeviceUniqueness.Text.Strings

/-! Proof of compute: puzzles that are signed and not stored, and the table of those that are spent.

    A puzzle is good for a while after it was issued, by the clock of the process that looks at it.
    That it is used once is up to the database: the row of a spent puzzle is kept until the puzzle
    has expired, and a grace period more, by the clock of the database. -/

namespace DeviceUniqueness.Indexer

open Function Schemes

abbrev Uuid := FixedBytes 16

/-- HMAC-SHA256 of a key and a text, and SHA-256. -/
structure PocExt where
  hmacSha256 : Bytes → Bytes → FixedBytes 32
  sha256 : Bytes → FixedBytes 32

def sessionTtlSecs : Int := 60
def clockSkewSecs : Int := 30

/-- How long a solved puzzle stays valid, in milliseconds. -/
def validityWindowMs : Int := (sessionTtlSecs + clockSkewSecs) * 1000

inductive Rejection where
  | checksum
  | expired
  | replayed
  | insufficientWork
  deriving DecidableEq

/-! ### Puzzles and solutions -/

section Puzzles

variable (ext : PocExt)

/-- `as u64`, of an `i64`. -/
def asU64 (n : Int) : Nat := (n % 2 ^ 64).toNat

def checksumPreimage (sessionId : Uuid) (timestampMs : Int) (difficulty : UInt8) : Bytes :=
  sessionId.1 ++ beBytes64 (asU64 timestampMs) ++ [difficulty]

def checksumHex (secret : Bytes) (sessionId : Uuid) (timestampMs : Int) (difficulty : UInt8) :
    String :=
  hexLower (ext.hmacSha256 secret (checksumPreimage sessionId timestampMs difficulty)).1

structure Puzzle where
  sessionId : Uuid
  timestamp : Int
  difficulty : UInt8
  checksum : String

def Puzzle.new (secret : Bytes) (sessionId : Uuid) (timestampMs : Int) (difficulty : UInt8) :
    Puzzle :=
  ⟨sessionId, timestampMs, difficulty, checksumHex ext secret sessionId timestampMs difficulty⟩

structure Solution where
  sessionId : Uuid
  timestampMs : Int
  difficulty : UInt8
  counter : UInt64
  checksum : String
  deriving DecidableEq

/-- The solution of a puzzle with a counter. -/
def Puzzle.solved (puzzle : Puzzle) (counter : UInt64) : Solution :=
  ⟨puzzle.sessionId, puzzle.timestamp, puzzle.difficulty, counter, puzzle.checksum⟩

/-- Both texts are looked at to their end. -/
def Solution.checksumMatches (solution : Solution) (secret : Bytes) : Bool :=
  let expected := utf8 (checksumHex ext secret solution.sessionId solution.timestampMs
    solution.difficulty)
  let given := utf8 solution.checksum
  expected.length == given.length &&
    (expected.zip given).foldl (fun acc x => acc ||| (x.1 ^^^ x.2)) 0 == 0

def workPreimage (sessionId : Uuid) (timestampMs : Int) (counter : UInt64) : Bytes :=
  sessionId.1 ++ beBytes64 (asU64 timestampMs) ++ beBytes64 counter.toNat

/-- The zero bits that the first four bytes of the digest begin with. -/
def leadingZeroBits (sessionId : Uuid) (timestampMs : Int) (counter : UInt64) : Nat :=
  let digest : Bytes := (ext.sha256 (workPreimage sessionId timestampMs counter)).1
  32 - ((digest.take 4).foldl (fun n (b : UInt8) => 256 * n + b.toNat) 0).size

def Solution.workBits (solution : Solution) : Nat :=
  leadingZeroBits ext solution.sessionId solution.timestampMs solution.counter

structure Poc where
  secret : FixedBytes 32
  difficulty : UInt8

/-- A puzzle as it is handed out, for the session and the time. -/
def Poc.issue (poc : Poc) (sessionId : Uuid) (nowMs : Int) : Puzzle :=
  .new ext poc.secret.1 sessionId nowMs poc.difficulty

/-- Checksum, expiry and work, in this order. A puzzle from the future has not expired. -/
def Poc.verifyOffline (poc : Poc) (solution : Solution) (nowMs : Int) : Except Rejection Unit :=
  if !solution.checksumMatches ext poc.secret.1 then .error .checksum
  else if nowMs - solution.timestampMs > validityWindowMs then .error .expired
  else if solution.workBits ext < solution.difficulty.toNat then .error .insufficientWork
  else .ok ()

theorem Poc.verifyOffline_ok {poc : Poc} {solution : Solution} {nowMs : Int}
    (h : poc.verifyOffline ext solution nowMs = .ok ()) :
    nowMs ≤ solution.timestampMs + validityWindowMs := by
  rw [verifyOffline] at h
  split_ifs at h
  omega

end Puzzles

/-! ### The table of spent puzzles -/

/-- `10 minutes`, in microseconds. -/
def pruneGrace : Int := 600000000

/-- What a gate asks for: its own clock, and the statements on the table. `proceed` stands for
    the request that goes on. -/
inductive PocAsk where
  | clock
  | insertSpent (sessionId : Uuid) (expiresAt : Int)
  | deleteSpent
  | proceed (solution : Solution) (nowMs : Int)

@[reducible] def PocAsk.Ans : PocAsk → Type
  | .clock => Int
  | .insertSpent .. | .deleteSpent => Reply Nat
  | .proceed .. => Unit

abbrev PocWorld : Iface := ⟨PocAsk, PocAsk.Ans⟩

inductive PocError where
  | database (err : String)
  | panicked
  deriving DecidableEq

abbrev Gating := Act PocWorld Unit PocError

def pocAsk (o : PocAsk) : Gating o.Ans := Act.op (I := PocWorld) o

/-- `execute`, with what it reports. -/
def affectedBy : Reply Nat → Except PocError Nat
  | .ok affected => .ok affected
  | .lost _ err | .refused err => .error (.database err)

/-- The instants `OffsetDateTime` has, in seconds: the years from -9999 to 9999. -/
def representable (seconds : Int) : Bool := -377705116800 ≤ seconds && seconds ≤ 253402300799

/-- `true` if this call consumed the puzzle, `false` if it was spent before. -/
def consume (sessionId : Uuid) (retainUntilMs : Int) : Gating Bool := do
  if !representable (retainUntilMs / 1000) then Act.fail .panicked
  else
    let reply ← pocAsk (.insertSpent sessionId (retainUntilMs * 1000))
    let affected ← Act.ofExcept (affectedBy reply)
    pure (affected == 1)

def pruneExpired : Gating Nat := do
  let reply ← pocAsk .deleteSpent
  Act.ofExcept (affectedBy reply)

def Poc.verify (ext : PocExt) (poc : Poc) (solution : Solution) (nowMs : Int) :
    Gating (Except Rejection Unit) := do
  match poc.verifyOffline ext solution nowMs with
  | .error rejection => pure (.error rejection)
  | .ok () =>
      match ← consume solution.sessionId (solution.timestampMs + validityWindowMs) with
      | true => pure (.ok ())
      | false => pure (.error .replayed)

/-- A request that comes with a solution. -/
def pocGate (ext : PocExt) (poc : Poc) (solution : Solution) : Gating (Except Rejection Unit) := do
  let nowMs ← pocAsk .clock
  match ← poc.verify ext solution nowMs with
  | .ok () =>
      pocAsk (.proceed solution nowMs)
      pure (.ok ())
  | .error rejection => pure (.error rejection)

/-- The pruner, over its first `turns` turns: a failure is logged. -/
def pruneSpentPuzzles (turns : Nat) : Gating (Except Rejection Unit) := do
  Act.forEach (fun _ => do
    let _ ← (Act.attempt pruneExpired : Gating (Except PocError Nat))
    pure ()) (List.range turns)
  pure (.ok ())

/-! ### Any number of replicas -/

/-- `now` is the clock of the database, in microseconds; `seen` is what the clock of a process said
    when it was last read, in milliseconds. -/
structure PocState where
  now : Int
  spent : Uuid → Option Int
  seen : Nat → Int

def PocState.record (st : PocState) (sessionId : Uuid) (expiresAt : Int) : PocState :=
  { st with spent := update st.spent sessionId (some expiresAt) }

def PocState.prune (st : PocState) : PocState :=
  { st with spent := fun id => (st.spent id).filter fun expiresAt => st.now - pruneGrace ≤ expiresAt }

def PocAsk.Does (p : Nat) (st : PocState) : (o : PocAsk) → o.Ans → PocState → Prop
  | .clock, nowMs, st' => st' = { st with seen := update st.seen p nowMs }
  | .insertSpent id expiresAt, reply, st' =>
      Reply.Did reply st st' fun affected =>
        if (st.spent id).isNone then affected = 1 ∧ st' = st.record id expiresAt
        else affected = 0 ∧ st' = st
  | .deleteSpent, reply, st' => Reply.Did reply st st' fun _ => st' = st.prune
  | .proceed .., _, st' => st' = st

/-- Time passes at the database. -/
def Replicas (ext : PocExt) :
    Machine PocWorld PocState Nat (Except PocError (Except Rejection Unit) × Unit) where
  exec p o st a st' := PocAsk.Does p st o a st'
  env d st st' := st' = { st with now := st.now + d }
  boot _ prog := (∃ poc solution, prog = pocGate ext poc solution ()) ∨
    ∃ turns, prog = pruneSpentPuzzles turns ()
  die _ st st' := st' = st

/-- When a solution is consumed, the clock of the database is at most the grace period ahead of what
    the clock of the process said. -/
def InTime (p : Nat) (o : PocAsk) (st : PocState) : Prop :=
  match o with
  | .insertSpent .. => st.now ≤ 1000 * st.seen p + pruneGrace
  | _ => True

abbrev TimelyReplicas (ext : PocExt) :
    Machine PocWorld PocState Nat (Except PocError (Except Rejection Unit) × Unit) :=
  (Replicas ext).given InTime

/-- Where a request stands: what its clock said, and what it has consumed until when. -/
inductive PocStage where
  | begun
  | timed (nowMs : Int)
  | won (nowMs : Int) (sessionId : Uuid) (expiresAt : Int)
  | ended
  deriving DecidableEq

/-- Until when, in microseconds, the row of a puzzle of that time is kept. -/
def retainUntil (timestampMs : Int) : Int := (timestampMs + validityWindowMs) * 1000

theorem retainUntil_inj {a b : Int} (h : retainUntil a = retainUntil b) : a = b := by
  unfold retainUntil at h
  omega

/-- A request consumes what has not expired, and goes on with what it has consumed. -/
def pocMonitor : Monitor PocWorld PocStage where
  next
    | .begun, ⟨.clock, nowMs⟩ => .timed nowMs
    | .timed nowMs, ⟨.insertSpent id expiresAt, reply⟩ =>
        match (reply : Reply Nat) with
        | .ok 1 => .won nowMs id expiresAt
        | _ => .ended
    | .won .., ⟨.proceed .., _⟩ => .ended
    | stage, _ => stage
  ok
    | .begun, .clock | .begun, .deleteSpent => True
    | .timed nowMs, .insertSpent _ expiresAt =>
        ∃ ts, expiresAt = retainUntil ts ∧ nowMs ≤ ts + validityWindowMs
    | .won nowMs id expiresAt, .proceed solution nowMs' =>
        nowMs' = nowMs ∧ solution.sessionId = id ∧ retainUntil solution.timestampMs = expiresAt
    | _, _ => False
  adm _ _ := True

theorem pocGate_sat (ext : PocExt) (poc : Poc) (solution : Solution) :
    (pocGate ext poc solution).Sat pocMonitor () .begun Anyhow Anyhow := by
  refine Act.sat_bind.mpr (Act.sat_op.mpr ⟨trivial, fun (nowMs : Int) _ => ?_⟩)
  refine Act.sat_bind.mpr ?_
  rw [Poc.verify]
  cases hoffline : poc.verifyOffline ext solution nowMs with
  | error rejection => exact trivial
  | ok u =>
    have hfresh := Poc.verifyOffline_ok ext hoffline
    refine Act.sat_bind.mpr ?_
    rw [consume]
    split_ifs
    · exact trivial
    refine Act.sat_bind.mpr (Act.sat_op.mpr ⟨?_, fun (reply : Reply Nat) _ => ?_⟩)
    · exact ⟨solution.timestampMs, rfl, hfresh⟩
    match reply with
    | .ok 1 => exact ⟨⟨rfl, rfl, rfl⟩, fun _ _ => trivial⟩
    | .ok 0 | .ok (_ + 2) | .lost .. | .refused _ => exact trivial

theorem pruneSpentPuzzles_sat (turns : Nat) :
    (pruneSpentPuzzles turns).Sat pocMonitor () .begun Anyhow Anyhow := by
  rw [pruneSpentPuzzles, Act.sat_bind]
  refine Act.Sat.mono (Act.sat_forEach (fun _ stage _ => stage = PocStage.begun) ?_ rfl)
    (fun _ _ _ _ => trivial) fun _ _ _ h => h
  rintro _ _ _ ⟨⟩ rfl
  refine Act.sat_bind.mpr (Act.sat_attempt.mpr (Act.sat_bind.mpr
    (Act.sat_op.mpr ⟨trivial, fun (reply : Reply Nat) _ => ?_⟩)))
  cases reply <;> exact rfl

theorem replicas_bound (ext : PocExt) (st₀ : PocState) :
    Bound (TimelyReplicas ext) st₀ pocMonitor .begun where
  boot := by
    rintro p _ (⟨poc, solution, rfl⟩ | ⟨turns, rfl⟩)
    · exact Prog.Sat.mono (fun _ _ _ => trivial) (pocGate_sat ext poc solution)
    · exact Prog.Sat.mono (fun _ _ _ => trivial) (pruneSpentPuzzles_sat turns)
  adm _ _ _ _ _ _ _ _ := trivial

/-! ### Once -/

/-- A request went on with the solution, at the time its own clock had said. -/
def admission : Label PocWorld Nat → Option (Solution × Int)
  | .op _ ⟨.proceed solution nowMs, _⟩ => some (solution, nowMs)
  | _ => none

/-- How often a solution of the puzzle was accepted. -/
def acceptances (sessionId : Uuid) (timestampMs : Int) (ls : List (Label PocWorld Nat)) : Nat :=
  (ls.filterMap admission).countP fun x =>
    x.1.sessionId = sessionId ∧ x.1.timestampMs = timestampMs

/-- Nobody who checked the puzzle in time can consume it any more. -/
def PocState.Gone (st : PocState) (sessionId : Uuid) (timestampMs : Int) : Prop :=
  st.spent sessionId = some (retainUntil timestampMs) ∨ retainUntil timestampMs + pruneGrace < st.now

theorem PocState.Gone.record {st : PocState} {id id' : Uuid} {ts e : Int} (h : st.Gone id' ts)
    (hnone : (st.spent id).isNone = true) : (st.record id e).Gone id' ts := by
  rcases h with hrow | hlate
  · left
    have hne : id' ≠ id := by
      rintro rfl
      rw [hrow] at hnone
      cases hnone
    exact (update_of_ne hne _ _).trans hrow
  · exact .inr hlate

theorem PocState.Gone.prune {st : PocState} {id : Uuid} {ts : Int} (h : st.Gone id ts) :
    st.prune.Gone id ts := by
  rcases h with hrow | hlate
  · by_cases hkeep : st.now - pruneGrace ≤ retainUntil ts
    · left
      rw [PocState.prune]
      dsimp only
      rw [hrow, Option.filter_some_pos (by simpa using hkeep)]
    · right
      change retainUntil ts + pruneGrace < st.now
      omega
  · exact .inr hlate

/-- Won puzzles have not been accepted yet, each is won by one request, and neither they nor those
    that were accepted can be consumed again. -/
structure SpentInv (ls : List (Label PocWorld Nat)) (st : PocState)
    (watch : Nat → Option PocStage) : Prop where
  clock : ∀ p nowMs, watch p = some (.timed nowMs) → st.seen p = nowMs
  fresh : ∀ p n id ts, watch p = some (.won n id (retainUntil ts)) → n ≤ ts + validityWindowMs
  alone : ∀ p q n m id ts, watch p = some (.won n id (retainUntil ts)) →
    watch q = some (.won m id (retainUntil ts)) → p = q
  first : ∀ p n id ts, watch p = some (.won n id (retainUntil ts)) → acceptances id ts ls = 0
  once : ∀ id ts, acceptances id ts ls ≤ 1
  gone : ∀ id ts, ((∃ p n, watch p = some (.won n id (retainUntil ts))) ∨
    acceptances id ts ls = 1) → st.Gone id ts
  intime : ∀ x ∈ ls.filterMap admission, x.2 ≤ x.1.timestampMs + validityWindowMs

section Steps

variable {ls : List (Label PocWorld Nat)} {st st' : PocState} {watch : Nat → Option PocStage}
  {l : Label PocWorld Nat} {p : Nat}

theorem admissions_snoc : (ls ++ [l]).filterMap admission =
    ls.filterMap admission ++ (admission l).toList := by
  rw [List.filterMap_append]
  cases h : admission l <;> simp [h]

/-- Where no request goes on, the count stays. -/
theorem admissions_none (hl : admission l = none) :
    (ls ++ [l]).filterMap admission = ls.filterMap admission := by
  rw [admissions_snoc, hl]
  exact List.append_nil _

theorem acceptances_none (hl : admission l = none) (id : Uuid) (ts : Int) :
    acceptances id ts (ls ++ [l]) = acceptances id ts ls := by
  rw [acceptances, admissions_none hl, acceptances]

/-- A step that wins and accepts nothing. -/
theorem SpentInv.moved (h : SpentInv ls st watch) (hl : admission l = none) {stage : Option PocStage}
    (hwon : ∀ n id e, stage ≠ some (.won n id e))
    (htimed : ∀ n, stage = some (.timed n) → st'.seen p = n)
    (hseen : ∀ q, q ≠ p → st'.seen q = st.seen q) (hgone : ∀ id ts, st.Gone id ts → st'.Gone id ts) :
    SpentInv (ls ++ [l]) st' (update watch p stage) := by
  have hold : ∀ {q n id e}, update watch p stage q = some (.won n id e) →
      watch q = some (.won n id e) := by
    intro q n id e hq
    exact (of_update hq).elim (fun h => absurd h.2 (hwon n id e)) And.right
  constructor
  · intro q nowMs hq
    rcases of_update hq with ⟨rfl, hstage⟩ | ⟨hne, hq⟩
    · exact htimed nowMs hstage
    · rw [hseen q hne]
      exact h.clock q nowMs hq
  · exact fun q n id ts hq => h.fresh q n id ts (hold hq)
  · exact fun q q' n m id ts hq hq' => h.alone q q' n m id ts (hold hq) (hold hq')
  · intro q n id ts hq
    rw [acceptances_none hl]
    exact h.first q n id ts (hold hq)
  · intro id ts
    rw [acceptances_none hl]
    exact h.once id ts
  · intro id ts hcase
    refine hgone id ts (h.gone id ts ?_)
    rw [acceptances_none hl] at hcase
    exact hcase.imp_left fun ⟨q, n, hq⟩ => ⟨q, n, hold hq⟩
  · rw [admissions_none hl]
    exact h.intime

/-- A puzzle is won: it was in time, so nobody can have won it before. -/
theorem SpentInv.wins (h : SpentInv ls st watch) (hl : admission l = none) {nowMs ts : Int} {id : Uuid}
    (hp : watch p = some (.timed nowMs)) (hfresh : nowMs ≤ ts + validityWindowMs)
    (htime : st.now ≤ 1000 * st.seen p + pruneGrace) (hnone : (st.spent id).isNone = true) :
    SpentInv (ls ++ [l]) (st.record id (retainUntil ts))
      (update watch p (some (.won nowMs id (retainUntil ts)))) := by
  have hlive : ¬ st.Gone id ts := by
    rintro (hrow | hlate)
    · rw [hrow] at hnone
      cases hnone
    · rw [h.clock p nowMs hp] at htime
      unfold retainUntil at hlate
      omega
  have hnobody : ∀ {q n}, watch q ≠ some (.won n id (retainUntil ts)) :=
    fun hq => hlive (h.gone id ts (.inl ⟨_, _, hq⟩))
  have hnever : acceptances id ts ls = 0 := by
    have hle := h.once id ts
    have hne : acceptances id ts ls ≠ 1 := fun heq => hlive (h.gone id ts (.inr heq))
    omega
  have hnew : ∀ {q n id' ts'}, update watch p (some (.won nowMs id (retainUntil ts))) q =
      some (.won n id' (retainUntil ts')) → (q = p ∧ id' = id ∧ ts' = ts ∧ n = nowMs) ∨
        watch q = some (.won n id' (retainUntil ts')) := by
    intro q n id' ts' hq
    rcases of_update hq with ⟨rfl, hstage⟩ | ⟨-, hq⟩
    · rw [Option.some.injEq, PocStage.won.injEq] at hstage
      exact .inl ⟨rfl, hstage.2.1.symm, (retainUntil_inj hstage.2.2).symm, hstage.1.symm⟩
    · exact .inr hq
  constructor
  · intro q n hq
    rcases of_update hq with ⟨-, ⟨⟩⟩ | ⟨-, hq⟩
    exact h.clock q n hq
  · intro q n id' ts' hq
    obtain ⟨rfl, rfl, rfl, rfl⟩ | hq := hnew hq
    · exact hfresh
    · exact h.fresh q n id' ts' hq
  · intro q q' n m id' ts' hq hq'
    obtain ⟨rfl, rfl, rfl, rfl⟩ | hold := hnew hq
    · obtain ⟨rfl, -⟩ | hold' := hnew hq'
      · rfl
      · exact absurd hold' hnobody
    · obtain ⟨rfl, rfl, rfl, rfl⟩ | hold' := hnew hq'
      · exact absurd hold hnobody
      · exact h.alone q q' n m id' ts' hold hold'
  · intro q n id' ts' hq
    rw [acceptances_none hl]
    obtain ⟨rfl, rfl, rfl, rfl⟩ | hq := hnew hq
    · exact hnever
    · exact h.first q n id' ts' hq
  · intro id' ts'
    rw [acceptances_none hl]
    exact h.once id' ts'
  · intro id' ts' hcase
    rw [acceptances_none hl] at hcase
    rcases hcase with ⟨q, n, hq⟩ | hone
    · obtain ⟨rfl, rfl, rfl, rfl⟩ | hq := hnew hq
      · exact .inl (update_self ..)
      · exact (h.gone id' ts' (.inl ⟨q, n, hq⟩)).record hnone
    · exact (h.gone id' ts' (.inr hone)).record hnone
  · rw [admissions_none hl]
    exact h.intime

/-- The request that won a puzzle goes on. -/
theorem SpentInv.admits (h : SpentInv ls st watch) {nowMs : Int} {solution : Solution}
    (hp : watch p = some (.won nowMs solution.sessionId (retainUntil solution.timestampMs))) :
    SpentInv (ls ++ [.op p ⟨.proceed solution nowMs, ()⟩]) st
      (update watch p (some .ended)) := by
  have hold : ∀ {q n id ts}, update watch p (some .ended) q =
      some (.won n id (retainUntil ts)) →
      q ≠ p ∧ watch q = some (.won n id (retainUntil ts)) := by
    intro q n id ts hq
    exact (of_update hq).resolve_left nofun
  have hfirst := h.first p nowMs _ _ hp
  -- the count goes up for this puzzle, and only from zero
  have hcount : ∀ id ts, acceptances id ts (ls ++ [.op p ⟨.proceed solution nowMs, ()⟩]) =
      acceptances id ts ls + if solution.sessionId = id ∧ solution.timestampMs = ts then 1 else 0 := by
    intro id ts
    rw [acceptances, admissions_snoc, List.countP_append, acceptances]
    simp [admission, List.countP_singleton]
  constructor
  · intro q n hq
    rcases of_update hq with ⟨-, ⟨⟩⟩ | ⟨-, hq⟩
    exact h.clock q n hq
  · exact fun q n id ts hq => h.fresh q n id ts (hold hq).2
  · exact fun q q' n m id ts hq hq' => h.alone q q' n m id ts (hold hq).2 (hold hq').2
  · intro q n id ts hq
    obtain ⟨hne, hq⟩ := hold hq
    rw [hcount, h.first q n id ts hq, if_neg]
    rintro ⟨rfl, rfl⟩
    exact hne (h.alone q p _ _ _ _ hq hp)
  · intro id ts
    rw [hcount]
    split_ifs with hthis
    · obtain ⟨rfl, rfl⟩ := hthis
      rw [hfirst]
    · exact h.once id ts
  · intro id ts hcase
    rcases hcase with ⟨q, n, hq⟩ | hone
    · exact h.gone id ts (.inl ⟨q, n, (hold hq).2⟩)
    · rw [hcount] at hone
      split_ifs at hone with hthis
      · obtain ⟨rfl, rfl⟩ := hthis
        exact h.gone _ _ (.inl ⟨p, nowMs, hp⟩)
      · exact h.gone id ts (.inr hone)
  · rw [admissions_snoc]
    exact List.forall_mem_append.mpr ⟨h.intime, List.forall_mem_singleton.mpr (h.fresh p _ _ _ hp)⟩

end Steps

theorem timely_inv (ext : PocExt) {st₀ : PocState} {ls : List (Label PocWorld Nat)}
    {s : Sys PocWorld PocState (Except PocError (Except Rejection Unit) × Unit)}
    (r : Reachable (TimelyReplicas ext) st₀ ls s) : SpentInv ls s.st (s.watch pocMonitor .begun) := by
  refine Reachable.inv (replicas_bound ext st₀) SpentInv ?_ ⟨?_, ?_, ?_, ?_⟩ r
  · refine ⟨nofun, nofun, nofun, nofun, fun _ _ => Nat.zero_le _, fun _ _ h => ?_, nofun⟩
    rcases h with ⟨_, _, h⟩ | h <;> cases h
  · intro ls s p stage o a st' _ h hp hok hexec
    obtain ⟨htime, hdoes⟩ := hexec
    cases o with
    | clock =>
      obtain rfl := hdoes
      cases stage with
      | begun =>
        refine h.moved rfl nofun ?_ ?_ fun _ _ hg => hg
        · rintro n ⟨⟩
          exact update_self ..
        · exact fun q hne => update_of_ne hne _ _
      | timed | won | ended => exact hok.elim
    | deleteSpent =>
      cases stage with
      | begun =>
        refine h.moved rfl nofun nofun ?_ ?_
        · rcases Reply.Did.cases hdoes with ⟨_, rfl⟩ | rfl <;> exact fun _ _ => rfl
        · rcases Reply.Did.cases hdoes with ⟨_, rfl⟩ | rfl
          · exact fun _ _ hg => hg.prune
          · exact fun _ _ hg => hg
      | timed | won | ended => exact hok.elim
    | insertSpent id e =>
      cases stage with
      | begun | won | ended => exact hok.elim
      | timed nowMs =>
        obtain ⟨ts, rfl, hfresh⟩ := hok
        -- unless the request wins, what matters is that no row is lost
        have hrest : st'.seen = s.st.seen ∧ ∀ id ts, s.st.Gone id ts → st'.Gone id ts := by
          rcases Reply.Did.cases hdoes with ⟨affected, hdone⟩ | rfl
          · split_ifs at hdone with hnone
            · obtain ⟨-, rfl⟩ := hdone
              exact ⟨rfl, fun _ _ hg => hg.record hnone⟩
            · obtain ⟨-, rfl⟩ := hdone
              exact ⟨rfl, fun _ _ hg => hg⟩
          · exact ⟨rfl, fun _ _ hg => hg⟩
        have hlost : SpentInv (ls ++ [.op p ⟨.insertSpent id (retainUntil ts), a⟩]) st'
            (update (s.watch pocMonitor .begun) p (some .ended)) :=
          h.moved rfl nofun nofun (fun _ _ => by rw [hrest.1]) hrest.2
        match (a : Reply Nat), hdoes with
        | .ok 1, hdone =>
          change (if (s.st.spent id).isNone = true then _ else _) at hdone
          split_ifs at hdone with hnone
          · obtain ⟨-, rfl⟩ := hdone
            exact h.wins rfl hp hfresh htime hnone
          · cases hdone.1
        | .ok 0, _ | .ok (_ + 2), _ | .lost .., _ | .refused _, _ => exact hlost
    | proceed solution nowMs' =>
      cases stage with
      | begun | timed | ended => exact hok.elim
      | won nowMs id e =>
        obtain ⟨rfl, rfl, rfl⟩ := hok
        obtain rfl := hdoes
        exact h.admits hp
  · intro ls s d st' _ h henv
    obtain rfl := henv
    refine ⟨h.clock, h.fresh, h.alone, fun p n id ts hp => ?_, fun id ts => ?_,
      fun id ts hcase => ?_, ?_⟩
    · rw [acceptances_none rfl]
      exact h.first p n id ts hp
    · rw [acceptances_none rfl]
      exact h.once id ts
    · rw [acceptances_none rfl] at hcase
      refine (h.gone id ts hcase).imp_right fun hlate => ?_
      change _ < s.st.now + (d : Int)
      omega
    · rw [admissions_none rfl]
      exact h.intime
  · intro ls s p _ h _
    exact h.moved rfl nofun nofun (fun _ _ => rfl) fun _ _ hg => hg
  · intro ls s p st' _ h hdie
    obtain rfl := hdie
    exact h.moved rfl nofun nofun (fun _ _ => rfl) fun _ _ hg => hg

/-- Each puzzle is accepted at most once, and never by a clock that has passed its window, in every
    run in which the clock of the database is nowhere more than the grace period ahead. -/
theorem puzzle_single_use (ext : PocExt) {st₀ : PocState} {ls : List (Label PocWorld Nat)}
    {s : Sys PocWorld PocState (Except PocError (Except Rejection Unit) × Unit)}
    (r : Reachable (TimelyReplicas ext) st₀ ls s) :
    (∀ sessionId timestampMs, acceptances sessionId timestampMs ls ≤ 1) ∧
      ∀ x ∈ ls.filterMap admission, x.2 ≤ x.1.timestampMs + validityWindowMs :=
  ⟨(timely_inv ext r).once, (timely_inv ext r).intime⟩

/-! ### Two replicas and one puzzle -/

/-- The two digests of the puzzle and the solution below. -/
def testPocExt : PocExt where
  hmacSha256 _ _ := ⟨
    [32, 51, 115, 131, 54, 92, 69, 95, 131, 229, 47, 147, 247, 218, 159, 218, 9, 40, 191, 1,
     154, 126, 62, 49, 170, 65, 27, 110, 79, 176, 153, 35], rfl⟩
  sha256 _ := ⟨
    [0, 198, 225, 42, 222, 205, 250, 234, 12, 135, 188, 55, 117, 151, 89, 243, 17, 52, 0, 100,
     252, 171, 208, 232, 228, 203, 222, 65, 85, 4, 117, 182], rfl⟩

def testPoc : Poc := ⟨⟨List.replicate 32 7, by simp⟩, 8⟩

def testSolution : Solution :=
  (testPoc.issue testPocExt ⟨List.replicate 16 9, by simp⟩ 1790000000000).solved 288

/-- Every statement is answered; a clock says what the script says. -/
def pocAnswer (p : Nat) (o : PocAsk) (st : PocState) (clock : Int) :
    Option { x : o.Ans × PocState // PocAsk.Does p st o x.1 x.2 } :=
  match o with
  | .clock => some ⟨(clock, { st with seen := update st.seen p clock }), rfl⟩
  | .insertSpent id expiresAt =>
      if hnone : (st.spent id).isNone then
        some ⟨((.ok 1 : Reply Nat), st.record id expiresAt), (if_pos hnone).mpr ⟨rfl, rfl⟩⟩
      else some ⟨((.ok 0 : Reply Nat), st), (if_neg hnone).mpr ⟨rfl, rfl⟩⟩
  | .deleteSpent => some ⟨((.ok 0 : Reply Nat), st.prune), rfl⟩
  | .proceed .. => some ⟨((), st), rfl⟩

/-- Requests with the solution, and a pruner. -/
def pocPlayer : Player (Replicas testPocExt) Int (Option Nat) where
  answer := pocAnswer
  act d st := some ⟨{ st with now := st.now + d }, rfl⟩
  image
    | none => ⟨pocGate testPocExt testPoc testSolution (), fun _ => .inl ⟨testPoc, testSolution, rfl⟩⟩
    | some turns => ⟨pruneSpentPuzzles turns (), fun _ => .inr ⟨turns, rfl⟩⟩
  lose _ st := ⟨st, rfl⟩

instance (p : Nat) (o : PocAsk) (st : PocState) : Decidable (InTime p o st) := by
  unfold InTime
  split <;> infer_instance

/-- Two requests race with one solution, the row is pruned, and a third comes too late. -/
def raced : List (Move Int Nat (Option Nat)) :=
  [.start 0 none, .start 1 none, .op 0 1790000001000, .op 1 1790000001500, .op 1 0, .op 0 0, .op 1 0,
    .env 700000000, .start 2 (some 1), .op 2 0, .start 3 none, .op 3 1790000701000]

theorem solution_raced :
    ∃ ls s, Reachable (TimelyReplicas testPocExt)
        ⟨1790000001000000, fun _ => none, fun _ => 0⟩ ls s ∧
      acceptances testSolution.sessionId testSolution.timestampMs ls = 1 ∧
      s.st.spent testSolution.sessionId = none ∧
      (∀ sessionId timestampMs, acceptances sessionId timestampMs ls ≤ 1) ∧
      ∀ x ∈ ls.filterMap admission, x.2 ≤ x.1.timestampMs + validityWindowMs := by
  obtain ⟨ls, s, hr, htest⟩ := (pocPlayer.given InTime).reaches
    ⟨1790000001000000, fun _ => none, fun _ => 0⟩ raced
    (fun ls s => decide (acceptances testSolution.sessionId testSolution.timestampMs ls = 1 ∧
      s.st.spent testSolution.sessionId = none)) (by decide +kernel)
  obtain ⟨hone, hpruned⟩ := of_decide_eq_true htest
  exact ⟨ls, s, hr, hone, hpruned, puzzle_single_use testPocExt hr⟩

end DeviceUniqueness.Indexer
