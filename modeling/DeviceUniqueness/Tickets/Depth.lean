import DeviceUniqueness.Tickets.Script

/-! The pools are never overfilled.

    A tick counts once and inserts later, while claims go on. Claims only ever take from a pool, and
    nobody else fills it while the tick holds the lock, so what the count left room for stays free:
    the room a tick has left is carried from its count on, and every insert uses up one place. -/

namespace DeviceUniqueness.Tickets

open Function Schemes

/-! ### Counting -/

variable {dim : Dim} {o : TicketAsk}

theorem countAvailable_mapRows {table : TicketTable} {f : Ticket → Ticket}
    {hf : ∀ row, (f row).publicKey = row.publicKey} {network : Network}
    (h : ∀ row, (f row).inPool dim network = true → row.inPool dim network = true) :
    (table.mapRows f hf).countAvailable dim network ≤ table.countAvailable dim network := by
  rw [TicketTable.countAvailable, TicketTable.mapRows, List.countP_map]
  exact List.countP_mono_left fun row _ hrow => h row hrow

theorem countAvailable_lockRow (table : TicketTable) (p : Nat) (key : Bytes) (dim : Dim)
    (network : Network) :
    (table.lockRow p key).countAvailable dim network ≤ table.countAvailable dim network :=
  countAvailable_mapRows fun row hrow => row.inPool_lockedBy p key dim network ▸ hrow

theorem countAvailable_unlockRows (table : TicketTable) (p : Nat) (dim : Dim) (network : Network) :
    (table.unlockRows p).countAvailable dim network ≤ table.countAvailable dim network :=
  countAvailable_mapRows fun row hrow => row.inPool_unlockedBy p dim network ▸ hrow

theorem countAvailable_apply (table : TicketTable) (flip : Flip) (dim : Dim) (network : Network) :
    (table.apply flip).countAvailable dim network ≤ table.countAvailable dim network := by
  refine countAvailable_mapRows fun row hrow => ?_
  unfold Flip.row at hrow
  split at hrow
  · simp [Ticket.inPool] at hrow
  · exact hrow

/-- An insert adds at most one ticket, to its own pool. -/
theorem countAvailable_insert (table : TicketTable) (new : NewTicket) (now : Time) (dim : Dim)
    (network : Network) :
    (table.insertAvailable new now).countAvailable dim network ≤
      table.countAvailable dim network + if new.dim = dim ∧ new.network = network then 1 else 0 := by
  rw [TicketTable.insertAvailable]
  split
  · exact Nat.le_add_right ..
  · rw [TicketTable.countAvailable, List.countP_append, List.countP_singleton]
    refine Nat.add_le_add_left ?_ _
    by_cases h : new.dim = dim ∧ new.network = network
    · rw [if_pos h]
      split <;> omega
    · rw [if_neg h, if_neg]
      intro hin
      rw [Ticket.inPool, Bool.and_eq_true, Bool.and_eq_true] at hin
      exact h ⟨of_decide_eq_true hin.1.2, of_decide_eq_true hin.2⟩

theorem countAvailable_abort (st : PoolState) (p : Nat) (dim : Dim) (network : Network) :
    (st.abort p).table.countAvailable dim network ≤ st.table.countAvailable dim network :=
  countAvailable_unlockRows ..

theorem countAvailable_commit (st : PoolState) (p : Nat) (dim : Dim) (network : Network) :
    (st.commit p).table.countAvailable dim network ≤ st.table.countAvailable dim network := by
  unfold PoolState.commit
  split
  · exact (countAvailable_unlockRows ..).trans (countAvailable_apply ..)
  · exact countAvailable_abort ..

@[simp] theorem lock_commit (st : PoolState) (p : Nat) : (st.commit p).lock = st.lock := by
  unfold PoolState.commit
  split <;> rfl

/-! ### Sizes -/

/-- A size a batch may have. -/
def Fits (tuning : PoolTuning) (size : Nat) : Prop := 1 ≤ size ∧ size ≤ tuning.batchMax

theorem planRefill_le (available target : Int) (batchSize : Nat) :
    planRefill available target batchSize ≤ batchSize := by
  unfold planRefill
  dsimp only
  split <;> omega

theorem planRefill_room {available target : Int} {batchSize : Nat}
    (h : planRefill available target batchSize ≠ 0) :
    (planRefill available target batchSize : Int) ≤ target - available := by
  unfold planRefill saturate64 at *
  dsimp only at *
  split at h
  · exact absurd rfl h
  · next hpos =>
    rw [if_neg hpos]
    split <;> omega

theorem fits_settle {tuning : PoolTuning} {size : Nat} (hmax : 1 ≤ tuning.batchMax)
    (h : Fits tuning size) (succeeded : Bool) :
    Fits tuning (settleBatchSize size tuning.batchMax succeeded) := by
  obtain ⟨hpos, hle⟩ := h
  unfold settleBatchSize saturatingAdd16 Fits
  cases succeeded
  · simp only [Bool.false_eq_true, if_false]
    omega
  · simp only [if_true]
    omega

/-! ### What a maintainer may do -/

/-- Where a process stands with the lock: it has counted a pool, and so many places are left. -/
inductive TickStage where
  | idle
  | locked
  | counted (dim : Dim) (network : Network) (left : Int)
  deriving DecidableEq

def tickNext (tuning : PoolTuning) (stage : TickStage) : Ev TicketWorld → TickStage
  | ⟨.tryLock, .ok true⟩ => .locked
  | ⟨.unlock, _⟩ => .idle
  | ⟨.count dim network, .ok available⟩ =>
      if stage = .idle then .idle else .counted dim network (tuning.target - available)
  | ⟨.insertAvailable _, _⟩ =>
      match stage with
      | .counted dim network left => .counted dim network (left - 1)
      | stage => stage
  | _ => stage

/-- Inserts use up what the count left, and sizes fit. -/
def tickMonitor (tuning : PoolTuning) : Monitor TicketWorld TickStage where
  next := tickNext tuning
  ok
    | stage, .tryLock => stage = .idle
    | stage, .insertAvailable new => ∃ left, stage = .counted new.dim new.network left ∧ 1 ≤ left
    | _, .submitAndWatch batch => Fits tuning batch.tickets.length
    | _, .resize _ size => Fits tuning size
    | _, _ => True
  adm _ _ := True

/-! ### The claims -/

section Claims

variable {ext : TicketExt} {tuning : PoolTuning} {α : Type}

/-- The step is about no pool. -/
abbrev Idles {ε : Type} (tuning : PoolTuning) (m : Act TicketWorld Unit ε α) : Prop :=
  Act.Rests (tickMonitor tuning) .idle m

/-- What a claim asks for. -/
def OfClaim : TicketAsk → Prop
  | .tryLock | .unlock | .insertAvailable _ | .submitAndWatch _ | .resize .. => False
  | _ => True

theorem idles_then {ε : Type} {f : o.Ans → Act TicketWorld Unit ε α} (ho : OfClaim o)
    (hf : ∀ a, Idles tuning (f a)) : Idles tuning (ticketAsk o >>= f) := by
  refine Act.Rests.bind (Act.rests_op ?_ fun a => ?_) hf
  · cases o <;> first | exact trivial | exact ho.elim
  · cases o with
    | count => cases (a : Except String Nat) <;> rfl
    | tryLock | unlock | insertAvailable | submitAndWatch | resize => exact ho.elim
    | _ => exact rfl

theorem idles_retryDb {m : Serving α} (hm : Idles tuning m) :
    ∀ attempts, Idles tuning (retryDb m attempts)
  | 0 => hm
  | attempts + 1 => by
      refine (Act.rests_attempt hm).bind fun result => ?_
      cases result with
      | ok value => exact Act.rests_pure value
      | error _ => exact idles_retryDb hm attempts

theorem countAvailable_idles (dim : Dim) (network : Network) :
    Idles tuning (countAvailable dim network) :=
  idles_then trivial fun _ => Act.rests_ofExcept _

theorem claimOldest_idles (dim : Dim) (network : Network) (who : String) (now : Time) :
    Idles tuning (claimOldest dim network who now) := by
  refine idles_then trivial fun _ => (Act.rests_ofExcept _).bind fun _ => ?_
  refine idles_then trivial fun _ => (Act.rests_ofExcept _).bind fun row => ?_
  cases row with
  | none =>
    exact idles_then trivial fun _ => (Act.rests_ofExcept _).bind fun _ => Act.rests_pure _
  | some ticket =>
    refine idles_then trivial fun _ => (Act.rests_ofExcept _).bind fun _ => ?_
    exact idles_then trivial fun _ => (Act.rests_ofExcept _).bind fun _ => Act.rests_pure _

theorem claimTicket_idles (network : Network) (subject : String) (body : Bytes) :
    Idles tuning (claimTicket ext network subject body) := by
  refine (Act.rests_ofExcept _).bind fun request => Act.Rests.bind ?_ fun _ => ?_
  · refine idles_then trivial fun allowed => ?_
    cases (allowed : Except Nat Unit) with
    | ok _ => exact Act.rests_pure _
    | error wait => exact Act.rests_fail _
  refine idles_then trivial fun now => ?_
  refine (idles_retryDb (countAvailable_idles _ _) _).bind fun available => ?_
  split
  · exact Act.rests_fail _
  refine (idles_retryDb (claimOldest_idles _ _ _ _) _).bind fun ticket => ?_
  cases ticket with
  | none => exact Act.rests_fail _
  | some ticket =>
    refine (Act.rests_ofExcept _).bind fun keypair => idles_then trivial fun nonce => ?_
    exact (idles_retryDb (countAvailable_idles _ _) _).bind fun _ => Act.rests_pure _

theorem serveClaim_idles (network : Network) (subject : String) (body : Bytes) :
    Idles tuning (serveClaim ext network subject body) := by
  refine (Act.rests_attempt (claimTicket_idles network subject body)).bind fun result => ?_
  exact Act.rests_op trivial fun _ => rfl

end Claims

/-! ### The maintainers -/

variable {stage : TickStage}

section Maintainers

variable {ext : TicketExt} {identity : InviterIdentity} {network : Network} {tuning : PoolTuning}
  {patience : Nat}

/-- What changes nothing about the pools, whoever holds the lock. -/
def Aside : TicketAsk → Prop
  | .availableInvites .. | .freeBalance _ | .seed | .txClient | .createSigned _ | .nextStatus
  | .waitForSuccess => True
  | _ => False

theorem aside_then {α : Type} {f : o.Ans → Maintaining α} (ho : Aside o)
    (hf : ∀ a, Act.Rests (tickMonitor tuning) stage (f a)) :
    Act.Rests (tickMonitor tuning) stage (ticketAsk o >>= f) := by
  refine Act.Rests.bind (Act.rests_op ?_ fun a => ?_) hf
  · cases o <;> first | exact trivial | exact ho.elim
  · cases o <;> first | rfl | exact ho.elim

theorem submitTicketBatch_rests {batch : TicketBatch} (hfits : Fits tuning batch.tickets.length) :
    Act.Rests (tickMonitor tuning) stage (submitTicketBatch patience batch) := by
  refine aside_then trivial fun _ => (Act.rests_ofExcept _).bind fun _ => ?_
  refine aside_then trivial fun _ => (Act.rests_ofExcept _).bind fun _ => ?_
  refine Act.Rests.bind (Act.rests_op hfits fun _ => rfl) fun _ => ?_
  refine (Act.rests_ofExcept _).bind fun _ => ?_
  exact watch_rests (Act.rests_op trivial fun _ => rfl) (Act.rests_op trivial fun _ => rfl) patience

theorem generate_rests : Act.Rests (tickMonitor tuning) stage (generate ext) := by
  refine aside_then trivial fun seed => ?_
  split
  · exact Act.rests_pure _
  · exact Act.rests_fail _

/-- As many keys as were asked for. -/
theorem generated_sat (size : Nat) :
    (Act.collect (fun _ => do pure (some (← generate ext))) (List.range size)).Sat
      (tickMonitor tuning) () stage (fun stage' generated _ => stage' = stage ∧ generated.length = size)
      fun stage' _ _ => stage' = stage := by
  refine Act.Sat.mono (Act.sat_collect
    (fun xs ys stage' _ => stage' = stage ∧ ys.length + xs.length = size) ?_ ?_) ?_ fun _ _ _ h => h
  · rintro x xs ys _ ⟨⟩ ⟨rfl, hlen⟩
    refine generate_rests.sat_bind (fun key _ => ⟨rfl, ?_⟩) fun _ _ => rfl
    simp only [Option.toList_some, List.length_append, List.length_cons, List.length_nil] at *
    omega
  · exact ⟨rfl, by simp⟩
  · rintro _ generated _ ⟨rfl, hlen⟩
    exact ⟨rfl, by simpa using hlen⟩

/-- There is room for every key that is still to be looked at. -/
theorem insertAccepted_sat {items : List Bool} {generated : List (Generated ext)} {left : Int}
    (hroom : generated.length ≤ left) :
    (insertAccepted ext identity network dim items generated).Sat (tickMonitor tuning) ()
      (.counted dim network left) (fun stage _ _ => stage ≠ .idle) fun stage _ _ => stage ≠ .idle := by
  refine Act.Sat.mono (Act.sat_fold (fun xs _ stage _ =>
    ∃ left : Int, stage = .counted dim network left ∧ xs.length ≤ left) ?_ ⟨left, rfl, ?_⟩) ?_
      fun _ _ _ h => h
  · rintro ⟨key, index⟩ xs inserted _ ⟨⟩ ⟨left, rfl, hleft⟩
    rw [List.length_cons] at hleft
    dsimp only
    split
    · refine Act.sat_bind.mpr ⟨⟨left, rfl, by omega⟩, fun reply _ => ?_⟩
      refine Act.sat_bind.mpr (Act.sat_ofExcept.mpr ⟨fun _ _ => ?_, fun _ _ => nofun⟩)
      exact ⟨left - 1, rfl, by omega⟩
    · exact ⟨left, rfl, by omega⟩
  · simpa using hroom
  · rintro _ _ _ ⟨left, rfl, -⟩
    exact nofun

theorem tickPool_sat (hmax : 1 ≤ tuning.batchMax) {batchSize : Nat} (hfits : Fits tuning batchSize)
    (hstage : stage ≠ .idle) :
    (tickPool ext identity network tuning patience dim batchSize).Sat (tickMonitor tuning) () stage
      (fun stage out _ => stage ≠ .idle ∧ Fits tuning out.2) fun stage _ _ => stage ≠ .idle := by
  refine Act.sat_bind.mpr ⟨trivial, fun (available : Except String Nat) _ => ?_⟩
  cases available with
  | error e => exact hstage
  | ok available =>
    have hcounted : (tickMonitor tuning).next stage ⟨.count dim network, .ok available⟩ =
        .counted dim network (tuning.target - available) := if_neg hstage
    rw [hcounted]
    refine Act.sat_bind.mpr ⟨trivial, fun _ _ => ?_⟩
    dsimp only
    split
    · exact ⟨nofun, hfits⟩
    next hsize =>
    have hle := planRefill_le available tuning.target batchSize
    have hroom := planRefill_room hsize
    refine Act.sat_bind.mpr (Act.Sat.mono (generated_sat _) ?_ ?_)
    · rintro _ generated ⟨⟩ ⟨rfl, hlen⟩
      have hbatch : Fits tuning (generated.map Generated.account).length := by
        rw [List.length_map, hlen]
        exact ⟨Nat.pos_of_ne_zero hsize, hle.trans hfits.2⟩
      refine (submitTicketBatch_rests hbatch).sat_bind (fun items _ => ?_) fun _ _ => nofun
      refine Act.sat_bind.mpr (Act.Sat.mono (insertAccepted_sat (hlen ▸ hroom)) ?_ fun _ _ _ h => h)
      exact fun _ inserted _ h => ⟨h, fits_settle hmax hfits _⟩
    · rintro _ _ _ rfl
      exact nofun

theorem servePool_sat (hmax : 1 ≤ tuning.batchMax) {pool : Dim × Nat} (hfits : Fits tuning pool.2)
    (hstage : stage ≠ .idle) :
    (servePool ext identity network tuning patience pool).Sat (tickMonitor tuning) () stage
      (fun stage pool _ => stage ≠ .idle ∧ Fits tuning pool.2) Anyhow := by
  refine Act.sat_bind.mpr (Act.sat_attempt.mpr (Act.Sat.mono (tickPool_sat hmax hfits hstage) ?_ ?_))
  · exact fun _ _ _ ⟨h, hnext⟩ => ⟨hnext, fun _ _ => ⟨h, hnext⟩⟩
  · have hthrottled := fits_settle hmax hfits false
    exact fun _ _ _ h => ⟨hthrottled, fun _ _ => ⟨h, hthrottled⟩⟩

theorem turn_sat (hmax : 1 ≤ tuning.batchMax) {pools : List (Dim × Nat)}
    (hfits : ∀ pool ∈ pools, Fits tuning pool.2) :
    (turn ext identity network tuning patience pools).Sat (tickMonitor tuning) () .idle
      (fun stage pools _ => stage = .idle ∧ ∀ pool ∈ pools, Fits tuning pool.2) Anyhow := by
  refine Act.sat_bind.mpr ⟨rfl, fun (locked : Except String Bool) _ => ?_⟩
  match locked with
  | .ok true =>
    refine Act.sat_bind.mpr (Act.Sat.mono (Act.sat_collect (fun xs ys stage _ => stage ≠ .idle ∧
      (∀ pool ∈ xs, Fits tuning pool.2) ∧ ∀ pool ∈ ys, Fits tuning pool.2) ?_ ?_) ?_
      fun _ _ _ h => h)
    · rintro x xs ys stage ⟨⟩ ⟨hstage, hxs, hys⟩
      obtain ⟨hx, hxs⟩ := List.forall_mem_cons.mp hxs
      refine Act.sat_bind.mpr (Act.Sat.mono (servePool_sat hmax hx hstage) ?_ fun _ _ _ h => h)
      rintro _ pool _ ⟨hstage, hpool⟩
      exact ⟨hstage, hxs, List.forall_mem_append.mpr ⟨hys, List.forall_mem_singleton.mpr hpool⟩⟩
    · exact ⟨nofun, hfits, List.forall_mem_nil _⟩
    · exact fun _ served _ h => ⟨trivial, fun _ _ => ⟨rfl, h.2.2⟩⟩
  | .ok false | .error _ => exact ⟨rfl, hfits⟩

theorem turns_sat (hmax : 1 ≤ tuning.batchMax) : ∀ {n : Nat} {pools : List (Dim × Nat)},
    (∀ pool ∈ pools, Fits tuning pool.2) →
    (turns ext identity network tuning patience pools n).Sat (tickMonitor tuning) () .idle
      Anyhow Anyhow
  | 0, _, _ => trivial
  | n + 1, _, hfits => by
      refine Act.sat_bind.mpr (Act.Sat.mono (turn_sat hmax hfits) ?_ fun _ _ _ h => h)
      rintro _ pools _ ⟨rfl, hfits⟩
      exact Act.sat_bind.mpr ⟨trivial, fun _ _ => turns_sat hmax hfits⟩

theorem runLoop_sat (hmax : 1 ≤ tuning.batchMax) (dims : List Dim) (n : Nat) :
    (runLoop ext identity network tuning patience dims n).Sat (tickMonitor tuning) () .idle
      Anyhow Anyhow := by
  refine turns_sat hmax fun pool hpool => ?_
  obtain ⟨dim, -, rfl⟩ := List.mem_map.mp hpool
  exact ⟨hmax, le_refl _⟩

end Maintainers

theorem invites_bound (ext : TicketExt) {tuning : PoolTuning} (hmax : 1 ≤ tuning.batchMax)
    (st₀ : PoolState) : Bound (Invites ext tuning) st₀ (tickMonitor tuning) .idle where
  boot := by
    rintro p _ (⟨network, subject, body, rfl⟩ | ⟨identity, network, patience, dims, n, rfl⟩)
    · exact Prog.Sat.mono (fun _ _ _ => trivial) (serveClaim_idles network subject body ())
    · exact Prog.Sat.mono (fun _ _ _ => trivial) (runLoop_sat hmax dims n)
  adm _ _ _ _ _ _ _ _ := trivial

/-! ### The depth of the pools -/

/-- A batch that is submitted and a size that is set fit. -/
def SizesFit (tuning : PoolTuning) : TicketLabel → Prop
  | .op _ ⟨.submitAndWatch batch, _⟩ => Fits tuning batch.tickets.length
  | .op _ ⟨.resize _ size, _⟩ => Fits tuning size
  | _ => True

/-- Whoever is at work on a pool holds the lock, and has the room it counts on. -/
structure DepthInv (tuning : PoolTuning) (st₀ : PoolState) (ls : List TicketLabel)
    (st : PoolState) (watch : Nat → Option TickStage) : Prop where
  holder : ∀ p stage, watch p = some stage → stage ≠ .idle → st.lock = some p
  room : ∀ p dim network left, watch p = some (.counted dim network left) → 1 ≤ left →
    st.table.countAvailable dim network + left ≤ tuning.target
  depth : ∀ dim network, (st.table.countAvailable dim network : Int) ≤
    max (st₀.table.countAvailable dim network : Int) tuning.target
  sizes : ∀ l ∈ ls, SizesFit tuning l

section Steps

variable {tuning : PoolTuning} {st₀ st st' : PoolState} {ls : List TicketLabel}
  {watch : Nat → Option TickStage} {l : TicketLabel} {p : Nat}

/-- A step that adds nothing: it may only change how the process stands. -/
theorem DepthInv.kept (h : DepthInv tuning st₀ ls st watch) (hl : SizesFit tuning l)
    (hcount : ∀ dim network,
      st'.table.countAvailable dim network ≤ st.table.countAvailable dim network)
    {stage : Option TickStage}
    (hholder : ∀ stage', stage = some stage' → stage' ≠ .idle → st'.lock = some p)
    (hothers : ∀ q, q ≠ p → st.lock = some q → st'.lock = some q)
    (hroom : ∀ dim network left, stage = some (.counted dim network left) → 1 ≤ left →
      st'.table.countAvailable dim network + left ≤ tuning.target) :
    DepthInv tuning st₀ (ls ++ [l]) st' (update watch p stage) := by
  constructor
  · intro q stage' hq hidle
    rcases of_update hq with ⟨rfl, hstage⟩ | ⟨hne, hq⟩
    · exact hholder stage' hstage hidle
    · exact hothers q hne (h.holder q stage' hq hidle)
  · intro q dim network left hq hleft
    rcases of_update hq with ⟨rfl, hstage⟩ | ⟨-, hq⟩
    · exact hroom dim network left hstage hleft
    · have := h.room q dim network left hq hleft
      have := hcount dim network
      omega
  · intro dim network
    have := h.depth dim network
    have := hcount dim network
    omega
  · exact List.forall_mem_append.mpr ⟨h.sizes, List.forall_mem_singleton.mpr hl⟩

/-- A step after which the process stands as before. -/
theorem DepthInv.same (h : DepthInv tuning st₀ ls st watch) (hl : SizesFit tuning l)
    (hcount : ∀ dim network,
      st'.table.countAvailable dim network ≤ st.table.countAvailable dim network)
    (hlock : st'.lock = st.lock) (hp : watch p = some stage) :
    DepthInv tuning st₀ (ls ++ [l]) st' (update watch p (some stage)) := by
  refine h.kept hl hcount ?_ (fun _ _ hq => hlock ▸ hq) ?_
  · rintro _ ⟨⟩ hidle
    rw [hlock]
    exact h.holder p stage hp hidle
  · rintro dim network left ⟨⟩ hleft
    have := h.room p dim network left hp hleft
    have := hcount dim network
    omega

/-- An insert uses one of the places its process has left, and nobody else counts on them. -/
theorem DepthInv.inserted (h : DepthInv tuning st₀ ls st watch) {new : NewTicket} {left : Int}
    (hp : watch p = some (.counted new.dim new.network left)) (hleft : 1 ≤ left)
    {reply : Reply Unit}
    (hst : st' = { st with table := st.table.insertAvailable new st.now } ∨ st' = st) :
    DepthInv tuning st₀ (ls ++ [.op p ⟨.insertAvailable new, reply⟩]) st'
      (update watch p (some (.counted new.dim new.network (left - 1)))) := by
  have hroom := h.room p _ _ left hp hleft
  have hlock : st.lock = some p := h.holder p _ hp nofun
  have hlock' : st'.lock = some p := by rcases hst with rfl | rfl <;> exact hlock
  have hcount : ∀ dim network, st'.table.countAvailable dim network ≤
      st.table.countAvailable dim network +
        if new.dim = dim ∧ new.network = network then 1 else 0 := by
    intro dim network
    rcases hst with rfl | rfl
    · exact countAvailable_insert ..
    · exact Nat.le_add_right ..
  constructor
  · intro q stage hq hidle
    rcases of_update hq with ⟨rfl, -⟩ | ⟨hne, hq⟩
    · exact hlock'
    · exact absurd (Option.some.inj ((h.holder q stage hq hidle).symm.trans hlock)) hne
  · intro q dim network left' hq hleft'
    rcases of_update hq with ⟨rfl, ⟨⟩⟩ | ⟨hne, hq⟩
    · have := hcount new.dim new.network
      rw [if_pos ⟨rfl, rfl⟩] at this
      omega
    · exact absurd (Option.some.inj ((h.holder q _ hq nofun).symm.trans hlock)) hne
  · intro dim network
    have hbefore := h.depth dim network
    have hafter := hcount dim network
    split at hafter
    · next heq =>
      obtain ⟨rfl, rfl⟩ := heq
      omega
    · omega
  · exact List.forall_mem_append.mpr ⟨h.sizes, List.forall_mem_singleton.mpr trivial⟩

/-- What an operation that is allowed does. -/
theorem DepthInv.op (h : DepthInv tuning st₀ ls st watch) {a : o.Ans} (hp : watch p = some stage)
    (hok : (tickMonitor tuning).ok stage o) (hexec : TicketAsk.Does p st o a st') :
    DepthInv tuning st₀ (ls ++ [.op p ⟨o, a⟩]) st'
      (update watch p (some ((tickMonitor tuning).next stage ⟨o, a⟩))) := by
  have hl : ∀ a, SizesFit tuning (.op p ⟨o, a⟩) := by
    intro a
    cases o <;> first | exact hok | exact trivial
  cases o with
  | count dim network =>
    obtain ⟨rfl, hreply⟩ := hexec
    cases (a : Except String Nat) with
    | error e => exact h.same (hl _) (fun _ _ => le_refl _) rfl hp
    | ok n =>
      obtain rfl := hreply n rfl
      by_cases hidle : stage = .idle
      · obtain rfl := hidle
        exact h.same (hl _) (fun _ _ => le_refl _) rfl hp
      · rw [show (tickMonitor tuning).next stage ⟨.count dim network, .ok _⟩ = _ from if_neg hidle]
        refine h.kept (hl _) (fun _ _ => le_refl _) ?_ (fun _ _ hq => hq) ?_
        · exact fun _ _ _ => h.holder p stage hp hidle
        · rintro _ _ _ ⟨⟩ _
          omega
  | insertAvailable new =>
    obtain ⟨left, rfl, hleft⟩ := hok
    exact h.inserted hp hleft ((Reply.Did.cases hexec).imp_left fun ⟨_, hst⟩ => hst)
  | selectOldest dim network =>
    refine h.same (hl _) ?_ ?_ hp
    · intro d n
      match a, hexec with
      | .error _, hst => exact hst ▸ countAvailable_abort ..
      | .ok none, ⟨_, hst⟩ => exact hst ▸ le_refl _
      | .ok (some ticket), ⟨_, hst⟩ => exact hst ▸ countAvailable_lockRow ..
    · match a, hexec with
      | .error _, hst | .ok none, ⟨_, hst⟩ | .ok (some ticket), ⟨_, hst⟩ => exact hst ▸ rfl
  | setClaimed flip =>
    match a, hexec with
    | .error _, hst => exact h.same (hl _) (hst ▸ countAvailable_abort _ _) (hst ▸ rfl) hp
    | .ok _, hst => exact h.same (hl _) (hst ▸ fun _ _ => le_refl _) (hst ▸ rfl) hp
  | rollback =>
    obtain rfl := hexec
    exact h.same (hl _) (countAvailable_abort _ _) rfl hp
  | commit =>
    match a, hexec with
    | .ok _, hst | .lost .., hst =>
      exact h.same (hl _) (hst ▸ countAvailable_commit _ _) (hst ▸ lock_commit _ _) hp
    | .refused _, hst => exact h.same (hl _) (hst ▸ countAvailable_abort _ _) (hst ▸ rfl) hp
  | tryLock =>
    obtain rfl : stage = .idle := hok
    match a, hexec with
    | .ok true, ⟨hfree, hst⟩ =>
      obtain rfl := hst
      refine h.kept (hl _) ?_ ?_ ?_ ?_
      · exact fun _ _ => le_refl _
      · exact fun _ _ _ => rfl
      · intro q hne hq
        rcases hfree with hnone | hown
        · rw [hnone] at hq
          cases hq
        · exact absurd (Option.some.inj (hq.symm.trans hown)) hne
      · rintro _ _ _ ⟨⟩
    | .ok false, ⟨_, hst⟩ => exact h.same (hl _) (hst ▸ fun _ _ => le_refl _) (hst ▸ rfl) hp
    | .error _, hst => exact h.same (hl _) (hst ▸ fun _ _ => le_refl _) (hst ▸ rfl) hp
  | unlock =>
    refine h.kept (hl _) ?_ ?_ ?_ nofun
    · rcases hexec with rfl | ⟨-, rfl⟩ <;> exact fun _ _ => le_refl _
    · rintro _ ⟨⟩ hidle
      exact absurd rfl hidle
    · intro q hne hq
      rcases hexec with rfl | ⟨hown, rfl⟩
      · exact hq
      · exact absurd (Option.some.inj (hq.symm.trans hown)) hne
  | _ =>
    obtain rfl := hexec
    exact h.same (hl _) (fun _ _ => le_refl _) rfl hp

end Steps

theorem reachable_depthInv {ext : TicketExt} {tuning : PoolTuning} (hmax : 1 ≤ tuning.batchMax)
    {st₀ : PoolState} {ls : List TicketLabel}
    {s : TicketSys}
    (r : Reachable (Invites ext tuning) st₀ ls s) :
    DepthInv tuning st₀ ls s.st (s.watch (tickMonitor tuning) .idle) := by
  refine Reachable.inv (invites_bound ext hmax st₀) (DepthInv tuning st₀) ?_
    ⟨?_, ?_, ?_, ?_⟩ r
  · exact ⟨nofun, nofun, fun _ _ => le_max_left _ _, List.forall_mem_nil _⟩
  · exact fun ls s p stage o a st' _ h hp hok hexec => h.op hp hok hexec
  · rintro ls s d _ _ h rfl
    exact ⟨h.holder, h.room, h.depth,
      List.forall_mem_append.mpr ⟨h.sizes, List.forall_mem_singleton.mpr trivial⟩⟩
  · intro ls s p _ h _
    refine h.kept (l := .start p) trivial (fun _ _ => le_refl _) ?_ (fun _ _ hq => hq) nofun
    rintro _ ⟨⟩ hidle
    exact absurd rfl hidle
  · rintro ls s p _ _ h rfl
    refine h.kept (l := .kill p) trivial ?_ ?_ ?_ ?_
    · exact countAvailable_abort s.st p
    · rintro _ ⟨⟩
    · intro q hne hq
      rw [PoolState.lose]
      dsimp only
      rw [if_neg fun hown => hne (Option.some.inj (hq.symm.trans hown))]
      exact hq
    · rintro _ _ _ ⟨⟩

/-- In every run of any number of maintainers and claims, no pool is filled beyond the target, unless
    it was to begin with, and every batch and every size set is between one and the maximum. -/
theorem pools_bounded (ext : TicketExt) {tuning : PoolTuning} (hmax : 1 ≤ tuning.batchMax)
    {st₀ : PoolState} {ls : List TicketLabel}
    {s : TicketSys}
    (r : Reachable (Invites ext tuning) st₀ ls s) :
    (∀ dim network, (s.st.table.countAvailable dim network : Int) ≤
      max (st₀.table.countAvailable dim network : Int) tuning.target) ∧
    (∀ p batch a, .op p ⟨.submitAndWatch batch, a⟩ ∈ ls →
      1 ≤ batch.tickets.length ∧ batch.tickets.length ≤ tuning.batchMax) ∧
    ∀ p dim size a, .op p ⟨.resize dim size, a⟩ ∈ ls → 1 ≤ size ∧ size ≤ tuning.batchMax := by
  have h := reachable_depthInv hmax r
  exact ⟨h.depth, fun _ _ _ hl => h.sizes _ hl, fun _ _ _ _ hl => h.sizes _ hl⟩

/-- A maintainer registers and inserts a ticket, with a claim waiting for it. -/
def fillsPool : List (Move TicketHint Nat TicketImage) :=
  [.start 1 (.maintain devIdentity .westend2 1 [.game] 1),
    .start 2 (.claim .westend2 "alice" inviteBody)] ++ goesOn 2 2 ++ goesOn 1 3 ++
    [.op 1 (.draws DevKey.fives.seed)] ++ goesOn 1 3 ++
    [.op 1 (.reports (some .inFinalizedBlock)),
      .op 1 (.finds [.ok ⟨"Utility", "ItemCompleted", []⟩])] ++ goesOn 1 2 ++ goesOn 2 2

def submitsBatch : TicketLabel → Bool
  | .op _ ⟨.submitAndWatch _, _⟩ => true
  | _ => false

def resizesPool : TicketLabel → Bool
  | .op _ ⟨.resize .., _⟩ => true
  | _ => false

theorem pools_bounded_filled :
    ∃ ls s, Reachable (Invites devTickets ⟨1, 1⟩) emptyPool ls s ∧
      s.st.table.countAvailable .game .westend2 = 1 ∧
      (s.st.table.countAvailable .game .westend2 : Int) ≤
        max (emptyPool.table.countAvailable .game .westend2 : Int) 1 ∧
      (∃ p batch a, .op p ⟨.submitAndWatch batch, a⟩ ∈ ls ∧ 1 ≤ batch.tickets.length ∧
        batch.tickets.length ≤ 1) ∧
      ∃ p dim size a, .op p ⟨.resize dim size, a⟩ ∈ ls ∧ 1 ≤ size ∧ size ≤ 1 := by
  obtain ⟨ls, s, r, htest⟩ := (ticketPlayer devTickets ⟨1, 1⟩).reaches emptyPool fillsPool
    (fun ls s => (s.st.table.countAvailable .game .westend2 == 1) &&
      ls.any submitsBatch && ls.any resizesPool) (by decide +kernel)
  simp only [Bool.and_eq_true, beq_iff_eq, List.any_eq_true] at htest
  obtain ⟨⟨havailable, ⟨l, hl, hsubmit⟩⟩, ⟨l', hl', hresize⟩⟩ := htest
  obtain ⟨hdepth, hbatch, hsize⟩ := pools_bounded devTickets (by decide) r
  refine ⟨ls, s, r, havailable, hdepth .game .westend2, ?_, ?_⟩
  · unfold submitsBatch at hsubmit
    split at hsubmit
    · next p batch a => exact ⟨p, batch, a, hl, hbatch p batch a hl⟩
    · cases hsubmit
  · unfold resizesPool at hresize
    split at hresize
    · next p dim size a => exact ⟨p, dim, size, a, hl', hsize p dim size a hl'⟩
    · cases hresize

end DeviceUniqueness.Tickets
