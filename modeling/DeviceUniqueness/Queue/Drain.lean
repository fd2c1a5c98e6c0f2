import DeviceUniqueness.Outbox.Statements

/-! The registration queue as the API sees it: a snapshot, and where a claim of it would be served.

    The estimate simulates the advancer on the snapshot. It deals the indices of the entries out to
    four deques, one for each priority group, and in every iteration lets four slots pick: slot `k`
    looks at the fronts of the groups from `5 - k` up and takes the smallest index. -/

namespace DeviceUniqueness

/-- The place of a row in the queue: `(created_at, id)`. -/
def Row.place (row : Row) : Time ×ₗ Nat := toLex (row.createdAt, row.id)

/-- The `QUEUED` rows in the order in which they came. -/
def Db.queue (db : Db) : List Row :=
  (db.rows.filter fun row => row.status = .queued).insertionSort fun a b => a.place ≤ b.place

structure QueuedEntry where
  id : Nat
  accountId : String
  group : Nat
  group_range : 1 ≤ group ∧ group ≤ 4
  deriving DecidableEq

/-- The group is clamped into its range. -/
def Row.queuedEntry (row : Row) : QueuedEntry where
  id := row.id
  accountId := row.intake.accountId
  group := max 1 (min row.queueGroup 4)
  group_range := by omega

def Db.queuedSnapshot (db : Db) : List QueuedEntry := db.queue.map Row.queuedEntry

structure DrainEstimate where
  position : Nat
  iterations : Nat
  deriving DecidableEq, Repr

def slotsPerIteration : Nat := 4

/-- `1..=SLOTS_PER_ITERATION`. -/
def iterationSlots : List Nat := List.range' 1 slotsPerIteration

/-- Four deques of indices; the one of a group is at `group - 1`. -/
abbrev Deques := Nat → List Nat

def deal (entries : List QueuedEntry) : Deques :=
  entries.zipIdx.foldl
    (fun byGroup (entry, index) =>
      Function.update byGroup (entry.group - 1) (byGroup (entry.group - 1) ++ [index]))
    fun _ => []

/-- The smallest index at the front of a group from `minGroup` up, with its group. -/
def pick (byGroup : Deques) (minGroup : Nat) : Option (Nat × Nat) :=
  ((List.range' minGroup (5 - minGroup)).filterMap fun group =>
    (byGroup (group - 1)).head?.map (·, group)).argmin Prod.fst

def popFront (byGroup : Deques) (group : Nat) : Deques :=
  Function.update byGroup (group - 1) (byGroup (group - 1)).tail

/-- The slots of one iteration: the estimate, if the target is picked, or the deques and the last
    position to go on with. Positions are `u32`. -/
def drainSlots (entries : List QueuedEntry) (targetId iteration : Nat) :
    List Nat → Deques → Nat → Except DrainEstimate (Deques × Nat)
  | [], byGroup, position => .ok (byGroup, position)
  | slot :: rest, byGroup, position =>
      match pick byGroup (5 - slot) with
      | none => drainSlots entries targetId iteration rest byGroup position
      | some (index, group) =>
          let position := (position + 1) % 2 ^ 32
          if entries[index]?.any fun entry => entry.id = targetId then .error ⟨position, iteration⟩
          else drainSlots entries targetId iteration rest (popFront byGroup group) position

def drainIterations (entries : List QueuedEntry) (targetId : Nat) :
    List Nat → Deques → Nat → Option DrainEstimate
  | [], _, _ => none
  | iteration :: rest, byGroup, position =>
      match drainSlots entries targetId iteration iterationSlots byGroup position with
      | .error estimate => some estimate
      | .ok (byGroup, position) => drainIterations entries targetId rest byGroup position

/-- The iterations are counted up to `entries.len() as u32`. -/
def drainEstimate (entries : List QueuedEntry) (targetId : Nat) : Option DrainEstimate :=
  drainIterations entries targetId (List.range' 1 (entries.length % 2 ^ 32)) (deal entries) 0

/-! ### What the loops pick

The same loops with no target to end them. -/

/-- The slots of one iteration, each with the index it picks, and the deques they leave. -/
def slotPicks : List Nat → Deques → List (Nat × Nat) × Deques
  | [], byGroup => ([], byGroup)
  | slot :: rest, byGroup =>
      match pick byGroup (5 - slot) with
      | none => slotPicks rest byGroup
      | some (index, group) =>
          let later := slotPicks rest (popFront byGroup group)
          ((slot, index) :: later.1, later.2)

/-- The picks of `n` iterations, each with the number of its iteration; the first is `i`. -/
def iterationPicks : Nat → Nat → Deques → List (Nat × Nat × Nat)
  | _, 0, _ => []
  | i, n + 1, byGroup =>
      let now := slotPicks iterationSlots byGroup
      now.1.map (i, ·) ++ iterationPicks (i + 1) n now.2

end DeviceUniqueness
