import DeviceUniqueness.Queue.Advance
import DeviceUniqueness.Queue.Estimate
import DeviceUniqueness.Writer.Script

/-! The estimate is the drain.

    Both sides serve one queue in rounds: the advancer takes rows out of the table, the estimate
    takes the indices of a snapshot out of its deques. A row of the snapshot stands where it is
    promoted. -/

namespace DeviceUniqueness

open Schemes

theorem snapshot_length (db : Db) : db.queuedSnapshot.length = db.queue.length :=
  List.length_map ..

theorem snapshot_ids (db : Db) : db.queuedSnapshot.map QueuedEntry.id = db.queue.map Row.id := by
  rw [Db.queuedSnapshot, List.map_map]
  rfl

/-- The schema keeps groups in their range, so clamping one changes nothing. -/
theorem eligible_queuedEntry {db : Db} {row : Row} (h : row ∈ db.queue) (slot : Nat) :
    eligible slot row.queuedEntry = row.eligible slot := by
  have hrange := db.group_range row (Db.mem_queue.mp h).1
  simp only [List.mem_cons, List.not_mem_nil, or_false] at hrange
  have hclamp : row.queuedEntry.group = row.queueGroup := by
    change max 1 (min row.queueGroup 4) = row.queueGroup
    omega
  rw [eligible, Row.eligible, hclamp]

/-- The rounds over the table and over its snapshot, row by row. -/
theorem serveRounds_snapshot (db : Db) (i n : Nat) :
    (serveRounds (fun slot (x : Indexed) => eligible slot x.1) iterationSlots i n
      db.queuedSnapshot.zipIdx).map (fun e => (e.1, e.2.1, e.2.2.1)) =
    (serveRounds Row.eligible iterationSlots i n db.queue).map
      fun e => (e.1, e.2.1, e.2.2.queuedEntry) := by
  rw [← serveRounds_map fun slot row h => eligible_queuedEntry h slot,
    ← serveRounds_map fun slot (x : Indexed) _ => rfl, List.zipIdx_map_fst]
  rfl

/-- The advancer and the loops of the estimate take the same rows in the same slots. -/
theorem advanceLog_served (db : Db) (n : Nat) :
    (advanceLog 1 n db).map (fun e => (e.1, e.2.slot, e.2.id)) =
      (served 1 n db.queuedSnapshot.zipIdx).map fun e => (e.1, e.2.1, e.2.2.1.id) := by
  have hrounds := congrArg (List.map fun e => (e.1, e.2.1, e.2.2.id)) (serveRounds_snapshot db 1 n)
  rw [List.map_map, List.map_map] at hrounds
  rw [advanceLog_eq, List.map_map]
  exact hrounds.symm

theorem iterationPicks_served (db : Db) (n : Nat) :
    (iterationPicks 1 n (deal db.queuedSnapshot)).map
        (fun e => (e.1, e.2.1, db.queuedSnapshot[e.2.2]?.map QueuedEntry.id)) =
      (served 1 n db.queuedSnapshot.zipIdx).map fun e => (e.1, e.2.1, some e.2.2.1.id) := by
  rw [iterationPicks_eq 1 (deal_deals _) (inOrder_zipIdx _), List.map_map]
  refine List.map_congr_left fun e he => ?_
  have hentry := List.mem_zipIdx_iff_getElem?.mp (mem_of_serveRounds he)
  simp only [Function.comp_apply, hentry, Option.map_some]

/-- With nobody else at the table, for any rows that are queued (fewer than `2 ^ 32`), and as many
    iterations of the advancer as it takes: the loops of the estimate and the iterations take the
    same rows in the same slots; every row is promoted once; and the estimate of a row is its rank
    among all that are promoted, and the number of the iteration that promotes it. -/
theorem drain_estimate_exact (db : Db) (hfit : db.queue.length < 2 ^ 32) {n : Nat}
    (hn : db.queue.length ≤ n) :
    (iterationPicks 1 n (deal db.queuedSnapshot)).map
        (fun e => (e.1, e.2.1, db.queuedSnapshot[e.2.2]?.map QueuedEntry.id)) =
      (advanceLog 1 n db).map (fun e => (e.1, e.2.slot, some e.2.id)) ∧
    ((advanceLog 1 n db).map fun e => e.2.id).Perm
      ((db.rows.filter fun row => row.status = .queued).map Row.id) ∧
    ∀ row ∈ db.rows, row.status = .queued → ∃ k iteration promoted,
      (advanceLog 1 n db)[k]? = some (iteration, promoted) ∧ promoted.id = row.id ∧
        drainEstimate db.queuedSnapshot row.id = some ⟨k + 1, iteration⟩ := by
  have hlog := advanceLog_served db n
  have hall : served 1 n db.queuedSnapshot.zipIdx = allServed db.queuedSnapshot := by
    have hn' : db.queuedSnapshot.zipIdx.length ≤ n := by rwa [List.length_zipIdx, snapshot_length]
    exact serveRounds_enough iterationSlots_open 1 hn' (by rw [List.length_zipIdx])
  rw [hall] at hlog
  have hfit' : db.queuedSnapshot.length < 2 ^ 32 := by rwa [snapshot_length]
  have hids : (db.queuedSnapshot.map QueuedEntry.id).Nodup := by
    rw [snapshot_ids]
    exact Db.queue_ids_nodup db
  refine ⟨?_, ?_, ?_⟩
  · have hslots := congrArg (List.map fun e => (e.1, e.2.1, some e.2.2)) hlog
    rw [List.map_map, List.map_map] at hslots
    rw [iterationPicks_served, hall]
    exact hslots.symm
  · have hpromoted := congrArg (List.map fun e => e.2.2) hlog
    rw [List.map_map, List.map_map] at hpromoted
    have hentries := (allServed_entries db.queuedSnapshot).map QueuedEntry.id
    rw [List.map_map, snapshot_ids] at hentries
    exact (List.Perm.of_eq hpromoted).trans (hentries.trans ((Db.queue_perm db).map Row.id))
  · intro row hrow hqueued
    have hmem : row.queuedEntry ∈ db.queuedSnapshot :=
      List.mem_map_of_mem (Db.mem_queue.mpr ⟨hrow, hqueued⟩)
    obtain ⟨e, he, hentry⟩ := List.mem_map.mp ((allServed_entries _).mem_iff.mpr hmem)
    obtain ⟨k, hk⟩ := List.getElem?_of_mem he
    have hestimate := drainEstimate_served hfit' hids hk
    -- the same place of the record of the advancer
    have hat := congrArg (fun l => l[k]?) hlog
    simp only [List.getElem?_map, hk, Option.map_some] at hat
    obtain ⟨⟨iteration, promoted⟩, hlogged, heq⟩ := Option.map_eq_some_iff.mp hat
    simp only [Prod.mk.injEq] at heq
    rw [hentry] at hestimate heq
    exact ⟨k, iteration, promoted, hlogged, heq.2.2, heq.1 ▸ hestimate⟩

/-! ### Queues of any length -/

/-- The `i`-th of a crowd of claims, each for another name. -/
def crowdRow (group : Nat → Nat) (i : Nat) : Row where
  id := i
  intake := { aliceClaim with fullUsername := String.ofList (List.replicate i 'a') }
  createdAt := 0
  status := .queued
  queueGroup := group i
  txHash := none
  nonce := none
  attempt := 0
  notBefore := none
  lastError := none
  submittedAt := none
  updatedAt := 0
  dotnsStatus := none
  dotnsTxHash := none
  dotnsAttempt := 0
  dotnsNotBefore := none
  dotnsLastError := none

def crowd (n : Nat) (group : Nat → Nat) (hgroup : ∀ i, group i ∈ [1, 2, 3, 4]) : Db where
  now := 0
  nextId := n
  rows := (List.range n).map (crowdRow group)
  devices := []
  leases := fun _ => none
  ids_nodup := by
    rw [List.map_map]
    exact List.nodup_range.map fun _ _ h => h
  ids_lt := by
    intro row hrow
    obtain ⟨i, hi, rfl⟩ := List.mem_map.mp hrow
    exact List.mem_range.mp hi
  names_nodup := by
    rw [List.map_map]
    refine List.nodup_range.map fun i j h => ?_
    have hlists : List.replicate i 'a' = List.replicate j 'a' := String.ofList_injective h
    simpa using congrArg List.length hlists
  group_range := by
    intro row hrow
    obtain ⟨i, -, rfl⟩ := List.mem_map.mp hrow
    exact hgroup i
  hmacs_nodup := by simp

theorem crowdRow_mem {n i : Nat} {group : Nat → Nat} (hgroup : ∀ i, group i ∈ [1, 2, 3, 4])
    (hi : i < n) : crowdRow group i ∈ (crowd n group hgroup).rows :=
  List.mem_map_of_mem (List.mem_range.mpr hi)

theorem crowd_queue_length (n : Nat) {group : Nat → Nat} (hgroup : ∀ i, group i ∈ [1, 2, 3, 4]) :
    (crowd n group hgroup).queue.length = n := by
  have hqueued : (crowd n group hgroup).rows.filter (fun row => row.status = .queued) =
      (crowd n group hgroup).rows := by
    refine List.filter_eq_self.mpr fun row hrow => ?_
    obtain ⟨i, -, rfl⟩ := List.mem_map.mp hrow
    rfl
  rw [(Db.queue_perm _).length_eq, hqueued]
  simp [crowd]

/-- The first claim is of the lowest group, all others are of the highest. -/
def firstLowest (i : Nat) : Nat := if i = 0 then 1 else 4

theorem firstLowest_range (i : Nat) : firstLowest i ∈ [1, 2, 3, 4] := by
  unfold firstLowest
  split <;> decide

/-- The claim of the lowest group comes first and is promoted by the last slot. -/
theorem lowest_drains_last :
    (advanceLog 1 3 (crowd 3 firstLowest firstLowest_range)).map
        (fun e => (e.1, e.2.slot, e.2.id)) = [(1, 1, 1), (1, 2, 2), (1, 4, 0)] ∧
    ∃ k iteration promoted,
      (advanceLog 1 3 (crowd 3 firstLowest firstLowest_range))[k]? = some (iteration, promoted) ∧
      promoted.id = 0 ∧
      drainEstimate (crowd 3 firstLowest firstLowest_range).queuedSnapshot 0 =
        some ⟨k + 1, iteration⟩ := by
  have hlength := crowd_queue_length 3 firstLowest_range
  obtain ⟨-, -, hall⟩ := drain_estimate_exact (crowd 3 firstLowest firstLowest_range)
    (by rw [hlength]; decide) hlength.le
  exact ⟨by decide +kernel, hall _ (crowdRow_mem firstLowest_range (by decide)) rfl⟩

/-- Where the number of entries is a multiple of `2 ^ 32` no iteration is simulated. -/
theorem drainEstimate_wraps {entries : List QueuedEntry} (h : entries.length % 2 ^ 32 = 0)
    (targetId : Nat) : drainEstimate entries targetId = none := by
  rw [drainEstimate, h]
  rfl

/-- With `2 ^ 32` rows in the queue, none of them has an estimate. -/
theorem crowd_has_no_estimate :
    ∃ db : Db, ∃ row ∈ db.rows, row.status = .queued ∧
      drainEstimate db.queuedSnapshot row.id = none := by
  refine ⟨crowd (2 ^ 32) firstLowest firstLowest_range, crowdRow firstLowest 0,
    crowdRow_mem firstLowest_range (Nat.two_pow_pos 32), rfl, ?_⟩
  exact drainEstimate_wraps (by rw [snapshot_length, crowd_queue_length, Nat.mod_self]) 0

end DeviceUniqueness
