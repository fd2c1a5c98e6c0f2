import DeviceUniqueness.Queue.Drain
import DeviceUniqueness.Schemes.Rounds
import DeviceUniqueness.Writer.World

/-! The advancer: one iteration promotes up to four rows, one for each slot.

    Each slot is one statement. It promotes the earliest queued row of the groups it is open to, so on
    the rows in queue order it takes the first one that is eligible and leaves the others as they
    are (`Db.nextQueued_eq`, `Db.promote_queue`). -/

namespace DeviceUniqueness

open Schemes

/-! ### The program -/

structure Promoted where
  id : Nat
  fullUsername : String
  slot : Nat
  deriving DecidableEq

/-- The statement of a slot. -/
inductive QueueAsk where
  | promote (minGroup : Nat)

@[reducible] def QueueAsk.Ans : QueueAsk → Type
  | .promote _ => Reply (Option (Nat × String))

def QueueWorld : Iface := ⟨QueueAsk, QueueAsk.Ans⟩

abbrev Advancing := Act QueueWorld Unit String

def runStatement (o : QueueAsk) : Advancing o.Ans := Act.op (I := QueueWorld) o

def advanceSlot (slot : Nat) : Advancing (Option Promoted) := do
  match ← runStatement (.promote (5 - slot)) with
  | .ok row => return row.map fun (id, fullUsername) => ⟨id, fullUsername, slot⟩
  | .lost _ err | .refused err => Act.fail err

def advanceIteration : Advancing (List Promoted) := Act.collect advanceSlot iterationSlots

/-- What a statement returns of a row it promotes. -/
def Row.returning (row : Row) : Nat × String := (row.id, row.intake.fullUsername)

/-- The statements with nobody else at the table. -/
def QueueAsk.alone : (o : QueueAsk) → Db → o.Ans × Db
  | .promote minGroup, db =>
      (.ok ((db.nextQueued minGroup).map Row.returning), (db.promote minGroup).2)

/-- What `n` iterations promote, one after the other, each row with the number of its iteration; the
    first is `i`. -/
def advanceLog : Nat → Nat → Db → List (Nat × Promoted)
  | _, 0, _ => []
  | i, n + 1, db =>
      match advanceIteration.alone QueueAsk.alone db with
      | (.ok promoted, db') => promoted.map (i, ·) ++ advanceLog (i + 1) n db'
      | (.error _, db') => advanceLog (i + 1) n db'

/-! ### The queue in the table -/

namespace Db

variable {db : Db}

theorem place_inj {row row' : Row} (h : row ∈ db.rows) (h' : row' ∈ db.rows)
    (hplace : row.place = row'.place) : row = row' :=
  List.inj_on_of_nodup_map db.ids_nodup h h' (congrArg (fun p => (ofLex p).2) hplace)

theorem queue_perm (db : Db) : db.queue.Perm (db.rows.filter fun row => row.status = .queued) :=
  List.perm_insertionSort ..

theorem mem_queue {row : Row} : row ∈ db.queue ↔ row ∈ db.rows ∧ row.status = .queued := by
  rw [(queue_perm db).mem_iff, List.mem_filter, decide_eq_true_eq]

theorem queue_ids_nodup (db : Db) : (db.queue.map Row.id).Nodup := by
  rw [((queue_perm db).map Row.id).nodup_iff]
  exact db.ids_nodup.sublist (List.filter_sublist.map Row.id)

/-- No two rows have one place. -/
theorem queue_sorted (db : Db) : db.queue.Pairwise fun a b => a.place < b.place := by
  have hle : db.queue.Pairwise fun a b => a.place ≤ b.place := by
    have : Std.Total fun a b : Row => a.place ≤ b.place := ⟨fun a b => le_total a.place b.place⟩
    have : IsTrans Row fun a b => a.place ≤ b.place := ⟨fun _ _ _ => le_trans⟩
    exact List.pairwise_insertionSort ..
  have hne : db.queue.Pairwise fun a b => a.id ≠ b.id := List.pairwise_map.mp (queue_ids_nodup db)
  refine (hle.and hne).imp fun {a b} h => lt_of_le_of_ne h.1 fun hplace => h.2 ?_
  exact congrArg (fun p => (ofLex p).2) hplace

/-- The statement's `ORDER BY … LIMIT 1` is a minimum. -/
theorem nextQueued_argmin (db : Db) (minGroup : Nat) :
    db.nextQueued minGroup =
      (db.rows.filter fun row => row.status = .queued && minGroup ≤ row.queueGroup).argmin
        Row.place := by
  have hlt : ∀ a b : Row, a.place < b.place ↔
      a.createdAt < b.createdAt ∨ a.createdAt = b.createdAt ∧ a.id < b.id := by
    intro a b
    rw [Row.place, Row.place, Prod.Lex.toLex_lt_toLex]
  unfold nextQueued List.argmin
  congr 1
  funext best row
  cases best with
  | none => rfl
  | some b => simp only [nextQueued.earlier, List.argAux, hlt]

/-- A slot promotes the first row of the queue that it is open to. -/
theorem nextQueued_eq (db : Db) (minGroup : Nat) :
    db.nextQueued minGroup = db.queue.find? fun row => minGroup ≤ row.queueGroup := by
  have hmem : ∀ row, row ∈ db.rows.filter (fun row => row.status = .queued &&
      minGroup ≤ row.queueGroup) ↔ row ∈ db.queue ∧ minGroup ≤ row.queueGroup := by
    intro row
    rw [mem_queue, List.mem_filter]
    simp [and_assoc]
  rw [nextQueued_argmin]
  rcases find?_eraseP_cases (fun row : Row => decide (minGroup ≤ row.queueGroup)) db.queue with
    ⟨hnone, -⟩ | ⟨before, row, after, hqueue, hrow, hbefore, hfind, -⟩
  · rw [hnone, List.argmin_eq_none, List.eq_nil_iff_forall_not_mem]
    intro row hin
    have hlow := List.find?_eq_none.mp hnone row ((hmem row).mp hin).1
    exact hlow (decide_eq_true ((hmem row).mp hin).2)
  · -- what is eligible is the row itself or comes after it
    have hfirst : ∀ other ∈ db.rows.filter (fun row => row.status = .queued &&
        minGroup ≤ row.queueGroup), other = row ∨ row.place < other.place := by
      intro other hother
      obtain ⟨hin, hgroup⟩ := (hmem other).mp hother
      have hsorted := queue_sorted db
      rw [hqueue] at hin hsorted
      rcases List.mem_append.mp hin with hin | hin
      · have hlow := hbefore other hin
        simp only [decide_eq_false_iff_not] at hlow
        exact absurd hgroup hlow
      · exact (List.mem_cons.mp hin).imp id
          ((List.pairwise_cons.mp (List.pairwise_append.mp hsorted).2.1).1 other)
    rw [hfind, List.argmin_eq_some_iff]
    refine ⟨(hmem row).mpr ⟨by simp [hqueue], by simpa using hrow⟩, ?_, ?_⟩
    · intro other hother
      rcases hfirst other hother with rfl | hlt
      · exact le_rfl
      · exact hlt.le
    · intro other hother hle
      rcases hfirst other hother with rfl | hlt
      · exact le_rfl
      · exact absurd hle (not_le.mpr hlt)

/-- The rows still queued once a row is promoted. -/
theorem promoted_rows (rows : List Row) (id : Nat) (f : Row → Row)
    (hf : ∀ row, (f row).status = .reserved) :
    ((rows.map fun row => if row.id = id then f row else row).filter
      fun row => row.status = .queued) =
      (rows.filter fun row => row.status = .queued).filter fun row => row.id ≠ id := by
  induction rows with
  | nil => rfl
  | cons row rows ih =>
    rw [List.map_cons, List.filter_cons, List.filter_cons, ih]
    by_cases hid : row.id = id
    · by_cases hq : row.status = .queued <;> simp [hid, hf, hq]
    · by_cases hq : row.status = .queued <;> simp [hid, hq]

/-- The elements of a list other than one of them. -/
theorem filter_ne_of_split {rows before after : List Row} {row : Row}
    (hids : (rows.map Row.id).Nodup) (hrows : rows = before ++ row :: after) :
    (rows.filter fun r => r.id ≠ row.id) = before ++ after := by
  rw [hrows, List.map_append, List.map_cons] at hids
  have hmiddle := List.perm_middle.nodup_iff.mp hids
  rw [List.nodup_cons, ← List.map_append] at hmiddle
  have hne : ∀ r ∈ before ++ after, decide (r.id ≠ row.id) = true := by
    intro r hr
    exact decide_eq_true fun hid => hmiddle.1 (List.mem_map.mpr ⟨r, hr, hid⟩)
  have hfilter := List.filter_eq_self.mpr hne
  rw [List.filter_append] at hfilter
  rw [hrows, List.filter_append, List.filter_cons_of_neg (by simp), hfilter]

/-- And leaves the others queued as they are. -/
theorem promote_queue (db : Db) (minGroup : Nat) :
    (db.promote minGroup).2.queue = db.queue.eraseP fun row => minGroup ≤ row.queueGroup := by
  unfold promote
  rcases find?_eraseP_cases (fun row : Row => decide (minGroup ≤ row.queueGroup)) db.queue with
    ⟨hnone, herase⟩ | ⟨before, row, after, hqueue, hrow, -, hfind, herase⟩
  · rw [nextQueued_eq, hnone, herase]
  · rw [nextQueued_eq, hfind, herase]
    have hothers := filter_ne_of_split (queue_ids_nodup db) hqueue
    have hsub : (before ++ after).Sublist db.queue := by
      rw [hqueue]
      exact List.Sublist.append_left (List.sublist_cons_self ..) _
    dsimp only
    generalize hpromoted : db.updateWhere (fun r => r.id = row.id) _ (keeps_reserve db.now) = db'
    have hperm : db'.queue.Perm (before ++ after) := by
      rw [← hothers, ← hpromoted]
      refine (queue_perm _).trans (List.Perm.trans (List.Perm.of_eq ?_) ((queue_perm db).symm.filter _))
      simpa [updateWhere, mapRows] using promoted_rows db.rows row.id _ fun _ => rfl
    refine hperm.eq_of_pairwise (fun a b ha hb hle hge => ?_)
      ((queue_sorted db').imp le_of_lt) (((queue_sorted db).sublist hsub).imp le_of_lt)
    have hrows : ∀ r ∈ before ++ after, r ∈ db.rows := fun r hr => (mem_queue.mp (hsub.subset hr)).1
    exact place_inj (hrows a (hperm.subset ha)) (hrows b hb) (le_antisymm hle hge)

end Db

/-! ### One iteration -/

/-- The slot is open to the row's group. -/
def Row.eligible (slot : Nat) (row : Row) : Bool := 5 - slot ≤ row.queueGroup

/-- What an iteration reports of a row and its slot. -/
def promotedOf (slot : Nat) (row : Row) : Promoted := ⟨row.id, row.intake.fullUsername, slot⟩

theorem advanceSlot_alone (slot : Nat) (db : Db) :
    (advanceSlot slot).alone QueueAsk.alone db =
      (.ok ((db.nextQueued (5 - slot)).map (promotedOf slot)), (db.promote (5 - slot)).2) := by
  have hrun : (advanceSlot slot).alone QueueAsk.alone db =
      (.ok (((db.nextQueued (5 - slot)).map Row.returning).map fun (id, name) => ⟨id, name, slot⟩),
        (db.promote (5 - slot)).2) := rfl
  rw [hrun, Option.map_map]
  rfl

/-- The slots of an iteration take from the queue as a round does. -/
theorem advanceSlots_alone : ∀ (slots : List Nat) (promoted : List Promoted) (db : Db),
    ∃ db', db'.queue = (serveRound Row.eligible slots db.queue).2 ∧
      (Act.fold (fun ys slot => Act.bind (advanceSlot slot) fun y => Act.pure (ys ++ y.toList))
        promoted slots).alone QueueAsk.alone db =
          (.ok (promoted ++ (serveRound Row.eligible slots db.queue).1.map fun e => promotedOf e.1 e.2), db')
  | [], promoted, db => ⟨db, rfl, by rw [serveRound, List.map_nil, List.append_nil]; rfl⟩
  | slot :: slots, promoted, db => by
      obtain ⟨db', hqueue, hrest⟩ := advanceSlots_alone slots
        (promoted ++ ((db.nextQueued (5 - slot)).map (promotedOf slot)).toList)
        (db.promote (5 - slot)).2
      rw [Db.promote_queue] at hqueue hrest
      refine ⟨db', hqueue, ?_⟩
      have hturn : (Act.bind (advanceSlot slot) fun y =>
          (Act.pure (promoted ++ y.toList) : Advancing _)).alone QueueAsk.alone db =
            (.ok (promoted ++ ((db.nextQueued (5 - slot)).map (promotedOf slot)).toList),
              (db.promote (5 - slot)).2) := by
        rw [Act.alone_bind (advanceSlot_alone slot db)]
        rfl
      rw [Act.fold, Act.alone_bind hturn, hrest, Db.nextQueued_eq, serveRound, List.map_append,
        List.append_assoc]
      congr 3
      unfold Row.eligible
      cases db.queue.find? _ <;> rfl

theorem advanceIteration_alone (db : Db) :
    ∃ db', db'.queue = (serveRound Row.eligible iterationSlots db.queue).2 ∧
      advanceIteration.alone QueueAsk.alone db =
        (.ok ((serveRound Row.eligible iterationSlots db.queue).1.map fun e => promotedOf e.1 e.2), db') :=
  advanceSlots_alone iterationSlots [] db

/-- Iteration after iteration, the queue is served in rounds. -/
theorem advanceLog_eq : ∀ (n i : Nat) (db : Db),
    advanceLog i n db = (serveRounds Row.eligible iterationSlots i n db.queue).map
      fun e => (e.1, promotedOf e.2.1 e.2.2)
  | 0, _, _ => rfl
  | n + 1, i, db => by
      obtain ⟨db', hqueue, hiteration⟩ := advanceIteration_alone db
      rw [advanceLog, hiteration]
      simp only [advanceLog_eq n (i + 1) db', serveRounds, List.map_append, List.map_map, hqueue]
      rfl

end DeviceUniqueness
