import DeviceUniqueness.Queue.Exact

/-! Nobody starves in the queue.

    Any number of advancers run iterations, statement by statement, while claims arrive, balances
    change the groups of queued rows and the writers work on the others. The last slot of an
    iteration is open to every group, so an iteration that completes promotes the row that is first
    in the queue at that moment, whatever happened meanwhile; and nothing ever gets ahead of a row
    that is already there. -/

namespace DeviceUniqueness

open Function Schemes

/-! ### The system -/

/-- Any of the queued rows change their groups. -/
def Db.regroup (db : Db) (group : Row → Nat)
    (hgroup : ∀ row, row.queueGroup ∈ [1, 2, 3, 4] → group row ∈ [1, 2, 3, 4]) : Db :=
  db.updateWhere (fun row => row.status = .queued && row.queueGroup ≠ group row)
    (fun row => { row with queueGroup := group row, updatedAt := db.now })
    ⟨fun _ => rfl, fun _ => rfl, hgroup⟩

/-- An update of `refresh_groups` is one. -/
theorem Db.refreshGroup_regroup (db : Db) (accountId : String) (group : Nat)
    (hg : group ∈ [1, 2, 3, 4]) :
    ∃ hgroup, db.refreshGroup accountId group hg =
      db.regroup (fun row => if row.intake.accountId = accountId then group else row.queueGroup)
        hgroup := by
  refine ⟨fun row hrow => by split <;> assumption, ?_⟩
  refine Db.ext rfl rfl (List.map_congr_left fun row _ => ?_) rfl rfl
  by_cases haccount : row.intake.accountId = accountId
  · simp [haccount]
  · simp [haccount]

/-- What happens besides the iterations: a claim arrives, after all that are queued; queued rows
    change groups; time passes; the other services leave the queued rows alone. -/
inductive QueueEvent where
  | arrive (r : NewReservation) (group : Nat)
  | regroup (group : Row → Nat)
  | tick (d : Nat)
  | others (db : Db)

def QueueEvent.Does (db db' : Db) : QueueEvent → Prop
  | .arrive r group => (∃ id, db.insertQueued r group = .ok (id, db')) ∧
      ∀ row ∈ db.rows, row.status = .queued → row.place < (db.newRow r .queued group).place
  | .regroup group => ∃ hgroup, db' = db.regroup group hgroup
  | .tick d => db' = db.tick d
  | .others db'' => db' = db'' ∧ db.nextId ≤ db'.nextId ∧
      (db'.rows.filter fun row => row.status = .queued) =
        db.rows.filter fun row => row.status = .queued

def QueueAsk.Does (db : Db) : (o : QueueAsk) → o.Ans → Db → Prop
  | .promote minGroup, reply, db' =>
      Reply.Did reply db db' fun out =>
        out = (db.nextQueued minGroup).map Row.returning ∧ db' = (db.promote minGroup).2

/-- Every process is one call of `advance_iteration`. -/
def Queue : Machine QueueWorld Db QueueEvent (Except String (List Promoted) × Unit) where
  exec _ o db a db' := QueueAsk.Does db o a db'
  env e db db' := e.Does db db'
  boot _ prog := prog = advanceIteration ()
  die _ db db' := db' = db

abbrev QueueSys := Sys QueueWorld Db (Except String (List Promoted) × Unit)

/-- The call has returned its promotions. -/
def QueueSys.Completed (s : QueueSys) (p : Nat) : Prop :=
  ∃ promoted h, s.procs p = some ⟨.ret (.ok promoted, ()), h⟩

/-- The step is the last statement of a call, and it came back. -/
def completes : Label QueueWorld QueueEvent → Bool
  | .op _ ⟨.promote minGroup, reply⟩ =>
      match (reply : Reply (Option (Nat × String))) with
      | .ok _ => minGroup = 1
      | _ => false
  | _ => false

/-! ### Calls -/

/-- What is left of a call once some slots have promoted. -/
def restOf (promoted : List Promoted) (slots : List Nat) : Advancing (List Promoted) :=
  Act.fold (fun ys slot => Act.bind (advanceSlot slot) fun y => Act.pure (ys ++ y.toList))
    promoted slots

/-- How it goes on from the answer to a slot's statement. -/
def afterSlot (promoted : List Promoted) (slot : Nat) (slots : List Nat) :
    Reply (Option (Nat × String)) → Prog QueueWorld (Except String (List Promoted) × Unit)
  | .ok row =>
      restOf (promoted ++ (row.map fun (id, name) => (⟨id, name, slot⟩ : Promoted)).toList) slots ()
  | .lost _ err | .refused err => .ret (.error err, ())

theorem restOf_cons (promoted : List Promoted) (slot : Nat) (slots : List Nat) :
    restOf promoted (slot :: slots) () =
      .call (I := QueueWorld) (.promote (5 - slot)) (afterSlot promoted slot slots) := by
  refine (congrArg (Prog.call (I := QueueWorld) (.promote (5 - slot))) (funext fun reply => ?_) :)
  cases reply <;> rfl

/-- A call is at one of its slots, or has failed. -/
def AtSlot (prog : Prog QueueWorld (Except String (List Promoted) × Unit)) : Prop :=
  (∃ promoted slots, slots <:+ iterationSlots ∧ prog = restOf promoted slots ()) ∨
    ∃ err, prog = .ret (.error err, ())

/-- The statement of a call that is not over, and where its answer leads. -/
theorem AtSlot.call {minGroup : Nat} {k : Reply (Option (Nat × String)) → Prog QueueWorld _}
    (h : AtSlot (.call (I := QueueWorld) (.promote minGroup) k)) :
    ∃ promoted slot slots, slot :: slots <:+ iterationSlots ∧ minGroup = 5 - slot ∧
      k = afterSlot promoted slot slots := by
  rcases h with ⟨promoted, slots, hsuffix, hprog⟩ | ⟨err, hprog⟩
  · cases slots with
    | nil => cases hprog
    | cons slot slots =>
      rw [restOf_cons] at hprog
      obtain ⟨ho, hk⟩ := Prog.call.inj hprog
      obtain rfl := QueueAsk.promote.inj ho
      exact ⟨promoted, slot, slots, hsuffix, rfl, eq_of_heq hk⟩
  · cases hprog

theorem reachable_atSlot {st₀ : Db} {ls : List (Label QueueWorld QueueEvent)} {s : QueueSys}
    (r : Reachable Queue st₀ ls s) {p : Nat} {q : Proc QueueWorld _} (hq : s.procs p = some q) :
    AtSlot q.prog := by
  refine r.proc_inv (fun q => AtSlot q.prog) ?_ ?_ nofun p q hq
  · rintro p prog rfl
    exact Or.inl ⟨[], iterationSlots, List.suffix_rfl, rfl⟩
  · rintro _ _ _ ⟨minGroup⟩ k _ a _ - - - h
    obtain ⟨promoted, slot, slots, hsuffix, -, rfl⟩ := h.call
    match (a : Reply (Option (Nat × String))) with
    | .ok row => exact Or.inl ⟨_, slots, (List.suffix_cons slot slots).trans hsuffix, rfl⟩
    | .lost _ err | .refused err => exact Or.inr ⟨err, rfl⟩

/-- The last slot is the one that is open to every group. -/
theorem last_slot {slot : Nat} {slots : List Nat} (h : slot :: slots <:+ iterationSlots) :
    5 - slot = 1 ↔ slots = [] := by
  have hcases : slot :: slots ∈ iterationSlots.tails := (List.mem_tails _ _).mpr h
  simp [iterationSlots, slotsPerIteration, List.range'] at hcases
  rcases hcases with ⟨rfl, rfl⟩ | ⟨rfl, rfl⟩ | ⟨rfl, rfl⟩ | ⟨rfl, rfl⟩ <;> simp

/-- A call returns its promotions with the last statement, and only with it. -/
theorem completes_iff {st₀ : Db} {ls : List (Label QueueWorld QueueEvent)} {s t : QueueSys}
    (r : Reachable Queue st₀ ls s) {p : Nat} {e : Ev QueueWorld} (d : Step Queue s (.op p e) t) :
    completes (.op p e) = true ↔ QueueSys.Completed t p := by
  cases d with
  | @op p o k h a st' live done =>
    obtain ⟨minGroup⟩ := o
    obtain ⟨promoted, slot, slots, hsuffix, rfl, rfl⟩ := (reachable_atSlot r live).call
    have hprocs : ∀ prog, QueueSys.Completed
        ⟨st', update s.procs p (some ⟨prog, h ++ [⟨.promote (5 - slot), a⟩]⟩)⟩ p ↔
          ∃ promoted, prog = .ret (.ok promoted, ()) := by
      intro prog
      simp only [QueueSys.Completed, update_self]
      constructor
      · rintro ⟨promoted, h', heq⟩
        exact ⟨promoted, congrArg Proc.prog (Option.some.inj heq)⟩
      · rintro ⟨promoted, rfl⟩
        exact ⟨promoted, _, rfl⟩
    rw [hprocs]
    match (a : Reply (Option (Nat × String))) with
    | .ok row =>
      simp only [completes, decide_eq_true_eq]
      rw [last_slot hsuffix]
      cases slots with
      | nil => exact iff_of_true rfl ⟨_, rfl⟩
      | cons slot' slots =>
        refine iff_of_false (by simp) ?_
        rintro ⟨promoted', hret⟩
        rw [afterSlot, restOf_cons] at hret
        cases hret
    | .lost _ err | .refused err => exact iff_of_false (by simp [completes]) (by rintro ⟨_, ⟨⟩⟩)

/-! ### Waiting in line -/

/-- The rows ahead of `row`. -/
def Db.aheadOf (db : Db) (row : Row) : Nat := ahead Row.place db.queue row

/-- The row is still in the queue, at its place. -/
def Db.Waits (db : Db) (row : Row) : Prop := ∃ r ∈ db.queue, r.id = row.id ∧ r.place = row.place

/-- Nothing gets ahead of a row that waits, and no row comes back. -/
structure Advances (row : Row) (db db' : Db) : Prop where
  ids : db.nextId ≤ db'.nextId
  back : row.id < db.nextId → ∀ r ∈ db'.queue, r.id = row.id →
    ∃ r' ∈ db.queue, r'.id = row.id ∧ r'.place = r.place
  ahead_le : db.Waits row → db'.aheadOf row ≤ db.aheadOf row

variable {db db' : Db} {row : Row}

theorem Advances.waits (h : Advances row db db') (hid : row.id < db.nextId)
    (hwaits : db'.Waits row) : db.Waits row := by
  obtain ⟨r, hr, hrid, hplace⟩ := hwaits
  obtain ⟨r', hr', hrid', hplace'⟩ := h.back hid r hr hrid
  exact ⟨r', hr', hrid', hplace'.trans hplace⟩

/-- A slot takes one row at most out of the queue. -/
theorem promote_advances (db : Db) (minGroup : Nat) (row : Row) :
    Advances row db (db.promote minGroup).2 where
  ids := by
    unfold Db.promote
    split <;> exact le_rfl
  back _ r hr hid := by
    rw [Db.promote_queue] at hr
    exact ⟨r, List.eraseP_sublist.subset hr, hid, rfl⟩
  ahead_le _ := by
    rw [Db.aheadOf, Db.aheadOf, Db.promote_queue]
    exact List.eraseP_sublist.countP_le

/-- The slot that is open to every group takes the first one. -/
theorem promote_last (hwaits : (db.promote 1).2.Waits row) :
    (db.promote 1).2.aheadOf row < db.aheadOf row := by
  obtain ⟨r, hr, -, hplace⟩ := hwaits
  have hsorted := Db.queue_sorted db
  have hgroups : ∀ r ∈ db.queue, decide (1 ≤ r.queueGroup) = true := by
    intro r hr
    have hrange := db.group_range r (Db.mem_queue.mp hr).1
    simp only [List.mem_cons, List.not_mem_nil, or_false] at hrange
    exact decide_eq_true (by omega)
  rw [Db.promote_queue] at hr
  rw [Db.aheadOf, Db.aheadOf, Db.promote_queue]
  cases hqueue : db.queue with
  | nil =>
    rw [hqueue] at hr
    cases hr
  | cons first rest =>
    rw [hqueue] at hr hsorted hgroups
    have hfirst := hgroups first (List.mem_cons_self ..)
    have hrest : (first :: rest).eraseP (fun r => decide (1 ≤ r.queueGroup)) = rest :=
      List.eraseP_cons_of_pos hfirst
    rw [hrest] at hr ⊢
    have hahead : first.place < row.place := hplace ▸ (List.pairwise_cons.mp hsorted).1 r hr
    rw [ahead, ahead, List.countP_cons_of_pos (by simpa using hahead)]
    exact Nat.lt_succ_self _

/-- A row that leaves the queue is the one that is promoted. -/
theorem promote_takes {minGroup : Nat} (hbefore : db.Waits row)
    (hafter : ¬ (db.promote minGroup).2.Waits row) :
    ∃ r, db.nextQueued minGroup = some r ∧ r.id = row.id := by
  obtain ⟨r, hr, hid, hplace⟩ := hbefore
  rcases find?_eraseP_cases (fun r : Row => decide (minGroup ≤ r.queueGroup)) db.queue with
    ⟨-, herase⟩ | ⟨before, r', after, hqueue, -, -, hfind, herase⟩
  · exact absurd ⟨r, by rwa [Db.promote_queue, herase], hid, hplace⟩ hafter
  · refine ⟨r', by rw [Db.nextQueued_eq, hfind], ?_⟩
    by_contra hne
    refine hafter ⟨r, ?_, hid, hplace⟩
    rw [Db.promote_queue, herase]
    rw [hqueue, List.mem_append, List.mem_cons] at hr
    rw [List.mem_append]
    rcases hr with hr | rfl | hr
    · exact Or.inl hr
    · exact absurd hid hne
    · exact Or.inr hr

/-- Every queued row stays queued, under its id and at its place, and what is new comes last. -/
structure Kept (db db' : Db) (change : Row → Row) (new : List Row) : Prop where
  ids : db.nextId ≤ db'.nextId
  id_eq : ∀ r, (change r).id = r.id
  place_eq : ∀ r, (change r).place = r.place
  queue : db'.queue.Perm (db.queue.map change ++ new)
  fresh : ∀ r ∈ new, db.nextId ≤ r.id
  last : ∀ r ∈ new, ∀ r' ∈ db.queue, r'.place < r.place

namespace Kept

variable {change : Row → Row} {new : List Row}

theorem advances (h : Kept db db' change new) : Advances row db db' where
  ids := h.ids
  back hid r hr hrid := by
    rcases List.mem_append.mp (h.queue.subset hr) with hr | hr
    · obtain ⟨r', hr', rfl⟩ := List.mem_map.mp hr
      exact ⟨r', hr', (h.id_eq r').symm.trans hrid, (h.place_eq r').symm⟩
    · have hfresh := h.fresh r hr
      omega
  ahead_le := by
    rintro ⟨r, hr, -, hplace⟩
    have hnew : new.countP (fun r' => r'.place < row.place) = 0 := by
      refine List.countP_eq_zero.mpr fun r' hr' => ?_
      have hlt := h.last r' hr' r hr
      rw [hplace] at hlt
      simpa using hlt.le
    rw [Db.aheadOf, Db.aheadOf, ahead, ahead, h.queue.countP_eq, List.countP_append, hnew,
      List.countP_map]
    simp only [comp_def, h.place_eq]
    exact le_rfl

theorem waits (h : Kept db db' change new) (hwaits : db.Waits row) : db'.Waits row := by
  obtain ⟨r, hr, hid, hplace⟩ := hwaits
  refine ⟨change r, h.queue.symm.subset ?_, (h.id_eq r).trans hid, (h.place_eq r).trans hplace⟩
  exact List.mem_append_left _ (List.mem_map_of_mem hr)

/-- The queued rows are what they were. -/
theorem of_queued (hids : db.nextId ≤ db'.nextId)
    (hqueued : (db'.rows.filter fun row => row.status = .queued) =
      db.rows.filter fun row => row.status = .queued) : Kept db db' id [] where
  ids := hids
  id_eq _ := rfl
  place_eq _ := rfl
  queue := by
    rw [List.map_id, List.append_nil]
    exact (Db.queue_perm db').trans ((List.Perm.of_eq hqueued).trans (Db.queue_perm db).symm)
  fresh := by simp
  last := by simp

end Kept

theorem arrive_kept {r : NewReservation} {group id : Nat}
    (hinsert : db.insertQueued r group = .ok (id, db'))
    (hlast : ∀ row ∈ db.rows, row.status = .queued →
      row.place < (db.newRow r .queued group).place) :
    Kept db db' (fun row => row) [db.newRow r .queued group] := by
  have hrows : db'.rows = db.rows ++ [db.newRow r .queued group] ∧ db'.nextId = db.nextId + 1 := by
    unfold Db.insertQueued Db.insertWith at hinsert
    split_ifs at hinsert
    cases hinsert
    exact ⟨rfl, rfl⟩
  refine ⟨by omega, fun _ => rfl, fun _ => rfl, ?_, ?_, ?_⟩
  · refine (Db.queue_perm db').trans ?_
    rw [hrows.1, List.filter_append, List.map_id']
    exact (Db.queue_perm db).symm.append_right _
  · intro row hrow
    rw [List.mem_singleton.mp hrow]
    exact le_rfl
  · intro row hrow row' hrow'
    rw [List.mem_singleton.mp hrow]
    exact hlast row' (Db.mem_queue.mp hrow').1 (Db.mem_queue.mp hrow').2

/-- What regrouping does to a row. -/
def Row.regrouped (now : Time) (group : Row → Nat) (row : Row) : Row :=
  if row.status = .queued && row.queueGroup ≠ group row then
    { row with queueGroup := group row, updatedAt := now }
  else row

theorem regroup_kept (db : Db) (group : Row → Nat) (hgroup) :
    Kept db (db.regroup group hgroup) (Row.regrouped db.now group) [] := by
  have hstatus : ∀ r, (Row.regrouped db.now group r).status = r.status := by
    intro r
    unfold Row.regrouped
    split <;> rfl
  refine ⟨le_rfl, ?_, ?_, ?_, by simp, by simp⟩
  · intro r
    unfold Row.regrouped
    split <;> rfl
  · intro r
    unfold Row.regrouped
    split <;> rfl
  · have hrows : (db.regroup group hgroup).rows = db.rows.map (Row.regrouped db.now group) := rfl
    refine (Db.queue_perm _).trans ?_
    rw [hrows, List.filter_map, List.append_nil]
    simp only [comp_def, hstatus]
    exact (Db.queue_perm db).symm.map _

theorem QueueEvent.Does.kept {e : QueueEvent} (h : e.Does db db') :
    ∃ change new, Kept db db' change new := by
  cases e with
  | arrive r group =>
    obtain ⟨⟨id, hinsert⟩, hlast⟩ := h
    exact ⟨_, _, arrive_kept hinsert hlast⟩
  | regroup group =>
    obtain ⟨hgroup, rfl⟩ := h
    exact ⟨_, _, regroup_kept db group hgroup⟩
  | tick d =>
    obtain rfl : db' = db.tick d := h
    exact ⟨_, _, .of_queued le_rfl rfl⟩
  | others db'' =>
    obtain ⟨rfl, hids, hqueued⟩ := h
    exact ⟨_, _, .of_queued hids hqueued⟩

/-! ### Whole runs -/

/-- The step promotes the row; its answer may have been lost. -/
def promotesRow (id : Nat) : Label QueueWorld QueueEvent → Bool
  | .op _ ⟨.promote _, reply⟩ =>
      match (reply : Reply (Option (Nat × String))) with
      | .ok out | .lost out _ => out.any fun x => x.1 = id
      | .refused _ => false
  | _ => false

section Runs

variable {s t : QueueSys} {ls : List (Label QueueWorld QueueEvent)}

/-- A step keeps a row's place in line; a call that completes moves it up; and it leaves the line by
    being promoted. -/
theorem step_advances {l : Label QueueWorld QueueEvent} (d : Step Queue s l t) (row : Row) :
    Advances row s.st t.st ∧
    (completes l = true → t.st.Waits row → t.st.aheadOf row < s.st.aheadOf row) ∧
    (s.st.Waits row → ¬ t.st.Waits row → promotesRow row.id l = true) := by
  have hsame : ∀ {l : Label QueueWorld QueueEvent} {u : QueueSys}, completes l = false →
      u.st = s.st → Advances row s.st u.st ∧
        (completes l = true → u.st.Waits row → u.st.aheadOf row < s.st.aheadOf row) ∧
        (s.st.Waits row → ¬ u.st.Waits row → promotesRow row.id l = true) := by
    intro l u hl hu
    rw [hu, hl]
    exact ⟨(Kept.of_queued le_rfl rfl).advances, nofun, fun h h' => absurd h h'⟩
  cases d with
  | @op p o k h a st' live done =>
    obtain ⟨minGroup⟩ := o
    have hdone : ∀ out, out = (s.st.nextQueued minGroup).map Row.returning →
        st' = (s.st.promote minGroup).2 → s.st.Waits row → ¬ st'.Waits row →
        (out.any fun x => x.1 = row.id) = true := by
      rintro out rfl rfl hbefore hafter
      obtain ⟨r, hr, hid⟩ := promote_takes hbefore hafter
      rw [hr]
      exact decide_eq_true hid
    match (a : Reply (Option (Nat × String))), done with
    | .ok out, ⟨hout, hst⟩ =>
      refine ⟨hst ▸ promote_advances .., fun hlast hwaits => ?_, hdone out hout hst⟩
      obtain rfl : minGroup = 1 := of_decide_eq_true hlast
      subst hst
      exact promote_last hwaits
    | .lost out err, ⟨hout, hst⟩ =>
      exact ⟨hst ▸ promote_advances .., nofun, hdone out hout hst⟩
    | .refused err, hst => exact hsame rfl hst
  | env done =>
    obtain ⟨change, new, hkept⟩ := done.kept
    exact ⟨hkept.advances, nofun, fun h h' => absurd (hkept.waits h) h'⟩
  | start free boots => exact hsame rfl rfl
  | kill done => exact hsame rfl done

theorem run_advances (r : Run Queue s ls t) {row : Row} (hrow : row ∈ s.st.queue) :
    row.id < t.st.nextId ∧ (∀ r ∈ t.st.queue, r.id = row.id → r.place = row.place) ∧
    (t.st.Waits row → t.st.aheadOf row + ls.countP completes ≤ s.st.aheadOf row) ∧
    (t.st.Waits row ∨ ∃ l ∈ ls, promotesRow row.id l = true) := by
  induction r with
  | nil =>
    have hmem := (Db.mem_queue.mp hrow).1
    refine ⟨s.st.ids_lt row hmem, fun r hr hid => ?_, fun _ => le_rfl, Or.inl ⟨row, hrow, rfl, rfl⟩⟩
    rw [List.inj_on_of_nodup_map s.st.ids_nodup (Db.mem_queue.mp hr).1 hmem hid]
  | @snoc ls t u l r d ih =>
    obtain ⟨hid, hplace, hahead, hleft⟩ := ih
    obtain ⟨hstep, hlast, htaken⟩ := step_advances d row
    refine ⟨lt_of_lt_of_le hid hstep.ids, fun r hr hrid => ?_, fun hwaits => ?_, ?_⟩
    · obtain ⟨r', hr', hrid', hplace'⟩ := hstep.back hid r hr hrid
      exact hplace'.symm.trans (hplace r' hr' hrid')
    · have hbefore := hstep.waits hid hwaits
      have hle := hstep.ahead_le hbefore
      have hsum := hahead hbefore
      rw [List.countP_append, List.countP_singleton]
      split
      · next hcompletes =>
        have hlt := hlast hcompletes hwaits
        omega
      · omega
    · rcases hleft with hwaits | ⟨l', hl', htaken'⟩
      · by_cases hafter : u.st.Waits row
        · exact Or.inl hafter
        · exact Or.inr ⟨l, by simp, htaken hwaits hafter⟩
      · exact Or.inr ⟨l', List.mem_append_left _ hl', htaken'⟩

/-- In every interleaving of iterations with arrivals and regroupings, a row with `m` rows ahead of it
    has been promoted once `m + 1` calls have completed, and a call completes with its last
    statement. On a snapshot of fewer than `2 ^ 32` entries the estimate gives the positions from `1`
    to the number of entries, each once, and an entry with `i` entries before it is promoted in one
    of the first `i + 1` iterations. -/
theorem queue_fair :
    (∀ (st₀ : Db) (ls₀ ls : List (Label QueueWorld QueueEvent)) (s t : QueueSys),
      Reachable Queue st₀ ls₀ s → Run Queue s ls t →
      (∀ p e u, Step Queue t (.op p e) u →
        (completes (.op p e) = true ↔ QueueSys.Completed u p)) ∧
      ∀ row ∈ s.st.queue, s.st.aheadOf row < ls.countP completes →
        (∃ l ∈ ls, promotesRow row.id l = true) ∧ ∀ r ∈ t.st.queue, r.id ≠ row.id) ∧
    ∀ entries : List QueuedEntry, entries.length < 2 ^ 32 → (entries.map QueuedEntry.id).Nodup →
      (entries.map fun entry => (drainEstimate entries entry.id).map DrainEstimate.position).Perm
        ((List.range' 1 entries.length).map some) ∧
      ∀ i entry, entries[i]? = some entry → ∃ estimate,
        drainEstimate entries entry.id = some estimate ∧ estimate.iterations ≤ i + 1 := by
  refine ⟨fun st₀ ls₀ ls s t r₀ r => ⟨fun p e u d => ?_, fun row hrow hcalls => ?_⟩,
    fun entries hfit hids => ⟨positions_perm hfit hids, fun i entry => iterations_le hfit hids⟩⟩
  · exact completes_iff (r₀.append r) d
  · obtain ⟨-, hplace, hahead, hleft⟩ := run_advances r hrow
    have hgone : ¬ t.st.Waits row := by
      intro hwaits
      have hle := hahead hwaits
      omega
    refine ⟨hleft.resolve_left hgone, fun r hr hid => hgone ⟨r, hr, hid, hplace r hr hid⟩⟩

end Runs

/-- Of `2 ^ 32` entries the first has no position. -/
theorem long_snapshot_unplaced :
    ∃ entries : List QueuedEntry, (entries.map QueuedEntry.id).Nodup ∧
      ∃ entry ∈ entries, drainEstimate entries entry.id = none := by
  have hrow : crowdRow firstLowest 0 ∈ (crowd (2 ^ 32) firstLowest firstLowest_range).queue :=
    Db.mem_queue.mpr ⟨crowdRow_mem firstLowest_range (Nat.two_pow_pos 32), rfl⟩
  refine ⟨(crowd (2 ^ 32) firstLowest firstLowest_range).queuedSnapshot, ?_,
    (crowdRow firstLowest 0).queuedEntry, List.mem_map_of_mem hrow, ?_⟩
  · rw [snapshot_ids]
    exact Db.queue_ids_nodup _
  · exact drainEstimate_wraps (by rw [snapshot_length, crowd_queue_length, Nat.mod_self]) _

/-! ### A flood -/

/-- The queue, played: every statement comes back, and claims arrive. -/
def queuePlayer : Player Queue Unit Unit where
  answer
    | _, .promote minGroup, db, _ => some ⟨QueueAsk.alone (.promote minGroup) db, rfl, rfl⟩
  act
    | .arrive r group, db =>
        match hinsert : db.insertQueued r group with
        | .ok (id, db') =>
            if hlast : ∀ row ∈ db.rows, row.status = .queued →
                row.place < (db.newRow r .queued group).place then
              some ⟨db', ⟨id, hinsert⟩, hlast⟩
            else none
        | .error _ => none
    | _, _ => none
  image _ := ⟨advanceIteration (), fun _ => rfl⟩
  lose _ db := ⟨db, rfl⟩

/-- A claim of the highest group arrives. -/
def arrival (name : String) : Move Unit QueueEvent Unit :=
  .env (.arrive { aliceClaim with fullUsername := name } 4)

/-- Before each slot a claim of the highest group arrives; the row that was first is promoted. -/
theorem flood_starves_nobody :
    (∃ ls t, Run Queue (Sys.init (crowd 2 firstLowest firstLowest_range)) ls t ∧
      ls.countP completes = 1 ∧ (∃ l ∈ ls, promotesRow 0 l = true) ∧
      ∀ r ∈ t.st.queue, r.id ≠ 0) ∧
    ((crowd 2 firstLowest firstLowest_range).queuedSnapshot.map fun entry =>
      (drainEstimate (crowd 2 firstLowest firstLowest_range).queuedSnapshot entry.id).map
        DrainEstimate.position).Perm [some 1, some 2] := by
  have hlength := crowd_queue_length 2 firstLowest_range
  constructor
  · obtain ⟨ls, t, hr, ht⟩ := queuePlayer.reaches (crowd 2 firstLowest firstLowest_range)
      [.start 0 (), arrival "b", .op 0 (), arrival "c", .op 0 (), arrival "d", .op 0 (),
        arrival "e", .op 0 ()]
      (fun ls _ => ls.countP completes = 1) (by decide +kernel)
    simp only [decide_eq_true_eq] at ht
    have hrow : crowdRow firstLowest 0 ∈ (crowd 2 firstLowest firstLowest_range).queue :=
      Db.mem_queue.mpr ⟨crowdRow_mem firstLowest_range (by decide), rfl⟩
    have hahead : (crowd 2 firstLowest firstLowest_range).aheadOf (crowdRow firstLowest 0) = 0 := by
      decide +kernel
    obtain ⟨htaken, hgone⟩ := (queue_fair.1 _ [] ls _ t .nil hr).2 _ hrow
      (by rw [ht]; exact hahead.trans_lt Nat.one_pos)
    exact ⟨ls, t, hr, ht, htaken, hgone⟩
  · obtain ⟨hpositions, -⟩ := queue_fair.2 (crowd 2 firstLowest firstLowest_range).queuedSnapshot
      (by rw [snapshot_length, hlength]; decide)
      (by rw [snapshot_ids]; exact Db.queue_ids_nodup _)
    rw [snapshot_length, hlength] at hpositions
    exact hpositions

end DeviceUniqueness
