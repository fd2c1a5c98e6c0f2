import DeviceUniqueness.Tickets.Batches

/-! Which keys enter the pool, and which are lost.

    The chain reports one event for each call of a batch, in order, and a tick inserts the keys whose
    events report a success. The events that do not decode are dropped before they are matched to the
    keys, so a dropped one moves all that follow it to other keys. And whenever a tick ends with an
    error after its batch went out, the keys are gone although the chain may have registered them. -/

namespace DeviceUniqueness.Tickets

open Schemes

/-- The inserted keys are among those whose calls completed, each in its place. -/
def InsertsCompleted (fate : TickFate) (log : TickLog) : Prop :=
  (log.asked.map NewTicket.publicKey).Sublist
    ((completed log.calls (verdicts fate.events)).map Subtype.val)

theorem insertsCompleted_of_sorted {fate : TickFate} (ext : TicketExt) (job : TickJob)
    (h : (readable fate.events).Pairwise fun a b => b = true → a = true) :
    InsertsCompleted fate (fate.tick ext job).2 := by
  rw [InsertsCompleted]
  by_cases hhands : fate.Hands ext job
  · obtain ⟨r, log, generated, htick, hhanded⟩ := fate.tick_of_hands hhands
    rw [htick]
    by_cases hfollowed : fate.Followed job.patience
    · refine ((hhanded.asks hfollowed).sublist.map _).trans ?_
      rw [hhanded.taken_keys]
      exact ((completed_mono _ (filter_snd_leading h)).sublist).map _
    · rw [(hhanded.lost hfollowed).2]
      exact List.nil_sublist _
  · obtain ⟨r, log, htick, -, hasked, -⟩ := fate.tick_of_not_hands hhands
    rw [htick, hasked]
    exact List.nil_sublist _

/-! ### A dropped event -/

/-- The event of a call. -/
def EventRecord.ofCall (item : Bool × Bool) : EventRecord where
  event := ⟨"Utility", if item.1 then "ItemCompleted" else "ItemFailed", []⟩
  unreadable := if item.2 then none else some "cannot decode event"

theorem callItems_ofCall (items : List (Bool × Bool)) :
    callItems (items.map EventRecord.ofCall) = items := by
  induction items with
  | nil => rfl
  | cons item items ih =>
    rw [callItems] at ih ⊢
    rw [List.map_cons, List.filterMap_cons, ih]
    obtain ⟨done, read⟩ := item
    cases done <;> cases read <;> rfl

/-- The batch goes out, is finalized with the events, and every insert is done. -/
def smoothFate (key : Nat → DevKey) (items : List (Bool × Bool)) : TickFate where
  available := .ok 0
  invites := .ok 100
  seed i := (key i).seed
  client := .ready (.ok ())
  signed := .ready (.ok ())
  submitted := .ready (.ok ())
  status _ := .ready (.ok (some .inFinalizedBlock))
  fetched := .ready (.ok ())
  block := some (items.map EventRecord.ofCall)
  insert _ := .ok ()
  now := 0

theorem smoothFate_events (key : Nat → DevKey) (items : List (Bool × Bool)) :
    callItems (smoothFate key items).events = items :=
  callItems_ofCall items

/-- A tick that finds an empty pool and wants so many tickets. -/
def devJob (size : Nat) : TickJob := ⟨devIdentity, .westend2, ⟨size, size⟩, 1, .game, size, emptyPool.table⟩

theorem fromStoredSecret_dev (key : DevKey) : fromStoredSecret devTickets key.seed.1 = .ok key := by
  cases key <;> rfl

theorem account_dev (key : Generated devTickets) {dev : DevKey} (h : key.seed = dev.seed) :
    key.account = dev.publicKey := by
  have hmade := key.made
  rw [h, fromStoredSecret_dev] at hmade
  rw [Generated.account, ← Except.ok.inj hmade]
  rfl

theorem size_dev {size : Nat} (hmax : size ≤ 65535) (key : Nat → DevKey) (items : List (Bool × Bool)) :
    (smoothFate key items).size (devJob size) = size := by
  have hneeded : saturate64 ((size : Int) - ((0 : Nat) : Int)) = size := by
    rw [saturate64]
    omega
  rw [TickFate.size]
  show planRefill ((0 : Nat) : Int) (size : Int) size = size
  rw [planRefill, hneeded]
  split_ifs <;> omega

/-- The keys and the inserts of such a tick. -/
theorem smooth_tick (key : Nat → DevKey) {items : List (Bool × Bool)} (hne : items ≠ [])
    (hmax : items.length ≤ 65535) :
    ((smoothFate key items).tick devTickets (devJob items.length)).2.calls =
        (List.range' 0 items.length).map (fun i => (key i).publicKey) ∧
      ((smoothFate key items).tick devTickets (devJob items.length)).2.asked.map NewTicket.publicKey =
        (completed (List.range' 0 items.length) ((items.filter Prod.snd).map Prod.fst)).map
          fun i => (key i).publicKey.1 := by
  have hsize := size_dev hmax key items
  have hhands : (smoothFate key items).Hands devTickets (devJob items.length) := by
    refine ⟨?_, fun i _ => ⟨key i, fromStoredSecret_dev (key i)⟩, rfl, rfl⟩
    rw [hsize]
    simpa using hne
  have hfollowed : (smoothFate key items).Followed (devJob items.length).patience :=
    ⟨rfl, ⟨0, Nat.one_pos, rfl, fun j hj => absurd hj (Nat.not_lt_zero j)⟩, rfl⟩
  obtain ⟨r, log, generated, htick, hhanded⟩ := TickFate.tick_of_hands hhands
  have hseeds := hhanded.seeds
  rw [hsize] at hseeds
  have hcalls : log.calls = (List.range' 0 items.length).map (fun i => (key i).publicKey) := by
    rw [hhanded.calls]
    refine List.ext_getElem? fun i => ?_
    have hi := congrArg (·[i]?) hseeds
    simp only [List.getElem?_map] at hi ⊢
    cases hg : generated[i]? with
    | none =>
      rw [hg] at hi
      cases hr : (List.range' 0 items.length)[i]? with
      | none => rfl
      | some j =>
        rw [hr] at hi
        cases hi
    | some g =>
      rw [hg] at hi
      cases hr : (List.range' 0 items.length)[i]? with
      | none =>
        rw [hr] at hi
        cases hi
      | some j =>
        rw [hr] at hi
        exact congrArg some (account_dev g (Option.some.inj hi))
  rw [htick]
  refine ⟨hcalls, ?_⟩
  rw [(hhanded.stores hfollowed fun _ _ => rfl).2.1, hhanded.taken_keys, hcalls, completed_map,
    List.map_map, smoothFate_events]
  rfl

/-- One key of the batch is the odd one. -/
def oddKey (j i : Nat) : DevKey := if i = j then .nines else .fives

/-- Only the call at `j` completed. -/
def oneCompleted (mask : List Bool) (j : Nat) : List (Bool × Bool) :=
  mask.zipIdx.map fun x => (decide (x.2 = j), x.1)

theorem oneCompleted_readable (mask : List Bool) (j : Nat) : (oneCompleted mask j).map Prod.snd = mask := by
  rw [oneCompleted, List.map_map]
  exact List.zipIdx_map_fst 0 mask

theorem oneCompleted_done (mask : List Bool) (j i : Nat) :
    ((oneCompleted mask j).map Prod.fst)[i]? = (mask[i]?).map fun _ => decide (i = j) := by
  rw [oneCompleted, List.map_map, List.getElem?_map, List.getElem?_zipIdx, Option.map_map, Nat.zero_add]
  rfl

theorem eq_singleton {xs : List Nat} {j : Nat} (hnodup : xs.Nodup) (hall : ∀ x ∈ xs, x = j)
    (hne : xs ≠ []) : xs = [j] := by
  match xs with
  | [] => exact absurd rfl hne
  | [x] => rw [hall x (List.mem_singleton_self x)]
  | x :: y :: xs =>
    have hxy : x = y := (hall x (by simp)).trans (hall y (by simp)).symm
    exact absurd (List.mem_cons.mpr (.inl hxy)) (List.nodup_cons.mp hnodup).1

/-- A success that is read after a dropped event is given to another key. -/
theorem shifted_insert {mask : List Bool} (hmax : mask.length ≤ 65535) {i j : Nat} (hij : i < j)
    (hi : mask[i]? = some false) (hj : mask[j]? = some true) :
    ¬ InsertsCompleted (smoothFate (oddKey j) (oneCompleted mask j))
      ((smoothFate (oddKey j) (oneCompleted mask j)).tick devTickets (devJob mask.length)).2 := by
  intro h
  set items := oneCompleted mask j with hitems
  have hlength : items.length = mask.length := by simp [hitems, oneCompleted]
  have hitem : (true, true) ∈ items := by
    refine List.mem_map.mpr ⟨(true, j), ?_, by simp⟩
    exact List.mk_mem_zipIdx_iff_getElem?.mpr hj
  obtain ⟨hcalls, hasked⟩ := smooth_tick (oddKey j) (List.ne_nil_of_mem hitem) (hlength.trans_le hmax)
  rw [InsertsCompleted, ← hlength, hasked, hcalls, verdicts, smoothFate_events, completed_map,
    List.map_map] at h
  have hrange : ∀ done, (completed (List.range' 0 items.length) done).Nodup := fun done =>
    (completed_sublist _ done).nodup List.nodup_range'
  have hdone : ∀ k ∈ completed (List.range' 0 items.length) (items.map Prod.fst), k = j := by
    intro k hk
    obtain ⟨n, hkey, htrue⟩ := mem_completed hk
    obtain ⟨hn, hkey⟩ := List.getElem?_eq_some_iff.mp hkey
    rw [List.getElem_range', Nat.zero_add, Nat.one_mul] at hkey
    rw [oneCompleted_done, Option.map_eq_some_iff] at htrue
    obtain ⟨-, -, htrue⟩ := htrue
    exact hkey.symm.trans (of_decide_eq_true htrue)
  have hread : ∀ k ∈ completed (List.range' 0 items.length) ((items.filter Prod.snd).map Prod.fst),
      k = j := by
    intro k hk
    obtain ⟨k', hk', hsame⟩ := List.mem_map.mp (h.mem (List.mem_map_of_mem hk))
    obtain rfl := hdone k' hk'
    by_contra hne
    have hodd : (oddKey k' k).publicKey.1 ≠ (oddKey k' k').publicKey.1 := by
      rw [oddKey, if_neg hne, oddKey, if_pos rfl]
      decide
    exact hodd hsame.symm
  have hsub : ((items.filter Prod.snd).map Prod.fst).Sublist (items.map Prod.fst) :=
    List.filter_sublist.map _
  have hle : (items.map Prod.fst).length ≤ (List.range' 0 items.length).length := by simp
  have hboth : completed (List.range' 0 items.length) ((items.filter Prod.snd).map Prod.fst) =
      completed (List.range' 0 items.length) (items.map Prod.fst) := by
    rw [eq_singleton (hrange _) hdone, eq_singleton (hrange _) hread]
    · rw [Ne, completed_eq_nil (hsub.length_le.trans hle), not_not]
      exact List.mem_map.mpr ⟨_, List.mem_filter.mpr ⟨hitem, rfl⟩, rfl⟩
    · rw [Ne, completed_eq_nil hle, not_not]
      exact List.mem_map.mpr ⟨_, hitem, rfl⟩
  have hmask := (completed_filter_iff List.nodup_range' (by simp)).mp hboth i j hij.le (by
    rw [oneCompleted_done, hj]
    simp)
  rw [oneCompleted_readable, hi] at hmask
  cases hmask

/-- For ticket batches of any size: which of the events can be read decides whether only keys whose
    calls completed are inserted, whatever the calls came to. It is so exactly if nothing is read
    after an event that is not. -/
theorem only_completed_inserted (mask : List Bool) (hmax : mask.length ≤ 65535) :
    (∀ (ext : TicketExt) (job : TickJob) (fate : TickFate), readable fate.events = mask →
      (verdicts fate.events).length = (fate.tick ext job).2.calls.length →
      InsertsCompleted fate (fate.tick ext job).2) ↔
    mask.Pairwise fun a b => b = true → a = true := by
  constructor
  · intro h
    rw [List.pairwise_iff_getElem]
    intro i j hi hj hij hread
    by_contra hunread
    refine shifted_insert hmax hij ?_ ?_ (h devTickets (devJob mask.length) _ ?_ ?_)
    · rw [List.getElem?_eq_getElem hi, Bool.eq_false_iff.mpr hunread]
    · rw [List.getElem?_eq_getElem hj, hread]
    · rw [readable, smoothFate_events, oneCompleted_readable]
    · have hne : oneCompleted mask j ≠ [] := by
        rw [Ne, oneCompleted, List.map_eq_nil_iff, List.zipIdx_eq_nil_iff]
        exact List.ne_nil_of_length_pos (Nat.zero_lt_of_lt hj)
      have hlength : (oneCompleted mask j).length = mask.length := by simp [oneCompleted]
      rw [← hlength, (smooth_tick (oddKey j) hne (hlength.trans_le hmax)).1, verdicts, smoothFate_events]
      simp
  · rintro h ext job fate rfl -
    exact insertsCompleted_of_sorted ext job h

/-- The event of the first call, a failure, does not decode, and its key gets the success of the
    second. -/
theorem failed_key_inserted :
    let fate := smoothFate (oddKey 1) [(false, false), (true, true)]
    let log := (fate.tick devTickets (devJob 2)).2
    verdicts fate.events = [false, true] ∧
      log.calls = [DevKey.fives.publicKey, DevKey.nines.publicKey] ∧
      log.asked.map NewTicket.publicKey = [DevKey.fives.publicKey.1] ∧ ¬ InsertsCompleted fate log := by
  have hrun : verdicts (smoothFate (oddKey 1) [(false, false), (true, true)]).events = [false, true] ∧
      ((smoothFate (oddKey 1) [(false, false), (true, true)]).tick devTickets (devJob 2)).2.calls =
        [DevKey.fives.publicKey, DevKey.nines.publicKey] ∧
      ((smoothFate (oddKey 1) [(false, false), (true, true)]).tick devTickets
        (devJob 2)).2.asked.map NewTicket.publicKey = [DevKey.fives.publicKey.1] := by decide +kernel
  refine ⟨hrun.1, hrun.2.1, hrun.2.2, ?_⟩
  rw [InsertsCompleted, hrun.1, hrun.2.1, hrun.2.2]
  decide +kernel

theorem only_completed_inserted_last :
    let fate := smoothFate (oddKey 1) [(true, true), (false, false)]
    let log := (fate.tick devTickets (devJob 2)).2
    readable fate.events = [true, false] ∧
      log.asked.map NewTicket.publicKey = [DevKey.fives.publicKey.1] ∧ InsertsCompleted fate log := by
  refine ⟨by decide +kernel, by decide +kernel, ?_⟩
  exact (only_completed_inserted [true, false] (by decide)).mpr (by decide) devTickets (devJob 2)
    (smoothFate (oddKey 1) [(true, true), (false, false)]) (by decide +kernel) (by decide +kernel)

/-! ### Registered keys -/

theorem insertAvailable_fresh {table : TicketTable} {new : NewTicket} (now : Time)
    (h : new.publicKey ∉ table.rows.map fun row => row.publicKey) :
    (table.insertAvailable new now).rows = table.rows ++ [new.row now] := by
  rw [TicketTable.insertAvailable, dif_neg h]

theorem foldl_insertAvailable {now : Time} (news : List NewTicket) (table : TicketTable)
    (hnodup : (news.map NewTicket.publicKey).Nodup)
    (hfresh : ∀ key ∈ news.map NewTicket.publicKey, key ∉ table.rows.map fun row => row.publicKey) :
    (news.foldl (fun table new => table.insertAvailable new now) table).rows =
      table.rows ++ news.map fun new => new.row now := by
  induction news generalizing table with
  | nil => simp
  | cons new news ih =>
    rw [List.map_cons, List.nodup_cons] at hnodup
    have hrows := insertAvailable_fresh now (hfresh new.publicKey (List.mem_cons_self ..))
    rw [List.foldl_cons, ih _ hnodup.2, hrows, List.append_assoc]
    · rfl
    · intro key hkey
      rw [hrows, List.map_append, List.mem_append, not_or]
      refine ⟨hfresh key (List.mem_cons_of_mem _ hkey), fun hsame => hnodup.1 ?_⟩
      obtain rfl : key = new.publicKey := List.mem_singleton.mp hsame
      exact hkey

/-- The keys the chain has registered, or will have. -/
def registered (fate : TickFate) (log : TickLog) : List Account :=
  completed log.calls (verdicts fate.events)

/-- A tick that fails has nothing registered, and one that does not has added to the pool exactly
    what is registered. -/
def NothingLost (fate : TickFate) (job : TickJob) (out : Except String (Nat × Nat) × TickLog) : Prop :=
  (∀ e, out.1 = .error e → registered fate out.2 = []) ∧
    ∀ x, out.1 = .ok x → ∃ added, out.2.table.rows = job.table.rows ++ added ∧
      (∀ row ∈ added, row.inPool job.dim job.network = true) ∧
      added.map (fun row => row.publicKey) = (registered fate out.2).map Subtype.val

/-- Every event up to the last success can be read. -/
def ReadToLast (records : List EventRecord) : Prop :=
  ∀ i j : Nat, i ≤ j → (verdicts records)[j]? = some true → (readable records)[i]? = some true

section Registered

variable {fate : TickFate} {job : TickJob} {ext : TicketExt} {r : Except String (Nat × Nat)}
  {log : TickLog} {generated : List (Generated ext)}

/-- A tick that fails loses what is registered. -/
theorem nothingLost_error (hcalls : (verdicts fate.events).length ≤ log.calls.length)
    (hr : ∃ e, r = .error e) : NothingLost fate job (r, log) ↔ true ∉ verdicts fate.events := by
  obtain ⟨e, rfl⟩ := hr
  rw [← completed_eq_nil hcalls]
  refine ⟨fun h => h.1 e rfl, fun h => ⟨fun _ _ => h, fun _ hx => ?_⟩⟩
  cases hx

/-- A tick that does not fail inserts what is registered, if the positions are right. -/
theorem nothingLost_ok (h : fate.Handed job r log generated)
    (hcalls : (verdicts fate.events).length ≤ log.calls.length) (hnodup : log.calls.Nodup)
    (hfresh : ∀ key ∈ log.calls, key.1 ∉ job.table.rows.map fun row => row.publicKey)
    (hr : ∃ x, r = .ok x)
    (htable : log.table = (fate.taken job generated).foldl
      (fun table new => table.insertAvailable new fate.now) job.table) :
    NothingLost fate job (r, log) ↔ ReadToLast fate.events := by
  obtain ⟨x, rfl⟩ := hr
  have hkeys := h.taken_keys
  have hsub := completed_sublist log.calls (((callItems fate.events).filter Prod.snd).map Prod.fst)
  have hrows : log.table.rows = job.table.rows ++
      (fate.taken job generated).map fun new => new.row fate.now := by
    rw [htable]
    refine foldl_insertAvailable _ _ ?_ ?_
    · rw [hkeys]
      exact (hsub.nodup hnodup).map Subtype.val_injective
    · rw [hkeys]
      intro key hkey
      obtain ⟨account, haccount, rfl⟩ := List.mem_map.mp hkey
      exact hfresh account (hsub.mem haccount)
  have hadded : ((fate.taken job generated).map fun new => new.row fate.now).map
      (fun row => row.publicKey) = (fate.taken job generated).map NewTicket.publicKey := by
    rw [List.map_map]
    rfl
  have hposition : ReadToLast fate.events ↔
      (fate.taken job generated).map NewTicket.publicKey =
        (registered fate log).map Subtype.val := by
    rw [hkeys, registered, List.map_inj_right (fun _ _ => Subtype.ext)]
    exact (completed_filter_iff hnodup (by simpa [verdicts] using hcalls)).symm
  rw [hposition]
  constructor
  · rintro ⟨-, hok⟩
    obtain ⟨added, hrows', -, hregistered⟩ := hok x rfl
    rw [hrows, List.append_cancel_left_eq] at hrows'
    rw [← hregistered, ← hrows', hadded]
  · intro hregistered
    refine ⟨fun _ he => (by cases he), fun _ _ => ⟨_, hrows, ?_, hadded.trans hregistered⟩⟩
    intro row hrow
    obtain ⟨new, hnew, rfl⟩ := List.mem_map.mp hrow
    obtain ⟨key, -, rfl⟩ := List.mem_map.mp hnew
    simp [Ticket.inPool, NewTicket.row, Generated.ticket]

/-- As many keys are taken for accepted as completed, if every event up to the last success is
    read. -/
theorem taken_length (h : fate.Handed job r log generated)
    (hcalls : (verdicts fate.events).length ≤ log.calls.length) (hnodup : log.calls.Nodup)
    (hread : ReadToLast fate.events) :
    (fate.taken job generated).length = (verdicts fate.events).count true := by
  have hsame := (completed_filter_iff hnodup (by simpa [verdicts] using hcalls)).mpr hread
  have hlength := congrArg List.length h.taken_keys
  rwa [List.length_map, List.length_map, hsame, ← verdicts, completed_length hcalls] at hlength

end Registered

/-- For a tick whose keys are all different and new to the pool, and a chain that reports at most one
    result for each call it was handed: nothing is lost exactly if nothing was registered, or the
    finalization was seen in time, every event up to the last success could be read, and every insert
    of a registered key was reported as done. -/
theorem nothing_lost_iff (ext : TicketExt) (job : TickJob) (fate : TickFate)
    (hcalls : (verdicts fate.events).length ≤ (fate.tick ext job).2.calls.length)
    (hnodup : (fate.tick ext job).2.calls.Nodup)
    (hfresh : ∀ key ∈ (fate.tick ext job).2.calls,
      key.1 ∉ job.table.rows.map fun row => row.publicKey) :
    NothingLost fate job (fate.tick ext job) ↔
      true ∉ verdicts fate.events ∨
      (fate.Followed job.patience ∧ ReadToLast fate.events ∧
        ∀ k < (verdicts fate.events).count true, fate.insert k = .ok ()) := by
  by_cases hhands : fate.Hands ext job
  · obtain ⟨r, log, generated, htick, hhanded⟩ := fate.tick_of_hands hhands
    rw [htick] at hcalls hnodup hfresh ⊢
    by_cases hfollowed : fate.Followed job.patience
    · by_cases hinserts : ∀ i < (fate.taken job generated).length, fate.insert i = .ok ()
      · obtain ⟨hok, -, htable⟩ := hhanded.stores hfollowed hinserts
        rw [nothingLost_ok hhanded hcalls hnodup hfresh hok htable]
        constructor
        · intro hread
          refine .inr ⟨hfollowed, hread, ?_⟩
          rwa [← taken_length hhanded hcalls hnodup hread]
        · rintro (hnone | ⟨-, hread, -⟩)
          · exact fun i j _ hj => absurd (List.mem_of_getElem? hj) hnone
          · exact hread
      · rw [nothingLost_error hcalls]
        · refine ⟨.inl, fun h => h.resolve_right ?_⟩
          rintro ⟨-, hread, hdone⟩
          refine hinserts ?_
          rwa [taken_length hhanded hcalls hnodup hread]
        · push Not at hinserts
          exact hhanded.breaks hfollowed hinserts
    · rw [nothingLost_error hcalls (hhanded.lost hfollowed).1]
      exact ⟨.inl, fun h => h.resolve_right fun hfin => hfollowed hfin.1⟩
  · obtain ⟨r, log, htick, hnone, -, htable⟩ := fate.tick_of_not_hands hhands
    rw [htick] at hcalls ⊢
    have hempty : log.calls = [] := by rw [TickLog.calls, hnone]; rfl
    have hverdicts : verdicts fate.events = [] := by
      rw [hempty] at hcalls
      exact List.length_eq_zero_iff.mp (Nat.le_zero.mp hcalls)
    have hregistered : registered fate log = [] := by rw [registered, hempty]; rfl
    refine iff_of_true ⟨fun _ _ => hregistered, fun _ _ => ⟨[], ?_, ?_, ?_⟩⟩ (.inl ?_)
    · rw [htable, List.append_nil]
    · exact fun row hrow => absurd hrow List.not_mem_nil
    · rw [hregistered]
      rfl
    · rw [hverdicts]
      exact List.not_mem_nil

/-- The batch goes out, and the timer is up before its finalization is seen. -/
def slowFate : TickFate :=
  { smoothFate (fun _ => .fives) [(true, true)] with status := fun _ => .elapsed }

/-- A tick fails with a key that is registered. -/
theorem registered_key_lost :
    (slowFate.tick devTickets (devJob 1)).1 = .error "batch finalization timed out" ∧
      registered slowFate (slowFate.tick devTickets (devJob 1)).2 = [DevKey.fives.publicKey] ∧
      ¬ NothingLost slowFate (devJob 1) (slowFate.tick devTickets (devJob 1)) := by
  have hfailed : (slowFate.tick devTickets (devJob 1)).1 = .error "batch finalization timed out" := rfl
  have hregistered : registered slowFate (slowFate.tick devTickets (devJob 1)).2 =
      [DevKey.fives.publicKey] := by decide +kernel
  refine ⟨hfailed, hregistered, fun h => ?_⟩
  rw [h.1 _ hfailed] at hregistered
  cases hregistered

theorem nothing_lost_iff_smooth :
    NothingLost (smoothFate (oddKey 1) [(true, true), (false, false)]) (devJob 2)
      ((smoothFate (oddKey 1) [(true, true), (false, false)]).tick devTickets (devJob 2)) := by
  refine (nothing_lost_iff devTickets (devJob 2) (smoothFate (oddKey 1) [(true, true), (false, false)])
    (by decide +kernel) (by decide +kernel) (by decide +kernel)).mpr (.inr ⟨?_, ?_, fun _ _ => rfl⟩)
  · exact ⟨rfl, ⟨0, Nat.one_pos, rfl, fun j hj => absurd hj (Nat.not_lt_zero j)⟩, rfl⟩
  · intro i j hij hj
    have hverdicts : verdicts (smoothFate (oddKey 1) [(true, true), (false, false)]).events =
        [true, false] := by decide +kernel
    rw [hverdicts] at hj
    match j with
    | 0 =>
      obtain rfl := Nat.le_zero.mp hij
      decide +kernel
    | 1 | _ + 2 => cases hj

end DeviceUniqueness.Tickets
