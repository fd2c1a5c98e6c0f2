import DeviceUniqueness.Writer.Statuses

/-! One live reservation per Widevine device, over every run of a fleet.

    A claim made with a device commits its row and the device's record in one transaction, and every
    write that settles the row shares its transaction with the write to the record. So the record
    follows the row: pending and linked while the claim is in flight, consumed once it is assigned,
    gone once it failed. The key on the device then leaves room for one live claim only. -/

namespace DeviceUniqueness

open Schemes

variable {N : String} {t₀ : Time} {db db' : Db} {row row' : Row} {b b' : Book} {id : Nat}
  {hmac : FixedBytes 32} {bs : Nat → Option Book} {p : Nat} {e : Ev Outside}
  {ls : List FleetLabel} {s : FleetSys}

/-- The reservations that were committed together with a device record, with their device. -/
def committed (ls : List FleetLabel) : List (Nat × FixedBytes 32) :=
  ls.filterMap fun x =>
    match x with
    | .env (.commitClaim id _ _ (some hmac)) => some (id, hmac)
    | _ => none

/-- What is recorded of the device of a reservation of the given status. -/
structure DeviceRecord (devices : List Device) (id : Nat) (hmac : FixedBytes 32) (status : Status) :
    Prop where
  pending : status ≠ .assigned → status ≠ .failedTerminal → ⟨hmac, .pending, some id⟩ ∈ devices
  consumed : status = .assigned → ⟨hmac, .consumed, none⟩ ∈ devices
  released : status = .failedTerminal → ∀ d ∈ devices, d.reservationId ≠ some id

/-- Every reservation committed with a device has its record, linked records are pending, and of two
    live reservations of one device neither is another. -/
structure Paired (pairs : List (Nat × FixedBytes 32)) (db : Db) : Prop where
  recorded : ∀ {id hmac}, (id, hmac) ∈ pairs →
    ∃ row, db.row? id = some row ∧ DeviceRecord db.devices id hmac row.status
  linked : ∀ d ∈ db.devices, d.reservationId ≠ none → d.status = .pending
  alone : ∀ {id id' hmac row row'}, (id, hmac) ∈ pairs → (id', hmac) ∈ pairs →
    db.row? id = some row → db.row? id' = some row' →
    row.status ≠ .failedTerminal → row'.status ≠ .failedTerminal → id = id'

/-! ### Records -/

/-- A record is the only one of its device. -/
theorem filter_hmac {d : Device} (h : d ∈ db.devices) :
    (db.devices.filter fun d' => d'.hmac = d.hmac) = [d] := by
  have hkey : ∀ ds : List Device, (ds.map Device.hmac).Nodup → d ∈ ds →
      (ds.filter fun d' => d'.hmac = d.hmac) = [d] := by
    intro ds
    induction ds with
    | nil => simp
    | cons x ds ih =>
      intro hnodup hmem
      rw [List.map_cons, List.nodup_cons] at hnodup
      rcases List.mem_cons.mp hmem with rfl | hmem
      · have hrest : (ds.filter fun d' => d'.hmac = d.hmac) = [] := by
          rw [List.filter_eq_nil_iff]
          intro y hy heq
          exact hnodup.1 (of_decide_eq_true heq ▸ List.mem_map_of_mem hy)
        simp [hrest]
      · have hne : x.hmac ≠ d.hmac := fun heq => hnodup.1 (heq ▸ List.mem_map_of_mem hmem)
        rw [List.filter_cons_of_neg (by simpa using hne)]
        exact ih hnodup.2 hmem
  exact hkey db.devices db.hmacs_nodup h

/-- A live reservation's device has a record. -/
theorem DeviceRecord.seen {ds : List Device} {status : Status} (h : DeviceRecord ds id hmac status)
    (hlive : status ≠ .failedTerminal) : hmac ∈ ds.map Device.hmac := by
  by_cases ha : status = .assigned
  · exact List.mem_map_of_mem (h.consumed ha)
  · exact List.mem_map_of_mem (h.pending ha hlive)

/-! ### What keeps the pairing -/

variable {pairs : List (Nat × FixedBytes 32)}

theorem Paired.admin (h : Paired pairs db) (ha : Admin db db') : Paired pairs db' := by
  -- a shifted row is as settled as it was
  have hback : ∀ {id row'}, db'.row? id = some row' → row'.status ≠ .failedTerminal →
      ∃ row, db.row? id = some row ∧ row.status ≠ .failedTerminal := by
    intro id row' hrow' hl
    obtain ⟨row, hrow, hs⟩ := ha.back hrow'
    refine ⟨row, hrow, fun hf => ?_⟩
    rcases hs.status with hs | ⟨hq, _⟩
    · exact hl (hs.trans hf)
    · simp [hq] at hf
  refine ⟨fun hpair => ?_, ha.devices ▸ h.linked, fun hp hp' hrow hrow' hl hl' => ?_⟩
  · obtain ⟨row, hrow, hrec⟩ := h.recorded hpair
    obtain ⟨row', hrow', hs⟩ := ha.some_of _ row hrow
    refine ⟨row', hrow', ?_⟩
    rw [ha.devices]
    rcases hs.status with hs | ⟨hq, hr⟩
    · exact hs ▸ hrec
    · exact ⟨fun _ _ => hrec.pending (by simp [hq]) (by simp [hq]), by simp [hr], by simp [hr]⟩
  · obtain ⟨row₀, hrow₀, hl₀⟩ := hback hrow hl
    obtain ⟨row₀', hrow₀', hl₀'⟩ := hback hrow' hl'
    exact h.alone hp hp' hrow₀ hrow₀' hl₀ hl₀'

theorem Paired.added {r : NewReservation} {device : Option (FixedBytes 32)} (h : Paired pairs db)
    (ha : Added id r device db db') :
    Paired (pairs ++ (device.map fun hmac => (id, hmac)).toList) db' := by
  obtain ⟨new, hnew, _, _, _, hstatus, _⟩ := ha.row
  have hopen : new.status ≠ .assigned ∧ new.status ≠ .failedTerminal := by
    rcases List.mem_pair.mp hstatus with hs | hs <;> simp [hs]
  have hother : ∀ {i hmac}, (i, hmac) ∈ pairs → i ≠ id := by
    rintro i hmac hpair rfl
    obtain ⟨row, hrow, _⟩ := h.recorded hpair
    simp [ha.fresh] at hrow
  have hcases : ∀ {i hmac}, (i, hmac) ∈ pairs ++ (device.map fun hmac => (id, hmac)).toList →
      (i, hmac) ∈ pairs ∨ i = id ∧ device = some hmac := by
    intro i hmac hpair
    rcases List.mem_append.mp hpair with hpair | hpair
    · exact Or.inl hpair
    · cases device <;> simp_all
  -- a device whose claim is still alive is recorded, so it makes no new one
  have hfresh : ∀ {i hmac row}, (i, hmac) ∈ pairs → db'.row? i = some row →
      row.status ≠ .failedTerminal → device ≠ some hmac := by
    rintro i hmac row hpair hrow hl rfl
    obtain ⟨row₀, hrow₀, hrec⟩ := h.recorded hpair
    rw [ha.others i (hother hpair), hrow₀, Option.some.injEq] at hrow
    exact ha.unseen hmac rfl (hrec.seen (hrow ▸ hl))
  refine ⟨fun hpair => ?_, fun d hd hne => ?_, fun hp hp' hrow hrow' hl hl' => ?_⟩
  · rcases hcases hpair with hpair₀ | ⟨rfl, rfl⟩
    · obtain ⟨row, hrow, hrec⟩ := h.recorded hpair₀
      refine ⟨row, (ha.others _ (hother hpair₀)).trans hrow, ?_⟩
      rw [ha.devices]
      refine ⟨fun h₁ h₂ => List.mem_append_left _ (hrec.pending h₁ h₂),
        fun h₁ => List.mem_append_left _ (hrec.consumed h₁), fun h₁ d hd => ?_⟩
      rcases List.mem_append.mp hd with hd | hd
      · exact hrec.released h₁ d hd
      · cases device with
        | none => simp at hd
        | some hmac =>
          obtain rfl := List.mem_singleton.mp hd
          exact fun heq => hother hpair₀ (Option.some.inj heq).symm
    · refine ⟨new, hnew, fun _ _ => ?_, fun hs => absurd hs hopen.1, fun hs => absurd hs hopen.2⟩
      simp [ha.devices]
  · rw [ha.devices] at hd
    rcases List.mem_append.mp hd with hd | hd
    · exact h.linked d hd hne
    · cases device with
      | none => simp at hd
      | some hmac =>
        obtain rfl := List.mem_singleton.mp hd
        rfl
  · rcases hcases hp with hp₀ | ⟨rfl, hd⟩ <;> rcases hcases hp' with hp₀' | ⟨rfl, hd'⟩
    · rw [ha.others _ (hother hp₀)] at hrow
      rw [ha.others _ (hother hp₀')] at hrow'
      exact h.alone hp₀ hp₀' hrow hrow' hl hl'
    · exact absurd hd' (hfresh hp₀ hrow hl)
    · exact absurd hd (hfresh hp₀' hrow' hl')
    · rfl

/-- A guarded write to a live row that keeps the records in step with it. -/
theorem Paired.wrote {g : Guard} {f : Row → Row} {dev : List Device → List Device} {ok : Bool}
    (h : Paired pairs db) (hw : db.Wrote g id f dev ok db')
    (hown : ∀ old, db.row? id = some old → db.held g = true → old.status ≠ .failedTerminal ∧
      ∀ hmac, DeviceRecord db.devices id hmac old.status →
        DeviceRecord (dev db.devices) id hmac (f old).status)
    (hother : ∀ i hmac status, i ≠ id → DeviceRecord db.devices i hmac status →
      DeviceRecord (dev db.devices) i hmac status)
    (hlinked : ∀ d ∈ dev db.devices, d.reservationId ≠ none → d.status = .pending) :
    Paired pairs db' := by
  cases hok : ok with
  | false => exact hw.refused hok ▸ h
  | true =>
    obtain ⟨hheld, hsome⟩ := hw.ok_iff.mp hok
    obtain ⟨old, hold⟩ := Option.isSome_iff_exists.mp hsome
    obtain ⟨hlive, hstep⟩ := hown old hold hheld
    have hdev : db'.devices = dev db.devices := by simpa [hok] using hw.devices_eq
    have hrow : ∀ i, db'.row? i = if i = id then some (f old) else db.row? i := by
      intro i
      rw [hw.row?_eq i]
      by_cases hi : i = id
      · subst hi
        simp [hok, hold]
      · simp [hi]
    -- what is alive afterwards was alive before
    have hback : ∀ {i row}, db'.row? i = some row → row.status ≠ .failedTerminal →
        ∃ row₀, db.row? i = some row₀ ∧ row₀.status ≠ .failedTerminal := by
      intro i row hi hl
      rw [hrow] at hi
      split at hi
      · next heq => exact ⟨old, heq ▸ hold, hlive⟩
      · exact ⟨row, hi, hl⟩
    refine ⟨fun {i hmac} hpair => ?_, hdev ▸ hlinked, fun hp hp' hi hi' hl hl' => ?_⟩
    · obtain ⟨row, hi, hrec⟩ := h.recorded hpair
      rw [hrow, hdev]
      split
      · next heq =>
        subst heq
        rw [hold, Option.some.injEq] at hi
        exact ⟨f old, rfl, hstep hmac (hi ▸ hrec)⟩
      · next hne => exact ⟨row, hi, hother i hmac _ hne hrec⟩
    · obtain ⟨row₀, hrow₀, hl₀⟩ := hback hi hl
      obtain ⟨row₀', hrow₀', hl₀'⟩ := hback hi' hl'
      exact h.alone hp hp' hrow₀ hrow₀' hl₀ hl₀'

/-! ### Settling -/

variable {l : Lane} {w : Write} {ds : List Device}

theorem settleDevices_linked (h : ∀ d ∈ ds, d.reservationId ≠ none → d.status = .pending) :
    ∀ d ∈ Db.settleDevices l id w ds, d.reservationId ≠ none → d.status = .pending := by
  have hconsume : ∀ d ∈ ds.map (fun d => if Db.pendingFor id d then Db.consume d else d),
      d.reservationId ≠ none → d.status = .pending := by
    intro d hd hne
    obtain ⟨d₀, hd₀, rfl⟩ := List.mem_map.mp hd
    split at hne
    · exact absurd rfl hne
    · next hp =>
      rw [if_neg hp]
      exact h d₀ hd₀ hne
  cases l <;> cases w <;> first
    | exact h
    | exact hconsume
    | exact fun d hd => h d (List.mem_of_mem_filter hd)

/-- The records of other reservations stay. -/
theorem DeviceRecord.settle_other {i : Nat} {status : Status} (hi : i ≠ id)
    (h : DeviceRecord ds i hmac status) : DeviceRecord (Db.settleDevices l id w ds) i hmac status := by
  have hpending : Db.pendingFor id ⟨hmac, .pending, some i⟩ = false := by simp [Db.pendingFor, hi]
  have hconsumed : Db.pendingFor id ⟨hmac, .consumed, none⟩ = false := by simp [Db.pendingFor]
  have hmap : DeviceRecord (ds.map fun d => if Db.pendingFor id d then Db.consume d else d) i hmac
      status := by
    refine ⟨fun h₁ h₂ => ?_, fun h₁ => ?_, fun h₁ d hd => ?_⟩
    · exact List.mem_map.mpr ⟨_, h.pending h₁ h₂, by simp [hpending]⟩
    · exact List.mem_map.mpr ⟨_, h.consumed h₁, by simp [hconsumed]⟩
    · obtain ⟨d₀, hd₀, rfl⟩ := List.mem_map.mp hd
      split
      · exact nofun
      · exact h.released h₁ d₀ hd₀
  have hfilter : DeviceRecord (ds.filter fun d => !Db.pendingFor id d) i hmac status := by
    refine ⟨fun h₁ h₂ => ?_, fun h₁ => ?_, fun h₁ d hd => ?_⟩
    · exact List.mem_filter.mpr ⟨h.pending h₁ h₂, by simp [hpending]⟩
    · exact List.mem_filter.mpr ⟨h.consumed h₁, by simp [hconsumed]⟩
    · exact h.released h₁ d (List.mem_of_mem_filter hd)
  cases l <;> cases w <;> first | exact h | exact hmap | exact hfilter

/-- The record of the reservation itself follows its row. -/
theorem DeviceRecord.settle_own {now : Time} (hlive : l.live row = true)
    (hlinked : ∀ d ∈ ds, d.reservationId ≠ none → d.status = .pending)
    (h : DeviceRecord ds id hmac row.status) :
    DeviceRecord (Db.settleDevices l id w ds) id hmac (Db.settleRow l now w row).status := by
  cases l with
  | dotns => exact (settleRow_dotns now w row).1 ▸ h
  | people =>
    rw [(settleRow_people now w row).1]
    have hpending : ⟨hmac, .pending, some id⟩ ∈ ds := by
      simp only [Lane.live, List.mem_cons, List.not_mem_nil, or_false, decide_eq_true_eq] at hlive
      exact h.pending (by rcases hlive with h | h | h <;> simp [h])
        (by rcases hlive with h | h | h <;> simp [h])
    have hreleased : ∀ d ∈ ds.filter (fun d => !Db.pendingFor id d), d.reservationId ≠ some id := by
      intro d hd heq
      obtain ⟨hmem, hnot⟩ := List.mem_filter.mp hd
      simp [Db.pendingFor, heq, hlinked d hmem (by simp [heq])] at hnot
    cases w with
    | landed =>
      refine ⟨fun h₁ => absurd rfl h₁, fun _ => ?_, fun h₃ => (by cases h₃)⟩
      exact List.mem_map.mpr ⟨_, hpending, by simp [Db.pendingFor, Db.consume]⟩
    | retry notBefore attempt err =>
      exact ⟨fun _ _ => hpending, fun h₂ => (by cases h₂), fun h₃ => (by cases h₃)⟩
    | failed err | expired err =>
      exact ⟨fun _ h₂ => absurd rfl h₂, fun h₂ => (by cases h₂), fun _ => hreleased⟩

theorem DeviceRecord.mark_own {now : Time} {tx : Tx} {attempt : Int} (hlive : l.live row = true)
    (h : DeviceRecord ds id hmac row.status) :
    DeviceRecord ds id hmac (Db.markRow l now tx attempt row).status := by
  cases l with
  | dotns => exact h
  | people =>
    simp only [Lane.live, List.mem_cons, List.not_mem_nil, or_false, decide_eq_true_eq] at hlive
    exact ⟨fun _ _ => h.pending (by rcases hlive with h | h | h <;> simp [h])
      (by rcases hlive with h | h | h <;> simp [h]), fun h₂ => (by cases h₂),
      fun h₃ => (by cases h₃)⟩

theorem Lane.live_open (h : l.live row = true) : row.status ≠ .failedTerminal := by
  intro hs
  cases l <;> simp [Lane.live, hs] at h

/-! ### Whole runs -/

theorem Paired.did (h : Paired pairs db) (hf : Fenced N db bs) (hb : bs p = some b)
    (hd : Did N db b e db' b') : Paired pairs db' := by
  cases hd with
  | acquired holderId ttl epoch done book =>
    exact h.admin ((Prod.mk.inj done).2 ▸ .of_eq rfl rfl)
  | dropped admin => exact h.admin admin
  | claimed l limit rows ready reads same | swept l rows reads same => exact same ▸ h
  | marked l g r tx ok came guard todo wrote =>
    refine h.wrote wrote (fun old hold hheld => ?_) (fun _ _ _ _ hrec => hrec) h.linked
    have hlive := hf.live hb guard todo hold hheld
    exact ⟨Lane.live_open hlive, fun hmac hrec => hrec.mark_own hlive⟩
  | settled l g r w ok came guard todo charge wrote =>
    refine h.wrote wrote (fun old hold hheld => ?_) (fun _ _ _ hi hrec => hrec.settle_other hi)
      (settleDevices_linked h.linked)
    have hlive := hf.live hb guard todo hold hheld
    exact ⟨Lane.live_open hlive, fun hmac hrec => hrec.settle_own hlive h.linked⟩
  | quiet admin => exact h.admin admin

theorem Paired.does {ev : FleetEvent} (h : Paired (committed ls) db) (hd : ev.Does db db') :
    Paired (committed (ls ++ [.env ev])) db' := by
  rw [committed, List.filterMap_append]
  obtain ⟨ha, hother⟩ | ⟨id, r, group, device, rfl, ha⟩ := FleetEvent.Does.cases hd
  · have hnone : committed [.env ev] = [] := by
      cases ev with
      | commitClaim id r group device => exact absurd rfl (hother id r group device)
      | _ => rfl
    rw [committed] at hnone
    rw [hnone, List.append_nil]
    exact h.admin ha
  · have hadded := h.added ha
    cases device <;> exact hadded

@[simp] theorem committed_op (e : Ev Outside) : committed (ls ++ [.op p e]) = committed ls := by
  simp [committed]

@[simp] theorem committed_start : committed (ls ++ [.start p]) = committed ls := by simp [committed]

@[simp] theorem committed_kill : committed (ls ++ [.kill p]) = committed ls := by simp [committed]

theorem reachable_paired (r : Reachable (Fleet N) (Db.empty t₀) ls s) :
    Paired (committed ls) s.st :=
  Reachable.inv fleet_bound (fun ls db _ => Paired (committed ls) db)
    ⟨by simp [committed], by simp [Db.empty], by simp [committed]⟩
    { op _ _ _ _ _ _ _ r h hb hok hdone := by
        simpa using h.did (reachable_fenced r) hb (did hok hdone)
      env _ _ _ _ _ h hdone := h.does hdone
      start _ _ _ _ h _ := by simpa using h
      kill _ _ _ _ _ h hdone := by simpa [show _ = _ from hdone] using h } r

/-- In every run the record of a device follows the reservation it was committed with, and no device
    has two reservations that are not failed. -/
theorem one_per_device (r : Reachable (Fleet N) (Db.empty t₀) ls s) :
    (∀ id hmac, (id, hmac) ∈ committed ls → ∃ row, s.st.row? id = some row ∧
      (row.status ∉ [Status.assigned, .failedTerminal] →
        (s.st.devices.filter fun d => d.hmac = hmac) = [⟨hmac, .pending, some id⟩]) ∧
      (row.status = .assigned → ∀ xs t, Run (Fleet N) s xs t →
        (t.st.devices.filter fun d => d.hmac = hmac) = [⟨hmac, .consumed, none⟩]) ∧
      (row.status = .failedTerminal → ∀ d ∈ s.st.devices, d.reservationId ≠ some id)) ∧
    (∀ id id' hmac row row', (id, hmac) ∈ committed ls → (id', hmac) ∈ committed ls →
      s.st.row? id = some row → s.st.row? id' = some row' →
      row.status ≠ .failedTerminal → row'.status ≠ .failedTerminal → id = id') := by
  have hpaired := reachable_paired r
  refine ⟨fun id hmac hpair => ?_, fun _ _ _ _ _ => hpaired.alone⟩
  obtain ⟨row, hrow, hrec⟩ := hpaired.recorded hpair
  refine ⟨row, hrow, fun hopen => ?_, fun hassigned xs t run => ?_, hrec.released⟩
  · simp only [List.mem_cons, List.not_mem_nil, or_false, not_or] at hopen
    exact filter_hmac (hrec.pending hopen.1 hopen.2)
  · obtain ⟨row', hrow', hstatus⟩ := run_settled r run hrow (by simp [hassigned])
    obtain ⟨row'', hrow'', hrec'⟩ := (reachable_paired (r.append run)).recorded
      (show (id, hmac) ∈ committed (ls ++ xs) by
        rw [committed, List.filterMap_append]
        exact List.mem_append_left _ hpair)
    rw [hrow', Option.some.injEq] at hrow''
    exact filter_hmac (hrec'.consumed (hrow'' ▸ hstatus.trans hassigned))

/-- A device, and the claim of `alice` made with it, drained by one writer. -/
def aliceDevice : FixedBytes 32 := ⟨List.replicate 32 11, rfl⟩

def drainedDevice : Script :=
  [.env (.commitClaim 1 aliceClaim none (some aliceDevice)), .start 0 (testWriter "writer-1", 2)] ++
    goes 0 22

def consumedDevice (ls : List FleetLabel)
    (s : FleetSys) : Bool :=
  (1, aliceDevice) ∈ committed ls && (s.st.row? 1).any (fun row => row.status = .assigned) &&
    s.st.devices = [⟨aliceDevice, .consumed, none⟩]

theorem one_per_device_drained : ∃ ls s,
    Reachable (Fleet "chain-writer") (Db.empty claimedAt) ls s ∧ consumedDevice ls s = true ∧
    (∀ id hmac, (id, hmac) ∈ committed ls → ∃ row, s.st.row? id = some row ∧
      (row.status ∉ [Status.assigned, .failedTerminal] →
        (s.st.devices.filter fun d => d.hmac = hmac) = [⟨hmac, .pending, some id⟩]) ∧
      (row.status = .assigned → ∀ xs t, Run (Fleet "chain-writer") s xs t →
        (t.st.devices.filter fun d => d.hmac = hmac) = [⟨hmac, .consumed, none⟩]) ∧
      (row.status = .failedTerminal → ∀ d ∈ s.st.devices, d.reservationId ≠ some id)) ∧
    (∀ id id' hmac row row', (id, hmac) ∈ committed ls → (id', hmac) ∈ committed ls →
      s.st.row? id = some row → s.st.row? id' = some row' →
      row.status ≠ .failedTerminal → row'.status ≠ .failedTerminal → id = id') := by
  obtain ⟨ls, s, r, htest⟩ := (player "chain-writer").reaches (Db.empty claimedAt) drainedDevice
    consumedDevice (by decide +kernel)
  exact ⟨ls, s, r, htest, one_per_device r⟩

end DeviceUniqueness
