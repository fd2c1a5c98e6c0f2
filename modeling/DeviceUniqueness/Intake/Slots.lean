import DeviceUniqueness.Intake.Passive

/-! The free slot of an iOS device.

    `Slot` is what is kept track of for one claim: what Apple said at the gate, whether its
    transaction holds the lock, what Apple said under it, whether the mark was accepted. The claim's
    program satisfies `slots`: a claim that Apple let through at the gate commits only with the lock,
    with Apple asked again under it, and with the mark accepted.

    That this is so needs one thing of the requests: evidence of an Android device that verifies is
    not sent along by an iOS client. The reservation with a Widevine record comes first, and it
    neither asks Apple again nor marks the slot. -/

namespace DeviceUniqueness

open Schemes

/-! ### Keeping track of a claim -/

structure Slot where
  query : Option (Bytes × Except String Bool)
  locked : Bool
  cleared : Bool
  marked : Bool
  failed : Bool
  done : Bool

/-- Nothing has happened yet. -/
def Slot.start : Slot := ⟨none, false, false, false, false, false⟩

/-- The token Apple let through at the gate. -/
def Slot.token (b : Slot) : Option Bytes :=
  match b.query with
  | some (token, .ok false) => some token
  | _ => none

/-- Apple said the slot is still free. -/
def isFree : Except String Bool → Bool
  | .ok false => true
  | _ => false

/-- The statement came back with a conflict. -/
def Reply.conflicts : Reply (Except Db.InsertError Nat) → Bool
  | .ok (.error .conflict) => true
  | _ => false

def Slot.next (b : Slot) : Ev IntakeWorld → Slot
  | ⟨.alreadyUsed token, a⟩ =>
      match b.query with
      | none => { b with query := some (token, a), cleared := false, marked := false }
      | some _ => { b with cleared := isFree a && b.token = some token, failed := b.failed || isErr a }
  | ⟨.registerDevice token, a⟩ =>
      { b with marked := !isErr a && b.token = some token, failed := b.failed || isErr a }
  | ⟨.begin, _⟩ => { b with locked := false, cleared := false }
  | ⟨.txLock, reply⟩ => { b with locked := !isErr reply.answer, cleared := false }
  | ⟨.txInsert .., reply⟩ => { b with failed := b.failed || reply.conflicts }
  | ⟨.insert .., reply⟩ =>
      { b with failed := b.failed || reply.conflicts, done := b.done || reply.inserted }
  | ⟨.commit, reply⟩ => { b with done := b.done || reply.done }
  | _ => b

/-- What a claim may do. Once it has committed it does nothing more that could fail. -/
def Slot.Allows (b : Slot) : IntakeAsk → Prop
  | .alreadyUsed token => b.done = false ∧ (b.query = none ∨ b.token = some token ∧ b.locked = true)
  | .registerDevice token =>
      b.done = false ∧ b.token = some token ∧ b.locked = true ∧ b.cleared = true
  | .txInsert .. => b.done = false
  | .insert .. => b.done = false ∧ b.failed = false ∧ b.token = none
  | .commit => b.done = false ∧ b.failed = false ∧
      ∀ token, b.token = some token → b.locked = true ∧ b.cleared = true ∧ b.marked = true
  | _ => True

def slots : Monitor IntakeWorld Slot where
  next := Slot.next
  ok := Slot.Allows
  adm _ _ := True

/-! ### The program keeps to it -/

theorem slots_passive : Passive slots where
  ok b o ho := by cases o <;> trivial
  next b o a ho := by cases o <;> first | rfl | cases ho

section Program

variable {ext : GateExt} {config : GateConfig} {req : ClaimRequest} {b : Slot} {α : Type}

theorem sat_ask {α : Type} {o : IntakeAsk} {f : o.Ans → Claiming α} {post : Slot → α → Unit → Prop}
    {err : Slot → UsernamesError → Unit → Prop} (hok : b.Allows o)
    (h : ∀ a, (f a).Sat slots () (b.next ⟨o, a⟩) post err) : (ask o >>= f).Sat slots () b post err :=
  Act.sat_bind.mpr (Act.sat_op.mpr ⟨hok, fun a _ => h a⟩)

/-- Dropping the transaction is of no concern to the slot either. -/
theorem rollback_idles : Idles slots req (ask .rollback) fun _ => True :=
  fun _ => Act.sat_op.mpr ⟨trivial, fun _ _ => ⟨rfl, trivial⟩⟩

theorem txBurn_idles (keyHash : FixedBytes 32) : Idles slots req (ask (.txBurn keyHash)) fun _ => True :=
  fun _ => Act.sat_op.mpr ⟨trivial, fun _ _ => ⟨rfl, trivial⟩⟩

theorem voucherState_idles (keyHash : FixedBytes 32) :
    Idles slots req (ask (.voucherState keyHash)) fun _ => True :=
  fun _ => Act.sat_op.mpr ⟨trivial, fun _ _ => ⟨rfl, trivial⟩⟩

/-! ### The gates -/

/-- Where Widevine is enforced, no iOS client sends evidence that verifies. -/
def PlatformsDisjoint (ext : GateExt) (config : GateConfig) (req : ClaimRequest) : Prop :=
  ∀ cfg, config.widevine = some cfg → cfg.enforce = true → req.platform = some "ios" →
    ¬ EvidenceVerifies ext config cfg req

/-- Authentication is enforced, and there is a client for Apple. -/
structure HardMode (config : GateConfig) : Prop where
  enforced : config.enforceAuth = true
  client : config.deviceCheck = true

/-- What the DeviceCheck gate hands over in hard mode, and what is then known of the slot. -/
theorem deviceCheckGate_sat (hhard : HardMode config) :
    (deviceCheckGate config req).Sat slots () Slot.start (fun b x _ => match x with
      | none => True
      | some (none, _) => b = Slot.start
      | some (some token, _) =>
          req.platform = some "ios" ∧ b = { Slot.start with query := some (token, .ok false) })
      (Excused req) := by
  unfold deviceCheckGate
  rw [hhard.client, hhard.enforced]
  split
  · next hios =>
    have hplatform : req.platform = some "ios" := by simpa using hios
    cases htoken : deviceTokenBytes req with
    | none => exact Act.sat_fail.mpr fun _ => htoken
    | some token =>
      simp only [evaluate, Act.sat_bind, Act.sat_pure]
      refine Act.sat_op.mpr ⟨⟨rfl, Or.inl rfl⟩, fun used _ => ?_⟩
      cases used with
      | error e => exact Act.sat_fail.mpr (by rintro ⟨⟩)
      | ok used =>
        cases used with
        | true => trivial
        | false => exact ⟨hplatform, rfl⟩
  · exact rfl

/-! ### The reservation -/

/-- The slot of a claim that Apple was not asked about, with nothing gone wrong yet. -/
structure Unasked (b : Slot) : Prop where
  open_ : b.done = false
  sound : b.failed = false
  token : b.token = none

variable {new : NewReservation} {group : Option Nat}

theorem Unasked.inserted (hb : Unasked b) (new : NewReservation) (group : Option Nat) {id : Nat}
    {reply : Reply (Except Db.InsertError Nat)} (hreply : reply = .ok (.ok id)) :
    Unasked (b.next ⟨.txInsert new group, reply⟩) :=
  ⟨hb.open_, by simp [Slot.next, hb.sound, hreply, Reply.conflicts], hb.token⟩

theorem Unasked.allows_commit (hb : Unasked b) : b.Allows .commit :=
  ⟨hb.open_, hb.sound, fun _ htoken => by cases hb.token.symm.trans htoken⟩

theorem reserveWithDevice_sat (hb : Unasked b) {hmac : FixedBytes 32} :
    (reserveWithDevice new group hmac).Sat slots () b Anyhow (Excused req) := by
  unfold reserveWithDevice
  refine sat_ask trivial fun begun => ?_
  replace hb : Unasked (b.next ⟨.begin, begun⟩) := ⟨hb.open_, hb.sound, hb.token⟩
  refine sat_persist fun _ _ => ?_
  refine sat_ask hb.open_ fun inserted => ?_
  refine sat_txPersist trivial fun out hout => ?_
  cases out with
  | error e => cases e <;> exact sat_abort trivial nofun
  | ok id =>
    refine sat_ask trivial fun pending => ?_
    refine sat_txPersist trivial fun out _ => ?_
    cases out with
    | error e => cases e; exact rollback_idles.sat_bind fun _ _ => trivial
    | ok _ =>
      refine sat_ask (hb.inserted new group hout).allows_commit fun reply => ?_
      exact sat_persist fun _ _ => trivial

theorem reservePlain_sat (hb : Unasked b) :
    (reservePlain new group).Sat slots () b Anyhow (Excused req) := by
  unfold reservePlain
  refine sat_ask ⟨hb.open_, hb.sound, hb.token⟩ fun inserted => ?_
  refine sat_persist fun out _ => ?_
  cases out with
  | ok id => trivial
  | error e => cases e <;> exact nofun

/-- The lock is taken, Apple says the slot is free, the row is inserted and the mark is accepted
    before the commit; whatever goes wrong before ends the claim. -/
theorem reserveWithMark_sat {token : Bytes} : (reserveWithMark new token group).Sat slots ()
      { Slot.start with query := some (token, .ok false) } Anyhow (Excused req) := by
  unfold reserveWithMark
  refine sat_ask trivial fun begun => ?_
  refine sat_persist fun _ _ => ?_
  refine sat_ask trivial fun locked => ?_
  refine sat_txPersist trivial fun _ hlocked => ?_
  subst hlocked
  refine sat_ask ⟨rfl, Or.inr ⟨rfl, rfl⟩⟩ fun used => ?_
  cases used with
  | error e => exact sat_abort trivial nofun
  | ok used =>
    cases used with
    | true => exact rollback_idles.sat_bind fun _ _ => trivial
    | false =>
      refine sat_ask rfl fun inserted => ?_
      refine sat_txPersist trivial fun out hout => ?_
      subst hout
      cases out with
      | error e => cases e <;> exact sat_abort trivial nofun
      | ok id =>
        refine sat_ask ⟨rfl, rfl, rfl, by simp [Slot.next, isFree, Slot.token]⟩ fun accepted => ?_
        cases accepted with
        | error e => exact sat_abort trivial nofun
        | ok _ =>
          refine sat_ask ⟨rfl, rfl, fun t _ => ⟨rfl, ?_, ?_⟩⟩ fun reply => ?_
          · simp [Slot.next, isFree, Slot.token]
          · simp [Slot.next, isErr, Slot.token]
          · exact sat_persist fun _ _ => trivial

/-! ### The handler -/

theorem redeemAndReserve_sat (hb : Unasked b) {keyHash : FixedBytes 32} :
    (redeemAndReserve keyHash new).Sat slots () b Anyhow (Excused req) := by
  unfold redeemAndReserve
  refine sat_ask trivial fun begun => ?_
  replace hb : Unasked (b.next ⟨.begin, begun⟩) := ⟨hb.open_, hb.sound, hb.token⟩
  refine sat_persist fun _ _ => ?_
  refine (txBurn_idles keyHash).sat_bind fun burned _ => ?_
  refine sat_txPersist trivial fun out _ => ?_
  cases out with
  | false =>
    refine rollback_idles.sat_bind fun _ _ => ?_
    refine (voucherState_idles keyHash).sat_bind fun _ _ => ?_
    exact sat_persist fun _ _ => nofun
  | true =>
    simp only [if_true]
    refine sat_ask hb.open_ fun inserted => ?_
    refine sat_txPersist trivial fun out hout => ?_
    cases out with
    | error e => cases e <;> exact sat_abort trivial nofun
    | ok id =>
      refine sat_ask (hb.inserted new none hout).allows_commit fun reply => ?_
      exact sat_persist fun _ _ => trivial

theorem registerWithVoucher_sat (hb : Unasked b) {keyHash : FixedBytes 32} :
    (registerWithVoucher keyHash new).Sat slots () b Anyhow (Excused req) := by
  refine (voucherState_idles keyHash).sat_bind fun state _ => ?_
  refine idles_orInternal.sat_bind fun state _ => ?_
  cases hdecide : decideVoucher state with
  | error reason => exact nofun
  | ok _ =>
    simp only
    exact (redeemAndReserve_sat hb).then (fun _ _ _ _ => trivial)

theorem registerStandard_sat (hhard : HardMode config)
    (hdisjoint : PlatformsDisjoint ext config req) {body : Json} (hbody : req.body = some body) :
    (registerStandard ext config req new body).Sat slots () Slot.start Anyhow (Excused req) := by
  refine (widevineGate_idles slots_passive hbody).sat_bind fun gate hgate => ?_
  cases gate with
  | ineligible => trivial
  | proceed device =>
    refine (deviceCheckGate_sat hhard).then ?_
    rintro b (_ | ⟨_ | token, available⟩) _ h
    · trivial
    · obtain rfl : b = Slot.start := h
      refine (queueGroup_idles slots_passive req.subject).sat_bind fun group _ => ?_
      rw [Act.sat_bind]
      have hplain : (reserve new none group device).Sat slots () Slot.start Anyhow (Excused req) := by
        cases device with
        | none => exact reservePlain_sat ⟨rfl, rfl, rfl⟩
        | some hmac => exact reserveWithDevice_sat ⟨rfl, rfl, rfl⟩
      refine hplain.weaken ?_
      rintro _ (_ | _) _ _ <;> trivial
    · obtain ⟨hios, rfl⟩ := h
      -- evidence that verified and a token that was let through do not come together
      obtain rfl : device = none := by
        cases device with
        | none => rfl
        | some hmac =>
          obtain ⟨cfg, hcfg, he, hverifies⟩ := hgate hmac rfl
          exact absurd hverifies (hdisjoint cfg hcfg he hios)
      refine (queueGroup_idles slots_passive req.subject).sat_bind fun group _ => ?_
      refine (reserveWithMark_sat).then ?_
      rintro _ (_ | _) _ _ <;> trivial

/-- A claim in hard mode keeps to what a slot allows. -/
theorem register_sat (hhard : HardMode config)
    (hdisjoint : PlatformsDisjoint ext config req) :
    (register ext config req).Sat slots () Slot.start Anyhow (Excused req) := by
  refine (prepare_idles slots_passive).sat_bind fun x hbody => ?_
  obtain ⟨new, voucher, value⟩ := x
  cases voucher with
  | some key => exact registerWithVoucher_sat ⟨rfl, rfl, rfl⟩
  | none => exact registerStandard_sat hhard hdisjoint hbody

end Program

end DeviceUniqueness
