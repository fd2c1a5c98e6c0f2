import DeviceUniqueness.Intake.Script
import DeviceUniqueness.Intake.Slots

/-! One free registration per iOS device, over every interleaving.

    The lock makes the claims of all devices take turns between asking Apple again and committing.
    A claim that commits has seen the slot free under the lock and has had its mark accepted, and
    the mark stays; so a second claim of the device, which has to ask again under the lock after the
    first one has released it, finds the slot used. -/

namespace DeviceUniqueness

open Schemes

/-! ### What a step does to the lock and to Apple's bits -/

namespace IntakeState

variable {st : IntakeState} {p q : Nat}

theorem tx?_close : (st.close p).tx? q = if q = p then none else st.tx? q := by
  unfold tx? close
  rw [List.find?_filter]
  split
  · next h =>
    rw [List.find?_eq_none]
    intro tx _
    simp [h]
  · next h =>
    congr 1
    funext tx
    by_cases htx : tx.owner = q
    · have : tx.owner ≠ p := fun hp => h (htx.symm.trans hp)
      simp [htx, h]
    · simp [htx]

theorem tx?_opened (h : q ≠ p) : (st.opened p).tx? q = st.tx? q := by
  simp [tx?, opened, Ne.symm h]

theorem tx?_inTx {f : IntakeTx → IntakeTx} (hf : ∀ tx, (f tx).owner = tx.owner) :
    ((st.inTx p f).tx? q).isSome = (st.tx? q).isSome := by
  have howner : ∀ tx, (if tx.owner = p then f tx else tx).owner = tx.owner := by
    intro tx
    split
    · exact hf tx
    · rfl
  simp [tx?, inTx, List.find?_map, howner]

theorem lock_close (h : st.lock = some q) (hq : q ≠ p) : (st.close p).lock = some q := by
  simp [close, h, hq]

theorem lock_of_close (h : (st.close p).lock = some q) : st.lock = some q ∧ q ≠ p := by
  unfold close at h
  simp only at h
  split at h
  · cases h
  · next hne => exact ⟨h, fun hq => hne (hq ▸ h)⟩

theorem slotUsed_mark (d device : Nat) :
    slotUsed ((st.mark device).apple d) = true ↔ slotUsed (st.apple d) = true ∨ d = device := by
  by_cases h : d = device
  · subst h
    simp [mark, slotUsed, BitState.isRegistered]
  · simp [mark, h]

end IntakeState

/-- The ways the lock, the open transactions and Apple's bits can move together. -/
inductive SlotMove (device : Bytes → Nat) (p : Nat) (st : IntakeState) (e : Ev IntakeWorld)
    (st' : IntakeState) : Prop
  | kept (unlocked : e ≠ ⟨.txLock, .ok ()⟩) (unmarked : ∀ token, e ≠ ⟨.registerDevice token, .ok ()⟩)
      (lock : st'.lock = st.lock) (txs : ∀ q, (st'.tx? q).isSome = (st.tx? q).isSome)
      (apple : st'.apple = st.apple)
  | began (event : e.1 = .begin) (lock : st'.lock = st.lock)
      (txs : ∀ q, q ≠ p → (st'.tx? q).isSome = (st.tx? q).isSome) (apple : st'.apple = st.apple)
  | locked (event : e.1 = .txLock) (free : st.lock = none) (lock : st'.lock = some p)
      (txs : ∀ q, st'.tx? q = st.tx? q) (apple : st'.apple = st.apple)
  | closed (event : e.1 = .commit ∨ e.1 = .rollback) (lock : st'.lock = (st.close p).lock)
      (txs : ∀ q, st'.tx? q = (st.close p).tx? q) (apple : st'.apple = st.apple)
  | marked (token : Bytes) (event : e.1 = .registerDevice token)
      (mark : st' = st.mark (device token))

variable {st' : IntakeState} {o : IntakeAsk} {a : o.Ans} {d : Nat} {w : Nat → Option Slot}

theorem SlotMove.of_eq {device : Bytes → Nat} {p : Nat} {st : IntakeState} {e : Ev IntakeWorld}
    (unlocked : e ≠ ⟨.txLock, .ok ()⟩) (unmarked : ∀ token, e ≠ ⟨.registerDevice token, .ok ()⟩)
    (h : st' = st) : SlotMove device p st e st' := by
  subst h
  exact .kept unlocked unmarked rfl (fun _ => rfl) rfl

theorem IntakeAsk.Does.moved {device : Bytes → Nat} {p : Nat} {st : IntakeState}
    (h : IntakeAsk.Does device p st o a st') : SlotMove device p st ⟨o, a⟩ st' := by
  cases o with
  | allocatedDiscriminators base =>
    rcases Reply.Did.cases h with ⟨out, -, heq⟩ | heq <;> exact .of_eq nofun nofun heq
  | voucherState key =>
    rcases Reply.Did.cases h with ⟨out, -, -, heq⟩ | heq <;> exact .of_eq nofun nofun heq
  | deviceSeen hmac =>
    rcases Reply.Did.cases h with ⟨out, -, heq⟩ | heq <;> exact .of_eq nofun nofun heq
  | consumeChallenge challenge =>
    rcases Reply.Did.cases h with ⟨out, -, rfl⟩ | heq
    · unfold IntakeState.consume
      split <;> exact .kept nofun nofun rfl (fun _ => rfl) rfl
    · exact .of_eq nofun nofun heq
  | alreadyUsed token => exact .of_eq nofun nofun h.2
  | registerDevice token =>
    match (a : Except String Unit), h with
    | .ok (), h => exact .marked token rfl h
    | .error e, h =>
      rcases h with heq | hmark
      · exact .of_eq nofun nofun heq
      · exact .marked token rfl hmark
  | insert new group =>
    rcases Reply.Did.cases h with ⟨_ | id, hout⟩ | heq
    · exact .of_eq nofun nofun hout.2
    · obtain ⟨-, db, -, rfl⟩ := hout
      exact .kept nofun nofun rfl (fun _ => rfl) rfl
    · exact .of_eq nofun nofun heq
  | begin =>
    match (a : Reply Unit), h with
    | .ok (), ⟨_, heq⟩ =>
      subst heq
      exact .began rfl rfl (fun q hq => by rw [IntakeState.tx?_opened hq]) rfl
    | .lost _ _, h | .refused _, h => exact .of_eq nofun nofun h
  | txLock =>
    match (a : Reply Unit), h with
    | .ok (), ⟨_, hfree, heq⟩ => subst heq; exact .locked rfl hfree rfl (fun _ => rfl) rfl
    | .lost _ _, ⟨_, hfree, heq⟩ => subst heq; exact .locked rfl hfree rfl (fun _ => rfl) rfl
    | .refused _, h => exact .of_eq nofun nofun h
  | txBurn keyHash =>
    rcases Reply.Did.cases h with ⟨out, tx, -, -, hout⟩ | heq
    · split at hout
      · obtain ⟨-, rfl⟩ := hout
        exact .kept nofun nofun rfl (fun _ => IntakeState.tx?_inTx fun _ => rfl) rfl
      · exact .of_eq nofun nofun hout
    · exact .of_eq nofun nofun heq
  | txInsert new group =>
    rcases Reply.Did.cases h with ⟨_ | id, tx, -, hout⟩ | heq
    · exact .of_eq nofun nofun hout.2
    · obtain ⟨-, -, -, rfl⟩ := hout
      exact .kept nofun nofun rfl (fun _ => IntakeState.tx?_inTx fun _ => rfl) rfl
    · exact .of_eq nofun nofun heq
  | txInsertPending hmac id =>
    rcases Reply.Did.cases h with ⟨(_ | _), -, hout⟩ | heq
    · exact .of_eq nofun nofun hout.2
    · obtain ⟨-, -, rfl⟩ := hout
      exact .kept nofun nofun rfl (fun _ => IntakeState.tx?_inTx fun _ => rfl) rfl
    · exact .of_eq nofun nofun heq
  | commit =>
    match (a : Reply Unit), h with
    | .ok (), ⟨tx, db, _, _, heq⟩ => subst heq; exact .closed (Or.inl rfl) rfl (fun _ => rfl) rfl
    | .lost _ _, ⟨tx, db, _, _, heq⟩ => subst heq; exact .closed (Or.inl rfl) rfl (fun _ => rfl) rfl
    | .refused _, h => subst h; exact .closed (Or.inl rfl) rfl (fun _ => rfl) rfl
  | rollback => subst h; exact .closed (Or.inr rfl) rfl (fun _ => rfl) rfl
  | allow key | signatureForm | nowUtc | chainBaseState base => exact .of_eq nofun nofun h
  | reservationState name | random | revokedSerials => exact .of_eq nofun nofun h
  | freeBalance account => exact .of_eq nofun nofun h

/-! ### What a step does to the slot of its claim -/

namespace Slot

variable {b : Slot} {e : Ev IntakeWorld}

theorem next_locked (h : (b.next e).locked = true) :
    e = ⟨.txLock, .ok ()⟩ ∨ b.locked = true ∧ e.1 ≠ .begin := by
  obtain ⟨o, a⟩ := e
  cases o with
  | txLock =>
    cases a with
    | ok out => exact Or.inl rfl
    | lost out err | refused err => cases h
  | begin => cases h
  | alreadyUsed token =>
    simp only [next] at h
    split at h <;> exact Or.inr ⟨h, by simp⟩
  | _ => exact Or.inr ⟨h, by simp⟩

theorem next_marked (h : (b.next e).marked = true) :
    b.marked = true ∧ (b.next e).token = b.token ∨
      ∃ token, e = ⟨.registerDevice token, .ok ()⟩ ∧ (b.next e).token = some token := by
  obtain ⟨o, a⟩ := e
  cases o with
  | alreadyUsed token =>
    cases hq : b.query with
    | none => simp [next, hq] at h
    | some q =>
      simp only [next, hq] at h ⊢
      exact Or.inl ⟨h, by simp [Slot.token, hq]⟩
  | registerDevice token =>
    cases a with
    | ok out =>
      have htoken : b.token = some token := by simpa [next, isErr] using h
      exact Or.inr ⟨token, rfl, htoken⟩
    | error err => simp [next, isErr] at h
  | _ => exact Or.inl ⟨h, rfl⟩

theorem next_cleared (h : (b.next e).cleared = true) :
    e.1 ≠ .txLock ∧ (b.cleared = true ∧ (b.next e).token = b.token ∨
      ∃ token, e = ⟨.alreadyUsed token, .ok false⟩ ∧ (b.next e).token = some token) := by
  obtain ⟨o, a⟩ := e
  cases o with
  | alreadyUsed token =>
    refine ⟨by simp, Or.inr ⟨token, ?_⟩⟩
    cases hq : b.query with
    | none => simp [next, hq] at h
    | some q =>
      simp only [next, hq, Bool.and_eq_true, decide_eq_true_eq] at h ⊢
      rcases a with err | (_ | _)
      · cases h.1
      · exact ⟨rfl, by simpa [Slot.token, hq] using h.2⟩
      · cases h.1
  | begin | txLock => cases h
  | _ => exact ⟨by simp, Or.inl ⟨h, rfl⟩⟩

/-- What has committed does not go wrong any more, and what has gone wrong does not commit. -/
theorem next_once (hok : b.Allows e.1) (h : ¬ (b.done = true ∧ b.failed = true)) :
    ¬ ((b.next e).done = true ∧ (b.next e).failed = true) := by
  obtain ⟨o, a⟩ := e
  cases o with
  | alreadyUsed token =>
    have hdone : (b.next ⟨.alreadyUsed token, a⟩).done = false := by
      simp only [next]
      split <;> exact hok.1
    simp [hdone]
  | registerDevice token => simp [next, hok.1]
  | txInsert new group => simp [next, show b.done = false from hok]
  | insert new group =>
    rcases a with (_ | _) | ⟨_ | _, _⟩ | _
    all_goals simp [next, hok.1, hok.2.1, Reply.conflicts, Reply.inserted]
  | commit => simp [next, hok.2.1]
  | _ => exact h

end Slot

/-! ### The invariant -/

variable {ext : GateExt} {device : Bytes → Nat}

/-- Claims in hard mode, none of them with evidence of a device of the other platform. -/
def HardDisjoint (ext : GateExt) (config : GateConfig) (req : ClaimRequest) : Prop :=
  HardMode config ∧ PlatformsDisjoint ext config req

/-- What holds of the claims under way: one that locked holds the lock for as long as it has a
    transaction, one that was told its mark is accepted has a used slot at Apple, and none has both
    committed and gone wrong. -/
structure SlotInv (device : Bytes → Nat) (st : IntakeState) (w : Nat → Option Slot) : Prop where
  lock : ∀ p b, w p = some b → b.locked = true → (st.tx? p).isSome → st.lock = some p
  marked : ∀ p b, w p = some b → b.marked = true →
    ∃ token, b.token = some token ∧ slotUsed (st.apple (device token)) = true
  once : ∀ p b, w p = some b → ¬ (b.done = true ∧ b.failed = true)

theorem slots_bound (st₀ : IntakeState) :
    Bound (Intake ext device (HardDisjoint ext)) st₀ slots Slot.start where
  boot := by
    rintro p prog ⟨config, req, ⟨hhard, hdisjoint⟩, rfl⟩
    refine Prog.Sat.mono ?_ (register_sat hhard hdisjoint)
    intros
    trivial
  adm _ _ _ _ _ _ _ _ := trivial

theorem SlotMove.used_mono {p : Nat} {st : IntakeState} {e : Ev IntakeWorld}
    (h : SlotMove device p st e st') (hd : slotUsed (st.apple d) = true) :
    slotUsed (st'.apple d) = true := by
  cases h with
  | marked token _ mark =>
    subst mark
    exact (IntakeState.slotUsed_mark _ _).mpr (Or.inl hd)
  | kept _ _ _ _ apple => rwa [apple]
  | began _ _ _ apple => rwa [apple]
  | locked _ _ _ _ apple => rwa [apple]
  | closed _ _ _ apple => rwa [apple]

/-- The lock stays with whoever keeps its transaction. -/
theorem SlotMove.lock_of {p q : Nat} {st : IntakeState} {e : Ev IntakeWorld}
    (h : SlotMove device p st e st') (hheld : (st.tx? q).isSome → st.lock = some q)
    (hbegin : q = p → e.1 ≠ .begin) (htx : (st'.tx? q).isSome) : st'.lock = some q := by
  cases h with
  | kept _ _ lock txs _ =>
    rw [lock]
    exact hheld (txs q ▸ htx)
  | began event lock txs _ =>
    have hq : q ≠ p := fun hq => hbegin hq event
    rw [lock]
    exact hheld (txs q hq ▸ htx)
  | locked _ free _ txs _ =>
    rw [txs q] at htx
    rw [hheld htx] at free
    cases free
  | closed _ lock txs _ =>
    rw [txs q, IntakeState.tx?_close] at htx
    split at htx
    · cases htx
    · next hq =>
      rw [lock]
      exact IntakeState.lock_close (hheld htx) hq
  | marked token _ mark =>
    subst mark
    exact hheld htx

theorem SlotInv.op {st : IntakeState} (hi : SlotInv device st w) {p : Nat} {b : Slot}
    (hb : w p = some b) (hok : b.Allows o) (hdoes : IntakeAsk.Does device p st o a st') :
    SlotInv device st' (Function.update w p (some (b.next ⟨o, a⟩))) := by
  have hmove := hdoes.moved
  constructor
  · intro q c hc hlocked htx
    rcases of_update hc with ⟨rfl, ⟨⟩⟩ | ⟨hne, hc⟩
    · rcases Slot.next_locked hlocked with hevent | ⟨hbl, hbegin⟩
      · -- the lock was just taken
        cases hevent
        obtain ⟨-, -, rfl⟩ := hdoes
        rfl
      · exact hmove.lock_of (hi.lock q b hb hbl) (fun _ => hbegin) htx
    · exact hmove.lock_of (hi.lock q c hc hlocked) (fun h => absurd h hne) htx
  · intro q c hc hmarked
    rcases of_update hc with ⟨rfl, ⟨⟩⟩ | ⟨-, hc⟩
    · rcases Slot.next_marked hmarked with ⟨hbm, htoken⟩ | ⟨token, hevent, htoken⟩
      · obtain ⟨token, hbt, hused⟩ := hi.marked q b hb hbm
        exact ⟨token, htoken.trans hbt, hmove.used_mono hused⟩
      · refine ⟨token, htoken, ?_⟩
        cases hevent
        obtain rfl : st' = st.mark (device token) := hdoes
        exact (IntakeState.slotUsed_mark _ _).mpr (Or.inr rfl)
    · obtain ⟨token, hbt, hused⟩ := hi.marked q c hc hmarked
      exact ⟨token, hbt, hmove.used_mono hused⟩
  · intro q c hc
    rcases of_update hc with ⟨rfl, ⟨⟩⟩ | ⟨-, hc⟩
    · exact Slot.next_once hok (hi.once q b hb)
    · exact hi.once q c hc

theorem SlotInv.subset {st : IntakeState} {w' : Nat → Option Slot} (hi : SlotInv device st w)
    (hw : ∀ p b, w' p = some b → w p = some b ∨ b = Slot.start) : SlotInv device st w' := by
  constructor
  · intro p b hb hlocked
    rcases hw p b hb with h | rfl
    · exact hi.lock p b h hlocked
    · cases hlocked
  · intro p b hb hmarked
    rcases hw p b hb with h | rfl
    · exact hi.marked p b h hmarked
    · cases hmarked
  · intro p b hb
    rcases hw p b hb with h | rfl
    · exact hi.once p b h
    · simp [Slot.start]

theorem SlotInv.close {st : IntakeState} (hi : SlotInv device st w) (p : Nat) :
    SlotInv device (st.close p) w where
  lock q b hb hlocked htx := by
    rw [IntakeState.tx?_close] at htx
    split at htx
    · cases htx
    · next hq => exact IntakeState.lock_close (hi.lock q b hb hlocked htx) hq
  marked := hi.marked
  once := hi.once

theorem SlotInv.env {st : IntakeState} (hi : SlotInv device st w) (e : IntakeEvent) :
    SlotInv device (e.act st) w := by
  cases e with
  | tick d => exact ⟨hi.lock, hi.marked, hi.once⟩
  | connectionLost p => exact hi.close p
  | mint keyHash expiresAt =>
    simp only [IntakeEvent.act]
    split
    · exact hi
    · exact ⟨hi.lock, hi.marked, hi.once⟩
  | others db challenges => exact ⟨hi.lock, hi.marked, hi.once⟩

section Runs

variable {st₀ : IntakeState} {ls : List (Label IntakeWorld IntakeEvent)}
  {s : IntakeSys}

theorem reachable_slotInv (r : Reachable (Intake ext device (HardDisjoint ext)) st₀ ls s) :
    SlotInv device s.st (s.watch slots Slot.start) := by
  refine Reachable.inv (slots_bound st₀) (fun _ st w => SlotInv device st w) ?_ ⟨?_, ?_, ?_, ?_⟩ r
  · exact ⟨nofun, nofun, nofun⟩
  · intro _ _ _ _ _ _ _ _ hi hb hok hdone
    exact hi.op hb hok hdone
  · rintro _ _ e _ _ hi rfl
    exact hi.env e
  · intro _ _ _ _ hi _
    exact hi.subset fun _ _ h =>
      (of_update h).symm.imp And.right fun h => (Option.some.inj h.2).symm
  · rintro _ _ p _ _ hi rfl
    exact (hi.close p).subset fun _ _ h => .inl (of_update_none h).2

/-! ### After a slot was spent -/

/-- The slot of `d` is used, and no claim that holds the lock still takes it for free. -/
structure Spent (device : Bytes → Nat) (d : Nat) (st : IntakeState) (w : Nat → Option Slot) :
    Prop where
  used : slotUsed (st.apple d) = true
  known : ∀ p b, w p = some b → st.lock = some p → b.cleared = true →
    ∀ token, b.token = some token → device token ≠ d

theorem Spent.subset {st : IntakeState} {w' : Nat → Option Slot} (hs : Spent device d st w)
    (hw : ∀ p b, w' p = some b → w p = some b ∨ b = Slot.start) : Spent device d st w' := by
  refine ⟨hs.used, fun p b hb hlock hcleared => ?_⟩
  rcases hw p b hb with h | rfl
  · exact hs.known p b h hlock hcleared
  · cases hcleared

theorem Spent.close {st : IntakeState} (hs : Spent device d st w) (p : Nat) :
    Spent device d (st.close p) w :=
  ⟨hs.used, fun q b hb hlock => hs.known q b hb (IntakeState.lock_of_close hlock).1⟩

theorem Spent.env {st : IntakeState} (hs : Spent device d st w) (e : IntakeEvent) :
    Spent device d (e.act st) w := by
  cases e with
  | tick n => exact ⟨hs.used, hs.known⟩
  | connectionLost p => exact hs.close p
  | mint keyHash expiresAt =>
    simp only [IntakeEvent.act]
    split
    · exact hs
    · exact ⟨hs.used, hs.known⟩
  | others db challenges => exact ⟨hs.used, hs.known⟩

/-- Whoever has the lock after a step had it before, unless it just took it. -/
theorem SlotMove.lock_from {p q : Nat} {st : IntakeState} {e : Ev IntakeWorld}
    (h : SlotMove device p st e st') (hlock : st'.lock = some q) :
    st.lock = some q ∨ q = p ∧ e.1 = .txLock := by
  cases h with
  | kept _ _ lock _ _ | began _ lock _ _ => exact Or.inl (lock ▸ hlock)
  | locked event _ lock _ _ =>
    rw [lock, Option.some.injEq] at hlock
    exact Or.inr ⟨hlock.symm, event⟩
  | closed _ lock _ _ => exact Or.inl (IntakeState.lock_of_close (lock ▸ hlock)).1
  | marked token _ mark =>
    subst mark
    exact Or.inl hlock

theorem Spent.op {st : IntakeState} (hs : Spent device d st w) {p : Nat} {b : Slot}
    (hb : w p = some b) (hdoes : IntakeAsk.Does device p st o a st') :
    Spent device d st' (Function.update w p (some (b.next ⟨o, a⟩))) := by
  have hmove := hdoes.moved
  refine ⟨hmove.used_mono hs.used, fun q c hc hlock hcleared token htoken => ?_⟩
  rcases of_update hc with ⟨rfl, ⟨⟩⟩ | ⟨hne, hc⟩
  · obtain ⟨hevent, hcases⟩ := Slot.next_cleared hcleared
    rcases hcases with ⟨hbc, heq⟩ | ⟨t, hask, ht⟩
    · rcases hmove.lock_from hlock with hl | ⟨-, hl⟩
      · exact hs.known q b hb hl hbc token (heq ▸ htoken)
      · exact absurd hl hevent
    · -- Apple was asked just now, and the slot is used
      cases hask
      obtain rfl : t = token := Option.some.inj (ht.symm.trans htoken)
      rintro rfl
      have hfree := hdoes.1 false rfl
      rw [hs.used] at hfree
      cases hfree
  · rcases hmove.lock_from hlock with hl | ⟨hp, -⟩
    · exact hs.known q c hc hl hcleared token htoken
    · exact absurd hp hne

theorem spent_run {ls' : List (Label IntakeWorld IntakeEvent)} {t : IntakeSys}
    (r : Reachable (Intake ext device (HardDisjoint ext)) st₀ ls s)
    (hs : Spent device d s.st (s.watch slots Slot.start))
    (r' : Run (Intake ext device (HardDisjoint ext)) s ls' t) :
    Spent device d t.st (t.watch slots Slot.start) := by
  refine Run.inv (slots_bound st₀) (fun _ st w => Spent device d st w) ⟨?_, ?_, ?_, ?_⟩ r hs r'
  · intro _ _ _ _ _ _ _ _ hi hb _ hdone
    exact hi.op hb hdone
  · rintro _ _ e _ _ hi rfl
    exact hi.env e
  · intro _ _ _ _ hi _
    exact hi.subset fun _ _ h =>
      (of_update h).symm.imp And.right fun h => (Option.some.inj h.2).symm
  · rintro _ _ p _ _ hi rfl
    exact (hi.close p).subset fun _ _ h => .inl (of_update_none h).2

end Runs

/-! ### Histories -/

/-- What Apple answered about which token. -/
def appleAnswer? : Ev IntakeWorld → Option (Bytes × Except String Bool)
  | ⟨.alreadyUsed token, a⟩ => some (token, a)
  | _ => none

def appleAnswers (h : List (Ev IntakeWorld)) : List (Bytes × Except String Bool) :=
  h.filterMap appleAnswer?

/-- The token a claim was decided on at the gate, and the decision. -/
def gateDecision (h : List (Ev IntakeWorld)) : Option (Bytes × Decision) :=
  (appleAnswers h).head?.map fun (token, a) => (token, decideGate (deviceVerdict a) true)

/-- The insert conflicts, or the mark is rejected. -/
def misfires : Ev IntakeWorld → Bool
  | ⟨.insert .., reply⟩ => reply.conflicts
  | ⟨.txInsert .., reply⟩ => reply.conflicts
  | ⟨.registerDevice _, a⟩ => isErr a
  | _ => false

/-- The insert conflicted, the mark was rejected or asking Apple again failed. -/
def wentWrong (h : List (Ev IntakeWorld)) : Bool :=
  h.any misfires || (appleAnswers h).tail.any fun x => isErr x.2

theorem Slot.next_query (b : Slot) (e : Ev IntakeWorld) :
    (b.next e).query = b.query.or (appleAnswer? e) := by
  obtain ⟨o, a⟩ := e
  cases o with
  | alreadyUsed token => cases hq : b.query <;> simp [next, appleAnswer?, hq]
  | _ => cases hq : b.query <;> simp [next, appleAnswer?, hq]

theorem Slot.next_done (b : Slot) (e : Ev IntakeWorld) :
    (b.next e).done = (b.done || commitsClaim e) := by
  obtain ⟨o, a⟩ := e
  cases o with
  | alreadyUsed token => cases hq : b.query <;> simp [next, commitsClaim, hq]
  | _ => simp [next, commitsClaim]

theorem Slot.next_failed (b : Slot) (e : Ev IntakeWorld) :
    (b.next e).failed =
      (b.failed || (misfires e || b.query.isSome && (appleAnswer? e).any fun x => isErr x.2)) := by
  obtain ⟨o, a⟩ := e
  cases o with
  | alreadyUsed token => cases hq : b.query <;> simp [next, misfires, appleAnswer?, hq]
  | _ => simp [next, misfires, appleAnswer?]

theorem wentWrong_snoc (h : List (Ev IntakeWorld)) (e : Ev IntakeWorld) :
    wentWrong (h ++ [e]) = (wentWrong h ||
      (misfires e || (appleAnswers h).head?.isSome && (appleAnswer? e).any fun x => isErr x.2)) := by
  have hanswers : appleAnswers (h ++ [e]) = appleAnswers h ++ (appleAnswer? e).toList := by
    cases he : appleAnswer? e <;> simp [appleAnswers, he]
  unfold wentWrong
  rw [hanswers]
  cases appleAnswers h with
  | nil => cases appleAnswer? e <;> simp
  | cons x xs => cases appleAnswer? e <;> simp [Bool.or_assoc, Bool.or_comm, Bool.or_left_comm]

/-- The slot of a claim says what happened in its history. -/
structure Slot.Tells (b : Slot) (h : List (Ev IntakeWorld)) : Prop where
  query : b.query = (appleAnswers h).head?
  done : b.done = h.any commitsClaim
  failed : b.failed = wentWrong h
  marked : b.marked = true → ∃ token, b.token = some token ∧ ⟨.registerDevice token, .ok ()⟩ ∈ h

theorem Slot.Tells.snoc {b : Slot} {h : List (Ev IntakeWorld)} (ht : b.Tells h)
    (e : Ev IntakeWorld) : (b.next e).Tells (h ++ [e]) where
  query := by
    rw [next_query, ht.query]
    cases he : appleAnswer? e <;> simp [appleAnswers, he]
  done := by simp [next_done, ht.done]
  failed := by rw [next_failed, wentWrong_snoc, ht.failed, ht.query]
  marked hm := by
    rcases next_marked hm with ⟨hb, heq⟩ | ⟨token, rfl, htoken⟩
    · obtain ⟨token, htoken, hmem⟩ := ht.marked hb
      exact ⟨token, heq.trans htoken, List.mem_append_left _ hmem⟩
    · exact ⟨token, htoken, by simp⟩

theorem Slot.tells (h : List (Ev IntakeWorld)) : (h.foldl Slot.next Slot.start).Tells h := by
  induction h using List.reverseRecOn with
  | nil => exact ⟨rfl, rfl, rfl, nofun⟩
  | append_singleton h e ih =>
    rw [List.foldl_append]
    exact ih.snoc e

/-- Apple let the token through exactly when the gate decided to register the device. -/
theorem Slot.Tells.token_iff {b : Slot} {h : List (Ev IntakeWorld)} (ht : b.Tells h)
    (token : Bytes) : b.token = some token ↔ gateDecision h = some (token, .register) := by
  unfold Slot.token gateDecision
  rw [ht.query]
  match (appleAnswers h).head? with
  | none => simp
  | some (t, .ok false) | some (t, .ok true) => simp [deviceVerdict, decideGate]
  | some (t, .error e) => simp [deviceVerdict, decideGate]

/-! ### One free registration per device -/

/-- The step of `p` commits a claim whose token the gate decided to register. -/
def Grants (s : IntakeSys) (p : Nat) (e : Ev IntakeWorld) (token : Bytes) : Prop :=
  commitsClaim e = true ∧ ∃ h, s.hist p = some h ∧ gateDecision h = some (token, .register)

section Grants

variable {st₀ : IntakeState} {ls : List (Label IntakeWorld IntakeEvent)} {s t : IntakeSys}
  {p : Nat} {e : Ev IntakeWorld} {token : Bytes}

/-- Where a claim stands that is about to be granted. -/
structure Granted (device : Bytes → Nat) (s : IntakeSys) (p : Nat) (token : Bytes) (b : Slot) :
    Prop where
  watch : s.watch slots Slot.start p = some b
  passed : b.token = some token
  cleared : b.cleared = true
  marked : b.marked = true
  lock : s.st.lock = some p
  used : slotUsed (s.st.apple (device token)) = true

theorem Grants.granted (r : Reachable (Intake ext device (HardDisjoint ext)) st₀ ls s)
    (d : Step (Intake ext device (HardDisjoint ext)) s (.op p e) t) (hg : Grants s p e token) :
    ∃ b, Granted device s p token b ∧ t.st.lock = none ∧
      slotUsed (t.st.apple (device token)) = true := by
  obtain ⟨b, hw, hok, hdone, -⟩ := d.op_inv (Reachable.trusted (slots_bound st₀) r)
  obtain ⟨hcommits, h, hh, hgate⟩ := hg
  have hb : b = h.foldl Slot.next Slot.start := by
    simpa [Sys.watch, hh, slots] using hw.symm
  have htoken : b.token = some token := (hb ▸ Slot.tells h).token_iff token |>.mpr hgate
  have hinv := reachable_slotInv r
  obtain ⟨o, a⟩ := e
  cases o with
  | insert new group => exact absurd (hok.2.2.symm.trans htoken) (by simp)
  | commit =>
    obtain ⟨-, -, hready⟩ := hok
    obtain ⟨hlocked, hcleared, hmarked⟩ := hready token htoken
    obtain ⟨tx, db, htx, -, hst⟩ : ∃ tx db, s.st.tx? p = some tx ∧ tx.apply s.st.db = some db ∧
        t.st = s.st.committed p tx db := by
      cases a with
      | ok out | lost out err => exact hdone
      | refused err => cases hcommits
    have hlock := hinv.lock p b hw hlocked (by simp [htx])
    obtain ⟨token', htoken', hused⟩ := hinv.marked p b hw hmarked
    obtain rfl : token' = token := Option.some.inj (htoken'.symm.trans htoken)
    refine ⟨b, ⟨hw, htoken, hcleared, hmarked, hlock, hused⟩, ?_, ?_⟩
    · simp [hst, IntakeState.committed, IntakeState.close, hlock]
    · rw [hst]
      exact hused
  | _ => cases hcommits

/-- In every interleaving of claims, on any number of replicas, in hard mode, where no iOS client
    sends evidence of an Android device that verifies: a claim that the gate decided to register is
    committed only after Apple has accepted the mark for its token, no other claim of that device is
    committed after it, and a claim whose insert conflicted, whose second query failed or whose mark
    was rejected has committed nothing. -/
theorem free_slot_spent_once
    (r : Reachable (Intake ext device (HardDisjoint ext)) st₀ ls s) :
    (∀ p e t token, Step (Intake ext device (HardDisjoint ext)) s (.op p e) t →
      Grants s p e token →
      (∃ h, s.hist p = some h ∧ ⟨.registerDevice token, .ok ()⟩ ∈ h) ∧
      ∀ ls' u q e' v token', Run (Intake ext device (HardDisjoint ext)) t ls' u →
        Step (Intake ext device (HardDisjoint ext)) u (.op q e') v → Grants u q e' token' →
        device token' ≠ device token) ∧
    ∀ p h, s.hist p = some h → wentWrong h = true → h.any commitsClaim = false := by
  constructor
  · intro p e t token d hg
    obtain ⟨b, hb, hfree, hused⟩ := hg.granted r d
    have htells : ∀ h, s.hist p = some h → b.Tells h := by
      intro h hh
      obtain rfl : h.foldl Slot.next Slot.start = b := by simpa [Sys.watch, hh, slots] using hb.watch
      exact Slot.tells h
    constructor
    · obtain ⟨h, hh, -⟩ := hg.2
      obtain ⟨token', htoken', hmem⟩ := (htells h hh).marked hb.marked
      obtain rfl : token' = token := Option.some.inj (htoken'.symm.trans hb.passed)
      exact ⟨h, hh, hmem⟩
    · -- from here on the slot is used, and nobody holds the lock who believes it free
      intro ls' u q e' v token' r' d' hg'
      have hspent : Spent device (device token) t.st (t.watch slots Slot.start) :=
        ⟨hused, fun q c _ hlock => by rw [hfree] at hlock; cases hlock⟩
      have hspent' := spent_run (r.snoc d) hspent r'
      obtain ⟨c, hc, -, -⟩ := hg'.granted ((r.snoc d).append r') d'
      exact hspent'.known q c hc.watch hc.lock hc.cleared token' hc.passed
  · intro p h hh hwrong
    have htells := Slot.tells h
    have honce := (reachable_slotInv r).once p (h.foldl Slot.next Slot.start)
      (by simp [Sys.watch, hh, slots])
    rw [htells.done, htells.failed, hwrong] at honce
    exact Bool.eq_false_iff.mpr fun hdone => honce ⟨hdone, rfl⟩

end Grants

/-! ### An iOS claim with and without evidence of an Android device -/

def attestedChallenge : FixedBytes 32 :=
  ⟨[51, 167, 160, 186, 195, 11, 62, 27, 250, 158, 247, 74, 55, 216, 90, 55, 77, 221, 235, 244, 67,
    150, 134, 38, 163, 28, 9, 243, 155, 83, 166, 244], rfl⟩

/-- The libraries on the claims below: the digests of their inputs are the SHA-256 and HMAC-SHA-256
    ones, and the chain `[010203, 040506]` stands for that of a key attested with that challenge. -/
def evidenceExt : GateExt where
  toExt := devExt
  describe _ := ""
  sha256 m :=
    if m = poudDomain ++ List.replicate 32 9 ++ alice.1 ++ List.replicate 32 4 then attestedChallenge
    else ⟨List.replicate 32 0, length_zeros⟩
  hmacSha256 key m :=
    if key.1 = List.replicate 32 1 ∧ m = utf8 "poud:v1" ++ List.replicate 32 4 then
      ⟨[60, 150, 188, 134, 242, 9, 120, 130, 140, 161, 126, 60, 0, 228, 75, 123, 234, 187, 133, 116,
        62, 104, 20, 31, 135, 72, 107, 111, 59, 30, 47, 247], rfl⟩
    else ⟨List.replicate 32 0, length_zeros⟩
  verifyChain chain params :=
    if chain = [[1, 2, 3], [4, 5, 6]] ∧ params.challenge = attestedChallenge then .ok ()
    else .error "challenge mismatch"

/-- Widevine enforced. -/
def widevineConfig : GateConfig := testConfig (some ⟨true, ⟨List.replicate 32 1, rfl⟩⟩)

def evidenceFields : List (String × Json) :=
  [("attestationChain", .arr [.str "AQID", .str "BAUG"]),
   ("deviceChallenge", .str "CQkJCQkJCQkJCQkJCQkJCQkJCQkJCQkJCQkJCQkJCQk="),
   ("deviceId", .str "BAQEBAQEBAQEBAQEBAQEBAQEBAQEBAQEBAQEBAQEBAQ=")]

/-- The tables once the challenge of the evidence was handed out. -/
def challengedState : IntakeState :=
  { IntakeState.fresh with
    challenges := fun c =>
      if c.1 = List.replicate 32 9 then some ⟨seconds 1760000400, false⟩ else none }

/-- Some mark was accepted. -/
def anyMark (h : List (Ev IntakeWorld)) : Bool :=
  h.any fun
    | ⟨.registerDevice _, a⟩ => !isErr a
    | _ => false

/-- An iOS claim with evidence of an Android device is let through by Apple's gate and committed
    without a mark: the slot of the device is still free. -/
theorem evidence_bypasses_mark :
    ∃ ls s h, Reachable (Intake evidenceExt List.length fun config _ => HardMode config) challengedState ls s ∧
      s.hist 0 = some h ∧ gateDecision h = some ([1], .register) ∧ h.any commitsClaim = true ∧
      anyMark h = false ∧ s.st.db.rows.length = 1 ∧
      slotUsed (s.st.apple (List.length ([1] : Bytes))) = false := by
  obtain ⟨ls, s, hr, ht⟩ :=
    (intakePlayer evidenceExt List.length fun config _ => HardMode config).reaches challengedState
      (.start 0 ⟨(widevineConfig, iosRequest evidenceFields), rfl, rfl⟩ :: goesOn 0 15)
      (fun _ s => (s.hist 0).any (fun h => gateDecision h = some ([1], .register) &&
        h.any commitsClaim && !anyMark h) && s.st.db.rows.length = 1 && !slotUsed (s.st.apple 1))
      (by decide +kernel)
  cases hh : s.hist 0 with
  | none => simp [hh] at ht
  | some h =>
    simp only [hh, Option.any_some, Bool.and_eq_true, decide_eq_true_eq, Bool.not_eq_true'] at ht
    obtain ⟨⟨⟨⟨hgate, hcommit⟩, hmark⟩, hrows⟩, hslot⟩ := ht
    exact ⟨ls, s, h, hr, hh, hgate, hcommit, hmark, hrows, hslot⟩

theorem plain_ios_disjoint : PlatformsDisjoint evidenceExt widevineConfig (iosRequest []) := by
  rintro cfg - - - ⟨body, raw, pubkey, serials, now, verified, hbody, hraw, -⟩
  obtain rfl := Option.some.inj hbody
  cases hraw

/-- Without the evidence the claim is marked before it is committed. -/
theorem free_slot_marked :
    ∃ ls s e t h,
      Reachable (Intake evidenceExt List.length (HardDisjoint evidenceExt)) challengedState ls s ∧
      Step (Intake evidenceExt List.length (HardDisjoint evidenceExt)) s (.op 0 e) t ∧
      Grants s 0 e [1] ∧ s.hist 0 = some h ∧ ⟨.registerDevice [1], .ok ()⟩ ∈ h := by
  let player := intakePlayer evidenceExt List.length (HardDisjoint evidenceExt)
  obtain ⟨ls, s, hr, ht⟩ := player.reaches challengedState
    (.start 0 ⟨(widevineConfig, iosRequest []), ⟨rfl, rfl⟩, plain_ios_disjoint⟩ :: goesOn 0 12)
    (fun _ s => (s.hist 0).any (fun h => gateDecision h = some ([1], .register)) &&
      (player.move s (.op 0 .smooth)).any fun x => (x.1.1.own 0).any commitsClaim)
    (by decide +kernel)
  simp only [Bool.and_eq_true, Option.any_eq_true, decide_eq_true_eq] at ht
  obtain ⟨⟨h, hh, hgate⟩, ⟨⟨⟨l, t⟩, hstep⟩, -, e, hl, hcommit⟩⟩ := ht
  cases l with
  | op p e' =>
    obtain ⟨rfl, rfl⟩ : p = 0 ∧ e' = e := by simpa [Label.own] using hl
    have hgrants : Grants s 0 e' [1] := ⟨hcommit, h, hh, hgate⟩
    obtain ⟨⟨h', hh', hmem⟩, -⟩ := (free_slot_spent_once hr).1 0 e' t [1] hstep hgrants
    exact ⟨ls, s, e', t, h', hr, hstep, hgrants, hh', hmem⟩
  | _ => cases hl

end DeviceUniqueness
