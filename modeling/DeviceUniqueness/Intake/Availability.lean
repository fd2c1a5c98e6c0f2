import DeviceUniqueness.Intake.Machine
import DeviceUniqueness.Intake.Rules

/-! `POST /api/v1/usernames/available`, and what registration makes of its answers.

    The read path has its own test of a base and its own verdict on what is free; the write path parses
    the name and the discriminator with types of its own, draws a discriminator, and writes it into the
    outbox as text that both paths read back. They speak of one language and of one pool. -/

namespace DeviceUniqueness

open Schemes

/-! ### The read path -/

def minBaseLen : Nat := 6

/-- The rule for a base: lowercase letters, 6 to 29 of them. -/
def isValidBase (base : String) : Bool :=
  minBaseLen ≤ (utf8 base).length && (utf8 base).length ≤ maxBaseLen &&
    (utf8 base).all isAsciiLowercase

inductive AvailabilityStatus where
  | available
  | exhausted
  | invalid
  deriving DecidableEq, Repr

structure NameAvailability where
  status : AvailabilityStatus
  availableDigits : Option (List Nat)
  deriving DecidableEq, Repr

def BaseState.rejectsReservations (state : BaseState) : Bool := state.reservation.rejects

/-- The verdict on a base, given everything that was read about it. -/
def availabilityOf (state : BaseState) : NameAvailability :=
  let digits := availableDigits state.taken
  if digits.isEmpty || state.rejectsReservations then ⟨.exhausted, none⟩
  else ⟨.available, some digits⟩

def availabilityFor (base : String) : Claiming NameAvailability :=
  if !isValidBase base then pure ⟨.invalid, none⟩
  else do return availabilityOf (← baseStateAt base)

/-! ### One language -/

variable {base : String} {taken : List Nat} {d : Nat}

theorem isValidBase_iff :
    isValidBase base = true ↔ ∃ name, RegisterRequest.checkUsername base = .ok name := by
  have hok : (RegisterRequest.checkUsername base).isOk = isValidBase base := isOk_bounded ..
  rw [← hok]
  cases RegisterRequest.checkUsername base with
  | error why | ok name => simp [Except.isOk, Except.toBool]

/-- A run of a handler, given what it asked for, ends with the answer. -/
def Returns {α : Type} (m : Claiming α) (t : List (Ev IntakeWorld)) (x : α) : Prop :=
  Prog.Trace (m ()) t (some (.ok x, ()))

theorem availabilityOf_ne_invalid (state : BaseState) : (availabilityOf state).status ≠ .invalid := by
  unfold availabilityOf
  dsimp only
  split <;> exact nofun

/-- Of a base that is valid the check goes on to read the state, and answers with its verdict. -/
theorem answers_of_valid {t : List (Ev IntakeWorld)} {answer : NameAvailability}
    (hvalid : isValidBase base = true) (h : Returns (availabilityFor base) t answer) :
    ∃ state, Returns (baseStateAt base) t state ∧ answer = availabilityOf state := by
  unfold Returns availabilityFor at h
  rw [hvalid] at h
  cases h with
  | call chain h =>
    cases chain with
    | error e => cases h
    | ok chain =>
      cases h with
      | call pending h =>
        cases pending with
        | ok pending =>
          cases h
          exact ⟨_, .call _ (.call _ (.ret _)), rfl⟩
        | lost _ e | refused e => cases h

/-- Every base is answered, and a base as invalid just if it is. -/
theorem availabilityFor_answers (base : String) :
    (∃ t answer, Returns (availabilityFor base) t answer) ∧
    ∀ t answer, Returns (availabilityFor base) t answer →
      (answer.status ≠ .invalid ↔ isValidBase base = true) ∧
      (answer.status ≠ .invalid →
        ∃ state, Returns (baseStateAt base) t state ∧ answer = availabilityOf state) := by
  cases hvalid : isValidBase base with
  | false =>
    have hinvalid : availabilityFor base = pure ⟨.invalid, none⟩ := by
      rw [availabilityFor, hvalid]
      rfl
    rw [hinvalid]
    refine ⟨⟨[], _, .ret _⟩, fun t answer h => ?_⟩
    cases h
    simp
  | true =>
    let free : BaseState := ⟨[], false, 0, 1⟩
    refine ⟨⟨[⟨.chainBaseState base, .ok free⟩, ⟨.allocatedDiscriminators base, .ok []⟩],
      availabilityOf free, ?_⟩, fun t answer h => ?_⟩
    · unfold Returns availabilityFor
      rw [hvalid]
      exact .call _ (.call _ (.ret _))
    · obtain ⟨state, hstate, rfl⟩ := answers_of_valid hvalid h
      have hne := availabilityOf_ne_invalid state
      exact ⟨iff_of_true hne rfl, fun _ => ⟨state, hstate, rfl⟩⟩

/-! ### One pool -/

theorem mem_availableDigits : d ∈ availableDigits taken ↔ (1 ≤ d ∧ d ≤ 99) ∧ d ∉ taken := by
  rw [availableDigits, List.mem_filter, List.mem_range'_1, decide_eq_true_eq]
  refine and_congr_left fun _ => ?_
  omega

/-- The text of a discriminator of the pool is the one that is parsed as it. -/
theorem tryFrom_twoDigits :
    (∃ preferred, PreferredDigits.tryFrom (twoDigits d) = .ok preferred ∧ preferred.digits = d) ↔
      1 ≤ d ∧ d ≤ 99 := by
  constructor
  · rintro ⟨preferred, -, rfl⟩
    exact preferred.inPool
  · intro hd
    have hall : ∀ d < 100, 1 ≤ d →
        ((PreferredDigits.tryFrom (twoDigits d)).toOption.map PreferredDigits.digits) = some d := by
      decide +kernel
    have hparsed := hall d (by omega) hd.1
    cases htry : PreferredDigits.tryFrom (twoDigits d) with
    | error why =>
      rw [htry] at hparsed
      cases hparsed
    | ok preferred =>
      rw [htry] at hparsed
      exact ⟨preferred, rfl, Option.some.inj hparsed⟩

theorem selectDigit_preferred {rng : Nat} :
    selectDigit taken (some d) base rng = .ok d ↔ d ∉ taken := by
  unfold selectDigit
  by_cases hd : d ∈ taken
  · simp [hd]
  · simp [hd]

/-- While something is free, a draw takes it. -/
theorem selectDigit_draw (hfree : availableDigits taken ≠ []) (base : String) (rng : Nat) :
    ∃ d ∈ availableDigits taken, selectDigit taken none base rng = .ok d := by
  have hlt : rng % (availableDigits taken).length < (availableDigits taken).length :=
    Nat.mod_lt _ (List.length_pos_iff.mpr hfree)
  refine ⟨(availableDigits taken)[rng % (availableDigits taken).length], List.getElem_mem hlt, ?_⟩
  simp only [selectDigit, List.getElem?_eq_getElem hlt]

theorem availabilityOf_eq_available {state : BaseState} {digits : List Nat}
    (h : availabilityOf state = ⟨.available, some digits⟩) :
    digits = availableDigits state.taken ∧ digits ≠ [] ∧ state.reservation.rejects = false := by
  unfold availabilityOf at h
  dsimp only at h
  split at h
  · cases h
  · next hfree =>
    cases h
    simpa [BaseState.rejectsReservations] using hfree

/-- A claim on the bare base goes by the state that was read with it. -/
theorem checkReservation_base {parsed : ParsedRegister} {state : BaseState}
    (hreserved : reservedName parsed = some parsed.username)
    (hrejects : state.reservation.rejects = false) : checkReservation parsed state = pure () := by
  unfold checkReservation reservationStateOf
  rw [hreserved]
  dsimp only
  rw [if_pos rfl]
  change (if state.reservation.rejects = true then _ else (pure () : Claiming Unit)) = _
  rw [hrejects]
  rfl

/-! ### The text in the outbox -/

theorem parseU8_twoDigits (hd : d ≤ 99) : Db.parseU8 (twoDigits d) = some d := by
  have hall : ∀ d < 100, Db.parseU8 (twoDigits d) = some d := by decide +kernel
  exact hall d (by omega)

/-- The check answers every base, and in every run that of an invalid one exactly if registration does
    not take the base, else with its verdict on the state it read. What it reports as available are the
    discriminators a claim can ask for and get; a claim that asks for none gets one of them, and one
    that reserves the bare base passes. The discriminator of any claim is read back from the outbox. -/
theorem availability_and_registration_agree :
    (∀ base, (∃ t answer, Returns (availabilityFor base) t answer) ∧
      ∀ t answer, Returns (availabilityFor base) t answer →
        (answer.status ≠ .invalid ↔ ∃ name, RegisterRequest.checkUsername base = .ok name) ∧
        (answer.status ≠ .invalid →
          ∃ state, Returns (baseStateAt base) t state ∧ answer = availabilityOf state)) ∧
    (∀ state digits, availabilityOf state = ⟨.available, some digits⟩ →
      (∀ d, d ∈ digits ↔
        (∃ preferred, PreferredDigits.tryFrom (twoDigits d) = .ok preferred ∧
          preferred.digits = d) ∧
        ∀ base rng, selectDigit state.taken (some d) base rng = .ok d) ∧
      (∀ base rng, ∃ d ∈ digits, selectDigit state.taken none base rng = .ok d) ∧
      ∀ parsed, reservedName parsed = some parsed.username →
        checkReservation parsed state = pure ()) ∧
    ∀ taken (preferred : Option PreferredDigits) base rng d,
      selectDigit taken (preferred.map PreferredDigits.digits) base rng = .ok d →
        Db.parseU8 (twoDigits d) = some d := by
  refine ⟨fun base => ?_, fun state digits h => ?_, fun taken preferred base rng d h => ?_⟩
  · rw [← isValidBase_iff]
    exact availabilityFor_answers base
  · obtain ⟨rfl, hfree, hrejects⟩ := availabilityOf_eq_available h
    refine ⟨fun d => ?_, selectDigit_draw hfree, fun parsed hreserved => ?_⟩
    · rw [mem_availableDigits, tryFrom_twoDigits]
      simp only [selectDigit_preferred, forall_const]
    · exact checkReservation_base hreserved hrejects
  · have hrange := selectDigit_range (fun d hd => ?_) h
    · exact parseU8_twoDigits hrange.2
    · obtain ⟨p, -, rfl⟩ := Option.map_eq_some_iff.mp hd
      exact p.inPool

end DeviceUniqueness
