import DeviceUniqueness.Chain.Messages
import DeviceUniqueness.Schemes.Delimited

/-! The signed messages determine what is signed.

    The fields of a reservation message are delimited, whatever follows them: accounts and the time
    have one width, and a byte string comes behind its length, whose encoding shows its own width in
    the two low bits of its first byte. -/

namespace DeviceUniqueness

open Schemes

/-! ### SCALE -/

theorem length_littleEndian (width n : Nat) : (littleEndian width n).length = width := by
  induction width generalizing n with
  | zero => rfl
  | succ width ih => rw [littleEndian, List.length_cons, ih]

theorem littleEndian_inj {width : Nat} : ∀ {n m : Nat}, n < 256 ^ width → m < 256 ^ width →
    littleEndian width n = littleEndian width m → n = m := by
  induction width with
  | zero =>
    intro n m hn hm _
    rw [Nat.lt_one_iff.mp hn, Nat.lt_one_iff.mp hm]
  | succ width ih =>
    intro n m hn hm h
    obtain ⟨hlow, hhigh⟩ := List.cons.inj h
    have hdiv : n / 256 = m / 256 := by
      refine ih ?_ ?_ hhigh
      · exact Nat.div_lt_of_lt_mul (by rwa [Nat.pow_succ, Nat.mul_comm] at hn)
      · exact Nat.div_lt_of_lt_mul (by rwa [Nat.pow_succ, Nat.mul_comm] at hm)
    have hmod : n % 256 = m % 256 := by simpa using congrArg UInt8.toNat hlow
    rw [← Nat.div_add_mod n 256, ← Nat.div_add_mod m 256, hdiv, hmod]

def modeWidth : Nat → Nat
  | 0 => 1
  | 1 => 2
  | 2 => 4
  | _ => 5

/-- The width of a compact number, which the two low bits of its first byte show. -/
def compactWidth (first : UInt8) : Nat := modeWidth (first.toNat % 4)

theorem compactWidth_ofNat (n : Nat) : compactWidth (UInt8.ofNat n) = modeWidth (n % 4) := by
  have hlow : (UInt8.ofNat n).toNat % 4 = n % 4 := by
    rw [UInt8.toNat_ofNat']
    omega
  rw [compactWidth, hlow]

theorem scaleCompact_width (n : Nat) : ∃ first, (scaleCompact n).head? = some first ∧
    (scaleCompact n).length = compactWidth first := by
  have h0 : 4 * n % 4 = 0 := by omega
  have h1 : (4 * n + 1) % 4 = 1 := by omega
  have h2 : (4 * n + 2) % 4 = 2 := by omega
  unfold scaleCompact
  split
  · exact ⟨_, rfl, by rw [compactWidth_ofNat, h0]; rfl⟩
  split
  · exact ⟨_, rfl, by rw [compactWidth_ofNat, h1]; rfl⟩
  split
  · exact ⟨_, rfl, by rw [compactWidth_ofNat, h2]; rfl⟩
  · exact ⟨3, rfl, rfl⟩

theorem scaleCompact_inj {n m : Nat} (hn : n < 2 ^ 32) (hm : m < 2 ^ 32)
    (h : scaleCompact n = scaleCompact m) : n = m := by
  -- numbers of different modes have different widths
  have hlen := congrArg List.length h
  unfold scaleCompact at h hlen
  split_ifs at h hlen <;> simp [length_littleEndian] at hlen
  · have := littleEndian_inj (show 4 * n < 256 ^ 1 by omega) (show 4 * m < 256 ^ 1 by omega) h
    omega
  · have := littleEndian_inj (show 4 * n + 1 < 256 ^ 2 by omega)
      (show 4 * m + 1 < 256 ^ 2 by omega) h
    omega
  · have := littleEndian_inj (show 4 * n + 2 < 256 ^ 4 by omega)
      (show 4 * m + 2 < 256 ^ 4 by omega) h
    omega
  · exact littleEndian_inj hn hm (List.cons.inj h).2

theorem delimited_scaleCompact : Delimited {n | n < 2 ^ 32} scaleCompact :=
  .of_head (fun n _ => scaleCompact_width n) fun _ hn _ hm => scaleCompact_inj hn hm

theorem delimited_scaleBytes : Delimited {bs | bs.length < 2 ^ 32} scaleBytes :=
  delimited_scaleCompact.counted

theorem delimited_scaleOption :
    Delimited {label | ∀ bs ∈ label, bs.length < 2 ^ 32} scaleOption := by
  have h : Delimited {label | ∀ bs ∈ label, bs.length < 2 ^ 32} fun label : Option Bytes =>
      label.elim [(0 : UInt8)] fun bs => 1 :: scaleBytes bs :=
    delimited_scaleBytes.optional (by decide)
  have heq : scaleOption = fun label => label.elim [(0 : UInt8)] fun bs => 1 :: scaleBytes bs := by
    funext label
    cases label <;> rfl
  exact heq ▸ h

/-! ### The messages -/

/-- What a candidate signs to authorise a reservation. -/
structure ReservationTerms where
  candidate : Account
  attester : Account
  usernameBase : Bytes
  chatKey : Bytes
  reservedBaseLabel : Option Bytes
  signedAt : UInt64
  base_fits : usernameBase.length < 2 ^ 30
  key_fits : chatKey.length < 2 ^ 30
  label_fits : ∀ label ∈ reservedBaseLabel, label.length < 2 ^ 30

def ReservationTerms.message (terms : ReservationTerms) : Bytes :=
  reservationMessage terms.candidate terms.attester terms.usernameBase terms.chatKey
    terms.reservedBaseLabel terms.signedAt.toNat

theorem delimited_account : Delimited Set.univ (Subtype.val : Account → Bytes) :=
  .of_width (fun account _ => account.2) Subtype.val_injective.injOn

theorem reservationTerms_of_message {terms terms' : ReservationTerms}
    (h : terms.message = terms'.message) : terms = terms' := by
  obtain ⟨candidate, attester, base, key, label, signedAt, hbase, hkey, hlabel⟩ := terms
  obtain ⟨candidate', attester', base', key', label', signedAt', hbase', hkey', hlabel'⟩ := terms'
  simp only [ReservationTerms.message, reservationMessage, List.append_assoc] at h
  have hwide : ∀ {n : Nat}, n < 2 ^ 30 → n < 2 ^ 32 := by omega
  obtain ⟨hcandidate, h⟩ := delimited_account trivial trivial (List.append_cancel_left h)
  obtain ⟨hattester, h⟩ := delimited_account trivial trivial h
  obtain ⟨hbases, h⟩ := delimited_scaleBytes (hwide hbase) (hwide hbase') h
  obtain ⟨hkeys, h⟩ := delimited_scaleBytes (hwide hkey) (hwide hkey') h
  obtain ⟨hlabels, h⟩ := delimited_scaleOption (fun bs hbs => hwide (hlabel bs hbs))
    (fun bs hbs => hwide (hlabel' bs hbs)) h
  have htimes := UInt64.toNat_inj.mp (littleEndian_inj signedAt.toNat_lt signedAt'.toNat_lt h)
  subst hcandidate hattester hbases hkeys hlabels htimes
  rfl

/-- A signed message determines its arguments, whether there is a reserved label, and which of the two
    messages it is. -/
theorem signed_messages_unambiguous :
    Function.Injective ReservationTerms.message ∧
    (∀ (label : Bytes) (r s : Bytes), scaleOption none ++ r ≠ scaleOption (some label) ++ s) ∧
    (∀ candidate candidate' ring ring',
      candidateMessage candidate ring = candidateMessage candidate' ring' →
        candidate = candidate' ∧ ring = ring') ∧
    ∀ (terms : ReservationTerms) candidate ring,
      terms.message ≠ candidateMessage candidate ring := by
  refine ⟨fun _ _ => reservationTerms_of_message, ?_, ?_, ?_⟩
  · intro label r s h
    exact absurd (List.cons.inj h).1 (by decide)
  · intro candidate candidate' ring ring' h
    rw [candidateMessage, candidateMessage, List.append_assoc, List.append_assoc] at h
    exact delimited_account trivial trivial (List.append_cancel_left h)
  · -- a reservation begins with the length of its prefix, and a registration with a letter
    intro terms candidate ring h
    have hfirst : terms.message.head? = some 100 := rfl
    have hletter : (candidateMessage candidate ring).head? = some 112 := rfl
    rw [h, hletter] at hfirst
    cases hfirst

end DeviceUniqueness
