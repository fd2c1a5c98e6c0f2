import DeviceUniqueness.Intake.Slots
import DeviceUniqueness.Intake.Vouchers

/-! The device token in the header of a claim.

    The header is checked when the claim comes in and decoded when it gets to the DeviceCheck gate. The
    check goes by characters and padding and the decoder by bits too, so a token that was let through
    may turn out to be none, and in hard mode its claim is then told to send one. -/

namespace DeviceUniqueness

open Schemes

/-! ### What the check lets through -/

theorem isSome_base64Value {b : UInt8}
    (h : ((65 ≤ b && b ≤ 90) || (97 ≤ b && b ≤ 122) || (48 ≤ b && b ≤ 57) || b = 43 || b = 47) = true) :
    (base64Value b).isSome = true := by
  unfold base64Value
  grind

theorem padded_of_isBase64 {text : Bytes} (h : isBase64 text = true) (hne : text ≠ []) :
    ∃ core pads, text = core ++ List.replicate pads 61 ∧ Padded core pads := by
  have hpads : text.rtakeWhile (· = 61) =
      List.replicate (text.rtakeWhile (· = 61)).length 61 :=
    List.eq_replicate_iff.mpr ⟨rfl, fun b hb => by simpa using List.mem_rtakeWhile_imp hb⟩
  have htext : text.rdropWhile (· = 61) ++ text.rtakeWhile (· = 61) = text :=
    List.rdropWhile_append_rtakeWhile
  have hlength : (text.rdropWhile (· = 61)).length + (text.rtakeWhile (· = 61)).length =
      text.length := by
    rw [← List.length_append, htext]
  unfold isBase64 at h
  rw [if_neg (by simpa using hne)] at h
  split at h
  · cases h
  · next hgroups =>
    have h : (decide (text.length - (text.rdropWhile (· = 61)).length ≤ 2) &&
      (text.rdropWhile (· = 61)).all _) = true := h
    rw [Bool.and_eq_true, decide_eq_true_eq, List.all_eq_true] at h
    refine ⟨text.rdropWhile (· = 61), _, hpads ▸ htext.symm, ?_, ?_, ?_⟩
    · exact fun b hb => isSome_base64Value (h.2 b hb)
    · omega
    · omega

/-! ### The tokens that are decoded -/

section Accepted

variable {req : ClaimRequest} {raw : Bytes}

theorem headerText_of_accepted (hheader : req.deviceToken = some raw)
    (haccepted : validateDeviceTokenHeader req = .ok ()) :
    headerText raw = some raw ∧ isBase64 raw = true := by
  unfold validateDeviceTokenHeader at haccepted
  simp only [hheader] at haccepted
  by_cases hvisible : raw.all fun b => (32 ≤ b && b < 127) || b = 9
  · have htext : headerText raw = some raw := if_pos hvisible
    rw [htext] at haccepted
    split at haccepted
    · next hbase64 => exact ⟨htext, hbase64⟩
    · cases haccepted
  · have htext : headerText raw = none := if_neg hvisible
    rw [htext] at haccepted
    cases haccepted

theorem deviceTokenBytes_of_accepted (hheader : req.deviceToken = some raw) (hne : raw ≠ [])
    (haccepted : validateDeviceTokenHeader req = .ok ()) :
    deviceTokenBytes req = base64Decode raw := by
  have htext := (headerText_of_accepted hheader haccepted).1
  unfold deviceTokenBytes
  rw [hheader, Option.bind_eq_bind, Option.bind_some, htext]
  exact if_neg (by simpa using hne)

/-- A header that is accepted can be used exactly if its padding loses no bits: its token is then
    decoded and encoded back to the header, and no claim with it is told to send one. -/
theorem accepted_token_usable_iff (hheader : req.deviceToken = some raw) (hne : raw ≠ [])
    (haccepted : validateDeviceTokenHeader req = .ok ()) :
    ((∃ bytes, deviceTokenBytes req = some bytes ∧ base64Encode bytes = raw) ∧
      ∀ ext config, HardMode config →
        ¬ (register ext config req).Fails .deviceTokenRequired) ↔
      spareBitsZero raw = true := by
  obtain ⟨core, pads, hraw, hpadded⟩ :=
    padded_of_isBase64 (headerText_of_accepted hheader haccepted).2 hne
  have hdecode := hpadded.isSome_decode
  rw [← hraw] at hdecode
  rw [← hdecode, ← deviceTokenBytes_of_accepted hheader hne haccepted]
  constructor
  · rintro ⟨⟨bytes, hbytes, -⟩, -⟩
    rw [hbytes, Option.isSome_some]
  · intro hsome
    obtain ⟨bytes, hbytes⟩ := Option.isSome_iff_exists.mp hsome
    refine ⟨⟨bytes, hbytes, base64Encode_of_decode ?_⟩, fun ext config _ => ?_⟩
    · rw [← deviceTokenBytes_of_accepted hheader hne haccepted, hbytes]
    · refine Act.Sat.not_fails (fun _ => register_redeems) (fun _ _ => trivial) fun b s hexcused => ?_
      rw [hexcused rfl] at hbytes
      cases hbytes

end Accepted

/-- The last symbol of `AR==` has a bit to spare: the header is accepted, and the claim is told to send
    a token. -/
theorem spare_bit_token_missing :
    validateDeviceTokenHeader { iosRequest [] with deviceToken := some (utf8 "AR==") } = .ok () ∧
      deviceTokenBytes { iosRequest [] with deviceToken := some (utf8 "AR==") } = none ∧
      HardMode (testConfig none) ∧
      deviceCheckGate (testConfig none)
          { iosRequest [] with deviceToken := some (utf8 "AR==") } =
        Act.fail .deviceTokenRequired := by
  refine ⟨by decide +kernel, by decide +kernel, ⟨rfl, rfl⟩, ?_⟩
  rfl

theorem accepted_token_usable_ios :
    validateDeviceTokenHeader (iosRequest []) = .ok () ∧
      ∃ bytes, deviceTokenBytes (iosRequest []) = some bytes ∧ base64Encode bytes = utf8 "AQ==" :=
  have haccepted : validateDeviceTokenHeader (iosRequest []) = .ok () := by decide +kernel
  ⟨haccepted, ((accepted_token_usable_iff rfl (by decide) haccepted).mpr (by decide +kernel)).1⟩

end DeviceUniqueness
