import DeviceUniqueness.Intake.Script

/-! The two readers of the device evidence.

    The request type reads a missing field and an explicit `null` alike, as no value, and reads an
    array by position. `widevine::extract` goes by the keys of the body: a key with `null` is there,
    and an array has no keys. So the readers agree on the bodies of `readersAgree`, and on no other
    body that is decoded. -/

namespace DeviceUniqueness

open Schemes

/-- A field that is there and is not `null`. -/
def hasValue : Option Json → Bool
  | none | some .null => false
  | some _ => true

/-- An object that has none of the keys or a value under one of them; an array that has nothing at
    their places. -/
def readersAgree : Json → Bool
  | .obj entries =>
      let found := [entries.lookup "attestationChain", entries.lookup "deviceChallenge",
        entries.lookup "deviceId"]
      found.all Option.isNone || found.any hasValue
  | .arr items => [items[10]?, items[11]?, items[12]?].all fun found => !hasValue found
  | _ => true

/-! ### The request type -/

variable {α : Type} {x : Option α} {body : Json}

theorem isSome_within {segment : Segment} {decoded : Decoded α}
    (h : within segment (decoded.map some) = .ok x) : x.isSome = true := by
  cases decoded with
  | error => cases h
  | ok y =>
    cases h
    rfl

/-- An optional field is read as a value exactly if it has one. -/
theorem isSome_defaulted {fields : Fields} {name : String} {i : Nat} {read : Json → Decoded α}
    (h : fields.defaulted name i none (Json.asOption read) = .ok x) :
    x.isSome = hasValue (fields.find? name i) := by
  unfold Fields.defaulted at h
  cases hfind : fields.find? name i with
  | none =>
    rw [hfind] at h
    cases h
    rfl
  | some v =>
    rw [hfind] at h
    cases v with
    | null =>
      cases h
      rfl
    | bool | num | str | arr | obj => exact isSome_within h

namespace RegisterRequest

theorem read_evidence {fields : Fields} {request : RegisterRequest}
    (h : read fields = .ok request) :
    request.attestationChain.isSome = hasValue (fields.find? "attestationChain" 10) ∧
      request.deviceChallenge.isSome = hasValue (fields.find? "deviceChallenge" 11) ∧
      request.deviceId.isSome = hasValue (fields.find? "deviceId" 12) := by
  unfold read at h
  obtain ⟨candidateAccountId, -, h⟩ := bind_eq_ok.mp h
  obtain ⟨username, -, h⟩ := bind_eq_ok.mp h
  obtain ⟨preferredDigits, -, h⟩ := bind_eq_ok.mp h
  obtain ⟨candidateSignature, -, h⟩ := bind_eq_ok.mp h
  obtain ⟨ringVrfKey, -, h⟩ := bind_eq_ok.mp h
  obtain ⟨proofOfOwnership, -, h⟩ := bind_eq_ok.mp h
  obtain ⟨consumerRegistrationSignature, -, h⟩ := bind_eq_ok.mp h
  obtain ⟨identifierKey, -, h⟩ := bind_eq_ok.mp h
  obtain ⟨payloadVersion, -, h⟩ := bind_eq_ok.mp h
  obtain ⟨voucher, -, h⟩ := bind_eq_ok.mp h
  obtain ⟨chain, hchain, h⟩ := bind_eq_ok.mp h
  obtain ⟨challenge, hchallenge, h⟩ := bind_eq_ok.mp h
  obtain ⟨deviceId, hdevice, h⟩ := bind_eq_ok.mp h
  obtain ⟨dotns, -, h⟩ := bind_eq_ok.mp h
  cases h
  exact ⟨isSome_defaulted hchain, isSome_defaulted hchallenge, isSome_defaulted hdevice⟩

/-- What a body that is decoded has at the three fields, by key or by place. -/
theorem decode_evidence {describe : SerdeError → String} {request : RegisterRequest}
    (h : decode describe body = .ok request) : (∃ entries, body = .obj entries ∧
      request.attestationChain.isSome = hasValue (entries.lookup "attestationChain") ∧
      request.deviceChallenge.isSome = hasValue (entries.lookup "deviceChallenge") ∧
      request.deviceId.isSome = hasValue (entries.lookup "deviceId")) ∨
    ∃ items, body = .arr items ∧ request.attestationChain.isSome = hasValue items[10]? ∧
      request.deviceChallenge.isSome = hasValue items[11]? ∧
      request.deviceId.isSome = hasValue items[12]? := by
  have hofJson : ofJson body = .ok request := by
    unfold decode at h
    cases hread : ofJson body with
    | error e =>
      rw [hread] at h
      cases h
    | ok r =>
      rw [hread] at h
      cases h
      rfl
  unfold ofJson at hofJson
  cases body with
  | null | bool | num | str => cases hofJson
  | obj entries =>
    obtain ⟨_, -, hread⟩ := bind_eq_ok.mp hofJson
    exact .inl ⟨entries, rfl, read_evidence hread⟩
  | arr items =>
    obtain ⟨r, hread, hlen⟩ := bind_eq_ok.mp hofJson
    split at hlen
    · cases hlen
    · cases hlen
      exact .inr ⟨items, rfl, read_evidence hread⟩

end RegisterRequest

/-! ### The evidence reader -/

theorem hasValue_of_decode32 {field : String} {value : Json} {bytes : FixedBytes 32}
    (h : decode32 field value = .ok bytes) : hasValue (some value) = true := by
  cases value with
  | str => rfl
  | null | bool | num | arr | obj => cases h

/-- Nothing is read of a body without the keys, and evidence only of one with three values. -/
theorem extract_eq_ok {x : Option RawEvidence} (h : extract body = .ok x) :
    (body.get "attestationChain" = none ∧ body.get "deviceChallenge" = none ∧
        body.get "deviceId" = none) ∧ x = none ∨
      (hasValue (body.get "attestationChain") = true ∧
        hasValue (body.get "deviceChallenge") = true ∧ hasValue (body.get "deviceId") = true) ∧
        x.isSome = true := by
  unfold extract at h
  split at h
  · next hchain hchallenge hdevice =>
    cases h
    exact .inl ⟨⟨hchain, hchallenge, hdevice⟩, rfl⟩
  · next chain challenge device hchain hchallenge hdevice =>
    rw [hchain, hchallenge, hdevice]
    refine .inr ?_
    cases chain with
    | null | bool | num | str | obj => cases h
    | arr entries =>
      obtain ⟨_, hentries, h⟩ := bind_eq_ok.mp h
      cases hentries
      simp only at h
      split at h
      · cases h
      obtain ⟨chainDer, -, h⟩ := bind_eq_ok.mp h
      obtain ⟨challenge32, hchallenge32, h⟩ := bind_eq_ok.mp h
      obtain ⟨device32, hdevice32, h⟩ := bind_eq_ok.mp h
      cases h
      exact ⟨⟨rfl, hasValue_of_decode32 hchallenge32, hasValue_of_decode32 hdevice32⟩, rfl⟩
  · cases h

theorem extract_eq_none : extract body = .ok none ↔
    body.get "attestationChain" = none ∧ body.get "deviceChallenge" = none ∧
      body.get "deviceId" = none := by
  constructor
  · intro h
    obtain ⟨hnone, -⟩ | ⟨-, hsome⟩ := extract_eq_ok h
    · exact hnone
    · cases hsome
  · rintro ⟨hchain, hchallenge, hdevice⟩
    rw [extract, hchain, hchallenge, hdevice]

theorem hasValue_of_extract {evidence : RawEvidence} (h : extract body = .ok (some evidence)) :
    hasValue (body.get "attestationChain") = true ∧
      hasValue (body.get "deviceChallenge") = true ∧ hasValue (body.get "deviceId") = true := by
  obtain ⟨-, hnone⟩ | ⟨hvalues, -⟩ := extract_eq_ok h
  · cases hnone
  · exact hvalues

/-! ### Where they agree -/

theorem readersAgree_obj {entries : List (String × Json)} : readersAgree (.obj entries) = true ↔
    (entries.lookup "attestationChain" = none ∧ entries.lookup "deviceChallenge" = none ∧
        entries.lookup "deviceId" = none) ∨
      ¬ (hasValue (entries.lookup "attestationChain") = false ∧
        hasValue (entries.lookup "deviceChallenge") = false ∧
        hasValue (entries.lookup "deviceId") = false) := by
  simp only [readersAgree, List.all_cons, List.all_nil, List.any_cons, List.any_nil, Bool.and_true,
    Bool.or_false, Bool.or_eq_true, Bool.and_eq_true, Option.isNone_iff_eq_none, not_and_or,
    Bool.not_eq_false]

theorem readersAgree_arr {items : List Json} : readersAgree (.arr items) = true ↔
    hasValue items[10]? = false ∧ hasValue items[11]? = false ∧ hasValue items[12]? = false := by
  simp [readersAgree]

theorem eq_none_iff {found : Option Json} (h : x.isSome = hasValue found) :
    x = none ↔ hasValue found = false := by
  rw [← h, Option.isSome_eq_false_iff, Option.isNone_iff_eq_none]

/-- The readers agree on a body that is decoded exactly if it is an object without the keys or with a
    value under one of them, or an array without a value at the three places. -/
theorem evidence_readers_agree_iff {describe : SerdeError → String} {body : Json}
    {request : RegisterRequest} (hdecode : RegisterRequest.decode describe body = .ok request) :
    ((extract body = .ok none ↔ request.attestationChain = none ∧
        request.deviceChallenge = none ∧ request.deviceId = none) ∧
      (∀ evidence, extract body = .ok (some evidence) → request.attestationChain.isSome ∧
        request.deviceChallenge.isSome ∧ request.deviceId.isSome) ∧
      (request.attestationChain = none → request.deviceChallenge = none →
        request.deviceId = none → ∀ why, extract body ≠ .error why)) ↔
      readersAgree body = true := by
  obtain ⟨entries, rfl, hchain, hchallenge, hdevice⟩ | ⟨items, rfl, hchain, hchallenge, hdevice⟩ :=
    RegisterRequest.decode_evidence hdecode
  · have hsome : ∀ evidence, extract (.obj entries) = .ok (some evidence) →
        request.attestationChain.isSome ∧ request.deviceChallenge.isSome ∧
          request.deviceId.isSome := by
      intro evidence h
      rw [hchain, hchallenge, hdevice]
      exact hasValue_of_extract h
    rw [readersAgree_obj, ← eq_none_iff hchain, ← eq_none_iff hchallenge, ← eq_none_iff hdevice]
    constructor
    · rintro ⟨hnone, -, -⟩
      by_cases h : request.attestationChain = none ∧ request.deviceChallenge = none ∧
          request.deviceId = none
      · exact .inl (extract_eq_none.mp (hnone.mpr h))
      · exact .inr h
    · intro hagree
      have hnone : extract (.obj entries) = .ok none ↔ request.attestationChain = none ∧
          request.deviceChallenge = none ∧ request.deviceId = none := by
        constructor
        · intro h
          -- a key that is not there is one without a value
          obtain ⟨h₁, h₂, h₃⟩ := extract_eq_none.mp h
          rw [eq_none_iff hchain, eq_none_iff hchallenge, eq_none_iff hdevice]
          exact ⟨congrArg hasValue h₁, congrArg hasValue h₂, congrArg hasValue h₃⟩
        · intro h
          obtain hkeys | hvalue := hagree
          · exact extract_eq_none.mpr hkeys
          · exact absurd h hvalue
      refine ⟨hnone, hsome, fun h₁ h₂ h₃ why herror => ?_⟩
      rw [hnone.mpr ⟨h₁, h₂, h₃⟩] at herror
      cases herror
  · have hextract : extract (.arr items) = .ok none := extract_eq_none.mpr ⟨rfl, rfl, rfl⟩
    rw [readersAgree_arr, ← eq_none_iff hchain, ← eq_none_iff hchallenge, ← eq_none_iff hdevice]
    constructor
    · rintro ⟨hnone, -, -⟩
      exact hnone.mp hextract
    · intro hagree
      refine ⟨⟨fun _ => hagree, fun _ => hextract⟩, fun evidence h => ?_, fun _ _ _ why h => ?_⟩
      · rw [hextract] at h
        cases h
      · rw [hextract] at h
        cases h

/-- A body with the three fields sent as `null`. -/
def nullEvidence : Json :=
  (aliceBody "07" aliceRingKey aliceSignature).with
    [("attestationChain", .null), ("deviceChallenge", .null), ("deviceId", .null)]

theorem null_evidence_malformed :
    RegisterRequest.decode (fun _ => "") nullEvidence =
        .ok (aliceRequest "07" aliceRingKey aliceSignature) ∧
      (aliceRequest "07" aliceRingKey aliceSignature).attestationChain = none ∧
      (aliceRequest "07" aliceRingKey aliceSignature).deviceChallenge = none ∧
      (aliceRequest "07" aliceRingKey aliceSignature).deviceId = none ∧
      extract nullEvidence =
        .error (.malformed "attestationChain must be an array of strings") :=
  ⟨rfl, rfl, rfl, rfl, rfl⟩

/-- Without the keys both readers read nothing. -/
theorem evidence_readers_agree_absent :
    RegisterRequest.decode (fun _ => "") (aliceBody "07" aliceRingKey aliceSignature) =
        .ok (aliceRequest "07" aliceRingKey aliceSignature) ∧
      extract (aliceBody "07" aliceRingKey aliceSignature) = .ok none :=
  have hdecode := aliceBody_decode "07" aliceRingKey aliceSignature
  ⟨hdecode, ((evidence_readers_agree_iff hdecode).mpr rfl).1.mpr ⟨rfl, rfl, rfl⟩⟩

end DeviceUniqueness
