import DeviceUniqueness.Attest.Chain

/-! The revocation list.

    A certificate is listed under its serial number, which has four usual spellings, in either case.
    The keys of the list are lowercased and a certificate is looked up under three spellings only.
    The fourth, the digits padded to an even number, is always one of the three: with an even number
    of digits there is nothing to pad, and with an odd number the first byte has its high half zero,
    so it needs no sign byte before it. -/

namespace DeviceUniqueness.KeyAttest

open Schemes

/-! ### The list -/

inductive CrlError where
  | fetch (why : String)
  | parse (why : String)
  deriving DecidableEq

/-- JSON, how its errors are worded, and how Unicode lowercases; of the last only what it does to
    ASCII is known. -/
structure CrlExt where
  jsonFromSlice : Bytes → Except String Json
  describe : Bytes → PathError → String
  toLowercase : String → String
  toLowercase_ascii : ∀ s : String, (∀ c ∈ s.toList, c.val < 128) → toLowercase s = s.toLower

def decodeCrlResponse : Json → Decoded (List (String × Json)) :=
  Json.asStruct "CrlResponse" [("entries", shape Json.asMap)] fun fields =>
    fields.required "entries" 0 Json.asMap

def normalize (crl : CrlExt) (entries : List (String × Json)) : List String :=
  (entries.map Prod.fst).map crl.toLowercase

def parseCrl (crl : CrlExt) (body : Bytes) : Except CrlError (List String) := do
  let json ← (crl.jsonFromSlice body).mapError .parse
  let entries ← (decodeCrlResponse json).mapError fun e => .parse (crl.describe body e)
  return normalize crl entries

/-! ### What is listed, and how a serial is spelled -/

/-- The keys of the list; a record is read out of an array too. -/
def listedKeys : Json → List String
  | .obj fields =>
      match fields.lookup "entries" with
      | some (.obj entries) => entries.map Prod.fst
      | _ => []
  | .arr [.obj entries] => entries.map Prod.fst
  | _ => []

/-- Hexadecimal with the least even number of digits. -/
def paddedHex (n : Nat) : String :=
  let digits := Nat.toDigits 16 n
  String.ofList (if digits.length % 2 = 0 then digits else '0' :: digits)

def usualSpellings (n : Nat) : List String :=
  [toStrRadix 10 n, toStrRadix 16 n, paddedHex n, hexLower (derInteger n)]

/-! ### Digits -/

theorem toDigits_byte {d : Nat} (hlow : 16 ≤ d) (hhigh : d < 256) :
    Nat.toDigits 16 d = [Nat.digitChar (d / 16), Nat.digitChar (d % 16)] := by
  rw [Nat.toDigits_of_base_le (by decide) hlow, Nat.toDigits_of_lt_base (by omega)]
  rfl

/-- The last byte of a number is its last two digits. -/
theorem toDigits_append_byte {n : Nat} (hn : 256 ≤ n) : Nat.toDigits 16 n =
    Nat.toDigits 16 (n / 256) ++ [Nat.digitChar (n % 256 / 16), Nat.digitChar (n % 256 % 16)] := by
  have hquot : n / 16 / 16 = n / 256 := by omega
  have hhigh : n / 16 % 16 = n % 256 / 16 := by omega
  have hlow : n % 16 = n % 256 % 16 := by omega
  rw [Nat.toDigits_of_base_le (by decide) (by omega : 16 ≤ n),
    Nat.toDigits_of_base_le (by decide) (by omega : 16 ≤ n / 16), hquot, hhigh, hlow,
    List.append_assoc]
  rfl

theorem hexLower_byte : ∀ d < 256, [hexLower.digit (UInt8.ofNat d / 16),
    hexLower.digit (UInt8.ofNat d % 16)] = [Nat.digitChar (d / 16), Nat.digitChar (d % 16)] := by
  decide +kernel

/-- The bytes of a number are its digits, padded. -/
theorem hexLower_numeral {n : Nat} (hn : 0 < n) :
    hexLower ((numeral 256 n).map UInt8.ofNat) = paddedHex n := by
  unfold hexLower paddedHex
  refine congrArg String.ofList ?_
  induction n using Nat.strong_induction_on with
  | _ n ih =>
    have hlast := hexLower_byte (n % 256) (Nat.mod_lt n (by decide))
    rw [numeral_of_pos (by decide) hn, List.map_append, List.flatMap_append, List.map_singleton,
      List.flatMap_singleton, hlast]
    rcases Nat.lt_or_ge n 256 with hbyte | hbyte
    · -- the first byte
      have hnone : numeral 256 0 = [] := by simp [numeral]
      rw [Nat.div_eq_of_lt hbyte, Nat.mod_eq_of_lt hbyte, hnone]
      rcases Nat.lt_or_ge n 16 with hdigit | hdigit
      · rw [Nat.toDigits_of_lt_base hdigit, Nat.div_eq_of_lt hdigit, Nat.mod_eq_of_lt hdigit]
        rfl
      · simp [toDigits_byte hdigit hbyte]
    · -- a further byte adds two digits, so what is padded stays the same
      rw [ih (n / 256) (by omega) (by omega), toDigits_append_byte hbyte, List.length_append,
        List.length_cons, List.length_singleton, Nat.add_mod_right]
      split_ifs
      · rfl
      · rfl

/-- A byte whose high half is zero. -/
theorem lt_of_digit_zero (b : UInt8) (h : hexLower.digit (b / 16) = '0') : b < 128 := by
  have htable : ∀ n : Fin 256, hexLower.digit (UInt8.ofFin n / 16) = '0' → UInt8.ofFin n < 128 := by
    decide +kernel
  exact htable b.toFin h

/-- Where a digit is padded there is no sign byte. -/
theorem paddedHex_cases {n : Nat} (hn : 0 < n) :
    paddedHex n = toStrRadix 16 n ∨ paddedHex n = hexLower (derInteger n) := by
  have hbytes := hexLower_numeral hn
  by_cases hsign : ((numeral 256 n).map UInt8.ofNat).head?.any (· < 128)
  · rw [derInteger, if_pos hsign]
    exact .inr hbytes.symm
  · refine .inl (congrArg String.ofList (if_pos ?_))
    by_contra hodd
    have hchars := String.ofList_injective (hbytes.trans (congrArg String.ofList (if_neg hodd)))
    cases hdigits : (numeral 256 n).map UInt8.ofNat with
    | nil =>
      rw [hdigits] at hchars
      cases hchars
    | cons b rest =>
      rw [hdigits, List.flatMap_cons] at hchars
      rw [hdigits] at hsign
      have hb := lt_of_digit_zero b (List.head_eq_of_cons_eq hchars)
      exact hsign (by simpa using hb)

/-! ### Case -/

/-- A digit is ASCII and lowercase. -/
theorem digitChar_lower : ∀ d < 16, (Nat.digitChar d).val < 128 ∧
    (Nat.digitChar d).toLower = Nat.digitChar d := by
  decide

theorem mem_toDigits {b : Nat} (hb : 1 < b) {c : Char} {n : Nat} (hc : c ∈ Nat.toDigits b n) :
    ∃ d < b, c = Nat.digitChar d := by
  induction n using Nat.strong_induction_on with
  | _ n ih =>
    rcases Nat.lt_or_ge n b with hlt | hge
    · rw [Nat.toDigits_of_lt_base hlt, List.mem_singleton] at hc
      exact ⟨n, hlt, hc⟩
    · rw [Nat.toDigits_of_base_le hb hge, List.mem_append, List.mem_singleton] at hc
      rcases hc with hc | hc
      · exact ih (n / b) (Nat.div_lt_self (by omega) hb) hc
      · exact ⟨n % b, Nat.mod_lt n (by omega), hc⟩

theorem mem_hexLower {bytes : Bytes} {c : Char} (hc : c ∈ (hexLower bytes).toList) :
    ∃ d < 16, c = Nat.digitChar d := by
  rw [hexLower, String.toList_ofList, List.mem_flatMap] at hc
  obtain ⟨b, -, hc⟩ := hc
  have hbyte := hexLower_byte b.toNat b.toNat_lt
  rw [UInt8.ofNat_toNat] at hbyte
  rw [hbyte, List.mem_cons, List.mem_singleton] at hc
  have hlt := b.toNat_lt
  rcases hc with hc | hc
  · exact ⟨b.toNat / 16, by omega, hc⟩
  · exact ⟨b.toNat % 16, by omega, hc⟩

variable {Name : Type} {cert : Certificate Name}

theorem mem_serialSpellings {text : String} (h : text ∈ serialSpellings cert) {c : Char}
    (hc : c ∈ text.toList) : ∃ d < 16, c = Nat.digitChar d := by
  simp only [serialSpellings, List.mem_cons, List.not_mem_nil, or_false] at h
  rcases h with rfl | rfl | rfl
  · rw [toStrRadix, String.toList_ofList] at hc
    exact mem_toDigits (by decide) hc
  · exact mem_hexLower hc
  · rw [toStrRadix, String.toList_ofList] at hc
    obtain ⟨d, hd, rfl⟩ := mem_toDigits (by decide) hc
    exact ⟨d, by omega, rfl⟩

theorem val_lt_of_toLower {c : Char} (h : c.toLower.val < 128) : c.val < 128 := by
  unfold Char.toLower at h
  split_ifs at h with hupper
  · exact Nat.lt_of_le_of_lt hupper.2 (by decide)
  · exact h

/-- A key in any mix of cases is looked up in the one the certificate's spelling is in. -/
theorem toLowercase_key (crl : CrlExt) {key text : String} (h : text ∈ serialSpellings cert)
    (hcase : key.toLower = text.toLower) : crl.toLowercase key = text := by
  have hlower : text.toLower = text := by
    refine String.toList_inj.mp ?_
    rw [String.toLower, String.toList_map]
    refine (List.map_congr_left fun c hc => ?_).trans (List.map_id _)
    obtain ⟨d, hd, rfl⟩ := mem_serialSpellings h hc
    exact (digitChar_lower d hd).2
  rw [hlower] at hcase
  rw [crl.toLowercase_ascii key, hcase]
  intro c hc
  have hc : c.toLower ∈ text.toList := by
    rw [← hcase, String.toLower, String.toList_map]
    exact List.mem_map_of_mem hc
  obtain ⟨d, hd, heq⟩ := mem_serialSpellings h hc
  refine val_lt_of_toLower ?_
  rw [heq]
  exact (digitChar_lower d hd).1

/-! ### What is revoked -/

/-- A certificate is looked up under every usual spelling of its serial. -/
theorem usualSpellings_subset (hpos : 0 < cert.serial)
    (hraw : cert.rawSerial = derInteger cert.serial) :
    usualSpellings cert.serial ⊆ serialSpellings cert := by
  intro text h
  simp only [usualSpellings, serialSpellings, hraw, List.mem_cons, List.not_mem_nil, or_false] at h ⊢
  rcases paddedHex_cases hpos with hpadded | hpadded
  · rw [hpadded] at h
    tauto
  · rw [hpadded] at h
    tauto

theorem required_asMap {fields : Fields} {name : String} {i : Nat} {entries : List (String × Json)}
    (h : fields.required name i Json.asMap = .ok entries) :
    fields.find? name i = some (.obj entries) := by
  unfold Fields.required at h
  cases hfound : fields.find? name i with
  | none =>
    rw [hfound] at h
    cases h
  | some found =>
    rw [hfound] at h
    cases found with
    | obj entries' =>
      cases h
      rfl
    | null | bool | num | str | arr => cases h

theorem decodeCrlResponse_keys {json : Json} {entries : List (String × Json)}
    (h : decodeCrlResponse json = .ok entries) : listedKeys json = entries.map Prod.fst := by
  unfold decodeCrlResponse Json.asStruct at h
  cases json with
  | null | bool | num | str => cases h
  | obj fields =>
    obtain ⟨_, -, h⟩ := bind_eq_ok.mp h
    have hfound : fields.lookup "entries" = some (.obj entries) := required_asMap h
    rw [listedKeys, hfound]
  | arr items =>
    obtain ⟨found, hfound, h⟩ := bind_eq_ok.mp h
    have hfirst : items[0]? = some (.obj found) := required_asMap hfound
    split_ifs at h with hlength
    · cases h
    · obtain rfl : found = entries := Except.ok.inj h
      match items with
      | [] => cases hfirst
      | [item] =>
        cases hfirst
        rfl
      | _ :: _ :: _ => exact absurd hlength (by simp)

theorem parseCrl_keys {crl : CrlExt} {body : Bytes} {revoked : List String} {json : Json}
    (h : parseCrl crl body = .ok revoked) (hjson : crl.jsonFromSlice body = .ok json) :
    revoked = (listedKeys json).map crl.toLowercase := by
  rw [parseCrl, hjson] at h
  obtain ⟨found, hfound, h⟩ := bind_eq_ok.mp h
  cases hfound
  obtain ⟨entries, hentries, h⟩ := bind_eq_ok.mp h
  rw [decodeCrlResponse_keys (mapError_ok.mp hentries)]
  exact (Except.ok.inj h).symm

/-! ### Chains -/

variable {x509 : X509Ext Name} {chainDer : List Bytes} {params : VerifyParams}

theorem Certificates.mem {certs : List (Certificate Name)} (h : Certificates x509 chainDer certs)
    {der : Bytes} (hder : der ∈ chainDer) (hcert : x509.fromDer der = .ok cert) : cert ∈ certs := by
  induction h with
  | nil => cases hder
  | cons hfirst _ ih =>
    rcases List.mem_cons.mp hder with rfl | hder
    · rw [hcert] at hfirst
      cases hfirst
      exact List.mem_cons_self
    · exact List.mem_cons_of_mem _ (ih hder)

/-- Wherever a revoked certificate stands, the chain is refused. -/
theorem verifyChain_revoked {der : Bytes} (hder : der ∈ chainDer)
    (hcert : x509.fromDer der = .ok cert) (hrevoked : isRevoked cert params.revokedSerials = true) :
    verifyChain x509 chainDer params ≠ .ok () := by
  intro hok
  obtain ⟨certs, hcerts, hverified⟩ := (verifyChain_ok_iff x509).mp hok
  have hmem : cert ∈ leafFirst x509 certs := by
    rw [leafFirst]
    split_ifs
    · exact List.mem_reverse.mpr (hcerts.mem hder hcert)
    · exact hcerts.mem hder hcert
  rw [hverified.unrevoked cert hmem] at hrevoked
  cases hrevoked

/-- A chain with a certificate that is listed under a usual spelling of its serial, in any mix of
    cases, is refused in either order. -/
theorem revocation_complete (x509 : X509Ext Name) (crl : CrlExt) {body : Bytes} {json : Json}
    {key : String} (hparse : parseCrl crl body = .ok params.revokedSerials)
    (hjson : crl.jsonFromSlice body = .ok json) (hkey : key ∈ listedKeys json) {der : Bytes}
    (hder : der ∈ chainDer) (hcert : x509.fromDer der = .ok cert)
    (hserial : cert.serial = bigEndian cert.rawSerial) (hpos : 0 < cert.serial)
    (hminimal : isMinimal cert.rawSerial = true) {spelling : String}
    (hspelling : spelling ∈ usualSpellings cert.serial) (hcase : key.toLower = spelling.toLower) :
    verifyChain x509 chainDer params ≠ .ok () ∧
      verifyChain x509 chainDer.reverse params ≠ .ok () := by
  have hraw : cert.rawSerial = derInteger cert.serial := by
    rw [hserial, derInteger_bigEndian hminimal]
  have hlooked := usualSpellings_subset hpos hraw hspelling
  have hlisted : spelling ∈ params.revokedSerials := by
    rw [parseCrl_keys hparse hjson, ← toLowercase_key crl hlooked hcase]
    exact List.mem_map_of_mem hkey
  have hrevoked : isRevoked cert params.revokedSerials = true :=
    List.any_eq_true.mpr ⟨spelling, hlooked, List.contains_iff_mem.mpr hlisted⟩
  exact ⟨verifyChain_revoked hder hcert hrevoked,
    verifyChain_revoked (List.mem_reverse.mpr hder) hcert hrevoked⟩

def listedBody : Bytes :=
  utf8 "\x7b\"entries\": \x7b\"ABCDef0123\": \x7b\"status\": \"REVOKED\"\x7d\x7d\x7d"

def listedJson : Json := .obj [("entries", .obj [("ABCDef0123", .obj [("status", .str "REVOKED")])])]

def listedCrl : CrlExt where
  jsonFromSlice body :=
    if body = listedBody then .ok listedJson else .error "expected value at line 1 column 1"
  describe _ _ := "invalid type"
  toLowercase := String.toLower
  toLowercase_ascii _ _ := rfl

/-- A chain that is accepted as long as nothing is revoked. -/
theorem revocation_complete_mixed_case :
    verifyChain namedX509 [utf8 "leaf", utf8 "root"] (polkadotParams []) = .ok () ∧
      verifyChain namedX509 [utf8 "leaf", utf8 "root"] (polkadotParams ["abcdef0123"]) ≠ .ok () ∧
      verifyChain namedX509 [utf8 "leaf", utf8 "root"].reverse (polkadotParams ["abcdef0123"]) ≠
        .ok () := by
  have hlower : "ABCDef0123".toLower = "abcdef0123" := by
    refine String.toList_inj.mp ?_
    rw [String.toLower, String.toList_map]
    decide
  have hjson : listedCrl.jsonFromSlice listedBody = .ok listedJson := by
    simp only [listedCrl, if_true]
  have hparse : parseCrl listedCrl listedBody =
      .ok (polkadotParams ["abcdef0123"]).revokedSerials := by
    rw [parseCrl, hjson]
    exact congrArg (fun key => Except.ok [key]) hlower
  have hkey : "ABCDef0123" ∈ listedKeys listedJson := List.mem_singleton_self _
  have hspelling : "abcdef0123" ∈ usualSpellings leafCertificate.serial := by decide +kernel
  exact ⟨verifyChain_named, revocation_complete namedX509 listedCrl hparse hjson hkey
    List.mem_cons_self rfl rfl (by decide) (by decide) hspelling
    (hlower.trans (by decide +kernel))⟩

end DeviceUniqueness.KeyAttest
