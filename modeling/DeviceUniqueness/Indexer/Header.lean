import DeviceUniqueness.Indexer.Puzzle
import DeviceUniqueness.Text.Base64

/-! The header that a solved puzzle travels in: five fields with colons between them, in base64.

    Nothing but the base64 says where a field ends, so it matters that no field has a colon of its
    own. A field may be written in more than one way, but whatever is accepted comes back the same
    when it is written out and read again. -/

namespace DeviceUniqueness.Indexer

/-! ### Session ids -/

/-- The text of an id: five groups of digits with hyphens between them. -/
def uuidText (id : Uuid) : String :=
  hexLower (id.1.take 4) ++ "-" ++ hexLower ((id.1.drop 4).take 2) ++ "-" ++
    hexLower ((id.1.drop 6).take 2) ++ "-" ++ hexLower ((id.1.drop 8).take 2) ++ "-" ++
    hexLower (id.1.drop 10)

def parseSimple (digits : Bytes) : Option Uuid := do
  let bytes ← hexDecode digits
  if h : bytes.length = 16 then some ⟨bytes, h⟩ else none

def parseHyphenated (text : Bytes) : Option Uuid :=
  if text[8]? = some 45 ∧ text[13]? = some 45 ∧ text[18]? = some 45 ∧ text[23]? = some 45 then
    parseSimple (text.take 8 ++ (text.drop 9).take 4 ++ (text.drop 14).take 4 ++
      (text.drop 19).take 4 ++ text.drop 24)
  else none

/-- `Uuid::parse_str`: 32 digits, or a text with hyphens, which may be in braces or a URN. -/
def parseUuid (text : Bytes) : Option Uuid :=
  if text.length = 32 then parseSimple text
  else if text.length = 36 then parseHyphenated text
  else if text.length = 38 ∧ text.head? = some 123 ∧ text.getLast? = some 125 then
    parseHyphenated text.tail.dropLast
  else if text.length = 45 ∧ text.take 9 = utf8 "urn:uuid:" then parseHyphenated (text.drop 9)
  else none

/-! ### The header -/

def maxTimestampMs : Int := 8640000000000000

/-- Anything off the shape is `Rejection::Malformed`. -/
def Solution.parseHeader (raw : String) : Option Solution := do
  let decoded ← base64Decode (utf8 (DeviceUniqueness.trim raw))
  let text ← DeviceUniqueness.fromUtf8 decoded
  match (utf8 text).splitOn 58 with
  | [sessionId, timestamp, difficulty, counter, checksum] => do
      let sessionId ← parseUuid sessionId
      let timestampMs ← parseI64 timestamp
      guard (0 ≤ timestampMs ∧ timestampMs ≤ maxTimestampMs)
      let difficulty ← parseUnsigned (2 ^ 8) difficulty
      guard (1 ≤ difficulty ∧ difficulty ≤ 32)
      let counter ← parseUnsigned (2 ^ 64) counter
      guard (checksum.length = 64 ∧ checksum.all isHexDigit)
      return ⟨sessionId, timestampMs, .ofNat difficulty, .ofNat counter,
        ofAscii (checksum.map toAsciiLowercase)⟩
  | _ => none

def Solution.headerText (solution : Solution) : String :=
  uuidText solution.sessionId ++ ":" ++ toString solution.timestampMs ++ ":" ++
    toString solution.difficulty.toNat ++ ":" ++ toString solution.counter.toNat ++ ":" ++
    solution.checksum

def Solution.toHeader (solution : Solution) : String :=
  ofAscii (base64Encode (utf8 solution.headerText))

def isLowerHexDigit (b : UInt8) : Bool := isAsciiDigit b || (97 ≤ b && b ≤ 102)

/-- The fields of a solution are in their ranges. -/
structure Solution.InRange (solution : Solution) : Prop where
  timestamp : 0 ≤ solution.timestampMs ∧ solution.timestampMs ≤ maxTimestampMs
  difficulty : 1 ≤ solution.difficulty ∧ solution.difficulty ≤ 32
  width : (utf8 solution.checksum).length = 64
  digits : ∀ b ∈ utf8 solution.checksum, isLowerHexDigit b = true

/-! ### Reading what was written -/

theorem parseHyphenated_groups {a b c d e : Bytes} (ha : a.length = 8) (hb : b.length = 4)
    (hc : c.length = 4) (hd : d.length = 4) :
    parseHyphenated (a ++ 45 :: (b ++ 45 :: (c ++ 45 :: (d ++ 45 :: e)))) =
      parseSimple (a ++ b ++ c ++ d ++ e) := by
  rw [parseHyphenated, if_pos (by simp [List.getElem?_append, ha, hb, hc, hd])]
  congr 1
  simp [List.drop_append, ha, hb, hc, hd, List.drop_of_length_le]

theorem parseUuid_text (id : Uuid) : parseUuid (utf8 (uuidText id)) = some id := by
  obtain ⟨bytes, hbytes⟩ := id
  have hwidth : ∀ xs : Bytes, (utf8 (hexLower xs)).length = 2 * xs.length := length_hexLower
  have hlen : (utf8 (uuidText ⟨bytes, hbytes⟩)).length = 36 := by
    have hhyphen : (utf8 "-").length = 1 := rfl
    simp only [uuidText, utf8_append, List.length_append, hwidth, List.length_take,
      List.length_drop, hbytes, hhyphen]
    rfl
  have hjoin : bytes.take 4 ++ (bytes.drop 4).take 2 ++ (bytes.drop 6).take 2 ++
      (bytes.drop 8).take 2 ++ bytes.drop 10 = bytes := by
    have hstep : ∀ k, (bytes.drop k).take 2 ++ bytes.drop (k + 2) = bytes.drop k := fun k => by
      rw [← List.drop_drop, List.take_append_drop]
    rw [List.append_assoc, List.append_assoc, List.append_assoc, hstep 8, hstep 6, hstep 4,
      List.take_append_drop]
  rw [parseUuid, if_neg (by omega), if_pos hlen]
  have hhyphen : utf8 "-" = [45] := rfl
  simp only [uuidText, utf8_append, hhyphen, List.append_assoc, List.cons_append,
    List.nil_append]
  rw [parseHyphenated_groups (by simp [hwidth, hbytes]) (by simp [hwidth, hbytes])
    (by simp [hwidth, hbytes]) (by simp [hwidth, hbytes]), ← utf8_hexLower_append,
    ← utf8_hexLower_append, ← utf8_hexLower_append, ← utf8_hexLower_append, hjoin, parseSimple,
    hexDecode_hexLower]
  simp [hbytes]

/-- There is no colon in an id. -/
theorem colon_uuidText (id : Uuid) : 58 ∉ utf8 (uuidText id) := by
  have hhex : ∀ bytes : Bytes, (58 : UInt8) ∉ utf8 (hexLower bytes) := fun bytes hmem =>
    absurd (isSome_hexValue (hexDecode_hexLower bytes) _ hmem) (by decide)
  have hhyphen : (58 : UInt8) ∉ utf8 "-" := by decide
  simp only [uuidText, utf8_append, List.mem_append, hhex, hhyphen, or_false, not_false_iff]

/-- A digit is below `128`, is kept by lower-casing, and is no colon. -/
theorem isLowerHexDigit_table {b : UInt8} (h : isLowerHexDigit b = true) :
    b < 128 ∧ b ≠ 58 ∧ isHexDigit b = true ∧ toAsciiLowercase b = b := by
  have htable : ∀ n : Fin 256, isLowerHexDigit (.ofFin n) = true →
      UInt8.ofFin n < 128 ∧ UInt8.ofFin n ≠ 58 ∧ isHexDigit (.ofFin n) = true ∧
        toAsciiLowercase (.ofFin n) = .ofFin n := by
    decide +kernel
  simpa using htable b.toFin (by simpa using h)

theorem isLowerHexDigit_toAsciiLowercase {b : UInt8} (h : isHexDigit b = true) :
    isLowerHexDigit (toAsciiLowercase b) = true := by
  have htable : ∀ n : Fin 256, isHexDigit (.ofFin n) = true →
      isLowerHexDigit (toAsciiLowercase (.ofFin n)) = true := by
    decide +kernel
  simpa using htable b.toFin (by simpa using h)

theorem isWhitespace_printable : ∀ n < 127, 33 ≤ n → isWhitespace (Char.ofNat n) = false := by
  decide +kernel

namespace Solution

variable {solution : Solution}

theorem trim_toHeader (solution : Solution) :
    DeviceUniqueness.trim solution.toHeader = solution.toHeader := by
  refine trim_eq_self fun c hc => ?_
  rw [toHeader, ofAscii, String.toList_ofList] at hc
  obtain ⟨b, hb, rfl⟩ := List.mem_map.mp hc
  obtain ⟨hle, hlt⟩ := base64Encode_printable _ b hb
  exact isWhitespace_printable _ (UInt8.lt_iff_toNat_lt.mp hlt) (UInt8.le_iff_toNat_le.mp hle)

/-- The text comes out of the header as it went in. -/
theorem base64Decode_toHeader (solution : Solution) :
    base64Decode (utf8 (DeviceUniqueness.trim solution.toHeader)) =
      some (utf8 solution.headerText) := by
  have hascii : ∀ b ∈ base64Encode (utf8 solution.headerText), b < 128 := fun b hb =>
    UInt8.lt_trans (base64Encode_printable _ b hb).2 (by decide)
  rw [trim_toHeader, toHeader, utf8_ofAscii hascii, base64Decode_encode]

theorem InRange.toString_timestamp (h : solution.InRange) :
    toString solution.timestampMs = toString solution.timestampMs.toNat := by
  obtain ⟨n, hn⟩ := Int.eq_ofNat_of_zero_le h.timestamp.1
  rw [hn]
  rfl

/-- No field has a colon, so the five parts are the five fields. -/
theorem InRange.splitOn_headerText (h : solution.InRange) :
    (utf8 solution.headerText).splitOn 58 =
      [utf8 (uuidText solution.sessionId), utf8 (toString solution.timestampMs.toNat),
        utf8 (toString solution.difficulty.toNat), utf8 (toString solution.counter.toNat),
        utf8 solution.checksum] := by
  have hnumber : ∀ n : Nat, (58 : UInt8) ∉ utf8 (toString n) := fun n hmem =>
    absurd (isAsciiDigit_toString n _ hmem) (by decide)
  have hchecksum : (58 : UInt8) ∉ utf8 solution.checksum := fun hmem =>
    (isLowerHexDigit_table (h.digits _ hmem)).2.1 rfl
  have hcolon : utf8 ":" = [58] := rfl
  simp only [headerText, h.toString_timestamp, utf8_append, hcolon, List.append_assoc,
    List.cons_append, List.nil_append]
  rw [List.splitOn_append_cons_self_of_not_mem (colon_uuidText _),
    List.splitOn_append_cons_self_of_not_mem (hnumber _),
    List.splitOn_append_cons_self_of_not_mem (hnumber _),
    List.splitOn_append_cons_self_of_not_mem (hnumber _), List.splitOn_eq_singleton hchecksum]

theorem InRange.checksum_kept (h : solution.InRange) :
    ofAscii ((utf8 solution.checksum).map toAsciiLowercase) = solution.checksum := by
  have hkept : (utf8 solution.checksum).map toAsciiLowercase = utf8 solution.checksum :=
    (List.map_congr_left fun b hb => (isLowerHexDigit_table (h.digits b hb)).2.2.2).trans
      (List.map_id' _)
  rw [hkept, ofAscii_utf8 fun b hb => (isLowerHexDigit_table (h.digits b hb)).1]

theorem InRange.parse_toHeader (h : solution.InRange) :
    parseHeader solution.toHeader = some solution := by
  obtain ⟨htime, htime'⟩ := h.timestamp
  have hms : (solution.timestampMs.toNat : Int) = solution.timestampMs := Int.toNat_of_nonneg htime
  have hbound : solution.timestampMs.toNat < 2 ^ 63 := by
    rw [maxTimestampMs] at htime'
    omega
  have hhex : (utf8 solution.checksum).all isHexDigit = true :=
    List.all_eq_true.mpr fun b hb => (isLowerHexDigit_table (h.digits b hb)).2.2.1
  have hdifficulty : 1 ≤ solution.difficulty.toNat ∧ solution.difficulty.toNat ≤ 32 :=
    ⟨UInt8.le_iff_toNat_le.mp h.difficulty.1, UInt8.le_iff_toNat_le.mp h.difficulty.2⟩
  simp only [parseHeader, base64Decode_toHeader, Option.bind_eq_bind, Option.bind_some,
    fromUtf8_utf8, h.splitOn_headerText, parseUuid_text, parseI64_toString hbound,
    parseUnsigned_toString solution.difficulty.toNat_lt,
    parseUnsigned_toString solution.counter.toNat_lt, hms, htime, htime', hdifficulty, h.width, hhex,
    h.checksum_kept, UInt8.ofNat_toNat, UInt64.ofNat_toNat, and_self, guard_true, Option.pure_def]

theorem inRange_of_parse {raw : String} (h : parseHeader raw = some solution) :
    solution.InRange := by
  obtain ⟨decoded, -, h⟩ := Option.bind_eq_some_iff.mp h
  obtain ⟨text, -, h⟩ := Option.bind_eq_some_iff.mp h
  split at h
  · next sessionId timestamp difficulty counter checksum _ =>
    obtain ⟨sessionId, -, h⟩ := Option.bind_eq_some_iff.mp h
    obtain ⟨timestampMs, -, h⟩ := Option.bind_eq_some_iff.mp h
    obtain ⟨_, htime, h⟩ := Option.bind_eq_some_iff.mp h
    obtain ⟨difficulty, -, h⟩ := Option.bind_eq_some_iff.mp h
    obtain ⟨_, hwork, h⟩ := Option.bind_eq_some_iff.mp h
    obtain ⟨counter, -, h⟩ := Option.bind_eq_some_iff.mp h
    obtain ⟨_, hchecksum, h⟩ := Option.bind_eq_some_iff.mp h
    obtain rfl := Option.some.inj h
    rw [Option.guard_eq_some'] at htime hwork hchecksum
    have hlower : ∀ b ∈ checksum.map toAsciiLowercase, isLowerHexDigit b = true :=
      List.forall_mem_map.mpr fun b hb =>
        isLowerHexDigit_toAsciiLowercase (List.all_eq_true.mp hchecksum.2 b hb)
    have htext : utf8 (ofAscii (checksum.map toAsciiLowercase)) = checksum.map toAsciiLowercase :=
      utf8_ofAscii fun b hb => (isLowerHexDigit_table (hlower b hb)).1
    refine ⟨htime, ?_, ?_, ?_⟩
    · simp only [UInt8.le_iff_toNat_le, UInt8.toNat_ofNat', UInt8.reduceToNat]
      omega
    · rw [htext, List.length_map, hchecksum.1]
    · rw [htext]
      exact hlower
  · cases h

/-- A solution in its ranges is read back from its header, and every header that is read gives a
    solution in its ranges. -/
theorem header_round_trip :
    (∀ solution : Solution, solution.InRange → parseHeader solution.toHeader = some solution) ∧
    ∀ (raw : String) (solution : Solution), parseHeader raw = some solution →
      solution.InRange ∧ parseHeader solution.toHeader = some solution :=
  ⟨fun _ h => h.parse_toHeader, fun _ _ h =>
    have hrange := inRange_of_parse h
    ⟨hrange, hrange.parse_toHeader⟩⟩

theorem header_round_trip_lowest :
    let solution : Solution := ⟨⟨List.replicate 16 0, rfl⟩, 0, 1, 0, hexLower (List.replicate 32 0)⟩
    solution.InRange ∧ parseHeader solution.toHeader = some solution := by
  intro solution
  have hrange : solution.InRange := ⟨by decide, by decide, by decide +kernel, by decide +kernel⟩
  exact header_round_trip.2 solution.toHeader solution (header_round_trip.1 solution hrange)

end Solution

end DeviceUniqueness.Indexer
