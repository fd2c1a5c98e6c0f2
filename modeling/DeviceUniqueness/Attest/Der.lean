import DeviceUniqueness.Outbox.Schema
import DeviceUniqueness.Schemes.Numerals

/-! The DER reader of the key attestation extension.

    An element is a tag, a length and a content. A tag number from 31 on is written in base 128, a
    length from 128 on in base 256 behind the number of its bytes, and neither may be longer than it
    has to be. So an element has one encoding, and the reader takes this one and no other. -/

namespace DeviceUniqueness.KeyAttest

open Schemes

/-- How reading fails: the input is refused, or the reader panics. -/
inductive Fault where
  | refused (why : String)
  | panicked
  deriving DecidableEq

/-- A part of the reader that only looks where it has checked that there is something. -/
def checked {α : Type} : Except String α → Except Fault α
  | .ok a => .ok a
  | .error why => .error (.refused why)

structure Tlv where
  cls : UInt8
  constructed : Bool
  number : Nat
  content : Bytes
  deriving DecidableEq

/-! ### Reading -/

/-- The rest of a tag number in the high form; `first` before its first byte. -/
def readHighTag : Bytes → Bool → Nat → Except String (Nat × Bytes)
  | [], _, _ => .error "truncated high-form tag"
  | b :: rest, first, number =>
      if first && b &&& 0x7f == 0 then .error "non-minimal high-form tag"
      else if 2 ^ 32 ≤ number * 128 + (b &&& 0x7f).toNat then .error "tag number overflow"
      else if b &&& 0x80 == 0 then .ok (number * 128 + (b &&& 0x7f).toNat, rest)
      else readHighTag rest false (number * 128 + (b &&& 0x7f).toNat)

/-- The tag number, after the first byte. -/
def readNumber (b0 : UInt8) (rest : Bytes) : Except String (Nat × Bytes) :=
  if b0 &&& 0x1f == 0x1f then
    match readHighTag rest true 0 with
    | .error why => .error why
    | .ok (number, rest) =>
        if number < 31 then .error "non-minimal high-form tag" else .ok (number, rest)
  else .ok ((b0 &&& 0x1f).toNat, rest)

/-- So many bytes of a length in the long form; `first` before the first of them. -/
def readLengthBytes : Nat → Bytes → Bool → Nat → Except String (Nat × Bytes)
  | 0, rest, _, len => .ok (len, rest)
  | _ + 1, [], _, _ => .error "truncated long-form length"
  | n + 1, b :: rest, first, len =>
      if first && b == 0 then .error "non-minimal long-form length"
      else readLengthBytes n rest false (len * 256 + b.toNat)

def readLength : Bytes → Except String (Nat × Bytes)
  | [] => .error "truncated length"
  | l0 :: rest =>
      if l0 &&& 0x80 == 0 then .ok (l0.toNat, rest)
      else if (l0 &&& 0x7f).toNat = 0 ∨ 4 < (l0 &&& 0x7f).toNat then
        .error "unsupported DER length form"
      else
        match readLengthBytes (l0 &&& 0x7f).toNat rest true 0 with
        | .error why => .error why
        | .ok (len, rest) =>
            if len < 128 then .error "non-minimal long-form length" else .ok (len, rest)

/-- `&input[start..]`, which panics when there is no such place. -/
def sliceFrom (input : Bytes) (start : Nat) : Except Fault Bytes :=
  if start ≤ input.length then .ok (input.drop start) else .error .panicked

/-- `input.get(start..end)`. -/
def slice (input : Bytes) (start stop : Nat) : Option Bytes :=
  if start ≤ stop ∧ stop ≤ input.length then some ((input.drop start).take (stop - start)) else none

def readTlv : Bytes → Except Fault (Tlv × Bytes)
  | [] => .error (.refused "truncated tag")
  | b0 :: tail => do
      let (number, rest) ← checked (readNumber b0 tail)
      let (len, rest) ← checked (readLength rest)
      -- as many bytes as have been read
      let idx := (b0 :: tail).length - rest.length
      if 2 ^ 64 ≤ idx + len then .error (.refused "length overflow")
      else
        match slice (b0 :: tail) idx (idx + len) with
        | none => .error (.refused "truncated content")
        | some content =>
            let after ← sliceFrom (b0 :: tail) (idx + len)
            return (⟨b0 >>> 6, b0 &&& 0x20 != 0, number, content⟩, after)

/-! ### Encoding -/

/-- Digits in base 128, with a bit on all but the last that says that there are more. -/
def base128 : List Nat → Bytes
  | [] => []
  | [d] => [.ofNat d]
  | d :: ds => .ofNat (128 + d) :: base128 ds

/-- The first byte of a tag; 31 in place of a number says that the number follows. -/
def leadByte (cls : UInt8) (constructed : Bool) (low : Nat) : UInt8 :=
  .ofNat (64 * cls.toNat + (if constructed then 32 else 0) + low)

def encodeTag (cls : UInt8) (constructed : Bool) (number : Nat) : Bytes :=
  if number < 31 then [leadByte cls constructed number]
  else leadByte cls constructed 31 :: base128 (numeral 128 number)

def encodeLength (len : Nat) : Bytes :=
  if len < 128 then [.ofNat len]
  else .ofNat (128 + (numeral 256 len).length) :: (numeral 256 len).map UInt8.ofNat

def Tlv.encode (tlv : Tlv) : Bytes :=
  encodeTag tlv.cls tlv.constructed tlv.number ++ (encodeLength tlv.content.length ++ tlv.content)

/-- A class of two bits, a tag number and a content of less than `2 ^ 32`. -/
structure Tlv.Encodable (tlv : Tlv) : Prop where
  cls : tlv.cls < 4
  number : tlv.number < 2 ^ 32
  content : tlv.content.length < 2 ^ 32

/-! ### Tags -/

theorem low_bits (b : UInt8) : (b &&& 0x7f).toNat < 128 ∧
    (if b &&& 0x80 == 0 then UInt8.ofNat (b &&& 0x7f).toNat
      else UInt8.ofNat (128 + (b &&& 0x7f).toNat)) = b := by
  have htable : ∀ n : Fin 256, (UInt8.ofFin n &&& 0x7f).toNat < 128 ∧
      (if UInt8.ofFin n &&& 0x80 == 0 then UInt8.ofNat (UInt8.ofFin n &&& 0x7f).toNat
        else UInt8.ofNat (128 + (UInt8.ofFin n &&& 0x7f).toNat)) = UInt8.ofFin n := by
    decide +kernel
  simpa using htable b.toFin

variable {d number len : Nat} {first : Bool} {b : UInt8} {rest input : Bytes} {tlv : Tlv}

theorem last_digit (h : d < 128) : (UInt8.ofNat d &&& 0x7f).toNat = d ∧
    (UInt8.ofNat d &&& 0x80 == 0) = true := by
  have htable : ∀ d : Fin 128, (UInt8.ofNat d &&& 0x7f).toNat = d ∧
      (UInt8.ofNat d &&& 0x80 == 0) = true := by
    decide +kernel
  exact htable ⟨d, h⟩

theorem more_digits (h : d < 128) : (UInt8.ofNat (128 + d) &&& 0x7f).toNat = d ∧
    (UInt8.ofNat (128 + d) &&& 0x80 == 0) = false := by
  have htable : ∀ d : Fin 128, (UInt8.ofNat (128 + d) &&& 0x7f).toNat = d ∧
      (UInt8.ofNat (128 + d) &&& 0x80 == 0) = false := by
    decide +kernel
  exact htable ⟨d, h⟩

theorem leading_zero :
    (first && b &&& 0x7f == 0) = true ↔ first = true ∧ (b &&& 0x7f).toNat = 0 := by
  simp only [Bool.and_eq_true, beq_iff_eq, ← UInt8.toNat_inj, UInt8.reduceToNat]

/-- One more digit of a tag number. -/
theorem readHighTag_digit (hd : (b &&& 0x7f).toNat = d) (hmin : first = true → d ≠ 0)
    (hlt : number * 128 + d < 2 ^ 32) : readHighTag (b :: rest) first number =
      if b &&& 0x80 == 0 then .ok (number * 128 + d, rest)
      else readHighTag rest false (number * 128 + d) := by
  subst hd
  rw [readHighTag, if_neg (fun h => hmin (leading_zero.mp h).1 (leading_zero.mp h).2),
    if_neg (by omega)]

theorem readHighTag_base128 : ∀ {ds : List Nat} {first : Bool} {number : Nat} {rest : Bytes},
    ds ≠ [] → (∀ d ∈ ds, d < 128) → (first = true → ds.head? ≠ some 0) →
    readNumeral 128 number ds < 2 ^ 32 →
    readHighTag (base128 ds ++ rest) first number = .ok (readNumeral 128 number ds, rest)
  | [], _, _, _, hne, _, _, _ => absurd rfl hne
  | [d], first, number, rest, _, hlt, hmin, hbound => by
    obtain ⟨hlow, hlast⟩ := last_digit (hlt d (by simp))
    rw [base128, List.singleton_append,
      readHighTag_digit hlow (fun h => by simpa using hmin h) hbound, hlast]
    rfl
  | d :: e :: ds, first, number, rest, _, hlt, hmin, hbound => by
    obtain ⟨hlow, hmore⟩ := more_digits (hlt d (by simp))
    -- the number so far is no more than what it will be
    have hpart : number * 128 + d < 2 ^ 32 :=
      (le_readNumeral (by decide) (number * 128 + d) (e :: ds)).trans_lt hbound
    rw [base128, List.cons_append, readHighTag_digit hlow (fun h => by simpa using hmin h) hpart,
      hmore]
    · exact readHighTag_base128 (by simp) (fun c hc => hlt c (List.mem_cons_of_mem _ hc)) nofun hbound
    · simp

/-- What the high form was read from: digits in base 128 that do not begin with a zero. -/
theorem readHighTag_ok {n : Nat} (h : readHighTag input first number = .ok (n, rest)) :
    ∃ ds, (∀ d ∈ ds, d < 128) ∧ (first = true → ds.head? ≠ some 0) ∧ ds ≠ [] ∧
      input = base128 ds ++ rest ∧ n = readNumeral 128 number ds ∧ n < 2 ^ 32 := by
  induction input generalizing first number with
  | nil => cases h
  | cons b input ih =>
    obtain ⟨hlow, hbyte⟩ := low_bits b
    rw [readHighTag] at h
    split_ifs at h with hzero hover hlast
    · -- the last digit
      rw [if_pos hlast] at hbyte
      cases h
      refine ⟨[(b &&& 0x7f).toNat], by simpa using hlow, fun hfirst hhead => ?_, by simp, ?_, rfl,
        by omega⟩
      · exact hzero (leading_zero.mpr ⟨hfirst, by simpa using hhead⟩)
      · rw [base128, hbyte, List.singleton_append]
    · rw [if_neg hlast] at hbyte
      obtain ⟨ds, hlt, -, hne, hinput, hn, hbound⟩ := ih h
      refine ⟨(b &&& 0x7f).toNat :: ds, List.forall_mem_cons.mpr ⟨hlow, hlt⟩,
        fun hfirst hhead => ?_, by simp, ?_, hn, hbound⟩
      · exact hzero (leading_zero.mpr ⟨hfirst, by simpa using hhead⟩)
      · obtain ⟨d, ds, rfl⟩ := List.exists_cons_of_ne_nil hne
        rw [base128, hbyte, List.cons_append, hinput]
        simp

/-! ### The first byte -/

theorem leadByte_fields {cls : UInt8} {low : Nat} (constructed : Bool) (hcls : cls < 4)
    (hlow : low < 32) : leadByte cls constructed low >>> 6 = cls ∧
    (leadByte cls constructed low &&& 0x20 != 0) = constructed ∧
    (leadByte cls constructed low &&& 0x1f).toNat = low := by
  have htable : ∀ (cls : Fin 4) (constructed : Bool) (low : Fin 32),
      leadByte (.ofNat cls) constructed low >>> 6 = .ofNat cls ∧
      (leadByte (.ofNat cls) constructed low &&& 0x20 != 0) = constructed ∧
      (leadByte (.ofNat cls) constructed low &&& 0x1f).toNat = low := by
    decide +kernel
  simpa using htable ⟨cls.toNat, UInt8.lt_iff_toNat_lt.mp hcls⟩ constructed ⟨low, hlow⟩

theorem leadByte_of_fields (b : UInt8) : b >>> 6 < 4 ∧ (b &&& 0x1f).toNat < 32 ∧
    leadByte (b >>> 6) (b &&& 0x20 != 0) (b &&& 0x1f).toNat = b := by
  have htable : ∀ n : Fin 256, UInt8.ofFin n >>> 6 < 4 ∧ (UInt8.ofFin n &&& 0x1f).toNat < 32 ∧
      leadByte (UInt8.ofFin n >>> 6) (UInt8.ofFin n &&& 0x20 != 0)
        (UInt8.ofFin n &&& 0x1f).toNat = .ofFin n := by
    decide +kernel
  simpa using htable b.toFin

theorem high_form_iff : (b &&& 0x1f == 0x1f) = true ↔ (b &&& 0x1f).toNat = 31 := by
  simp only [beq_iff_eq, ← UInt8.toNat_inj, UInt8.reduceToNat]

/-- A tag is the first byte and what its number is read from. -/
theorem readNumber_ok {b0 : UInt8} {tail : Bytes} (h : readNumber b0 tail = .ok (number, rest)) :
    number < 2 ^ 32 ∧
      b0 :: tail = encodeTag (b0 >>> 6) (b0 &&& 0x20 != 0) number ++ rest := by
  obtain ⟨-, hlow, hlead⟩ := leadByte_of_fields b0
  rw [readNumber] at h
  split_ifs at h with hform
  · rw [high_form_iff.mp hform] at hlead
    split at h
    · cases h
    · next n rest' hread =>
      obtain ⟨ds, hlt, hmin, hne, htail, hn, hbound⟩ := readHighTag_ok hread
      split_ifs at h with hsmall
      cases h
      have hdigits : numeral 128 number = ds := by
        rw [hn]
        exact numeral_readNumeral (by decide) hlt (hmin rfl)
      refine ⟨hbound, ?_⟩
      rw [encodeTag, if_neg hsmall, hdigits, hlead, List.cons_append, htail]
  · cases h
    have hsmall : (b0 &&& 0x1f).toNat < 31 := by
      have hne := mt high_form_iff.mpr hform
      omega
    refine ⟨by omega, ?_⟩
    rw [encodeTag, if_pos hsmall, hlead, List.singleton_append]

/-- The tag is read off its encoding, whatever follows. -/
theorem readNumber_encodeTag {cls : UInt8} (constructed : Bool) (hcls : cls < 4)
    (hnumber : number < 2 ^ 32) : ∃ b0 digits, encodeTag cls constructed number = b0 :: digits ∧
      b0 >>> 6 = cls ∧ (b0 &&& 0x20 != 0) = constructed ∧
      ∀ rest, readNumber b0 (digits ++ rest) = .ok (number, rest) := by
  rw [encodeTag]
  split_ifs with hsmall
  · obtain ⟨hclass, hform, hlow⟩ := leadByte_fields constructed hcls (show number < 32 by omega)
    refine ⟨_, [], rfl, hclass, hform, fun rest => ?_⟩
    rw [readNumber, if_neg (fun h => by have := high_form_iff.mp h; omega), hlow, List.nil_append]
  · obtain ⟨hclass, hform, hlow⟩ := leadByte_fields constructed hcls (show 31 < 32 by decide)
    have hread := readNumeral_numeral 128 number
    refine ⟨_, _, rfl, hclass, hform, fun rest => ?_⟩
    rw [readNumber, if_pos (high_form_iff.mpr hlow), readHighTag_base128 (numeral_ne_nil (by omega))
      (fun d hd => lt_of_mem_numeral (by decide) hd) (fun _ => head_numeral 128 number)
      (by rwa [hread]), hread]
    simp only [if_neg hsmall]

/-! ### Lengths -/

theorem readLengthBytes_append : ∀ (bs : Bytes) (first : Bool) (len : Nat) (rest : Bytes),
    (first = true → bs.head? ≠ some 0) →
    readLengthBytes bs.length (bs ++ rest) first len =
      .ok (readNumeral 256 len (bs.map UInt8.toNat), rest)
  | [], _, _, _, _ => rfl
  | b :: bs, first, len, rest, hmin => by
    have hzero : ¬ (first && b == 0) = true := by
      rw [Bool.and_eq_true, beq_iff_eq]
      exact fun h => hmin h.1 (congrArg some h.2)
    rw [List.length_cons, List.cons_append, readLengthBytes, if_neg hzero,
      readLengthBytes_append bs false _ rest nofun]
    rfl

theorem readLengthBytes_ok {n : Nat} {len' : Nat}
    (h : readLengthBytes n input first len = .ok (len', rest)) :
    ∃ bs, bs.length = n ∧ (first = true → bs.head? ≠ some 0) ∧ input = bs ++ rest ∧
      len' = readNumeral 256 len (bs.map UInt8.toNat) := by
  fun_induction readLengthBytes n input first len with
  | case1 =>
    cases h
    exact ⟨[], rfl, by simp, rfl, rfl⟩
  | case2 | case3 => cases h
  | case4 n b input first len hzero ih =>
    obtain ⟨bs, hlen, -, rfl, hvalue⟩ := ih h
    refine ⟨b :: bs, by rw [List.length_cons, hlen], fun hfirst hhead => ?_, rfl, hvalue⟩
    exact hzero (by simpa [hfirst] using hhead)

/-- What bytes come to as a number, the most significant first. -/
def bigEndian (content : Bytes) : Nat := readNumeral 256 0 (content.map UInt8.toNat)

theorem map_toNat_lt (content : Bytes) : ∀ d ∈ content.map UInt8.toNat, d < 256 :=
  List.forall_mem_map.mpr fun b _ => b.toNat_lt

/-- Bytes that do not begin with a zero are the digits of their number. -/
theorem numeral_bigEndian {content : Bytes} (h : content.head? ≠ some 0) :
    (numeral 256 (bigEndian content)).map UInt8.ofNat = content := by
  have hhead : (content.map UInt8.toNat).head? ≠ some 0 := by
    intro hzero
    rw [List.head?_map, Option.map_eq_some_iff] at hzero
    obtain ⟨b, hb, hzero⟩ := hzero
    exact h (hb.trans (congrArg some (UInt8.toNat_inj.mp hzero)))
  rw [bigEndian, numeral_readNumeral (by decide) (map_toNat_lt content) hhead, List.map_map]
  simp [Function.comp_def]

/-- The digits of a length are bytes. -/
theorem toNat_numeral (len : Nat) :
    ((numeral 256 len).map UInt8.ofNat).map UInt8.toNat = numeral 256 len := by
  rw [List.map_map]
  refine (List.map_congr_left fun d hd => ?_).trans (List.map_id' _)
  exact UInt8.toNat_ofNat_of_lt (lt_of_mem_numeral (by decide) hd)

theorem head_digits (n : Nat) : ((numeral 256 n).map UInt8.ofNat).head? ≠ some 0 := by
  intro hzero
  have hzero := congrArg (Option.map UInt8.toNat) hzero
  rw [← List.head?_map, toNat_numeral] at hzero
  exact head_numeral 256 n hzero

theorem readLength_encodeLength (h : len < 2 ^ 32) (rest : Bytes) :
    readLength (encodeLength len ++ rest) = .ok (len, rest) := by
  rw [encodeLength]
  split_ifs with hshort
  · obtain ⟨hlow, hform⟩ := last_digit hshort
    have hbyte : (UInt8.ofNat len).toNat = len := UInt8.toNat_ofNat_of_lt (hshort.trans (by decide))
    rw [List.singleton_append, readLength, if_pos hform, hbyte]
  · have hwidth : (numeral 256 len).length ≤ 4 := (length_numeral_le_iff (by decide)).mpr h
    have hsome : (numeral 256 len).length ≠ 0 := by
      rw [ne_eq, List.length_eq_zero_iff]
      exact numeral_ne_nil (by omega)
    obtain ⟨hlow, hform⟩ := more_digits (show (numeral 256 len).length < 128 by omega)
    have hhead := head_digits len
    have hread := readLengthBytes_append _ true 0 rest fun _ => hhead
    rw [List.length_map, toNat_numeral, readNumeral_numeral] at hread
    rw [List.cons_append, readLength, if_neg (by rw [hform]; decide), hlow, if_neg (by omega), hread]
    simp only [if_neg hshort]

theorem readLength_ok (h : readLength input = .ok (len, rest)) :
    len < 2 ^ 32 ∧ input = encodeLength len ++ rest := by
  cases input with
  | nil => cases h
  | cons l0 input =>
    obtain ⟨hlow, hbyte⟩ := low_bits l0
    rw [readLength] at h
    split_ifs at h with hform hcount
    · rw [if_pos hform] at hbyte
      cases h
      have hshort : l0.toNat < 128 := by
        rw [← hbyte, UInt8.toNat_ofNat']
        omega
      refine ⟨by omega, ?_⟩
      rw [encodeLength, if_pos hshort, UInt8.ofNat_toNat, List.singleton_append]
    · rw [if_neg hform] at hbyte
      split at h
      · cases h
      · next n rest' hread =>
        obtain ⟨bs, hlen, hmin, rfl, hvalue⟩ := readLengthBytes_ok hread
        split_ifs at h with hsmall
        cases h
        have hnumeral : (numeral 256 len).map UInt8.ofNat = bs := by
          rw [hvalue]
          exact numeral_bigEndian (hmin rfl)
        have hwidth : (numeral 256 len).length = bs.length := by rw [← hnumeral, List.length_map]
        have hbound : len < 256 ^ bs.length := by
          rw [hvalue]
          simpa using readNumeral_lt (by decide) (map_toNat_lt bs)
        refine ⟨hbound.trans_le ?_, ?_⟩
        · exact (Nat.pow_le_pow_right (by decide) (show bs.length ≤ 4 by omega)).trans (by decide)
        · rw [encodeLength, if_neg hsmall, hnumeral, hwidth, hlen, hbyte, List.cons_append]

/-! ### Elements -/

theorem base128_length : ∀ ds : List Nat, (base128 ds).length = ds.length
  | [] | [_] => rfl
  | d :: e :: ds => by
    simp [base128, base128_length (e :: ds)]

theorem encodeTag_length (cls : UInt8) (constructed : Bool) (h : number < 2 ^ 32) :
    (encodeTag cls constructed number).length ≤ 6 := by
  have hwidth : (numeral 128 number).length ≤ 5 :=
    (length_numeral_le_iff (by decide)).mpr (h.trans (by decide))
  rw [encodeTag]
  split_ifs
  · simp
  · rw [List.length_cons, base128_length]
    omega

theorem encodeLength_length (h : len < 2 ^ 32) : (encodeLength len).length ≤ 5 := by
  have hwidth : (numeral 256 len).length ≤ 4 := (length_numeral_le_iff (by decide)).mpr h
  rw [encodeLength]
  split_ifs
  · simp
  · rw [List.length_cons, List.length_map]
    omega

/-- The content, once the tag and the length have been read. -/
theorem readTlv_eq {b0 : UInt8} {tail header body : Bytes}
    (hnumber : readNumber b0 tail = .ok (number, rest)) (hlen : readLength rest = .ok (len, body))
    (hinput : b0 :: tail = header ++ body) (hsmall : header.length + len < 2 ^ 64) :
    readTlv (b0 :: tail) =
      if len ≤ body.length then
        .ok (⟨b0 >>> 6, b0 &&& 0x20 != 0, number, body.take len⟩, body.drop len)
      else .error (.refused "truncated content") := by
  have hidx : (b0 :: tail).length - body.length = header.length := by
    rw [hinput, List.length_append]
    omega
  have hread : readTlv (b0 :: tail) = (if 2 ^ 64 ≤ header.length + len then
      .error (.refused "length overflow")
    else
      match slice (b0 :: tail) header.length (header.length + len) with
      | none => .error (.refused "truncated content")
      | some content => do
          let after ← sliceFrom (b0 :: tail) (header.length + len)
          return (⟨b0 >>> 6, b0 &&& 0x20 != 0, number, content⟩, after)) := by
    rw [← hidx, readTlv, hnumber]
    simp only [checked, bind, Except.bind, hlen]
  rw [hread, if_neg (by omega), hinput, slice, sliceFrom]
  simp only [List.length_append, Nat.add_sub_cancel_left, Nat.add_le_add_iff_left,
    Nat.le_add_right, true_and, List.drop_append]
  split_ifs with hfits
  · simp [bind, Except.bind, pure, Except.pure]
  · rfl

theorem readTlv_encode (h : tlv.Encodable) (rest : Bytes) :
    readTlv (tlv.encode ++ rest) = .ok (tlv, rest) := by
  obtain ⟨cls, constructed, number, content⟩ := tlv
  obtain ⟨b0, digits, htag, rfl, rfl, hnumber⟩ := readNumber_encodeTag constructed h.cls h.number
  have htagLength := encodeTag_length (b0 >>> 6) (b0 &&& 0x20 != 0) h.number
  have hcontent : content.length < 2 ^ 32 := h.content
  have hlenLength := encodeLength_length hcontent
  have hinput : (Tlv.mk (b0 >>> 6) (b0 &&& 0x20 != 0) number content).encode ++ rest =
      b0 :: (digits ++ (encodeLength content.length ++ (content ++ rest))) := by
    simp [Tlv.encode, htag]
  have hheader : b0 :: (digits ++ (encodeLength content.length ++ (content ++ rest))) =
      (b0 :: (digits ++ encodeLength content.length)) ++ (content ++ rest) := by simp
  have hsmall : (b0 :: (digits ++ encodeLength content.length)).length + content.length < 2 ^ 64 := by
    rw [htag] at htagLength
    simp only [List.length_cons, List.length_append] at htagLength ⊢
    omega
  rw [hinput, readTlv_eq (hnumber _) (readLength_encodeLength h.content _) hheader hsmall]
  simp

/-- What reading comes to: the input is refused, or it begins with the encoding of the element. -/
theorem readTlv_cases (input : Bytes) : (∃ why, readTlv input = .error (.refused why)) ∨
    ∃ tlv rest, tlv.Encodable ∧ input = tlv.encode ++ rest ∧ readTlv input = .ok (tlv, rest) := by
  cases input with
  | nil => exact .inl ⟨_, rfl⟩
  | cons b0 tail =>
    cases hnumber : readNumber b0 tail with
    | error why => exact .inl ⟨why, by rw [readTlv, hnumber]; rfl⟩
    | ok read =>
      obtain ⟨number, rest⟩ := read
      cases hlen : readLength rest with
      | error why => exact .inl ⟨why, by rw [readTlv, hnumber]; simp [checked, bind, Except.bind, hlen]⟩
      | ok read =>
        obtain ⟨len, body⟩ := read
        obtain ⟨hbound, htag⟩ := readNumber_ok hnumber
        obtain ⟨hbound', rfl⟩ := readLength_ok hlen
        have htagLength := encodeTag_length (b0 >>> 6) (b0 &&& 0x20 != 0) hbound
        have hlenLength := encodeLength_length hbound'
        rw [← List.append_assoc] at htag
        rw [readTlv_eq hnumber hlen htag (by rw [List.length_append]; omega)]
        split_ifs with hfits
        · have hwidth : (body.take len).length = len := List.length_take_of_le hfits
          refine .inr ⟨_, _, ⟨(leadByte_of_fields b0).1, hbound, by rwa [hwidth]⟩, ?_, rfl⟩
          rw [Tlv.encode, hwidth, htag]
          simp
        · exact .inl ⟨_, rfl⟩

theorem Tlv.encode_ne_nil (tlv : Tlv) : tlv.encode ≠ [] := by
  rw [Tlv.encode, encodeTag]
  split_ifs <;> simp

/-- An element takes some of the input. -/
theorem readTlv_shorter (h : readTlv input = .ok (tlv, rest)) : rest.length < input.length := by
  rcases readTlv_cases input with ⟨why, hread⟩ | ⟨tlv', rest', -, hinput, hread⟩
  · cases hread.symm.trans h
  · cases hread.symm.trans h
    rw [hinput, List.length_append]
    exact Nat.lt_add_of_pos_left (List.length_pos_iff.mpr tlv.encode_ne_nil)

/-- Elements until there is nothing left. -/
def children (content : Bytes) : Except Fault (List Tlv) :=
  if content = [] then .ok []
  else
    match _h : readTlv content with
    | .error fault => .error fault
    | .ok (tlv, rest) => (children rest).map (tlv :: ·)
termination_by content.length
decreasing_by exact readTlv_shorter _h

theorem children_nil : children [] = .ok [] := by
  rw [children, if_pos rfl]

theorem children_encode (h : tlv.Encodable) (rest : Bytes) :
    children (tlv.encode ++ rest) = (children rest).map (tlv :: ·) := by
  have hne : tlv.encode ++ rest ≠ [] := by simp [tlv.encode_ne_nil]
  rw [children, if_neg hne]
  split
  · next fault hread => cases hread.symm.trans (readTlv_encode h rest)
  · next tlv' rest' hread =>
    cases hread.symm.trans (readTlv_encode h rest)
    rfl

theorem children_append (tlvs : List Tlv) (h : ∀ tlv ∈ tlvs, tlv.Encodable) :
    children (tlvs.flatMap Tlv.encode) = .ok tlvs := by
  induction tlvs with
  | nil => exact children_nil
  | cons tlv tlvs ih =>
    rw [List.forall_mem_cons] at h
    rw [List.flatMap_cons, children_encode h.1, ih h.2]
    rfl

/-- What reading all of it comes to: it is refused, or it is the encodings of the elements. -/
theorem children_cases (content : Bytes) : (∃ why, children content = .error (.refused why)) ∨
    ∃ tlvs : List Tlv, (∀ tlv ∈ tlvs, tlv.Encodable) ∧ content = tlvs.flatMap Tlv.encode ∧
      children content = .ok tlvs := by
  induction hn : content.length using Nat.strong_induction_on generalizing content with
  | _ n ih =>
    rcases eq_or_ne content [] with rfl | hne
    · exact .inr ⟨[], nofun, rfl, children_nil⟩
    · rcases readTlv_cases content with ⟨why, hread⟩ | ⟨tlv, rest, htlv, rfl, hread⟩
      · refine .inl ⟨why, ?_⟩
        rw [children, if_neg hne]
        split
        · next hread' =>
          cases hread.symm.trans hread'
          rfl
        · next hread' => cases hread.symm.trans hread'
      · rcases ih _ (hn ▸ readTlv_shorter hread) rest rfl with ⟨why, hrest⟩ | ⟨tlvs, htlvs, rfl, hrest⟩
        · exact .inl ⟨why, by rw [children_encode htlv, hrest]; rfl⟩
        · refine .inr ⟨tlv :: tlvs, List.forall_mem_cons.mpr ⟨htlv, htlvs⟩, rfl, ?_⟩
          rw [children_encode htlv, hrest]
          rfl

/-- The reader takes the encodings of elements and nothing else, one or all of them, and it never
    looks past the end. Each element leaves less to read, so reading all of them ends. -/
theorem der_reader_exact :
    (∀ (tlv : Tlv) (rest : Bytes), tlv.Encodable → readTlv (tlv.encode ++ rest) = .ok (tlv, rest)) ∧
    (∀ (input : Bytes) (tlv : Tlv) (rest : Bytes), readTlv input = .ok (tlv, rest) →
      tlv.Encodable ∧ input = tlv.encode ++ rest ∧ rest.length < input.length) ∧
    (∀ (content : Bytes) (tlvs : List Tlv), children content = .ok tlvs ↔
      (∀ tlv ∈ tlvs, tlv.Encodable) ∧ content = tlvs.flatMap Tlv.encode) ∧
    ∀ content : Bytes, readTlv content ≠ .error .panicked ∧ children content ≠ .error .panicked := by
  refine ⟨fun tlv rest h => readTlv_encode h rest, fun input tlv rest h => ?_,
    fun content tlvs => ⟨fun h => ?_, ?_⟩, fun content => ⟨fun h => ?_, fun h => ?_⟩⟩
  · have hshorter := readTlv_shorter h
    rcases readTlv_cases input with ⟨why, hread⟩ | ⟨tlv', rest', htlv, hinput, hread⟩
    · cases hread.symm.trans h
    · cases hread.symm.trans h
      exact ⟨htlv, hinput, hshorter⟩
  · rcases children_cases content with ⟨why, hread⟩ | ⟨tlvs', htlvs, hcontent, hread⟩
    · cases hread.symm.trans h
    · cases hread.symm.trans h
      exact ⟨htlvs, hcontent⟩
  · rintro ⟨htlvs, rfl⟩
    exact children_append tlvs htlvs
  · rcases readTlv_cases content with ⟨why, hread⟩ | ⟨_, _, -, -, hread⟩ <;>
      cases hread.symm.trans h
  · rcases children_cases content with ⟨why, hread⟩ | ⟨_, -, -, hread⟩ <;>
      cases hread.symm.trans h

theorem der_reader_exact_context :
    readTlv ((Tlv.mk 2 true 704 [5, 0]).encode ++ [1]) = .ok (⟨2, true, 704, [5, 0]⟩, [1]) ∧
      [1].length < ((Tlv.mk 2 true 704 [5, 0]).encode ++ [1]).length :=
  have hread := der_reader_exact.1 ⟨2, true, 704, [5, 0]⟩ [1] ⟨by decide, by decide, by decide⟩
  ⟨hread, (der_reader_exact.2.1 _ _ _ hread).2.2⟩

/-! ### Integers -/

/-- The content of a number that is not negative: as few bytes as leave the sign bit clear. -/
def derInteger (n : Nat) : Bytes :=
  let digits := (numeral 256 n).map UInt8.ofNat
  if digits.head?.any (· < 128) then digits else 0 :: digits

/-- Not negative, and without a byte in front that says nothing. -/
def isMinimal : Bytes → Bool
  | [] => false
  | [b] => b < 128
  | b :: c :: _ => b < 128 && !(b == 0 && c < 128)

theorem bigEndian_zero (content : Bytes) : bigEndian (0 :: content) = bigEndian content := by
  simp [bigEndian, readNumeral]

/-- A minimal content is the only one of its number. -/
theorem derInteger_bigEndian {content : Bytes} (h : isMinimal content = true) :
    derInteger (bigEndian content) = content := by
  match content with
  | [] => cases h
  | b :: rest =>
    rcases eq_or_ne b 0 with rfl | hb
    · -- a zero in front is there for the sign bit of the next byte
      match rest with
      | [] => rfl
      | c :: rest =>
        have hc : ¬ c < 128 := by simpa [isMinimal] using h
        have hzero : c ≠ 0 := by
          rintro rfl
          exact hc (by decide)
        rw [bigEndian_zero, derInteger, numeral_bigEndian (by simpa using hzero)]
        simp [hc]
    · have hlt : b < 128 := by
        match rest with
        | [] => simpa [isMinimal] using h
        | c :: rest => simpa [isMinimal, hb] using h
      rw [derInteger, numeral_bigEndian (by simpa using hb)]
      simp [hlt]

end DeviceUniqueness.KeyAttest
