import DeviceUniqueness.Outbox.Schema

/-! Strings as the services write and read them.

    Everything the services format themselves is ASCII: one byte a character. Bytes are written as
    two hexadecimal digits each and numbers in decimal, and both can be read back. -/

namespace DeviceUniqueness

/-- The string of ASCII bytes. -/
def ofAscii (text : Bytes) : String := String.ofList (text.map fun b => Char.ofNat b.toNat)

/-- `String::from_utf8`. -/
def fromUtf8 (bytes : Bytes) : Option String := String.fromUTF8? ⟨bytes.toArray⟩

/-- `char::is_whitespace`. -/
def isWhitespace (c : Char) : Bool :=
  (0x9 ≤ c.val && c.val ≤ 0xd) || c.val = 0x20 || c.val = 0x85 || c.val = 0xa0 ||
    c.val = 0x1680 || (0x2000 ≤ c.val && c.val ≤ 0x200a) || c.val = 0x2028 || c.val = 0x2029 ||
    c.val = 0x202f || c.val = 0x205f || c.val = 0x3000

/-- `str::trim`. -/
def trim (s : String) : String :=
  String.ofList ((s.toList.dropWhile isWhitespace).reverse.dropWhile isWhitespace).reverse

/-- The `Debug` form of a text, as far as its characters are ASCII. -/
def debugText (text : String) : String :=
  String.ofList ('"' :: text.toList.flatMap escape ++ ['"'])
where
  escape : Char → List Char
    | '"' => ['\\', '"']
    | '\\' => ['\\', '\\']
    | '\t' => ['\\', 't']
    | c => [c]

def isAsciiDigit (b : UInt8) : Bool := 48 ≤ b && b ≤ 57

/-- The value of a hexadecimal digit of either case. -/
def hexValue (b : UInt8) : Option UInt8 :=
  if 48 ≤ b ∧ b ≤ 57 then some (b - 48)
  else if 97 ≤ b ∧ b ≤ 102 then some (b - 87)
  else if 65 ≤ b ∧ b ≤ 70 then some (b - 55)
  else none

def isHexDigit (b : UInt8) : Bool := (hexValue b).isSome

/-- `hex::decode`. -/
def hexDecode : Bytes → Option Bytes
  | [] => some []
  | [_] => none
  | high :: low :: rest => do
      let h ← hexValue high
      let l ← hexValue low
      let bytes ← hexDecode rest
      return (16 * h + l) :: bytes

/-- `hex::encode`. -/
def hexLower (bytes : Bytes) : String :=
  String.ofList (bytes.flatMap fun b => [digit (b / 16), digit (b % 16)])
where
  digit (n : UInt8) : Char := Char.ofNat (if n < 10 then 48 + n.toNat else 87 + n.toNat)

/-- `0x` and the digits. -/
def hexEncode (bytes : Bytes) : String :=
  String.ofList ('0' :: 'x' :: bytes.flatMap fun b => [digit (b / 16), digit (b % 16)])
where
  digit (n : UInt8) : Char := Char.ofNat (if n < 10 then 48 + n.toNat else 87 + n.toNat)

/-- `to_ascii_lowercase`. -/
def toAsciiLowercase (b : UInt8) : UInt8 := if 65 ≤ b ∧ b ≤ 90 then b + 32 else b

/-- What the digits of a number come to, if there are any and nothing else. -/
def readDigits (digits : Bytes) : Option Nat :=
  if digits.isEmpty || !digits.all isAsciiDigit then none
  else some (digits.foldl (fun n b => 10 * n + (b.toNat - 48)) 0)

/-- `parse` of an unsigned integer below the bound: a plus sign may come first. -/
def parseUnsigned (bound : Nat) (text : Bytes) : Option Nat :=
  let digits := match text with
    | 43 :: rest => rest
    | _ => text
  (readDigits digits).filter (· < bound)

/-- `parse` of an `i64`. -/
def parseI64 : Bytes → Option Int
  | 45 :: digits => ((readDigits digits).filter (· ≤ 2 ^ 63)).map fun n => -n
  | text => (parseUnsigned (2 ^ 63) text).map Int.ofNat

/-- `to_str_radix`. -/
def toStrRadix (radix n : Nat) : String := String.ofList (Nat.toDigits radix n)

/-- `u64::to_be_bytes`. -/
def beBytes64 (n : Nat) : Bytes := (List.range 8).map fun i => UInt8.ofNat (n / 256 ^ (7 - i))

/-! ### ASCII -/

@[simp]
theorem utf8_append (s t : String) : utf8 (s ++ t) = utf8 s ++ utf8 t := by
  simp [utf8_eq]

/-- An ASCII character is one byte. -/
theorem utf8_ascii : ∀ n < 128, String.utf8EncodeChar (Char.ofNat n) = [UInt8.ofNat n] := by
  decide +kernel

theorem utf8_ofAscii {text : Bytes} (h : ∀ b ∈ text, b < 128) : utf8 (ofAscii text) = text := by
  rw [utf8_eq, ofAscii, String.toList_ofList, List.flatMap_map]
  conv_rhs => rw [← List.flatMap_singleton' text]
  refine List.flatMap_congr fun b hb => ?_
  rw [utf8_ascii _ (UInt8.lt_iff_toNat_lt.mp (h b hb)), UInt8.ofNat_toNat]

theorem ofAscii_utf8 {s : String} (h : ∀ b ∈ utf8 s, b < 128) : ofAscii (utf8 s) = s :=
  utf8_injective (utf8_ofAscii h)

@[simp]
theorem fromUtf8_utf8 (s : String) : fromUtf8 (utf8 s) = some s := by
  have hvalid : (⟨(utf8 s).toArray⟩ : ByteArray) = s.toByteArray := rfl
  rw [fromUtf8, hvalid, String.fromUTF8?, dif_pos s.isValidUTF8]
  rfl

/-- A string without whitespace is trimmed already. -/
theorem trim_eq_self {s : String} (h : ∀ c ∈ s.toList, isWhitespace c = false) : trim s = s := by
  have hleft : s.toList.dropWhile isWhitespace = s.toList := by
    cases hs : s.toList with
    | nil => rfl
    | cons c cs => rw [List.dropWhile_cons_of_neg (by simp [h c (by simp [hs])])]
  have hright : s.toList.reverse.dropWhile isWhitespace = s.toList.reverse := by
    cases hs : s.toList.reverse with
    | nil => rfl
    | cons c cs =>
      have hc : c ∈ s.toList := List.mem_reverse.mp (by simp [hs])
      rw [List.dropWhile_cons_of_neg (by simp [h c hc])]
  rw [trim, hleft, hright, List.reverse_reverse, String.ofList_toList]

/-! ### Hexadecimal -/

/-- Two digits make a byte, and a digit too many makes nothing. -/
theorem hexDecode_width : ∀ digits : Bytes, (∀ b ∈ digits, (hexValue b).isSome) →
    (hexDecode digits).map List.length =
      if digits.length % 2 = 0 then some (digits.length / 2) else none
  | [], _ | [_], _ => rfl
  | high :: low :: rest, h => by
    have ih := hexDecode_width rest fun b hb =>
      h b (List.mem_cons_of_mem _ (List.mem_cons_of_mem _ hb))
    obtain ⟨x, hx⟩ := Option.isSome_iff_exists.mp (h high (by simp))
    obtain ⟨y, hy⟩ := Option.isSome_iff_exists.mp (h low (by simp))
    have hstep : (hexDecode (high :: low :: rest)).map List.length =
        ((hexDecode rest).map List.length).map (· + 1) := by
      simp only [hexDecode, hx, hy]
      cases hexDecode rest <;> rfl
    rw [hstep, ih, List.length_cons, List.length_cons]
    split_ifs <;> simp <;> omega

/-- Only digits are decoded. -/
theorem isSome_hexValue : ∀ {digits bytes : Bytes}, hexDecode digits = some bytes →
    ∀ b ∈ digits, (hexValue b).isSome
  | [], _, _ => nofun
  | [_], _, h => by cases h
  | high :: low :: rest, bytes, h => by
    obtain ⟨x, hx, h⟩ := Option.bind_eq_some_iff.mp h
    obtain ⟨y, hy, h⟩ := Option.bind_eq_some_iff.mp h
    obtain ⟨tail, htail, -⟩ := Option.bind_eq_some_iff.mp h
    simp only [List.forall_mem_cons, hx, hy, Option.isSome_some, true_and]
    exact isSome_hexValue htail

/-- The digits of a byte are two bytes of text that read back as its halves. -/
theorem hexLower_digits (b : UInt8) : ∃ high low,
    String.utf8EncodeChar (hexLower.digit (b / 16)) = [high] ∧
    String.utf8EncodeChar (hexLower.digit (b % 16)) = [low] ∧
    hexValue high = some (b / 16) ∧ hexValue low = some (b % 16) := by
  have htable : ∀ n : Fin 16, String.utf8EncodeChar (hexLower.digit (.ofNat n)) =
      [UInt8.ofNat (hexLower.digit (.ofNat n)).toNat] ∧
      hexValue (UInt8.ofNat (hexLower.digit (.ofNat n)).toNat) = some (.ofNat n) := by
    decide +kernel
  have hhalf : ∀ n : UInt8, n < 16 → String.utf8EncodeChar (hexLower.digit n) =
      [UInt8.ofNat (hexLower.digit n).toNat] ∧
      hexValue (UInt8.ofNat (hexLower.digit n).toNat) = some n := fun n hn => by
    simpa using htable ⟨n.toNat, UInt8.lt_iff_toNat_lt.mp hn⟩
  have hhigh : b / 16 < 16 := by
    rw [UInt8.lt_iff_toNat_lt, UInt8.toNat_div]
    exact Nat.div_lt_of_lt_mul b.toNat_lt
  have hlow : b % 16 < 16 := by
    rw [UInt8.lt_iff_toNat_lt, UInt8.toNat_mod]
    exact Nat.mod_lt _ (by decide)
  obtain ⟨htext, hvalue⟩ := hhalf _ hhigh
  obtain ⟨htext', hvalue'⟩ := hhalf _ hlow
  exact ⟨_, _, htext, htext', hvalue, hvalue'⟩

/-- `hex::decode` of `hex::encode`. -/
theorem hexDecode_hexLower (bytes : Bytes) : hexDecode (utf8 (hexLower bytes)) = some bytes := by
  rw [utf8_eq, hexLower, String.toList_ofList]
  induction bytes with
  | nil => rfl
  | cons b bytes ih =>
    obtain ⟨high, low, hhigh, hlow, hvalue, hvalue'⟩ := hexLower_digits b
    have hbyte : 16 * (b / 16) + b % 16 = b := by
      apply UInt8.toNat_inj.mp
      have hlt := b.toNat_lt
      simp only [UInt8.toNat_add, UInt8.toNat_mul, UInt8.toNat_div, UInt8.toNat_mod,
        UInt8.reduceToNat]
      omega
    simp only [List.flatMap_cons, List.cons_append, List.nil_append, hhigh, hlow, hexDecode, hvalue,
      hvalue', ih]
    exact congrArg (fun x => some (x :: bytes)) hbyte

theorem hexLower_inj {xs ys : Bytes} (h : hexLower xs = hexLower ys) : xs = ys := by
  have hdecoded := hexDecode_hexLower xs
  rw [h, hexDecode_hexLower] at hdecoded
  exact (Option.some.inj hdecoded).symm

theorem hexEncode_inj {xs ys : Bytes} (h : hexEncode xs = hexEncode ys) : xs = ys := by
  have hchars := String.ofList_injective h
  rw [List.cons.injEq, List.cons.injEq] at hchars
  exact hexLower_inj (congrArg String.ofList hchars.2.2)

theorem utf8_hexLower_append (xs ys : Bytes) :
    utf8 (hexLower (xs ++ ys)) = utf8 (hexLower xs) ++ utf8 (hexLower ys) := by
  simp only [utf8_eq, hexLower, String.toList_ofList, List.flatMap_append]

/-- There are two digits for a byte. -/
theorem length_hexLower (bytes : Bytes) : (utf8 (hexLower bytes)).length = 2 * bytes.length := by
  rw [utf8_eq, hexLower, String.toList_ofList]
  induction bytes with
  | nil => rfl
  | cons b bytes ih =>
    obtain ⟨high, low, hhigh, hlow, -⟩ := hexLower_digits b
    simp only [List.flatMap_cons, List.cons_append, List.nil_append, hhigh, hlow, List.length_cons,
      ih]
    omega

/-! ### Numbers -/

@[simp]
theorem length_beBytes64 (n : Nat) : (beBytes64 n).length = 8 := by
  simp [beBytes64]

theorem beBytes64_injOn : Set.InjOn beBytes64 {n | n < 2 ^ 64} := by
  intro n hn m hm h
  replace hn : n < 2 ^ 64 := hn
  replace hm : m < 2 ^ 64 := hm
  have hbyte : ∀ i < 8, n / 256 ^ (7 - i) % 256 = m / 256 ^ (7 - i) % 256 := by
    intro i hi
    have hi := List.map_inj_left.mp h i (List.mem_range.mpr hi)
    simpa using congrArg UInt8.toNat hi
  have h0 := hbyte 0 (by decide)
  have h1 := hbyte 1 (by decide)
  have h2 := hbyte 2 (by decide)
  have h3 := hbyte 3 (by decide)
  have h4 := hbyte 4 (by decide)
  have h5 := hbyte 5 (by decide)
  have h6 := hbyte 6 (by decide)
  have h7 := hbyte 7 (by decide)
  simp only [Nat.reduceSub, Nat.reducePow] at *
  omega

theorem toNat_digit {n : Nat} {c : Char} (hc : c ∈ Nat.toDigits 10 n) :
    48 ≤ c.toNat ∧ c.toNat ≤ 57 := by
  have hdigit := Nat.isDigit_of_mem_toDigits (by decide) (by decide) hc
  simpa [Char.isDigit, UInt32.le_iff_toNat_le] using hdigit

theorem utf8_toString (n : Nat) :
    utf8 (toString n) = (Nat.toDigits 10 n).map fun c => UInt8.ofNat c.toNat := by
  rw [utf8_eq, Nat.toString_eq_repr, Nat.toList_repr]
  conv_rhs => rw [← List.flatMap_singleton' (List.map _ _), List.flatMap_map]
  refine List.flatMap_congr fun c hc => ?_
  have hlt := (toNat_digit hc).2
  rw [← utf8_ascii c.toNat (by omega), Char.ofNat_toNat]

theorem isAsciiDigit_toString (n : Nat) : ∀ b ∈ utf8 (toString n), isAsciiDigit b = true := by
  rw [utf8_toString, List.forall_mem_map]
  intro c hc
  obtain ⟨hle, hge⟩ := toNat_digit hc
  simp only [isAsciiDigit, Bool.and_eq_true, decide_eq_true_eq, UInt8.le_iff_toNat_le,
    UInt8.toNat_ofNat', UInt8.reduceToNat]
  omega

theorem readDigits_toString (n : Nat) : readDigits (utf8 (toString n)) = some n := by
  have hsome : (utf8 (toString n)).isEmpty = false := by
    rw [utf8_toString, List.isEmpty_map, List.isEmpty_eq_false_iff]
    exact Nat.toDigits_ne_nil
  have hvalue : (utf8 (toString n)).foldl (fun n b => 10 * n + (b.toNat - 48)) 0 = n := by
    have hread := Nat.ofDigitChars_ten_toDigits (n := n)
    rw [Nat.ofDigitChars_eq_foldl] at hread
    conv_rhs => rw [← hread]
    rw [utf8_toString, List.foldl_map]
    refine List.foldl_ext _ _ _ fun m c hc => ?_
    have hlt := (toNat_digit hc).2
    have hmod : c.toNat % 256 = c.toNat := by omega
    simp [UInt8.toNat_ofNat', hmod]
  rw [readDigits, hsome, List.all_eq_true.mpr (isAsciiDigit_toString n), hvalue]
  rfl

theorem parseUnsigned_toString {bound n : Nat} (h : n < bound) :
    parseUnsigned bound (utf8 (toString n)) = some n := by
  have hsign : ∀ rest, utf8 (toString n) ≠ 43 :: rest := fun rest heq =>
    absurd (isAsciiDigit_toString n 43 (heq ▸ List.mem_cons_self)) (by decide)
  unfold parseUnsigned
  split
  · next heq => exact absurd heq (hsign _)
  · simp only [readDigits_toString, Option.filter_some, if_pos (decide_eq_true h)]

theorem parseI64_toString {n : Nat} (h : n < 2 ^ 63) :
    parseI64 (utf8 (toString n)) = some (n : Int) := by
  unfold parseI64
  split
  · next digits heq =>
    exact absurd (isAsciiDigit_toString n 45 (heq ▸ List.mem_cons_self)) (by decide)
  · rw [parseUnsigned_toString h]
    rfl

end DeviceUniqueness
