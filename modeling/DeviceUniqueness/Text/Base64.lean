import DeviceUniqueness.Outbox.Schema

/-! Base64 as the strict decoder of the standard alphabet reads it.

    What it decodes is encoded back to the same text, and it decodes all that is encoded. Of the texts
    that are symbols and padding in groups of four it decodes those whose last symbol before the
    padding has no bits to spare. -/

namespace DeviceUniqueness

def base64Value (b : UInt8) : Option UInt8 :=
  if 65 ≤ b ∧ b ≤ 90 then some (b - 65)
  else if 97 ≤ b ∧ b ≤ 122 then some (b - 71)
  else if 48 ≤ b ∧ b ≤ 57 then some (b + 4)
  else if b = 43 then some 62
  else if b = 47 then some 63
  else none

/-- The standard alphabet, padded: a last group may end in `=` or `==`, and the bits it has left over
    must be zero. -/
def base64Decode : Bytes → Option Bytes
  | [] => some []
  | [a, b, 61, 61] => do
      let x ← base64Value a
      let y ← base64Value b
      if y % 16 = 0 then some [4 * x + y / 16] else none
  | [a, b, c, 61] => do
      let x ← base64Value a
      let y ← base64Value b
      let z ← base64Value c
      if z % 4 = 0 then some [4 * x + y / 16, 16 * y + z / 4] else none
  | a :: b :: c :: d :: rest => do
      let x ← base64Value a
      let y ← base64Value b
      let z ← base64Value c
      let w ← base64Value d
      let bytes ← base64Decode rest
      return (4 * x + y / 16) :: (16 * y + z / 4) :: (64 * z + w) :: bytes
  | _ => none

def base64Symbol (v : UInt8) : UInt8 :=
  if v < 26 then v + 65
  else if v < 52 then v + 71
  else if v < 62 then v - 4
  else if v = 62 then 43
  else 47

/-- The standard alphabet, padded. -/
def base64Encode : Bytes → Bytes
  | [] => []
  | [a] => [base64Symbol (a / 4), base64Symbol (a % 4 * 16), 61, 61]
  | [a, b] =>
      [base64Symbol (a / 4), base64Symbol (a % 4 * 16 + b / 16), base64Symbol (b % 16 * 4), 61]
  | a :: b :: c :: rest =>
      base64Symbol (a / 4) :: base64Symbol (a % 4 * 16 + b / 16) ::
        base64Symbol (b % 16 * 4 + c / 64) :: base64Symbol (c % 64) :: base64Encode rest

/-- No bits are lost in the last group: the symbol before `==` has four zeros at its end, and the one
    before a single `=` has two. -/
def spareBitsZero (text : Bytes) : Bool :=
  match text.reverse with
  | 61 :: 61 :: b :: _ => b ∈ utf8 "AQgw"
  | 61 :: c :: _ => c ∈ utf8 "AEIMQUYcgkosw048"
  | _ => true

/-! ### The alphabet -/

/-- What a symbol stands for has six bits and stands for nothing else; with the symbols of the values
    that end in zeros. -/
structure IsSymbol (b v : UInt8) : Prop where
  lt : v < 64
  symbol : base64Symbol v = b
  four : v % 16 = 0 ↔ b ∈ utf8 "AQgw"
  two : v % 4 = 0 ↔ b ∈ utf8 "AEIMQUYcgkosw048"

theorem isSymbol_of_value {b v : UInt8} (h : base64Value b = some v) : IsSymbol b v := by
  have htable : ∀ n : Fin 256, (base64Value (.ofFin n)).all fun v =>
      v < 64 ∧ base64Symbol v = .ofFin n ∧ (v % 16 = 0 ↔ .ofFin n ∈ utf8 "AQgw") ∧
        (v % 4 = 0 ↔ .ofFin n ∈ utf8 "AEIMQUYcgkosw048") := by
    decide +kernel
  have hb := htable b.toFin
  rw [UInt8.ofFin_toFin, h, Option.all_some, decide_eq_true_eq] at hb
  exact ⟨hb.1, hb.2.1, hb.2.2.1, hb.2.2.2⟩

/-! ### Decoding, and encoding back -/

section Group

variable {x y z w : UInt8}

theorem group_first (hx : x < 64) (hy : y < 64) : (4 * x + y / 16) / 4 = x := by
  apply UInt8.toNat_inj.mp
  simp only [UInt8.lt_iff_toNat_lt, UInt8.toNat_div, UInt8.toNat_add, UInt8.toNat_mul,
    UInt8.reduceToNat] at *
  omega

theorem group_second (hy : y < 64) (hz : z < 64) :
    (4 * x + y / 16) % 4 * 16 + (16 * y + z / 4) / 16 = y := by
  apply UInt8.toNat_inj.mp
  simp only [UInt8.lt_iff_toNat_lt, UInt8.toNat_div, UInt8.toNat_mod, UInt8.toNat_add,
    UInt8.toNat_mul, UInt8.reduceToNat] at *
  omega

theorem group_third (hz : z < 64) (hw : w < 64) :
    (16 * y + z / 4) % 16 * 4 + (64 * z + w) / 64 = z := by
  apply UInt8.toNat_inj.mp
  simp only [UInt8.lt_iff_toNat_lt, UInt8.toNat_div, UInt8.toNat_mod, UInt8.toNat_add,
    UInt8.toNat_mul, UInt8.reduceToNat] at *
  omega

theorem group_fourth (hw : w < 64) : (64 * z + w) % 64 = w := by
  apply UInt8.toNat_inj.mp
  simp only [UInt8.lt_iff_toNat_lt, UInt8.toNat_mod, UInt8.toNat_add, UInt8.toNat_mul,
    UInt8.reduceToNat] at *
  omega

/-- The second symbol is the last one, so nothing of it is left for a second byte. -/
theorem group_second_last (hy : y < 64) (hspare : y % 16 = 0) :
    (4 * x + y / 16) % 4 * 16 = y := by
  apply UInt8.toNat_inj.mp
  simp only [UInt8.lt_iff_toNat_lt, ← UInt8.toNat_inj, UInt8.toNat_div, UInt8.toNat_mod,
    UInt8.toNat_add, UInt8.toNat_mul, UInt8.reduceToNat] at *
  omega

theorem group_third_last (hz : z < 64) (hspare : z % 4 = 0) :
    (16 * y + z / 4) % 16 * 4 = z := by
  apply UInt8.toNat_inj.mp
  simp only [UInt8.lt_iff_toNat_lt, ← UInt8.toNat_inj, UInt8.toNat_div, UInt8.toNat_mod,
    UInt8.toNat_add, UInt8.toNat_mul, UInt8.reduceToNat] at *
  omega

end Group

/-- A text that is decoded is the one its bytes are encoded as. -/
theorem base64Encode_of_decode {text bytes : Bytes} (h : base64Decode text = some bytes) :
    base64Encode bytes = text := by
  fun_induction base64Decode text generalizing bytes with
  | case1 =>
    cases h
    rfl
  | case2 a b =>
    obtain ⟨x, hx, h⟩ := Option.bind_eq_some_iff.mp h
    obtain ⟨y, hy, h⟩ := Option.bind_eq_some_iff.mp h
    have hx := isSymbol_of_value hx
    have hy := isSymbol_of_value hy
    split at h
    · next hspare =>
      cases h
      rw [base64Encode, group_first hx.lt hy.lt, group_second_last hy.lt hspare, hx.symbol,
        hy.symbol]
    · cases h
  | case3 a b c _ =>
    obtain ⟨x, hx, h⟩ := Option.bind_eq_some_iff.mp h
    obtain ⟨y, hy, h⟩ := Option.bind_eq_some_iff.mp h
    obtain ⟨z, hz, h⟩ := Option.bind_eq_some_iff.mp h
    have hx := isSymbol_of_value hx
    have hy := isSymbol_of_value hy
    have hz := isSymbol_of_value hz
    split at h
    · next hspare =>
      cases h
      rw [base64Encode, group_first hx.lt hy.lt, group_second hy.lt hz.lt,
        group_third_last hz.lt hspare, hx.symbol, hy.symbol, hz.symbol]
    · cases h
  | case4 a b c d rest _ _ ih =>
    obtain ⟨x, hx, h⟩ := Option.bind_eq_some_iff.mp h
    obtain ⟨y, hy, h⟩ := Option.bind_eq_some_iff.mp h
    obtain ⟨z, hz, h⟩ := Option.bind_eq_some_iff.mp h
    obtain ⟨w, hw, h⟩ := Option.bind_eq_some_iff.mp h
    obtain ⟨others, hothers, h⟩ := Option.bind_eq_some_iff.mp h
    have hx := isSymbol_of_value hx
    have hy := isSymbol_of_value hy
    have hz := isSymbol_of_value hz
    have hw := isSymbol_of_value hw
    cases h
    rw [base64Encode, group_first hx.lt hy.lt, group_second hy.lt hz.lt, group_third hz.lt hw.lt,
      group_fourth hw.lt, hx.symbol, hy.symbol, hz.symbol, hw.symbol, ih hothers]
  | case5 => cases h

/-! ### Encoding, and decoding back -/

theorem base64Value_symbol {v : UInt8} (h : v < 64) : base64Value (base64Symbol v) = some v := by
  have htable : ∀ n : Fin 64, base64Value (base64Symbol (.ofNat n)) = some (.ofNat n) := by
    decide +kernel
  simpa using htable ⟨v.toNat, UInt8.lt_iff_toNat_lt.mp h⟩

section Bytes

variable (a b c : UInt8)

theorem sextet_first : a / 4 < 64 := by
  have ha := a.toNat_lt
  simp only [UInt8.lt_iff_toNat_lt, UInt8.toNat_div, UInt8.reduceToNat]
  omega

theorem sextet_second : a % 4 * 16 + b / 16 < 64 := by
  have hb := b.toNat_lt
  simp only [UInt8.lt_iff_toNat_lt, UInt8.toNat_add, UInt8.toNat_mul, UInt8.toNat_div,
    UInt8.toNat_mod, UInt8.reduceToNat]
  omega

theorem sextet_third : b % 16 * 4 + c / 64 < 64 := by
  have hc := c.toNat_lt
  simp only [UInt8.lt_iff_toNat_lt, UInt8.toNat_add, UInt8.toNat_mul, UInt8.toNat_div,
    UInt8.toNat_mod, UInt8.reduceToNat]
  omega

theorem sextet_fourth : c % 64 < 64 := by
  simp only [UInt8.lt_iff_toNat_lt, UInt8.toNat_mod, UInt8.reduceToNat]
  omega

theorem byte_first : 4 * (a / 4) + (a % 4 * 16 + b / 16) / 16 = a := by
  have ha := a.toNat_lt
  have hb := b.toNat_lt
  apply UInt8.toNat_inj.mp
  simp only [UInt8.toNat_add, UInt8.toNat_mul, UInt8.toNat_div, UInt8.toNat_mod, UInt8.reduceToNat]
  omega

theorem byte_second : 16 * (a % 4 * 16 + b / 16) + (b % 16 * 4 + c / 64) / 4 = b := by
  have hb := b.toNat_lt
  have hc := c.toNat_lt
  apply UInt8.toNat_inj.mp
  simp only [UInt8.toNat_add, UInt8.toNat_mul, UInt8.toNat_div, UInt8.toNat_mod, UInt8.reduceToNat]
  omega

theorem byte_third : 64 * (b % 16 * 4 + c / 64) + c % 64 = c := by
  have hc := c.toNat_lt
  apply UInt8.toNat_inj.mp
  simp only [UInt8.toNat_add, UInt8.toNat_mul, UInt8.toNat_div, UInt8.toNat_mod, UInt8.reduceToNat]
  omega

end Bytes

theorem ne_pad {b : UInt8} (h : (base64Value b).isSome = true) : b ≠ 61 := by
  rintro rfl
  cases h

/-- Every text that is encoded is decoded. -/
theorem base64Decode_encode (bytes : Bytes) : base64Decode (base64Encode bytes) = some bytes := by
  fun_induction base64Encode bytes with
  | case1 => rfl
  | case2 a =>
    -- one byte is two with a zero after it, of which nothing is kept
    have hsecond := sextet_second a 0
    have hbyte := byte_first a 0
    rw [UInt8.zero_div, UInt8.add_zero] at hsecond hbyte
    have hspare : a % 4 * 16 % 16 = 0 := by
      apply UInt8.toNat_inj.mp
      simp only [UInt8.toNat_mul, UInt8.toNat_mod, UInt8.reduceToNat]
      omega
    rw [base64Decode, base64Value_symbol (sextet_first a), base64Value_symbol hsecond]
    simp only [Option.bind_eq_bind, Option.bind_some, if_pos hspare, hbyte]
  | case3 a b =>
    have hthird := sextet_third b 0
    have hbyte := byte_second a b 0
    rw [UInt8.zero_div, UInt8.add_zero] at hthird hbyte
    have hspare : b % 16 * 4 % 4 = 0 := by
      apply UInt8.toNat_inj.mp
      simp only [UInt8.toNat_mul, UInt8.toNat_mod, UInt8.reduceToNat]
      omega
    have hthird := base64Value_symbol hthird
    rw [base64Decode.eq_3 _ _ _ (ne_pad (by rw [hthird]; rfl)), base64Value_symbol (sextet_first a),
      base64Value_symbol (sextet_second a b), hthird]
    simp only [Option.bind_eq_bind, Option.bind_some, if_pos hspare, hbyte, byte_first]
  | case4 a b c rest ih =>
    have hfourth := base64Value_symbol (sextet_fourth c)
    have hpad : base64Symbol (c % 64) ≠ 61 := ne_pad (by rw [hfourth]; rfl)
    rw [base64Decode.eq_4 _ _ _ _ _ (fun _ h => absurd h hpad) (fun h => absurd h hpad),
      base64Value_symbol (sextet_first a), base64Value_symbol (sextet_second a b),
      base64Value_symbol (sextet_third b c), hfourth, ih]
    simp only [Option.bind_eq_bind, Option.bind_some, byte_first, byte_second, byte_third,
      Option.pure_def]

/-- Symbols and padding are printable. -/
theorem base64Encode_printable (bytes : Bytes) : ∀ b ∈ base64Encode bytes, 33 ≤ b ∧ b < 127 := by
  have hsymbol : ∀ v : UInt8, 33 ≤ base64Symbol v ∧ base64Symbol v < 127 := by
    have htable : ∀ n : Fin 256, 33 ≤ base64Symbol (.ofFin n) ∧ base64Symbol (.ofFin n) < 127 := by
      decide +kernel
    intro v
    simpa using htable v.toFin
  fun_induction base64Encode bytes with
  | case1 => nofun
  | case2 a | case3 a b => simp [hsymbol]
  | case4 a b c rest ih => simpa [hsymbol] using ih

/-! ### Which texts are decoded -/

/-- Symbols and up to two characters of padding, in groups of four. -/
structure Padded (core : Bytes) (pads : Nat) : Prop where
  symbols : ∀ b ∈ core, (base64Value b).isSome = true
  few : pads ≤ 2
  groups : (core.length + pads) % 4 = 0

theorem spareBitsZero_group {a b c d : UInt8} {rest : Bytes} (hd : d ≠ 61)
    (hrest : rest.length % 4 = 0) :
    spareBitsZero (a :: b :: c :: d :: rest) = spareBitsZero rest := by
  unfold spareBitsZero
  have hlen : rest.reverse.length % 4 = 0 := by rwa [List.length_reverse]
  have hreverse : (a :: b :: c :: d :: rest).reverse = rest.reverse ++ [d, c, b, a] := by simp
  rw [hreverse]
  generalize rest.reverse = last at hlen
  match last, hlen with
  | [], _ => simp [hd]
  | x :: y :: _ :: _, _ =>
    by_cases hx : x = 61
    · by_cases hy : y = 61
      · rw [hx, hy]
        rfl
      · simp [hx, hy]
    · simp [hx]

theorem base64Decode_group {a b c d : UInt8} {rest : Bytes} (ha : (base64Value a).isSome = true)
    (hb : (base64Value b).isSome = true) (hc : (base64Value c).isSome = true)
    (hd : (base64Value d).isSome = true) :
    (base64Decode (a :: b :: c :: d :: rest)).isSome = (base64Decode rest).isSome := by
  obtain ⟨x, hx⟩ := Option.isSome_iff_exists.mp ha
  obtain ⟨y, hy⟩ := Option.isSome_iff_exists.mp hb
  obtain ⟨z, hz⟩ := Option.isSome_iff_exists.mp hc
  obtain ⟨w, hw⟩ := Option.isSome_iff_exists.mp hd
  have hpad := ne_pad hd
  rw [base64Decode.eq_4 a b c d rest (fun _ h => absurd h hpad) (fun h => absurd h hpad), hx, hy,
    hz, hw]
  cases base64Decode rest <;> rfl

namespace Padded

theorem pads_eq {core : Bytes} {pads : Nat} (h : Padded core pads) :
    pads = (4 - core.length % 4) % 4 ∧ core.length % 4 ≠ 1 := by
  have hfew := h.few
  have hgroups := h.groups
  omega

theorem tail {a b c d : UInt8} {core : Bytes} {pads : Nat}
    (h : Padded (a :: b :: c :: d :: core) pads) : Padded core pads where
  symbols e he := h.symbols e (by simp [he])
  few := h.few
  groups := by
    have hgroups := h.groups
    simp only [List.length_cons] at hgroups
    omega

/-- Decoding succeeds exactly if the padding loses no bits. -/
theorem isSome_decode : ∀ {core : Bytes} {pads : Nat}, Padded core pads →
    (base64Decode (core ++ List.replicate pads 61)).isSome =
      spareBitsZero (core ++ List.replicate pads 61)
  | [], pads, h => by
    rw [h.pads_eq.1]
    rfl
  | [_], pads, h => absurd rfl h.pads_eq.2
  | [a, b], pads, h => by
    obtain ⟨x, hx⟩ := Option.isSome_iff_exists.mp (h.symbols a (by simp))
    obtain ⟨y, hy⟩ := Option.isSome_iff_exists.mp (h.symbols b (by simp))
    have hspare := (isSymbol_of_value hy).four
    rw [h.pads_eq.1]
    change (base64Decode [a, b, 61, 61]).isSome = decide (b ∈ utf8 "AQgw")
    rw [base64Decode, hx, hy, Bool.eq_iff_iff]
    simp [hspare]
  | [a, b, c], pads, h => by
    obtain ⟨x, hx⟩ := Option.isSome_iff_exists.mp (h.symbols a (by simp))
    obtain ⟨y, hy⟩ := Option.isSome_iff_exists.mp (h.symbols b (by simp))
    obtain ⟨z, hz⟩ := Option.isSome_iff_exists.mp (h.symbols c (by simp))
    have hspare := (isSymbol_of_value hz).two
    have hc := ne_pad (h.symbols c (by simp))
    rw [h.pads_eq.1]
    change (base64Decode [a, b, c, 61]).isSome = spareBitsZero [a, b, c, 61]
    rw [base64Decode.eq_3 a b c hc, hx, hy, hz, Bool.eq_iff_iff]
    simp [spareBitsZero, hc, hspare]
  | a :: b :: c :: d :: core, pads, h => by
    have hd := h.symbols d (by simp)
    have hgroups := h.tail.groups
    rw [List.cons_append, List.cons_append, List.cons_append, List.cons_append,
      base64Decode_group (h.symbols a (by simp)) (h.symbols b (by simp)) (h.symbols c (by simp)) hd,
      spareBitsZero_group (ne_pad hd) (by simpa using hgroups)]
    exact h.tail.isSome_decode

end Padded

end DeviceUniqueness
