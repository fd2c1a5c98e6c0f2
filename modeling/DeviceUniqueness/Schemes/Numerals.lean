import Mathlib

/-! Numerals: the digits of a number in a base, the most significant first and without zeros in front.

    A list of digits is read by taking them in from the left. Reading a numeral gives its number, and
    every list of digits that does not begin with a zero is the numeral of what it reads as. -/

namespace Schemes

/-- What comes of a number when more digits are read. -/
def readNumeral (b n : Nat) (ds : List Nat) : Nat := ds.foldl (fun n d => n * b + d) n

/-- The numeral of a number; zero has no digits. -/
def numeral (b n : Nat) : List Nat := (Nat.digits b n).reverse

theorem readNumeral_eq (b : Nat) (ds : List Nat) :
    readNumeral b 0 ds = Nat.ofDigits b ds.reverse := by
  rw [Nat.ofDigits_eq_foldr, List.foldr_reverse, readNumeral]
  congr 1
  funext n d
  rw [Nat.cast_id, Nat.add_comm, Nat.mul_comm]

/-- Reading on never makes the number less. -/
theorem le_readNumeral {b : Nat} (hb : 0 < b) (n : Nat) (ds : List Nat) :
    n ≤ readNumeral b n ds := by
  induction ds generalizing n with
  | nil => exact le_rfl
  | cons d ds ih =>
    calc n ≤ n * b + d := Nat.le_add_right_of_le (Nat.le_mul_of_pos_right n hb)
      _ ≤ readNumeral b n (d :: ds) := ih _

theorem readNumeral_numeral (b n : Nat) : readNumeral b 0 (numeral b n) = n := by
  rw [readNumeral_eq, numeral, List.reverse_reverse, Nat.ofDigits_digits]

theorem numeral_ne_nil {b n : Nat} (hn : n ≠ 0) : numeral b n ≠ [] := by
  rw [numeral, ne_eq, List.reverse_eq_nil_iff]
  exact Nat.digits_ne_nil_iff_ne_zero.mpr hn

theorem head_numeral (b n : Nat) : (numeral b n).head? ≠ some 0 := by
  rcases eq_or_ne n 0 with rfl | hn
  · simp [numeral]
  · rw [numeral, List.head?_reverse,
      List.getLast?_eq_some_getLast (Nat.digits_ne_nil_iff_ne_zero.mpr hn)]
    exact fun hzero => Nat.getLast_digit_ne_zero b hn (Option.some.inj hzero)

section Base

variable {b : Nat} (hb : 1 < b)
include hb

theorem numeral_readNumeral {ds : List Nat} (hlt : ∀ d ∈ ds, d < b) (hhead : ds.head? ≠ some 0) :
    numeral b (readNumeral b 0 ds) = ds := by
  rw [readNumeral_eq, numeral, Nat.digits_ofDigits b hb, List.reverse_reverse]
  · simpa using hlt
  · intro hne hzero
    rw [List.getLast_reverse] at hzero
    rw [List.head?_eq_some_head (by simpa using hne), hzero] at hhead
    exact hhead rfl

theorem readNumeral_lt {ds : List Nat} (hlt : ∀ d ∈ ds, d < b) :
    readNumeral b 0 ds < b ^ ds.length := by
  rw [readNumeral_eq, ← List.length_reverse]
  exact Nat.ofDigits_lt_base_pow_length hb (by simpa using hlt)

theorem lt_of_mem_numeral {n d : Nat} (hd : d ∈ numeral b n) : d < b :=
  Nat.digits_lt_base hb (List.mem_reverse.mp hd)

theorem numeral_of_pos {n : Nat} (hn : 0 < n) : numeral b n = numeral b (n / b) ++ [n % b] := by
  rw [numeral, Nat.digits_def' hb hn, List.reverse_cons]
  rfl

theorem length_numeral_le_iff {n k : Nat} : (numeral b n).length ≤ k ↔ n < b ^ k := by
  rw [numeral, List.length_reverse, Nat.digits_length_le_iff hb]

end Base

end Schemes
