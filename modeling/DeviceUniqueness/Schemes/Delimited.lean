import Mathlib

/-! Encodings that say where they end.

    An encoding is delimited on some values when, of two texts that begin with encodings of such
    values and are equal, the values are equal and so is what follows them. A message that puts such
    encodings one after the other can be read from the left, field by field, and its fields are
    determined by it. -/

namespace Schemes

variable {α β : Type}

def Delimited (P : Set α) (enc : α → List β) : Prop :=
  ∀ ⦃x⦄, x ∈ P → ∀ ⦃y⦄, y ∈ P → ∀ ⦃r s : List β⦄, enc x ++ r = enc y ++ s → x = y ∧ r = s

namespace Delimited

variable {P : Set α} {enc : α → List β}

/-- Encodings of one width are delimited. -/
theorem of_width {width : Nat} (hwidth : ∀ x ∈ P, (enc x).length = width) (hinj : Set.InjOn enc P) :
    Delimited P enc := by
  intro x hx y hy r s h
  obtain ⟨henc, hrest⟩ := List.append_inj h ((hwidth x hx).trans (hwidth y hy).symm)
  exact ⟨hinj hx hy henc, hrest⟩

/-- So are encodings whose width can be told from their first symbol. -/
theorem of_head {width : β → Nat} (hwidth : ∀ x ∈ P, ∃ b, (enc x).head? = some b ∧
    (enc x).length = width b) (hinj : Set.InjOn enc P) : Delimited P enc := by
  intro x hx y hy r s h
  obtain ⟨b, hb, hlen⟩ := hwidth x hx
  obtain ⟨c, hc, hlen'⟩ := hwidth y hy
  have hbc : b = c := by
    have hhead := congrArg List.head? h
    rw [List.head?_append, List.head?_append, hb, hc] at hhead
    exact Option.some.inj hhead
  obtain ⟨henc, hrest⟩ := List.append_inj h (hlen.trans (hbc ▸ hlen'.symm))
  exact ⟨hinj hx hy henc, hrest⟩

/-- A list behind its length. -/
theorem counted {P : Set Nat} {enc : Nat → List β} (h : Delimited P enc) :
    Delimited {xs | xs.length ∈ P} fun xs : List β => enc xs.length ++ xs := by
  intro xs hxs ys hys r s heq
  rw [List.append_assoc, List.append_assoc] at heq
  obtain ⟨hlen, heq⟩ := h hxs hys heq
  exact List.append_inj heq hlen

/-- A value that may be missing, behind a symbol that says whether it is. -/
theorem optional {absent present : β} (hne : absent ≠ present) (h : Delimited P enc) :
    Delimited {x | ∀ y ∈ x, y ∈ P} fun x : Option α =>
      x.elim [absent] fun y => present :: enc y := by
  rintro (_ | x) hx (_ | y) hy r s heq
  · exact ⟨rfl, by simpa using heq⟩
  · exact absurd (List.cons.inj heq).1 hne
  · exact absurd (List.cons.inj heq).1 hne.symm
  · obtain ⟨hxy, hrest⟩ := h (hx x rfl) (hy y rfl) (List.cons.inj heq).2
    exact ⟨congrArg some hxy, hrest⟩

end Delimited

end Schemes
