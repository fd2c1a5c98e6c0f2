import DeviceUniqueness.Outbox.Schema
import DeviceUniqueness.Schemes.Bisimilar

/-! The check that the connected runtime declares a call as the writer builds it.

    The two declarations come from metadata of their own, each with a registry of types, and refer to
    the types by their number there. The check compares names and numbers. A number says nothing
    outside its registry: what the check is after is whether the types are the same when they are
    resolved, each where it was declared. -/

namespace DeviceUniqueness

open Function Schemes

/-! ### Types -/

inductive Primitive where
  | bool
  | char
  | str
  | u8
  | u16
  | u32
  | u64
  | u128
  | u256
  | i8
  | i16
  | i32
  | i64
  | i128
  | i256
  deriving DecidableEq

/-- A field, with the type it refers to. -/
structure TypeField (ι : Type) where
  name : Option String
  ty : ι
  deriving DecidableEq

structure Variant (ι : Type) where
  name : String
  fields : List (TypeField ι)
  index : Nat
  deriving DecidableEq

/-- The definition of a type, over those it refers to. -/
inductive TypeDef (ι : Type) where
  | composite (fields : List (TypeField ι))
  | variant (variants : List (Variant ι))
  | sequence (ty : ι)
  | array (len : Nat) (ty : ι)
  | tuple (tys : List ι)
  | primitive (primitive : Primitive)
  | compact (ty : ι)
  | bitSequence (store order : ι)
  deriving DecidableEq

section Maps

variable {ι κ : Type} (f : ι → κ)

def TypeField.map (field : TypeField ι) : TypeField κ := ⟨field.name, f field.ty⟩

def Variant.map (v : Variant ι) : Variant κ := ⟨v.name, v.fields.map (TypeField.map f), v.index⟩

def TypeDef.map : TypeDef ι → TypeDef κ
  | composite fields => composite (fields.map (TypeField.map f))
  | variant variants => variant (variants.map (Variant.map f))
  | sequence ty => sequence (f ty)
  | array len ty => array len (f ty)
  | tuple tys => tuple (tys.map f)
  | primitive p => primitive p
  | compact ty => compact (f ty)
  | bitSequence store order => bitSequence (f store) (f order)

/-- The types a definition refers to. -/
def TypeDef.refs : TypeDef ι → List ι
  | composite fields => fields.map TypeField.ty
  | variant variants => variants.flatMap fun v => v.fields.map TypeField.ty
  | sequence ty | array _ ty | compact ty => [ty]
  | tuple tys => tys
  | primitive _ => []
  | bitSequence store order => [store, order]

end Maps

/-- The types of a runtime, by number. They refer to each other only. -/
structure Registry where
  types : List (TypeDef Nat)
  closed : ∀ d ∈ types, ∀ id ∈ d.refs, id < types.length
  deriving DecidableEq

def Registry.resolve (registry : Registry) (id : Nat) : Option (TypeDef Nat) := registry.types[id]?

/-- The arguments of a call are of types that the registry has. -/
def Registry.Declares (registry : Registry) (fields : List (TypeField Nat)) : Prop :=
  ∀ id ∈ fields.map TypeField.ty, id < registry.types.length

/-! ### The check -/

inductive Pallet where
  | dotnsGateway
  | peopleLite
  deriving DecidableEq

def Pallet.shown : Pallet → String
  | dotnsGateway => "DotnsGateway::reserve_name"
  | peopleLite => "PeopleLite::attest"

structure PalletCallArgsShapeError where
  pallet : Pallet
  expected : String
  found : String
  deriving DecidableEq

def PalletCallArgsShapeError.shown (e : PalletCallArgsShapeError) : String :=
  e.pallet.shown ++ " shape mismatch: this writer builds [" ++ e.expected ++
    "], the connected runtime's " ++ e.pallet.shown ++ " declares [" ++ e.found ++
    "]. This chain runs a different runtime version; point relevant network " ++
    "rpc(PEOPLE_RPC_URL,ASSET_HUB_RPC_URL)."

def argNames (fields : List (TypeField Nat)) : String :=
  ", ".intercalate (fields.map fun x => x.name.getD "<unnamed>")

def checkPalletCallArgs (reserveNameFields : List (TypeField Nat)) (pallet : Pallet)
    (fields : List (TypeField Nat)) : Except PalletCallArgsShapeError Unit :=
  if fields.length == reserveNameFields.length &&
      (fields.zip reserveNameFields).all fun x => x.1.ty == x.2.ty && x.1.name == x.2.name then
    .ok ()
  else .error ⟨pallet, argNames reserveNameFields, argNames fields⟩

/-- The calls of each pallet, if it has any, and the types. -/
structure Metadata where
  pallets : List (String × Option (List (Variant Nat)))
  registry : Registry

def extractCallFields (metadata : Metadata) (palletName callName : String) (vendored : Bool) :
    Except String (Variant Nat) :=
  let vendored := if vendored then "vendored " else ""
  match metadata.pallets.lookup palletName with
  | none => .error (vendored ++ "runtime declares no " ++ palletName ++ " pallet")
  | some calls =>
      match (calls.getD []).find? fun call => call.name == callName with
      | none => .error (vendored ++ palletName ++ " declares no " ++ callName ++ " call")
      | some call => .ok call

/-- The call of the vendored metadata against that of the connected runtime. -/
def checkCallShape (palletName callName : String) (pallet : Pallet) (vendored connected : Metadata) :
    Except String Unit := do
  let vendoredCall ← extractCallFields vendored palletName callName true
  let call ← extractCallFields connected palletName callName false
  match checkPalletCallArgs vendoredCall.fields pallet call.fields with
  | .ok () => return
  | .error e => .error e.shown

def checkAttestShape : Metadata → Metadata → Except String Unit :=
  checkCallShape "PeopleLite" "attest" .peopleLite

def checkReserveNameShape : Metadata → Metadata → Except String Unit :=
  checkCallShape "DotnsGateway" "reserve_name" .dotnsGateway

/-! ### What it is for -/

/-- Definitions that are the same but for the types they refer to, and these are related. -/
def TypeDef.Alike (R : Nat → Nat → Prop) (d d' : TypeDef Nat) : Prop :=
  ∃ e : TypeDef (Nat × Nat), e.map Prod.fst = d ∧ e.map Prod.snd = d' ∧ ∀ p ∈ e.refs, R p.1 p.2

/-- The types are structurally equal, each resolved in its own registry to the end. -/
def SameType (vendored connected : Registry) : Nat → Nat → Prop :=
  Bisimilar TypeDef.Alike vendored.resolve connected.resolve

def SameNames (expected found : List (TypeField Nat)) : Prop :=
  expected.map TypeField.name = found.map TypeField.name

def SameIds (expected found : List (TypeField Nat)) : Prop :=
  expected.map TypeField.ty = found.map TypeField.ty

def SameTypes (vendored connected : Registry) (expected found : List (TypeField Nat)) : Prop :=
  List.Forall₂ (SameType vendored connected) (expected.map TypeField.ty) (found.map TypeField.ty)

/-- The same argument names in the same order, and structurally equal types. -/
def SameShape (vendored connected : Registry) (expected found : List (TypeField Nat)) : Prop :=
  SameNames expected found ∧ SameTypes vendored connected expected found

/-- The same types under other numbers. -/
def Renumbered (σ : Equiv.Perm Nat) (registry registry' : Registry) : Prop :=
  ∀ id, registry'.resolve (σ id) = (registry.resolve id).map (TypeDef.map σ)

def renumber (σ : Equiv.Perm Nat) (fields : List (TypeField Nat)) : List (TypeField Nat) :=
  fields.map (TypeField.map σ)

/-! ### What the check compares -/

/-- The names and the numbers, place by place. -/
theorem checkPalletCallArgs_ok_iff {expected found : List (TypeField Nat)} {pallet : Pallet} :
    checkPalletCallArgs expected pallet found = .ok () ↔
      SameNames expected found ∧ SameIds expected found := by
  have hmatches : (found.length == expected.length &&
      (found.zip expected).all fun x => x.1.ty == x.2.ty && x.1.name == x.2.name) = true ↔
      SameNames expected found ∧ SameIds expected found := by
    unfold SameNames SameIds
    induction expected generalizing found with
    | nil => cases found <;> simp
    | cons e expected ih =>
      cases found with
      | nil => simp
      | cons f found =>
        have ih := @ih found
        simp only [List.length_cons, List.zip_cons_cons, List.all_cons, List.map_cons,
          List.cons.injEq, Bool.and_eq_true, beq_iff_eq, Nat.add_right_cancel_iff] at ih ⊢
        constructor
        · rintro ⟨hlen, ⟨hty, hname⟩, hall⟩
          obtain ⟨hnames, htys⟩ := ih.mp ⟨hlen, hall⟩
          exact ⟨⟨hname.symm, hnames⟩, hty.symm, htys⟩
        · rintro ⟨⟨hname, hnames⟩, hty, htys⟩
          obtain ⟨hlen, hall⟩ := ih.mpr ⟨hnames, htys⟩
          exact ⟨hlen, ⟨hty.symm, hname.symm⟩, hall⟩
  rw [checkPalletCallArgs, ← hmatches]
  split_ifs with h <;> simp [h]

/-! ### Renumbering -/

namespace TypeDef

variable {ι κ μ : Type}

theorem map_map (f : ι → κ) (g : κ → μ) (d : TypeDef ι) : (d.map f).map g = d.map (g ∘ f) := by
  cases d <;> simp [map, Variant.map, TypeField.map, comp_def]

theorem map_id (d : TypeDef ι) : d.map id = d := by
  have hfield : ∀ fields : List (TypeField ι), fields.map (TypeField.map id) = fields :=
    fun fields => List.map_id'' (fun _ => rfl) fields
  cases d with
  | composite fields => rw [map, hfield]
  | variant variants =>
    rw [map, List.map_id'' fun v => by rw [Variant.map, hfield]]
  | tuple tys => rw [map, List.map_id]
  | _ => rfl

theorem refs_map (f : ι → κ) (d : TypeDef ι) : (d.map f).refs = d.refs.map f := by
  cases d <;> simp [map, refs, Variant.map, TypeField.map, comp_def, List.map_flatMap,
    List.flatMap_map]

theorem map_congr {f g : ι → κ} {d : TypeDef ι} (h : ∀ id ∈ d.refs, f id = g id) :
    d.map f = d.map g := by
  have hfields : ∀ fields : List (TypeField ι), (∀ id ∈ fields.map TypeField.ty, f id = g id) →
      fields.map (TypeField.map f) = fields.map (TypeField.map g) := fun fields h =>
    List.map_congr_left fun x hx => congrArg (TypeField.mk x.name) (h _ (List.mem_map_of_mem hx))
  cases d with
  | composite fields => rw [map, map, hfields fields h]
  | variant variants =>
    refine congrArg variant (List.map_congr_left fun v hv => ?_)
    rw [Variant.map, Variant.map, hfields v.fields fun id hid =>
      h id (List.mem_flatMap.mpr ⟨v, hv, hid⟩)]
  | tuple tys => exact congrArg tuple (List.map_congr_left h)
  | _ => simp_all [map, refs]

theorem Alike.mono {R S : Nat → Nat → Prop} (hRS : ∀ a b, R a b → S a b) {d d' : TypeDef Nat}
    (h : Alike R d d') : Alike S d d' := by
  obtain ⟨e, hd, hd', hrefs⟩ := h
  exact ⟨e, hd, hd', fun p hp => hRS _ _ (hrefs p hp)⟩

theorem Alike.renumber (σ τ : Equiv.Perm Nat) {R : Nat → Nat → Prop} {d d' : TypeDef Nat}
    (h : Alike R d d') :
    Alike (fun a b => R (σ.symm a) (τ.symm b)) (d.map σ) (d'.map τ) := by
  obtain ⟨e, rfl, rfl, hrefs⟩ := h
  refine ⟨e.map (Prod.map σ τ), by rw [map_map, map_map]; rfl, by rw [map_map, map_map]; rfl, ?_⟩
  rw [refs_map, List.forall_mem_map]
  intro p hp
  simpa using hrefs p hp

end TypeDef

section Renumbering

variable {σ τ : Equiv.Perm Nat} {vendored vendored' connected connected' : Registry}

theorem Renumbered.symm (h : Renumbered σ vendored vendored') :
    Renumbered σ.symm vendored' vendored := by
  intro n
  have hn := h (σ.symm n)
  rw [σ.apply_symm_apply] at hn
  have hback : TypeDef.map σ.symm ∘ TypeDef.map σ = id := funext fun d => by
    rw [comp_apply, TypeDef.map_map, Equiv.symm_comp_self, TypeDef.map_id]
    rfl
  rw [hn, Option.map_map, hback, Option.map_id]
  rfl

theorem SameType.renumber (hσ : Renumbered σ vendored vendored')
    (hτ : Renumbered τ connected connected') {a b : Nat} (h : SameType vendored connected a b) :
    SameType vendored' connected' (σ a) (τ b) :=
  Bisimilar.rename σ τ (TypeDef.map σ) (TypeDef.map τ) hσ hτ (fun _ _ _ h => h.renumber σ τ) h

theorem sameType_renumber (hσ : Renumbered σ vendored vendored')
    (hτ : Renumbered τ connected connected') (a b : Nat) :
    SameType vendored' connected' (σ a) (τ b) ↔ SameType vendored connected a b := by
  refine ⟨fun h => ?_, SameType.renumber hσ hτ⟩
  simpa using h.renumber hσ.symm hτ.symm

theorem sameNames_renumber (expected found : List (TypeField Nat)) :
    SameNames (renumber σ expected) (renumber τ found) ↔ SameNames expected found := by
  simp only [SameNames, DeviceUniqueness.renumber, List.map_map]
  rfl

theorem sameIds_renumber (expected found : List (TypeField Nat)) :
    SameIds (renumber σ expected) (renumber τ found) ↔
      List.Forall₂ (fun a b => σ a = τ b) (expected.map TypeField.ty) (found.map TypeField.ty) := by
  rw [SameIds, ← List.forall₂_eq_eq_eq]
  simp only [DeviceUniqueness.renumber, List.map_map, List.forall₂_map_left_iff,
    List.forall₂_map_right_iff]
  rfl

/-- Shapes are the same under any numbers. -/
theorem sameShape_renumber (hσ : Renumbered σ vendored vendored')
    (hτ : Renumbered τ connected connected') (expected found : List (TypeField Nat)) :
    SameShape vendored' connected' (renumber σ expected) (renumber τ found) ↔
      SameShape vendored connected expected found := by
  refine and_congr (sameNames_renumber expected found) ?_
  simp only [SameTypes, renumber, List.map_map, List.forall₂_map_left_iff,
    List.forall₂_map_right_iff]
  exact ⟨List.Forall₂.imp fun _ _ => (sameType_renumber hσ hτ _ _).mp,
    List.Forall₂.imp fun _ _ => (sameType_renumber hσ hτ _ _).mpr⟩

end Renumbering

/-! ### One numbering -/

/-- The registries number their types alike: a number that both have is of one definition, and no type
    of the one is in the other under another number. -/
structure SameNumbering (vendored connected : Registry) : Prop where
  defs : ∀ id, id < vendored.types.length → id < connected.types.length →
    vendored.resolve id = connected.resolve id
  once : ∀ a b, SameType vendored connected a b → a = b

section Numbering

variable {vendored connected : Registry} {a b id : Nat} {d : TypeDef Nat}

theorem Registry.lt_of_resolve {registry : Registry} (h : registry.resolve id = some d) :
    id < registry.types.length := (List.getElem?_eq_some_iff.mp h).1

theorem SameType.declared (h : SameType vendored connected a b) :
    a < vendored.types.length ∧ b < connected.types.length := by
  obtain ⟨_, _, ha, hb, -⟩ := Bisimilar.nodes TypeDef.Alike.mono h
  exact ⟨Registry.lt_of_resolve ha, Registry.lt_of_resolve hb⟩

theorem TypeDef.Alike.of_refl {R : Nat → Nat → Prop} (h : ∀ id ∈ d.refs, R id id) :
    TypeDef.Alike R d d := by
  refine ⟨d.map fun id => (id, id), ?_, ?_, ?_⟩
  · exact (TypeDef.map_map ..).trans d.map_id
  · exact (TypeDef.map_map ..).trans d.map_id
  · rw [TypeDef.refs_map, List.forall_mem_map]
    exact h

theorem TypeDef.Alike.eq_of_refs {R : Nat → Nat → Prop} {d' : TypeDef Nat}
    (h : TypeDef.Alike R d d') (hR : ∀ a b, R a b → a = b) : d = d' := by
  obtain ⟨e, rfl, rfl, hrefs⟩ := h
  exact TypeDef.map_congr fun p hp => hR _ _ (hrefs p hp)

/-- Under one numbering, what a number of both registries stands for is the same. -/
theorem SameNumbering.sameType (h : SameNumbering vendored connected)
    (hv : id < vendored.types.length) (hc : id < connected.types.length) :
    SameType vendored connected id id := by
  refine ⟨fun a b => a = b ∧ a < vendored.types.length ∧ a < connected.types.length,
    ⟨rfl, hv, hc⟩, ?_⟩
  rintro a _ ⟨rfl, hv, hc⟩
  have hresolve : vendored.resolve a = some vendored.types[a] := List.getElem?_eq_getElem hv
  have hresolve' := (h.defs a hv hc).symm.trans hresolve
  refine ⟨_, _, hresolve, hresolve', .of_refl fun id hid => ⟨rfl, ?_, ?_⟩⟩
  · exact vendored.closed _ (List.getElem_mem hv) id hid
  · exact connected.closed _ (List.mem_of_getElem? hresolve') id hid

/-- A number stands for one type in both registries, and for no other, just if they number alike. -/
theorem sameNumbering_iff : SameNumbering vendored connected ↔
    ∀ a b, a < vendored.types.length → b < connected.types.length →
      (SameType vendored connected a b ↔ a = b) := by
  constructor
  · rintro h a b hv hc
    refine ⟨h.once a b, ?_⟩
    rintro rfl
    exact h.sameType hv hc
  · intro h
    have honce : ∀ a b, SameType vendored connected a b → a = b := fun a b hab =>
      (h a b hab.declared.1 hab.declared.2).mp hab
    refine ⟨fun id hv hc => ?_, honce⟩
    have hsame := (h id id hv hc).mpr rfl
    obtain ⟨d, d', hd, hd', halike⟩ := Bisimilar.nodes TypeDef.Alike.mono hsame
    rw [hd, hd', halike.eq_of_refs honce]

/-- The numbers of all calls tell whether their types are related just if those of any two types do. -/
theorem sameIds_exact_iff {R : Nat → Nat → Prop} :
    (∀ expected found, vendored.Declares expected → connected.Declares found →
      SameNames expected found → (SameIds expected found ↔
        List.Forall₂ R (expected.map TypeField.ty) (found.map TypeField.ty))) ↔
      ∀ a b, a < vendored.types.length → b < connected.types.length → (R a b ↔ a = b) := by
  constructor
  · intro h a b ha hb
    simpa [SameIds, eq_comm, iff_comm] using h [⟨none, a⟩] [⟨none, b⟩] (by simpa [Registry.Declares])
      (by simpa [Registry.Declares]) rfl
  · intro h expected found hv hc _
    unfold SameIds
    unfold Registry.Declares at hv hc
    generalize expected.map TypeField.ty = as at hv
    generalize found.map TypeField.ty = bs at hc
    induction as generalizing bs with
    | nil => simp
    | cons a as ih =>
      cases bs with
      | nil => simp
      | cons b bs =>
        rw [List.forall_mem_cons] at hv hc
        rw [List.cons.injEq, List.forall₂_cons, h a b hv.1 hc.1, ih hv.2 bs hc.2]

/-- Renumbered, numbers are equal just if they were when they go where the same number goes. -/
theorem renumbered_ids_iff {σ τ : Equiv.Perm Nat} {n m : Nat} :
    (∀ a b, a < n → b < m → (σ a = τ b ↔ a = b)) ↔ ∀ id, id < n → id < m → σ id = τ id := by
  refine ⟨fun h id hn hm => (h id id hn hm).mpr rfl, fun h a b ha hb => ⟨fun hab => ?_, ?_⟩⟩
  · -- one of the two is a number of both registries
    rcases Nat.lt_or_ge a m with ham | ham
    · exact τ.injective ((h a ha ham).symm.trans hab)
    · exact σ.injective (hab.trans (h b (by omega) hb).symm)
  · rintro rfl
    exact h a ha hb

end Numbering

/-- The check is exact for all calls of two registries just if these number their types alike. It comes
    to the same verdicts once they are renumbered just if both give the numbers they share the same
    new ones, and whether shapes are the same does not depend on the numbers at all. -/
theorem shape_check_exact_iff (vendored connected : Registry) (pallet : Pallet) :
    ((∀ expected found, vendored.Declares expected → connected.Declares found →
        (checkPalletCallArgs expected pallet found = .ok () ↔
          SameShape vendored connected expected found)) ↔
      SameNumbering vendored connected) ∧
    ∀ (σ τ : Equiv.Perm Nat) (vendored' connected' : Registry),
      Renumbered σ vendored vendored' → Renumbered τ connected connected' →
      (∀ expected found, SameShape vendored' connected' (renumber σ expected) (renumber τ found) ↔
        SameShape vendored connected expected found) ∧
      ((∀ expected found, vendored.Declares expected → connected.Declares found →
          (checkPalletCallArgs (renumber σ expected) pallet (renumber τ found) = .ok () ↔
            checkPalletCallArgs expected pallet found = .ok ())) ↔
        ∀ id, id < vendored.types.length → id < connected.types.length → σ id = τ id) := by
  refine ⟨?_, fun σ τ vendored' connected' hσ hτ => ⟨sameShape_renumber hσ hτ, ?_⟩⟩
  · rw [sameNumbering_iff, ← sameIds_exact_iff]
    refine forall₄_congr fun expected found _ _ => ?_
    rw [checkPalletCallArgs_ok_iff, SameShape, and_congr_right_iff]
    rfl
  · rw [← renumbered_ids_iff, ← sameIds_exact_iff]
    refine forall₄_congr fun expected found _ _ => ?_
    rw [checkPalletCallArgs_ok_iff, checkPalletCallArgs_ok_iff, sameNames_renumber,
      and_congr_right_iff, sameIds_renumber, iff_comm (b := SameIds expected found)]

/-! ### A runtime with other numbers -/

def vendoredTypes : Registry := ⟨[.primitive .u8, .primitive .bool, .sequence 0], by decide⟩

/-- The same types, with the first two exchanged. -/
def renumberedTypes : Registry := ⟨[.primitive .bool, .primitive .u8, .sequence 1], by decide⟩

theorem renumbered_types : Renumbered (Equiv.swap 0 1) vendoredTypes renumberedTypes := by
  rintro (_ | _ | _ | id)
  · rfl
  · rfl
  · rfl
  · rw [Equiv.swap_apply_of_ne_of_ne (by omega) (by omega)]
    rfl

/-- Types that are the same are of definitions that differ in the types they refer to only. -/
theorem SameType.outline {vendored connected : Registry} {a b : Nat}
    (h : SameType vendored connected a b) :
    (vendored.resolve a).map (TypeDef.map fun _ => ()) =
      (connected.resolve b).map (TypeDef.map fun _ => ()) := by
  obtain ⟨_, _, ha, hb, e, rfl, rfl, -⟩ := Bisimilar.nodes TypeDef.Alike.mono h
  rw [ha, hb, Option.map_some, Option.map_some, TypeDef.map_map, TypeDef.map_map]
  rfl

theorem vendored_numbering : SameNumbering vendoredTypes vendoredTypes := by
  refine ⟨fun _ _ _ => rfl, fun a b h => ?_⟩
  have houtlines : ∀ a b : Fin 3, (vendoredTypes.resolve a).map (TypeDef.map fun _ => ()) =
      (vendoredTypes.resolve b).map (TypeDef.map fun _ => ()) → a = b := by decide
  have hab := houtlines ⟨a, h.declared.1⟩ ⟨b, h.declared.2⟩ h.outline
  exact congrArg Fin.val hab

/-- The check is exact for a runtime with the numbers of the vendored one, and as good when both are
    renumbered. -/
theorem shape_check_exact_vendored :
    (∀ expected found, vendoredTypes.Declares expected → vendoredTypes.Declares found →
      (checkPalletCallArgs expected .peopleLite found = .ok () ↔
        SameShape vendoredTypes vendoredTypes expected found)) ∧
    ∀ expected found, vendoredTypes.Declares expected → vendoredTypes.Declares found →
      (checkPalletCallArgs (renumber (Equiv.swap 0 1) expected) .peopleLite
          (renumber (Equiv.swap 0 1) found) = .ok () ↔
        checkPalletCallArgs expected .peopleLite found = .ok ()) := by
  obtain ⟨hexact, hrenumber⟩ := shape_check_exact_iff vendoredTypes vendoredTypes .peopleLite
  refine ⟨hexact.mpr vendored_numbering, ?_⟩
  exact (hrenumber _ _ _ _ renumbered_types renumbered_types).2.mpr fun _ _ _ => rfl

theorem sameType_primitive {vendored connected : Registry} {a b : Nat} {p : Primitive}
    (ha : vendored.resolve a = some (.primitive p))
    (hb : connected.resolve b = some (.primitive p)) : SameType vendored connected a b := by
  refine ⟨fun i j => i = a ∧ j = b, ⟨rfl, rfl⟩, ?_⟩
  rintro _ _ ⟨rfl, rfl⟩
  exact ⟨_, _, ha, hb, .primitive p, rfl, rfl, nofun⟩

/-- A flag under another number is refused, with an error that says the same shape twice; and a byte
    under the number of the flag is taken for it. -/
theorem shape_check_goes_by_number :
    (Renumbered (Equiv.swap 0 1) vendoredTypes renumberedTypes ∧
      SameShape vendoredTypes renumberedTypes [⟨some "flag", 1⟩] [⟨some "flag", 0⟩] ∧
      checkPalletCallArgs [⟨some "flag", 1⟩] .peopleLite [⟨some "flag", 0⟩] =
        .error ⟨.peopleLite, "flag", "flag"⟩) ∧
    ¬ SameShape vendoredTypes renumberedTypes [⟨some "flag", 1⟩] [⟨some "flag", 1⟩] ∧
      checkPalletCallArgs [⟨some "flag", 1⟩] .peopleLite [⟨some "flag", 1⟩] = .ok () := by
  refine ⟨⟨renumbered_types, ⟨rfl, .cons (sameType_primitive rfl rfl) .nil⟩, by decide +kernel⟩, ?_, rfl⟩
  rintro ⟨-, htypes⟩
  obtain ⟨htype, -⟩ := List.forall₂_cons.mp htypes
  exact absurd htype.outline (by decide)

end DeviceUniqueness
