import DeviceUniqueness.Attest.Der
import DeviceUniqueness.Schemes.Prog
import DeviceUniqueness.Text.Strings

/-! The key description that an attested key carries in an extension of its certificate.

    The elements are read exactly, but not all that is built of them is: a level or a boot state may
    be written with more bytes than it needs, or as a negative number, and of an entry that comes
    twice the last one counts. -/

namespace DeviceUniqueness.KeyAttest

open Schemes

structure RootOfTrust where
  verifiedBootKey : Bytes
  deviceLocked : Bool
  verifiedBootState : Nat
  deriving DecidableEq

structure KeyDescription where
  attestationSecurityLevel : Nat
  keySecurityLevel : Nat
  attestationChallenge : Bytes
  packageNames : List String
  signingDigests : List Bytes
  rootOfTrust : Option RootOfTrust
  deriving DecidableEq

structure AuthorizationList where
  applicationId : Option Bytes
  rootOfTrust : Option RootOfTrust
  deriving DecidableEq

def tagAttestationApplicationId : Nat := 709
def tagRootOfTrust : Nat := 704
def tagBoolean : Nat := 1
def tagOctetString : Nat := 4
def tagEnumerated : Nat := 10
def tagSequence : Nat := 16
def tagSet : Nat := 17

/-! ### Reading -/

/-- An element of a type of its own. -/
def Tlv.isUniversal (tlv : Tlv) (constructed : Bool) (number : Nat) : Bool :=
  tlv.cls == 0 && tlv.constructed == constructed && tlv.number == number

def Tlv.expect (tlv : Tlv) (constructed : Bool) (number : Nat) (what : String) :
    Except String Unit :=
  if tlv.isUniversal constructed number then .ok () else .error (what ++ ": unexpected DER type")

def Tlv.expectPrimitive (tlv : Tlv) : Nat → String → Except String Unit := tlv.expect false

def Tlv.expectConstructed (tlv : Tlv) : Nat → String → Except String Unit := tlv.expect true

def refuseIf (c : Prop) [Decidable c] (why : String) : Except Fault Unit :=
  if c then .error (.refused why) else .ok ()

/-- `fields[i]`, which panics when there is no such field. -/
def fieldAt (fields : List Tlv) (i : Nat) : Except Fault Tlv :=
  match fields[i]? with
  | some tlv => .ok tlv
  | none => .error .panicked

/-- Up to eight bytes, which fit a `u64`. -/
def Tlv.asU64 (tlv : Tlv) : Except String Nat :=
  if tlv.content.isEmpty || 8 < tlv.content.length then .error "integer out of range"
  else .ok (tlv.content.foldl (fun value b => value * 256 + b.toNat) 0)

def Tlv.asBool (tlv : Tlv) : Except String Bool :=
  match tlv.content with
  | [0x00] => .ok false
  | [0xff] => .ok true
  | _ => .error "non-canonical DER BOOLEAN"

def parseRootOfTrust (content : Bytes) : Except Fault RootOfTrust := do
  let fields ← children content
  refuseIf (fields.length < 3) "rootOfTrust has fewer than 3 fields"
  let key ← fieldAt fields 0
  checked (key.expectPrimitive tagOctetString "verifiedBootKey")
  let locked ← fieldAt fields 1
  checked (locked.expectPrimitive tagBoolean "deviceLocked")
  let state ← fieldAt fields 2
  checked (state.expectPrimitive tagEnumerated "verifiedBootState")
  let deviceLocked ← checked locked.asBool
  let verifiedBootState ← checked state.asU64
  return ⟨key.content, deviceLocked, verifiedBootState⟩

/-- The application id that an entry wraps. -/
def readApplicationId (entry : Tlv) : Except Fault Bytes := do
  let (inner, rest) ← readTlv entry.content
  refuseIf (rest ≠ []) "attestationApplicationId: trailing bytes"
  checked (inner.expectPrimitive tagOctetString "attestationApplicationId")
  return inner.content

/-- The root of trust that an entry wraps. -/
def readRootOfTrust (entry : Tlv) : Except Fault RootOfTrust := do
  let (inner, rest) ← readTlv entry.content
  refuseIf (rest ≠ []) "rootOfTrust: trailing bytes"
  checked (inner.expectConstructed tagSequence "rootOfTrust")
  parseRootOfTrust inner.content

def isApplicationId (entry : Tlv) : Bool :=
  entry.cls == 2 && entry.number == tagAttestationApplicationId

def isRootOfTrust (entry : Tlv) : Bool := entry.cls == 2 && entry.number == tagRootOfTrust

/-- One entry of an authorization list. What an earlier one gave is given up. -/
def readEntry (list : AuthorizationList) (entry : Tlv) : Except Fault AuthorizationList :=
  if isApplicationId entry then do
    let applicationId ← readApplicationId entry
    return { list with applicationId := some applicationId }
  else if isRootOfTrust entry then do
    let rootOfTrust ← readRootOfTrust entry
    return { list with rootOfTrust := some rootOfTrust }
  else return list

def readEntries (entries : List Tlv) : Except Fault AuthorizationList :=
  entries.foldlM readEntry ⟨none, none⟩

def parseAuthorizationList (list : Tlv) : Except Fault AuthorizationList := do
  checked (list.expectConstructed tagSequence "AuthorizationList")
  let entries ← children list.content
  readEntries entries

def parsePackageInfo (info : Tlv) : Except Fault String := do
  checked (info.expectConstructed tagSequence "packageInfo")
  let fields ← children info.content
  match fields with
  | [] => .error (.refused "packageInfo missing name")
  | name :: _ =>
      checked (name.expectPrimitive tagOctetString "packageName")
      match fromUtf8 name.content with
      | none => .error (.refused "package name is not UTF-8")
      | some name => .ok name

def parseDigest (digest : Tlv) : Except Fault Bytes := do
  checked (digest.expectPrimitive tagOctetString "signature digest")
  return digest.content

def parseApplicationId (der : Bytes) : Except Fault (List String × List Bytes) := do
  let (top, rest) ← readTlv der
  refuseIf (rest ≠ []) "AttestationApplicationId: trailing bytes"
  checked (top.expectConstructed tagSequence "AttestationApplicationId")
  let sets ← children top.content
  refuseIf (sets.length ≠ 2) "AttestationApplicationId does not have 2 sets"
  let packageInfos ← fieldAt sets 0
  checked (packageInfos.expectConstructed tagSet "packageInfos")
  let signatureDigests ← fieldAt sets 1
  checked (signatureDigests.expectConstructed tagSet "signatureDigests")
  let infos ← children packageInfos.content
  let packageNames ← infos.mapM parsePackageInfo
  let digests ← children signatureDigests.content
  let signingDigests ← digests.mapM parseDigest
  return (packageNames, signingDigests)

def parse (extensionValue : Bytes) : Except Fault KeyDescription := do
  let (top, rest) ← readTlv extensionValue
  refuseIf (rest ≠ []) "trailing bytes after KeyDescription"
  checked (top.expectConstructed tagSequence "KeyDescription")
  let fields ← children top.content
  refuseIf (fields.length < 8)
    ("KeyDescription has " ++ toString fields.length ++ " fields, expected at least 8")
  let attestationLevel ← fieldAt fields 1
  checked (attestationLevel.expectPrimitive tagEnumerated "attestationSecurityLevel")
  let attestationSecurityLevel ← checked attestationLevel.asU64
  let keyLevel ← fieldAt fields 3
  checked (keyLevel.expectPrimitive tagEnumerated "keymasterSecurityLevel")
  let keySecurityLevel ← checked keyLevel.asU64
  let challenge ← fieldAt fields 4
  checked (challenge.expectPrimitive tagOctetString "attestationChallenge")
  let softwareList ← fieldAt fields 6
  let software ← parseAuthorizationList softwareList
  let hardwareList ← fieldAt fields 7
  let hardware ← parseAuthorizationList hardwareList
  match software.applicationId.or hardware.applicationId with
  | none => .error (.refused "missing attestationApplicationId")
  | some appIdDer =>
      let (packageNames, signingDigests) ← parseApplicationId appIdDer
      return { attestationSecurityLevel, keySecurityLevel, attestationChallenge := challenge.content,
               packageNames, signingDigests, rootOfTrust := hardware.rootOfTrust }

/-! ### Without panics -/

def PanicFree {α : Type} (x : Except Fault α) : Prop := x ≠ .error .panicked

section PanicFree

variable {α β : Type}

theorem panicFree_ok (a : α) : PanicFree (.ok a) := nofun

theorem panicFree_refused (why : String) : PanicFree (.error (.refused why) : Except Fault α) := nofun

theorem panicFree_checked (x : Except String α) : PanicFree (checked x) := by
  cases x <;> exact nofun

theorem panicFree_refuseIf (c : Prop) [Decidable c] (why : String) : PanicFree (refuseIf c why) := by
  rw [refuseIf]
  split_ifs
  · exact panicFree_refused why
  · exact panicFree_ok ()

theorem PanicFree.bind {x : Except Fault α} {f : α → Except Fault β} (hx : PanicFree x)
    (hf : ∀ a, x = .ok a → PanicFree (f a)) : PanicFree (x >>= f) := by
  cases x with
  | ok a => exact hf a rfl
  | error fault =>
    intro h
    exact hx (congrArg Except.error (Except.error.inj h))

theorem PanicFree.mapM {f : α → Except Fault β} (hf : ∀ a, PanicFree (f a)) (xs : List α) :
    PanicFree (xs.mapM f) := by
  induction xs with
  | nil => exact panicFree_ok []
  | cons x xs ih =>
    rw [List.mapM_cons]
    exact (hf x).bind fun _ _ => ih.bind fun _ _ => panicFree_ok _

theorem PanicFree.foldlM {f : β → α → Except Fault β} (hf : ∀ b a, PanicFree (f b a)) (b : β)
    (xs : List α) : PanicFree (xs.foldlM f b) := by
  induction xs generalizing b with
  | nil => exact panicFree_ok b
  | cons x xs ih =>
    rw [List.foldlM_cons]
    exact (hf b x).bind fun b' _ => ih b'

theorem panicFree_readTlv (input : Bytes) : PanicFree (readTlv input) := by
  rcases readTlv_cases input with ⟨why, h⟩ | ⟨_, _, -, -, h⟩ <;> rw [h]
  · exact panicFree_refused why
  · exact panicFree_ok _

theorem panicFree_children (content : Bytes) : PanicFree (children content) := by
  rcases children_cases content with ⟨why, h⟩ | ⟨_, -, -, h⟩ <;> rw [h]
  · exact panicFree_refused why
  · exact panicFree_ok _

theorem panicFree_fieldAt {fields : List Tlv} {i : Nat} (h : i < fields.length) :
    PanicFree (fieldAt fields i) := by
  rw [fieldAt, List.getElem?_eq_getElem h]
  exact panicFree_ok _

end PanicFree

theorem refuseIf_ok {c : Prop} [Decidable c] {why : String} {u : Unit} :
    refuseIf c why = .ok u ↔ ¬ c := by
  rw [refuseIf]
  split_ifs with h <;> simp [h]

theorem panicFree_parseRootOfTrust (content : Bytes) : PanicFree (parseRootOfTrust content) := by
  refine (panicFree_children content).bind fun fields _ => ?_
  refine (panicFree_refuseIf _ _).bind fun _ hlen => ?_
  have hlen : 3 ≤ fields.length := Nat.le_of_not_lt (refuseIf_ok.mp hlen)
  refine (panicFree_fieldAt (by omega)).bind fun key _ => (panicFree_checked _).bind fun _ _ => ?_
  refine (panicFree_fieldAt (by omega)).bind fun locked _ => (panicFree_checked _).bind fun _ _ => ?_
  refine (panicFree_fieldAt (by omega)).bind fun state _ => (panicFree_checked _).bind fun _ _ => ?_
  exact (panicFree_checked _).bind fun _ _ => (panicFree_checked _).bind fun _ _ => panicFree_ok _

theorem panicFree_readEntry (list : AuthorizationList) (entry : Tlv) :
    PanicFree (readEntry list entry) := by
  rw [readEntry]
  split_ifs
  · refine PanicFree.bind ?_ fun _ _ => panicFree_ok _
    exact (panicFree_readTlv _).bind fun _ _ => (panicFree_refuseIf _ _).bind fun _ _ =>
      (panicFree_checked _).bind fun _ _ => panicFree_ok _
  · refine PanicFree.bind ?_ fun _ _ => panicFree_ok _
    exact (panicFree_readTlv _).bind fun _ _ => (panicFree_refuseIf _ _).bind fun _ _ =>
      (panicFree_checked _).bind fun _ _ => panicFree_parseRootOfTrust _
  · exact panicFree_ok list

theorem panicFree_parseAuthorizationList (list : Tlv) :
    PanicFree (parseAuthorizationList list) :=
  (panicFree_checked _).bind fun _ _ => (panicFree_children _).bind fun _ _ =>
    PanicFree.foldlM panicFree_readEntry _ _

theorem panicFree_parsePackageInfo (info : Tlv) : PanicFree (parsePackageInfo info) := by
  refine (panicFree_checked _).bind fun _ _ => (panicFree_children _).bind fun fields _ => ?_
  cases fields with
  | nil => exact panicFree_refused _
  | cons name _ =>
    refine (panicFree_checked _).bind fun _ _ => ?_
    cases fromUtf8 name.content with
    | none => exact panicFree_refused _
    | some name => exact panicFree_ok name

theorem panicFree_parseApplicationId (der : Bytes) : PanicFree (parseApplicationId der) := by
  refine (panicFree_readTlv der).bind fun top _ => (panicFree_refuseIf _ _).bind fun _ _ => ?_
  refine (panicFree_checked _).bind fun _ _ => (panicFree_children _).bind fun sets _ => ?_
  refine (panicFree_refuseIf _ _).bind fun _ hlen => ?_
  have hlen : sets.length = 2 := not_not.mp (refuseIf_ok.mp hlen)
  refine (panicFree_fieldAt (by omega)).bind fun _ _ => (panicFree_checked _).bind fun _ _ => ?_
  refine (panicFree_fieldAt (by omega)).bind fun _ _ => (panicFree_checked _).bind fun _ _ => ?_
  refine (panicFree_children _).bind fun _ _ =>
    (PanicFree.mapM panicFree_parsePackageInfo _).bind fun _ _ => ?_
  exact (panicFree_children _).bind fun _ _ => (PanicFree.mapM (fun _ =>
    (panicFree_checked _).bind fun _ _ => panicFree_ok _) _).bind fun _ _ => panicFree_ok _

theorem panicFree_parse (extensionValue : Bytes) : PanicFree (parse extensionValue) := by
  refine (panicFree_readTlv _).bind fun top _ => (panicFree_refuseIf _ _).bind fun _ _ => ?_
  refine (panicFree_checked _).bind fun _ _ => (panicFree_children _).bind fun fields _ => ?_
  refine (panicFree_refuseIf _ _).bind fun _ hlen => ?_
  have hlen : 8 ≤ fields.length := Nat.le_of_not_lt (refuseIf_ok.mp hlen)
  refine (panicFree_fieldAt (by omega)).bind fun _ _ => (panicFree_checked _).bind fun _ _ =>
    (panicFree_checked _).bind fun _ _ => ?_
  refine (panicFree_fieldAt (by omega)).bind fun _ _ => (panicFree_checked _).bind fun _ _ =>
    (panicFree_checked _).bind fun _ _ => ?_
  refine (panicFree_fieldAt (by omega)).bind fun _ _ => (panicFree_checked _).bind fun _ _ => ?_
  refine (panicFree_fieldAt (by omega)).bind fun _ _ =>
    (panicFree_parseAuthorizationList _).bind fun software _ => ?_
  refine (panicFree_fieldAt (by omega)).bind fun _ _ =>
    (panicFree_parseAuthorizationList _).bind fun hardware _ => ?_
  cases software.applicationId.or hardware.applicationId with
  | none => exact panicFree_refused _
  | some der => exact (panicFree_parseApplicationId der).bind fun _ _ => panicFree_ok _

/-! ### What was given -/

/-- The elements that the levels, the boot state and the application id are taken from. -/
structure Layout where
  attestationLevel : Tlv
  keyLevel : Tlv
  software : List Tlv
  hardware : List Tlv

def layout (extensionValue : Bytes) : Option Layout := do
  let (top, _) ← (readTlv extensionValue).toOption
  let fields ← (children top.content).toOption
  let attestationLevel ← fields[1]?
  let keyLevel ← fields[3]?
  let softwareList ← fields[6]?
  let software ← (children softwareList.content).toOption
  let hardwareList ← fields[7]?
  let hardware ← (children hardwareList.content).toOption
  return { attestationLevel, keyLevel, software, hardware }

/-- The boot state in a root of trust. -/
def bootStateElement (root : Tlv) : Option Tlv := do
  let (inner, _) ← (readTlv root.content).toOption
  let fields ← (children inner.content).toOption
  fields[2]?

namespace Layout

def rootsOfTrust (l : Layout) : List Tlv := l.hardware.filter isRootOfTrust

/-- The boot state that counts is that of the last root of trust. -/
def bootState (l : Layout) : Option Tlv := l.rootsOfTrust.getLast?.bind bootStateElement

/-- The application ids of the list that the application id is taken from. -/
def applicationIds (l : Layout) : List Tlv :=
  if l.software.any isApplicationId then l.software.filter isApplicationId
  else l.hardware.filter isApplicationId

end Layout

/-- An `ENUMERATED` with the only content of the number. -/
def Tlv.Gives (tlv : Tlv) (n : Nat) : Prop :=
  tlv.isUniversal false tagEnumerated = true ∧ tlv.content = derInteger n

/-- Nothing in the description could have been read otherwise. -/
structure Layout.Unambiguous (l : Layout) (d : KeyDescription) : Prop where
  attestationLevel : l.attestationLevel.Gives d.attestationSecurityLevel
  keyLevel : l.keyLevel.Gives d.keySecurityLevel
  bootState : ∀ root, d.rootOfTrust = some root →
    ∃ state, l.bootState = some state ∧ state.Gives root.verifiedBootState
  rootsOfTrust : l.rootsOfTrust.length ≤ 1
  applicationIds : l.applicationIds.length = 1

/-! ### What is accepted -/

/-- A number behind some zeros. -/
def padded (zeros n : Nat) : Bytes := List.replicate zeros 0 ++ (numeral 256 n).map UInt8.ofNat

/-- The zeros that the sign of a number needs. -/
def signZeros (n : Nat) : Nat :=
  if ((numeral 256 n).map UInt8.ofNat).head?.any (· < 128) then 0 else 1

/-- An entry of a kind that is looked at can be read. -/
def Readable (entry : Tlv) : Prop :=
  (isApplicationId entry = true → ∃ id, readApplicationId entry = .ok id) ∧
    (isRootOfTrust entry = true → ∃ root, readRootOfTrust entry = .ok root)

/-- What the last of some entries says. -/
def kept {α : Type} (read : Tlv → Except Fault α) (entries : List Tlv) : Option α :=
  entries.getLast?.bind fun entry => (read entry).toOption

/-- What the last entries of their kind say. -/
def lastOf (entries : List Tlv) : AuthorizationList where
  applicationId := kept readApplicationId (entries.filter isApplicationId)
  rootOfTrust := kept readRootOfTrust (entries.filter isRootOfTrust)

/-- How the elements of an extension were made that could be made otherwise: the zeros in front of
    its numbers, and the entries of which nothing is kept. -/
structure Making where
  attestationZeros : Nat
  keyZeros : Nat
  bootZeros : Nat
  roots : List Tlv
  applications : List Tlv

/-- The extension with the layout was made so, and read as the description. -/
structure Layout.Made (l : Layout) (m : Making) (d : KeyDescription) : Prop where
  attestationLevel : l.attestationLevel.content = padded m.attestationZeros d.attestationSecurityLevel
  keyLevel : l.keyLevel.content = padded m.keyZeros d.keySecurityLevel
  noRoot : d.rootOfTrust = none → l.rootsOfTrust = [] ∧ m.roots = []
  rootOfTrust : ∀ root, d.rootOfTrust = some root →
    ∃ entry state, l.rootsOfTrust = m.roots ++ [entry] ∧ readRootOfTrust entry = .ok root ∧
      bootStateElement entry = some state ∧
      state.content = padded m.bootZeros root.verifiedBootState
  application : ∃ entry id, l.applicationIds = m.applications ++ [entry] ∧
    readApplicationId entry = .ok id ∧
    parseApplicationId id = .ok (d.packageNames, d.signingDigests)

/-- Made without a zero but for the sign, and without an entry that comes to nothing. -/
structure Making.Plain (m : Making) (d : KeyDescription) : Prop where
  attestationZeros : m.attestationZeros = signZeros d.attestationSecurityLevel
  keyZeros : m.keyZeros = signZeros d.keySecurityLevel
  bootZeros : ∀ root, d.rootOfTrust = some root → m.bootZeros = signZeros root.verifiedBootState
  roots : m.roots = []
  applications : m.applications = []

/-! ### Entries -/

theorem kept_append {α : Type} {read : Tlv → Except Fault α} {entry : Tlv} {x : α}
    (entries : List Tlv) (h : read entry = .ok x) : kept read (entries ++ [entry]) = some x := by
  rw [kept, List.getLast?_concat, Option.bind_some, h]
  rfl

/-- Of entries that are all readable the last is kept, if there is one. -/
theorem kept_cases {α : Type} {read : Tlv → Except Fault α} {entries : List Tlv}
    (hall : ∀ entry ∈ entries, ∃ x, read entry = .ok x) :
    entries = [] ∧ kept read entries = none ∨ ∃ earlier entry x, entries = earlier ++ [entry] ∧
      read entry = .ok x ∧ kept read entries = some x := by
  rcases List.eq_nil_or_concat' entries with rfl | ⟨earlier, entry, rfl⟩
  · exact .inl ⟨rfl, rfl⟩
  · obtain ⟨x, hx⟩ := hall entry (by simp)
    exact .inr ⟨earlier, entry, x, rfl, hx, kept_append earlier hx⟩

theorem isRootOfTrust_of_applicationId {entry : Tlv} (h : isApplicationId entry = true) :
    isRootOfTrust entry = false := by
  have hnumber : entry.number = tagAttestationApplicationId := by
    simp only [isApplicationId, Bool.and_eq_true, beq_iff_eq] at h
    exact h.2
  rw [isRootOfTrust, hnumber]
  simp [tagAttestationApplicationId, tagRootOfTrust]

variable {list : AuthorizationList} {tlv : Tlv} {d : KeyDescription} {l : Layout} {m : Making}

theorem readEntry_lastOf {entries : List Tlv} {entry : Tlv} :
    readEntry (lastOf entries) entry = .ok list ↔
      Readable entry ∧ list = lastOf (entries ++ [entry]) := by
  rw [readEntry, Readable, lastOf, lastOf, List.filter_append, List.filter_append,
    List.filter_singleton, List.filter_singleton, eq_comm (a := list)]
  split_ifs with happ hroot
  · rw [isRootOfTrust_of_applicationId happ, happ]
    cases hread : readApplicationId entry with
    | error fault => simp [bind, Except.bind]
    | ok id =>
      rw [cond_true, kept_append _ hread]
      simp [bind, Except.bind, pure, Except.pure]
  · rw [Bool.eq_false_iff.mpr happ, hroot]
    cases hread : readRootOfTrust entry with
    | error fault => simp [bind, Except.bind]
    | ok root =>
      rw [cond_true, kept_append _ hread]
      simp [bind, Except.bind, pure, Except.pure]
  · simp [happ, hroot, pure, Except.pure]

/-- A list is accepted just if all its entries that count are readable, and the last ones are read. -/
theorem readEntries_ok (entries : List Tlv) (list : AuthorizationList) :
    readEntries entries = .ok list ↔
      (∀ entry ∈ entries, Readable entry) ∧ list = lastOf entries := by
  induction entries using List.reverseRecOn generalizing list with
  | nil =>
    have hnothing : readEntries [] = .ok (lastOf []) := rfl
    simp [hnothing, eq_comm]
  | append_singleton entries entry ih =>
    have hsnoc : readEntries (entries ++ [entry]) = readEntries entries >>= (readEntry · entry) := by
      simp [readEntries, List.foldlM_append]
    simp only [hsnoc, bind_eq_ok, ih]
    constructor
    · rintro ⟨_, ⟨hall, rfl⟩, hentry⟩
      obtain ⟨hlast, rfl⟩ := readEntry_lastOf.mp hentry
      exact ⟨by simpa [or_imp, forall_and, hlast] using hall, rfl⟩
    · rintro ⟨hall, rfl⟩
      simp only [List.mem_append, or_imp, forall_and, List.mem_singleton, forall_eq] at hall
      exact ⟨_, ⟨hall.1, rfl⟩, readEntry_lastOf.mpr ⟨hall.2, rfl⟩⟩

/-! ### Numbers -/

theorem checked_ok {α : Type} {x : Except String α} {a : α} : checked x = .ok a ↔ x = .ok a := by
  cases x <;> simp [checked]

theorem expect_ok {constructed : Bool} {number : Nat} {what : String} {u : Unit} :
    tlv.expect constructed number what = .ok u ↔ tlv.isUniversal constructed number = true := by
  rw [Tlv.expect]
  split_ifs with h <;> simp [h]

theorem fieldAt_ok {fields : List Tlv} {i : Nat} :
    fieldAt fields i = .ok tlv ↔ fields[i]? = some tlv := by
  rw [fieldAt]
  cases fields[i]? <;> simp

theorem bigEndian_padded (zeros n : Nat) : bigEndian (padded zeros n) = n := by
  induction zeros with
  | zero =>
    rw [padded, List.replicate_zero, List.nil_append, bigEndian, toNat_numeral, readNumeral_numeral]
  | succ zeros ih => rw [padded, List.replicate_succ, List.cons_append, bigEndian_zero, ← padded, ih]

/-- Any content is that of its number behind some zeros. -/
theorem exists_padded : ∀ content : Bytes, ∃ zeros, content = padded zeros (bigEndian content)
  | [] => ⟨0, by decide⟩
  | b :: rest => by
    rcases eq_or_ne b 0 with rfl | hb
    · obtain ⟨zeros, hrest⟩ := exists_padded rest
      refine ⟨zeros + 1, ?_⟩
      rw [bigEndian_zero, padded, List.replicate_succ, List.cons_append, ← padded, ← hrest]
    · refine ⟨0, ?_⟩
      rw [padded, numeral_bigEndian (by simpa using hb)]
      rfl

/-- One to eight bytes are accepted, with any zeros in front. -/
theorem asU64_ok (tlv : Tlv) (n : Nat) : tlv.asU64 = .ok n ↔
    (∃ zeros, tlv.content = padded zeros n) ∧ 1 ≤ tlv.content.length ∧ tlv.content.length ≤ 8 := by
  have hvalue : tlv.content.foldl (fun value b => value * 256 + b.toNat) 0 = bigEndian tlv.content := by
    rw [bigEndian, readNumeral, List.foldl_map]
  have hnumber : (∃ zeros, tlv.content = padded zeros n) ↔ bigEndian tlv.content = n := by
    refine ⟨?_, fun h => h ▸ exists_padded tlv.content⟩
    rintro ⟨zeros, hzeros⟩
    rw [hzeros, bigEndian_padded]
  rw [Tlv.asU64, hvalue, hnumber]
  split_ifs with h
  · simp only [Bool.or_eq_true, List.isEmpty_iff, decide_eq_true_eq, ← List.length_eq_zero_iff] at h
    simp only [false_iff, not_and]
    omega
  · simp only [Bool.or_eq_true, List.isEmpty_iff, decide_eq_true_eq, ← List.length_eq_zero_iff] at h
    rw [Except.ok.injEq]
    omega

/-- A number is given by its only content just if there is no zero but for the sign. -/
theorem gives_iff {zeros n : Nat} (huniversal : tlv.isUniversal false tagEnumerated = true)
    (hcontent : tlv.content = padded zeros n) : tlv.Gives n ↔ zeros = signZeros n := by
  have hder : derInteger n = padded (signZeros n) n := by
    rw [derInteger, signZeros, padded]
    split_ifs <;> rfl
  rw [Tlv.Gives, and_iff_right huniversal, hcontent, hder, padded, padded, List.append_left_inj]
  exact ⟨fun h => by simpa using congrArg List.length h, fun h => by rw [h]⟩

theorem readRootOfTrust_ok {root : Tlv} {r : RootOfTrust} (h : readRootOfTrust root = .ok r) :
    ∃ state, bootStateElement root = some state ∧
      state.isUniversal false tagEnumerated = true ∧ state.asU64 = .ok r.verifiedBootState := by
  obtain ⟨⟨inner, rest⟩, hinner, h⟩ := bind_eq_ok.mp h
  simp only [parseRootOfTrust, bind_eq_ok] at h
  obtain ⟨_, -, _, -, fields, hfields, _, -, key, -, _, -, locked, -, _, -, state, hstate, _,
    henumerated, _, -, n, hvalue, h⟩ := h
  cases h
  refine ⟨state, ?_, expect_ok.mp (checked_ok.mp henumerated), checked_ok.mp hvalue⟩
  rw [bootStateElement, hinner]
  simpa [Except.toOption, hfields] using fieldAt_ok.mp hstate

/-- How an extension was read that is accepted. -/
structure Reading (l : Layout) (d : KeyDescription) : Prop where
  attestationType : l.attestationLevel.isUniversal false tagEnumerated = true
  attestationLevel : l.attestationLevel.asU64 = .ok d.attestationSecurityLevel
  keyType : l.keyLevel.isUniversal false tagEnumerated = true
  keyLevel : l.keyLevel.asU64 = .ok d.keySecurityLevel
  software : ∀ entry ∈ l.software, Readable entry
  hardware : ∀ entry ∈ l.hardware, Readable entry
  rootOfTrust : d.rootOfTrust = (lastOf l.hardware).rootOfTrust
  application : ∃ id, (lastOf l.software).applicationId.or (lastOf l.hardware).applicationId = some id ∧
    parseApplicationId id = .ok (d.packageNames, d.signingDigests)

theorem parse_ok {extensionValue : Bytes} (h : parse extensionValue = .ok d) :
    ∃ l, layout extensionValue = some l ∧ Reading l d := by
  obtain ⟨⟨top, rest⟩, htop, h⟩ := bind_eq_ok.mp h
  simp only [parseAuthorizationList, bind_eq_ok] at h
  obtain ⟨_, -, _, -, fields, hfields, _, -, attestationLevel, hattestation, _, hattestationType, n,
    hattestationValue, keyLevel, hkey, _, hkeyType, m, hkeyValue, challenge, -, _, -, softwareList,
    hsoftwareList, software, ⟨_, -, softwareEntries, hsoftwareEntries, hsoftware⟩, hardwareList,
    hhardwareList, hardware, ⟨_, -, hardwareEntries, hhardwareEntries, hhardware⟩, h⟩ := h
  split at h
  · cases h
  · next der hder =>
    obtain ⟨⟨packageNames, signingDigests⟩, hnames, h⟩ := bind_eq_ok.mp h
    cases h
    obtain ⟨hall, rfl⟩ := (readEntries_ok _ _).mp hsoftware
    obtain ⟨hall', rfl⟩ := (readEntries_ok _ _).mp hhardware
    refine ⟨⟨attestationLevel, keyLevel, softwareEntries, hardwareEntries⟩, ?_,
      expect_ok.mp (checked_ok.mp hattestationType), checked_ok.mp hattestationValue,
      expect_ok.mp (checked_ok.mp hkeyType), checked_ok.mp hkeyValue, hall, hall', rfl,
      der, hder, hnames⟩
    rw [layout, htop]
    simp [Except.toOption, hfields, fieldAt_ok.mp hattestation, fieldAt_ok.mp hkey,
      fieldAt_ok.mp hsoftwareList, fieldAt_ok.mp hhardwareList, hsoftwareEntries, hhardwareEntries]

/-- The application id is that of the last entry of the list it is taken from. -/
theorem Reading.last_application (h : Reading l d) : ∃ earlier entry id,
    l.applicationIds = earlier ++ [entry] ∧ readApplicationId entry = .ok id ∧
      parseApplicationId id = .ok (d.packageNames, d.signingDigests) := by
  obtain ⟨id, hid, hnames⟩ := h.application
  have hreadable : ∀ {entries : List Tlv}, (∀ entry ∈ entries, Readable entry) →
      ∀ entry ∈ entries.filter isApplicationId, ∃ id, readApplicationId entry = .ok id :=
    fun hall entry hentry => (hall entry (List.mem_filter.mp hentry).1).1 (List.mem_filter.mp hentry).2
  rcases kept_cases (hreadable h.software) with ⟨hnone, hkept⟩ | ⟨earlier, entry, id', hlast, hread, hkept⟩
  · rw [lastOf, hkept, Option.none_or] at hid
    rcases kept_cases (hreadable h.hardware) with ⟨-, hkept'⟩ | ⟨earlier, entry, id', hlast, hread, hkept'⟩
    · rw [lastOf, hkept'] at hid
      cases hid
    · obtain rfl : id' = id := Option.some.inj (hkept'.symm.trans hid)
      have hany : l.software.any isApplicationId = false := by
        simpa [List.filter_eq_nil_iff] using hnone
      exact ⟨earlier, entry, id', by rw [Layout.applicationIds, hany]; exact hlast, hread, hnames⟩
  · obtain rfl : id' = id := by
      rw [lastOf, hkept, Option.some_or] at hid
      exact Option.some.inj hid
    have hany : l.software.any isApplicationId = true := by
      have hentry : entry ∈ l.software.filter isApplicationId := by simp [hlast]
      exact List.any_eq_true.mpr ⟨entry, List.mem_filter.mp hentry⟩
    exact ⟨earlier, entry, id', by rw [Layout.applicationIds, hany]; exact hlast, hread, hnames⟩

/-- An accepted extension was made somehow. -/
theorem Reading.made (h : Reading l d) : ∃ m, l.Made m d := by
  obtain ⟨⟨attestationZeros, hattestation⟩, -⟩ := (asU64_ok _ _).mp h.attestationLevel
  obtain ⟨⟨keyZeros, hkey⟩, -⟩ := (asU64_ok _ _).mp h.keyLevel
  obtain ⟨applications, application, id, hids⟩ := h.last_application
  have hreadable : ∀ entry ∈ l.rootsOfTrust, ∃ root, readRootOfTrust entry = .ok root :=
    fun entry hentry => (h.hardware entry (List.mem_filter.mp hentry).1).2 (List.mem_filter.mp hentry).2
  rcases kept_cases hreadable with ⟨hnone, hkept⟩ | ⟨roots, entry, root, hlast, hread, hkept⟩
  · refine ⟨⟨attestationZeros, keyZeros, 0, [], applications⟩, hattestation, hkey, fun _ => ⟨hnone, rfl⟩,
      ?_, application, id, hids⟩
    have hroot : d.rootOfTrust = none := h.rootOfTrust.trans hkept
    simp [hroot]
  · obtain ⟨state, hstate, -, hvalue⟩ := readRootOfTrust_ok hread
    obtain ⟨⟨bootZeros, hboot⟩, -⟩ := (asU64_ok _ _).mp hvalue
    refine ⟨⟨attestationZeros, keyZeros, bootZeros, roots, applications⟩, hattestation, hkey, ?_, ?_,
      application, id, hids⟩ <;> rw [show d.rootOfTrust = some root from h.rootOfTrust.trans hkept]
    · rintro ⟨⟩
    · rintro _ ⟨⟩
      exact ⟨entry, state, hlast, hread, hstate, hboot⟩

theorem Layout.Made.roots_iff (h : l.Made m d) : l.rootsOfTrust.length ≤ 1 ↔ m.roots = [] := by
  cases hroot : d.rootOfTrust with
  | none => simp [h.noRoot hroot]
  | some root =>
    obtain ⟨entry, _, hlast, -⟩ := h.rootOfTrust root hroot
    simp [hlast]

theorem Layout.Made.applications_iff (h : l.Made m d) :
    l.applicationIds.length = 1 ↔ m.applications = [] := by
  obtain ⟨entry, _, hlast, -⟩ := h.application
  simp [hlast]

theorem Layout.Made.bootState {root : RootOfTrust} (h : l.Made m d) (hroot : d.rootOfTrust = some root) :
    ∃ state, l.bootState = some state ∧
      (state.Gives root.verifiedBootState ↔ m.bootZeros = signZeros root.verifiedBootState) := by
  obtain ⟨entry, state, hlast, hread, hstate, hboot⟩ := h.rootOfTrust root hroot
  obtain ⟨state', hstate', huniversal, -⟩ := readRootOfTrust_ok hread
  obtain rfl : state' = state := Option.some.inj (hstate'.symm.trans hstate)
  refine ⟨state', ?_, gives_iff huniversal hboot⟩
  rw [Layout.bootState, hlast, List.getLast?_concat, Option.bind_some, hstate]

theorem Reading.unambiguous_iff (h : Reading l d) (hm : l.Made m d) :
    l.Unambiguous d ↔ m.Plain d := by
  have hattestation := gives_iff h.attestationType hm.attestationLevel
  have hkey := gives_iff h.keyType hm.keyLevel
  constructor
  · intro hu
    refine ⟨hattestation.mp hu.attestationLevel, hkey.mp hu.keyLevel, fun root hroot => ?_,
      hm.roots_iff.mp hu.rootsOfTrust, hm.applications_iff.mp hu.applicationIds⟩
    obtain ⟨state, hstate, hgives⟩ := hm.bootState hroot
    obtain ⟨state', hstate', hgiven⟩ := hu.bootState root hroot
    obtain rfl : state' = state := Option.some.inj (hstate'.symm.trans hstate)
    exact hgives.mp hgiven
  · intro hp
    refine ⟨hattestation.mpr hp.attestationZeros, hkey.mpr hp.keyZeros, fun root hroot => ?_,
      hm.roots_iff.mpr hp.roots, hm.applications_iff.mpr hp.applications⟩
    obtain ⟨state, hstate, hgives⟩ := hm.bootState hroot
    exact ⟨state, hstate, hgives.mpr (hp.bootZeros root hroot)⟩

/-- A number is accepted in one to eight bytes, whatever zeros it has in front, and a list with any
    number of entries of a kind, of which the last is read. Reading an extension never panics, and one
    that is accepted was read without ambiguity just if it was made without such zeros, but for the
    sign, and without such entries. -/
theorem extension_unambiguous_iff (extensionValue : Bytes) :
    (∀ (tlv : Tlv) (n : Nat), tlv.asU64 = .ok n ↔ (∃ zeros, tlv.content = padded zeros n) ∧
      1 ≤ tlv.content.length ∧ tlv.content.length ≤ 8) ∧
    (∀ (entries : List Tlv) (list : AuthorizationList), readEntries entries = .ok list ↔
      (∀ entry ∈ entries, Readable entry) ∧ list = lastOf entries) ∧
    parse extensionValue ≠ .error .panicked ∧
    ∀ d, parse extensionValue = .ok d → ∃ l, layout extensionValue = some l ∧
      (∃ m, l.Made m d) ∧ ∀ m, l.Made m d → (l.Unambiguous d ↔ m.Plain d) := by
  refine ⟨asU64_ok, readEntries_ok, panicFree_parse extensionValue, fun d h => ?_⟩
  obtain ⟨l, hlayout, hreading⟩ := parse_ok h
  exact ⟨l, hlayout, hreading.made, fun m hm => hreading.unambiguous_iff hm⟩

/-! ### Extensions that are read as others are -/

def enumerated (content : Bytes) : Bytes := (Tlv.mk 0 false tagEnumerated content).encode
def octetString (content : Bytes) : Bytes := (Tlv.mk 0 false tagOctetString content).encode
def sequence (parts : List Bytes) : Bytes := (Tlv.mk 0 true tagSequence parts.flatten).encode
def setOf (parts : List Bytes) : Bytes := (Tlv.mk 0 true tagSet parts.flatten).encode
def explicit (number : Nat) (inner : Bytes) : Bytes := (Tlv.mk 2 true number inner).encode

/-- A root of trust with a locked boot loader. -/
def rootEntry (key state : Bytes) : Bytes :=
  explicit tagRootOfTrust (sequence [octetString key, (Tlv.mk 0 false tagBoolean [0xff]).encode,
    enumerated state])

def applicationEntry (package : String) : Bytes :=
  explicit tagAttestationApplicationId (octetString (sequence [
    setOf [sequence [octetString (utf8 package)]], setOf [octetString (List.replicate 32 0x11)]]))

def keyDescription (level : Bytes) (software hardware : List Bytes) : Bytes :=
  sequence [(Tlv.mk 0 false 2 [100]).encode, enumerated level, (Tlv.mk 0 false 2 [100]).encode,
    enumerated level, octetString (utf8 "challenge"), octetString [], sequence software,
    sequence hardware]

def polkadotDescription : KeyDescription where
  attestationSecurityLevel := 1
  keySecurityLevel := 1
  attestationChallenge := utf8 "challenge"
  packageNames := ["io.pcf.polkadotapp"]
  signingDigests := [List.replicate 32 0x11]
  rootOfTrust := some ⟨[0x22], true, 0⟩

/-- The same description comes of a level with a zero in front, and of lists in which another package
    and another root of trust come first. -/
theorem extension_read_ambiguously :
    (parse (keyDescription [0, 1] [applicationEntry "io.pcf.polkadotapp"] [rootEntry [0x22] [0]]) =
        .ok polkadotDescription ∧
      ∃ l, layout (keyDescription [0, 1] [applicationEntry "io.pcf.polkadotapp"]
        [rootEntry [0x22] [0]]) = some l ∧ ¬ l.Unambiguous polkadotDescription) ∧
    parse (keyDescription [1]
        [applicationEntry "com.example", applicationEntry "io.pcf.polkadotapp"]
        [rootEntry [0x33] [2], rootEntry [0x22] [0]]) = .ok polkadotDescription ∧
      ∃ l, layout (keyDescription [1]
        [applicationEntry "com.example", applicationEntry "io.pcf.polkadotapp"]
        [rootEntry [0x33] [2], rootEntry [0x22] [0]]) = some l ∧
        ¬ l.Unambiguous polkadotDescription := by
  have hpadded : parse (keyDescription [0, 1] [applicationEntry "io.pcf.polkadotapp"]
      [rootEntry [0x22] [0]]) = .ok polkadotDescription := by decide +kernel
  have htwice : parse (keyDescription [1]
      [applicationEntry "com.example", applicationEntry "io.pcf.polkadotapp"]
      [rootEntry [0x33] [2], rootEntry [0x22] [0]]) = .ok polkadotDescription := by decide +kernel
  have hlevel : (layout (keyDescription [0, 1] [applicationEntry "io.pcf.polkadotapp"]
      [rootEntry [0x22] [0]])).map (·.attestationLevel.content) = some [0, 1] := by decide +kernel
  have hroots : (layout (keyDescription [1]
      [applicationEntry "com.example", applicationEntry "io.pcf.polkadotapp"]
      [rootEntry [0x33] [2], rootEntry [0x22] [0]])).map (·.rootsOfTrust.length) = some 2 := by
    decide +kernel
  obtain ⟨l, hl, hcontent⟩ := Option.map_eq_some_iff.mp hlevel
  obtain ⟨l', hl', hlength⟩ := Option.map_eq_some_iff.mp hroots
  refine ⟨⟨hpadded, l, hl, fun h => ?_⟩, htwice, l', hl', fun h => ?_⟩
  · exact absurd (hcontent.symm.trans h.attestationLevel.2) (by decide)
  · exact absurd (hlength ▸ h.rootsOfTrust) (by decide)

end DeviceUniqueness.KeyAttest
