import DeviceUniqueness.Outbox.Schema
import DeviceUniqueness.Schemes.Prog

/-! The batched read of username owners.

    One query asks a block for the keys of a set of names, and the answer is a list of keys, each with
    a value or none. It is matched with the keys that were asked for: a key that was not asked for, one
    that comes twice and one that is left out are errors, since a name without a value is free. A hash
    map is the function of its lookups. -/

namespace DeviceUniqueness

open Function Schemes

inductive BatchReadError where
  | rpc (err : String)
  | changeSetCount (count : Nat)
  | blockMismatch (want got : String)
  | unknownKey
  | duplicateKey
  | missingKeys (count : Nat)
  | undecodableValue
  | valueCount (names values : Nat)
  deriving DecidableEq

structure StorageChangeSet (H : Type) where
  block : H
  changes : List (Bytes × Option Bytes)

/-! ### The answers in the order of the keys -/

/-- What the loop of `values_from_changes` fills in, each in the order of the keys. -/
structure Answers where
  answered : List Bool
  values : List (Option Bytes)
  deriving DecidableEq

namespace Answers

def unanswered (keys : List Bytes) : Answers :=
  ⟨List.replicate keys.length false, List.replicate keys.length none⟩

def place (index : Bytes → Option Nat) (answers : Answers) :
    Bytes × Option Bytes → Except BatchReadError Answers
  | (key, value) =>
      match index key with
      | none => .error .unknownKey
      | some i =>
          if answers.answered[i]? = some true then .error .duplicateKey
          else .ok ⟨answers.answered.set i true, answers.values.set i value⟩

end Answers

section

variable {H : Type} [DecidableEq H] (debug : H → String)

/-- `debug` is the block's `Debug`. -/
def valuesFromChanges (keys : List Bytes) (wantBlock : H) :
    List (StorageChangeSet H) → Except BatchReadError (List (Option Bytes))
  | [set] =>
      if set.block ≠ wantBlock then .error (.blockMismatch (debug wantBlock) (debug set.block))
      else do
        let answers ← set.changes.foldlM (Answers.place (placeIn keys)) (.unanswered keys)
        let unanswered := answers.answered.countP (! ·)
        if 0 < unanswered then .error (.missingKeys unanswered) else .ok answers.values
  | changes => .error (.changeSetCount changes.length)

end

/-! ### The owners -/

/-- `AccountId32::decode`, with what is left of the input. -/
def decodeAccountId32 (input : Bytes) : Option (Account × Bytes) :=
  if h : 32 ≤ input.length then
    some (⟨input.take 32, List.length_take_of_le h⟩, input.drop 32)
  else none

def decodeOwner (bytes : Bytes) : Except BatchReadError Account :=
  match decodeAccountId32 bytes with
  | none => .error .undecodableValue
  | some (owner, input) => if input ≠ [] then .error .undecodableValue else .ok owner

def insertOwner (owners : String → Option Account) :
    String × Option Bytes → Except BatchReadError (String → Option Account)
  | (name, some bytes) => do
      let owner ← decodeOwner bytes
      return update owners name (some owner)
  | (_, none) => return owners

def ownersByName (names : Finset String) (values : List (Option Bytes)) :
    Except BatchReadError (String → Option Account) :=
  if names.card ≠ values.length then .error (.valueCount names.card values.length)
  else (names.sort.zip values).foldlM insertOwner fun _ => none

variable {names : List String} {key : String → Bytes} {changes : List (Bytes × Option Bytes)}
  {owners : String → Option Account}

section

variable {H : Type} [DecidableEq H] (debug : H → String)

/-- The read of `username_owners`, from the change sets that a block answers with. -/
def ownersFromChanges (key : String → Bytes) (names : List String) (block : H)
    (changes : List (StorageChangeSet H)) :
    Except BatchReadError (String → Option Account) := do
  let unique := names.toFinset
  let values ← valuesFromChanges debug (unique.sort.map key) block changes
  ownersByName unique values

/-- What `username_owners` asks of the chain. -/
structure OwnerStorage (H : Type) where
  currentBlock : Except String H
  /-- `entry.fetch_key`, or the error of the entry itself -/
  fetchKey : Except String (String → Except String Bytes)
  queryStorageAt : List Bytes → H → Except String (List (StorageChangeSet H))

inductive OwnersError where
  | client (err : String)
  | read (err : BatchReadError)

def usernameOwners (chain : OwnerStorage H) (names : List String) :
    Except OwnersError (String → Option Account) :=
  if names.isEmpty then .ok fun _ => none
  else do
    let unique := names.toFinset
    let block ← chain.currentBlock.mapError .client
    let fetchKey ← chain.fetchKey.mapError .client
    let keys ← (unique.sort.mapM fetchKey).mapError .client
    let changes ← (chain.queryStorageAt keys block).mapError (.read ∘ .rpc)
    let values ← (valuesFromChanges debug keys block changes).mapError .read
    (ownersByName unique values).mapError .read

/-- A read with keys that can be built is `ownersFromChanges`, of what the block answers. -/
theorem usernameOwners_eq {chain : OwnerStorage H} {block : H} {changes : List (StorageChangeSet H)}
    (hnames : names ≠ []) (hblock : chain.currentBlock = .ok block)
    (hkey : chain.fetchKey = .ok (.ok ∘ key))
    (hchanges : chain.queryStorageAt (names.toFinset.sort.map key) block = .ok changes) :
    usernameOwners debug chain names =
      (ownersFromChanges debug key names block changes).mapError .read := by
  have hkeys : names.toFinset.sort.mapM (.ok ∘ key : String → Except String Bytes) =
      .ok (names.toFinset.sort.map key) := List.mapM_pure
  rw [usernameOwners, if_neg (by simpa using hnames), hblock, hkey, ownersFromChanges]
  simp only [Except.mapError, hkeys, hchanges, bind, Except.bind]
  cases valuesFromChanges debug (names.toFinset.sort.map key) block changes <;> rfl

end

/-! ### What the loops do -/

/-- The value that the answers carry for a key. -/
def answerTo (changes : List (Bytes × Option Bytes)) (key : Bytes) : Option Bytes :=
  (changes.find? fun change => change.1 = key).bind Prod.snd

theorem answerTo_eq_some (hkeys : (changes.map Prod.fst).Nodup) {key value : Bytes} :
    answerTo changes key = some value ↔ (key, some value) ∈ changes := by
  rw [answerTo, Option.bind_eq_some_iff]
  constructor
  · rintro ⟨change, hfind, hvalue⟩
    obtain ⟨hmem, rfl⟩ := (find?_keyed hkeys).mp hfind
    exact hvalue ▸ hmem
  · exact fun hmem => ⟨(key, some value), (find?_keyed hkeys).mpr ⟨hmem, rfl⟩, rfl⟩

theorem answerTo_perm {changes' : List (Bytes × Option Bytes)} (h : changes.Perm changes')
    (hkeys : (changes.map Prod.fst).Nodup) : answerTo changes = answerTo changes' := by
  funext key
  refine Option.ext fun value => ?_
  rw [answerTo_eq_some hkeys, answerTo_eq_some ((h.map Prod.fst).nodup_iff.mp hkeys), h.mem_iff]

theorem answerTo_concat {key : Bytes} (hnew : key ∉ changes.map Prod.fst) (value : Option Bytes) :
    answerTo (changes ++ [(key, value)]) = update (answerTo changes) key value := by
  funext k
  rw [answerTo, List.find?_append]
  by_cases hk : k = key
  · subst hk
    have hnone : changes.find? (fun change => change.1 = k) = none :=
      List.find?_eq_none.mpr fun change hchange hk =>
        hnew (of_decide_eq_true hk ▸ List.mem_map_of_mem hchange)
    simp [hnone]
  · have hlast : [(key, value)].find? (fun change => change.1 = k) = none := by
      simpa using Ne.symm hk
    rw [hlast, Option.or_none, update_of_ne hk, answerTo]

namespace Answers

/-- What is filled in once some of the answers have been seen. -/
def after (keys : List Bytes) (seen : List (Bytes × Option Bytes)) : Answers :=
  ⟨keys.map fun key => decide (key ∈ seen.map Prod.fst), keys.map (answerTo seen)⟩

theorem unanswered_eq (keys : List Bytes) : unanswered keys = after keys [] := by
  have hnone : answerTo [] = fun _ => none := rfl
  simp [unanswered, after, hnone]

section

variable {keys : List Bytes} (hkeys : keys.Nodup)
include hkeys

theorem place_after (seen : List (Bytes × Option Bytes)) (key : Bytes) (value : Option Bytes) :
    place (placeIn keys) (after keys seen) (key, value) =
      if key ∉ keys then .error .unknownKey
      else if key ∈ seen.map Prod.fst then .error .duplicateKey
      else .ok (after keys (seen ++ [(key, value)])) := by
  by_cases hkey : key ∈ keys
  · obtain ⟨i, hi, hget, hset⟩ := placeIn_some hkeys hkey
    have hanswered : (after keys seen).answered[i]? = some (decide (key ∈ seen.map Prod.fst)) := by
      rw [after, List.getElem?_map, hget, Option.map_some]
    rw [place, hi, if_neg (not_not_intro hkey)]
    by_cases hseen : key ∈ seen.map Prod.fst
    · simp only [hanswered, decide_eq_true hseen, if_pos hseen, if_true]
    · have hnow : (fun k => decide (k ∈ (seen ++ [(key, value)]).map Prod.fst)) =
          update (fun k => decide (k ∈ seen.map Prod.fst)) key true := by
        funext k
        by_cases hk : k = key
        · simp [hk]
        · simp [hk]
      simp only [hanswered, decide_eq_false hseen, if_neg hseen, Option.some.injEq,
        Bool.false_eq_true, if_false]
      rw [after, after, hset, hset, hnow, answerTo_concat hseen]
  · rw [place, placeIn_none hkeys hkey, if_pos hkey]

/-- The loop goes through exactly if every key was asked for and none comes twice. -/
theorem place_all {acc : Answers} (rest : List (Bytes × Option Bytes)) :
    ∀ {seen : List (Bytes × Option Bytes)}, (seen.map Prod.fst).Nodup →
      (rest.foldlM (place (placeIn keys)) (after keys seen) = .ok acc ↔
        (∀ key ∈ rest.map Prod.fst, key ∈ keys) ∧ ((seen ++ rest).map Prod.fst).Nodup ∧
          acc = after keys (seen ++ rest)) := by
  induction rest with
  | nil =>
    intro seen hseen
    simp [pure, Except.pure, hseen, eq_comm]
  | cons change rest ih =>
    obtain ⟨key, value⟩ := change
    intro seen hseen
    have hassoc : seen ++ (key, value) :: rest = seen ++ [(key, value)] ++ rest := by simp
    rw [List.foldlM_cons, place_after hkeys]
    split
    · next hkey => simp [bind, Except.bind, hkey]
    next hkey =>
    split
    · next hdup =>
      have hnot : ¬ ((seen ++ (key, value) :: rest).map Prod.fst).Nodup := by
        rw [List.map_append, List.map_cons, List.nodup_middle, List.nodup_cons]
        exact fun h => h.1 (List.mem_append_left _ hdup)
      exact ⟨nofun, fun h => absurd h.2.1 hnot⟩
    · next hnew =>
      have hseen' : ((seen ++ [(key, value)]).map Prod.fst).Nodup := by
        rw [List.map_append, List.map_singleton]
        exact List.nodup_append.mpr ⟨hseen, List.nodup_singleton _, by grind⟩
      rw [hassoc]
      exact (ih hseen').trans (by simp [not_not.mp hkey])

theorem place_unanswered {acc : Answers} (changes : List (Bytes × Option Bytes)) :
    changes.foldlM (place (placeIn keys)) (unanswered keys) = .ok acc ↔
      (∀ key ∈ changes.map Prod.fst, key ∈ keys) ∧ (changes.map Prod.fst).Nodup ∧
        acc = after keys changes := by
  rw [unanswered_eq]
  exact place_all hkeys changes List.Pairwise.nil

end

theorem countP_after {keys : List Bytes} {seen : List (Bytes × Option Bytes)} :
    (after keys seen).answered.countP (! ·) = 0 ↔ ∀ key ∈ keys, key ∈ seen.map Prod.fst := by
  rw [List.countP_eq_zero, after, List.forall_mem_map]
  simp

end Answers

variable {H : Type} [DecidableEq H] {debug : H → String}

/-- The keys that were asked for are answered, each once, and the values come in their order. -/
theorem valuesFromChanges_eq_ok {keys : List Bytes} (hkeys : keys.Nodup) {block : H}
    {changes : List (StorageChangeSet H)} {values : List (Option Bytes)} :
    valuesFromChanges debug keys block changes = .ok values ↔
      ∃ set, changes = [set] ∧ set.block = block ∧ (set.changes.map Prod.fst).Perm keys ∧
        values = keys.map (answerTo set.changes) := by
  constructor
  · intro h
    rcases changes with _ | ⟨set, _ | ⟨_, _⟩⟩
    · cases h
    · rw [valuesFromChanges] at h
      split at h
      · cases h
      next hblock =>
      obtain ⟨answers, hloop, h⟩ := bind_eq_ok.mp h
      obtain ⟨hasked, honce, rfl⟩ := (Answers.place_unanswered hkeys _).mp hloop
      simp only at h
      split at h
      · cases h
      next hall =>
      rw [Nat.pos_iff_ne_zero, not_not, Answers.countP_after] at hall
      exact ⟨set, rfl, not_not.mp hblock, (List.perm_ext_iff_of_nodup honce hkeys).mpr fun key =>
        ⟨hasked key, hall key⟩, (Except.ok.inj h).symm⟩
    · cases h
  · rintro ⟨set, rfl, rfl, hperm, rfl⟩
    have hloop := (Answers.place_unanswered hkeys set.changes).mpr
      ⟨fun key => hperm.mem_iff.mp, hperm.nodup_iff.mpr hkeys, rfl⟩
    have hall : (Answers.after keys set.changes).answered.countP (! ·) = 0 :=
      Answers.countP_after.mpr fun key => hperm.mem_iff.mpr
    simp only [valuesFromChanges, hloop, hall, bind, Except.bind, ne_eq, not_true_eq_false, if_false,
      lt_irrefl]
    rfl

/-- The account that some bytes are. -/
def accountOf (bytes : Bytes) : Option Account :=
  if h : bytes.length = 32 then some ⟨bytes, h⟩ else none

theorem accountOf_eq_some {bytes : Bytes} {owner : Account} :
    accountOf bytes = some owner ↔ bytes = owner.1 := by
  rw [accountOf]
  constructor
  · intro h
    split at h
    · rw [← Option.some.inj h]
    · cases h
  · rintro rfl
    rw [dif_pos owner.2]

theorem decodeOwner_eq_ok {bytes : Bytes} {owner : Account} :
    decodeOwner bytes = .ok owner ↔ accountOf bytes = some owner := by
  unfold decodeOwner decodeAccountId32 accountOf
  by_cases hle : 32 ≤ bytes.length
  · by_cases heq : bytes.length = 32
    · have hdrop : bytes.drop 32 = [] := List.drop_eq_nil_iff.mpr heq.le
      have htake : bytes.take 32 = bytes := List.take_of_length_le heq.le
      simp [heq, hdrop, htake]
    · have hdrop : bytes.drop 32 ≠ [] := fun h => heq (le_antisymm (List.drop_eq_nil_iff.mp h) hle)
      simp [hle, heq, hdrop]
  · have hne : bytes.length ≠ 32 := fun h => hle h.ge
    simp [hle, hne]

theorem insertOwner_eq_ok {acc acc' : String → Option Account} {name : String}
    {value : Option Bytes} :
    insertOwner acc (name, value) = .ok acc' ↔
      (∀ bytes, value = some bytes → bytes.length = 32) ∧
        acc' = fun n => ((if n = name then value else none).bind accountOf).or (acc n) := by
  cases value with
  | none => simp [insertOwner, pure, Except.pure, eq_comm]
  | some bytes =>
    rw [insertOwner, bind_eq_ok]
    simp only [decodeOwner_eq_ok, pure, Except.pure, Except.ok.injEq, Option.some.injEq]
    constructor
    · rintro ⟨owner, howner, rfl⟩
      obtain rfl := accountOf_eq_some.mp howner
      refine ⟨fun bytes hbytes => hbytes ▸ owner.2, ?_⟩
      funext n
      by_cases hn : n = name <;> simp [hn, howner]
    · rintro ⟨hlength, rfl⟩
      have howner : accountOf bytes = some ⟨bytes, hlength bytes rfl⟩ := accountOf_eq_some.mpr rfl
      refine ⟨_, howner, ?_⟩
      funext n
      by_cases hn : n = name <;> simp [hn, howner]

/-- The loop goes through exactly if every value is an account, and enters the owners of the names. -/
theorem insertOwner_all {value : String → Option Bytes} (names : List String) :
    ∀ {acc : String → Option Account},
      (names.map fun name => (name, value name)).foldlM insertOwner acc = .ok owners ↔
        (∀ name ∈ names, ∀ bytes, value name = some bytes → bytes.length = 32) ∧
          owners = fun n => ((if n ∈ names then value n else none).bind accountOf).or (acc n) := by
  induction names with
  | nil =>
    intro acc
    simp [pure, Except.pure, eq_comm]
  | cons name names ih =>
    intro acc
    have hone : ∀ n, (((if n ∈ names then value n else none).bind accountOf).or
        (((if n = name then value name else none).bind accountOf).or (acc n))) =
        ((if n ∈ name :: names then value n else none).bind accountOf).or (acc n) := by
      intro n
      by_cases hn : n = name
      · subst hn
        by_cases hmem : n ∈ names
        · cases hvalue : (value n).bind accountOf <;> simp [hmem, hvalue]
        · simp [hmem]
      · simp [hn]
    rw [List.map_cons, List.foldlM_cons, bind_eq_ok]
    simp only [insertOwner_eq_ok, ih, List.forall_mem_cons]
    constructor
    · rintro ⟨_, ⟨hfirst, rfl⟩, hrest, rfl⟩
      exact ⟨⟨hfirst, hrest⟩, funext hone⟩
    · rintro ⟨⟨hfirst, hrest⟩, rfl⟩
      exact ⟨_, ⟨hfirst, rfl⟩, hrest, (funext hone).symm⟩

theorem ownersByName_eq_ok {names : Finset String} {value : String → Option Bytes} :
    ownersByName names (names.sort.map value) = .ok owners ↔
      (∀ name ∈ names, ∀ bytes, value name = some bytes → bytes.length = 32) ∧
        owners = fun n => (if n ∈ names then value n else none).bind accountOf := by
  have hzip : names.sort.zip (names.sort.map value) =
      names.sort.map fun name => (name, value name) := List.map_prod_left_eq_zip.symm
  rw [ownersByName, if_neg (by simp), hzip, insertOwner_all]
  simp

theorem ownersFromChanges_eq_ok (hkey : Function.Injective key) {block : H}
    {changes : List (StorageChangeSet H)} :
    ownersFromChanges debug key names block changes = .ok owners ↔
      ∃ set, changes = [set] ∧ set.block = block ∧
        (set.changes.map Prod.fst).Perm (names.dedup.map key) ∧
        (∀ name ∈ names, ∀ bytes, answerTo set.changes (key name) = some bytes → bytes.length = 32) ∧
        owners = fun n =>
          (if n ∈ names then answerTo set.changes (key n) else none).bind accountOf := by
  have hsort : names.toFinset.sort.Perm names.dedup :=
    (List.perm_ext_iff_of_nodup (Finset.sort_nodup ..) names.nodup_dedup).mpr (by simp)
  have hkeys : (names.toFinset.sort.map key).Nodup := (Finset.sort_nodup ..).map hkey
  have hperm : ∀ keys : List Bytes, keys.Perm (names.toFinset.sort.map key) ↔
      keys.Perm (names.dedup.map key) := fun keys =>
    ⟨fun h => h.trans (hsort.map key), fun h => h.trans (hsort.map key).symm⟩
  rw [ownersFromChanges, bind_eq_ok]
  simp only [valuesFromChanges_eq_ok hkeys, hperm]
  constructor
  · rintro ⟨_, ⟨set, rfl, hblock, hasked, rfl⟩, h⟩
    rw [List.map_map, ownersByName_eq_ok] at h
    simp only [List.mem_toFinset] at h
    exact ⟨set, rfl, hblock, hasked, h⟩
  · rintro ⟨set, rfl, hblock, hasked, h⟩
    refine ⟨_, ⟨set, rfl, hblock, hasked, rfl⟩, ?_⟩
    rw [List.map_map, ownersByName_eq_ok]
    simp only [List.mem_toFinset]
    exact h

/-- What the answers carry is an account, for every name that was asked for. -/
theorem answers_decode (honce : (changes.map Prod.fst).Nodup)
    (hasked : (changes.map Prod.fst).Perm (names.dedup.map key)) :
    (∀ name ∈ names, ∀ bytes, answerTo changes (key name) = some bytes → bytes.length = 32) ↔
      ∀ key bytes, (key, some bytes) ∈ changes → bytes.length = 32 := by
  constructor
  · intro h k bytes hmem
    have hk : k ∈ names.dedup.map key := hasked.mem_iff.mp (List.mem_map_of_mem hmem)
    obtain ⟨name, hname, rfl⟩ := List.mem_map.mp hk
    exact h name (List.mem_dedup.mp hname) bytes ((answerTo_eq_some honce).mpr hmem)
  · intro h name _ bytes hbytes
    exact h _ bytes ((answerTo_eq_some honce).mp hbytes)

variable (debug) in
/-- The read succeeds exactly when one change set answers for the block, each key that was asked for
    once, with accounts; and then the owners are what it carries, in whatever order. -/
theorem owner_read_exact {key : String → Bytes} (hkey : Function.Injective key)
    (names : List String) (block : H) (changes : List (StorageChangeSet H)) :
    ((∃ owners, ownersFromChanges debug key names block changes = .ok owners) ↔
      ∃ set, changes = [set] ∧ set.block = block ∧
        (set.changes.map Prod.fst).Perm (names.dedup.map key) ∧
        ∀ key bytes, (key, some bytes) ∈ set.changes → bytes.length = 32) ∧
    ∀ owners set, ownersFromChanges debug key names block changes = .ok owners → changes = [set] →
      (∀ name owner, owners name = some owner ↔ (key name, some owner.1) ∈ set.changes) ∧
      ∀ set', set'.block = set.block → set.changes.Perm set'.changes →
        ownersFromChanges debug key names block [set'] = .ok owners := by
  have honce : ∀ {cs : List (Bytes × Option Bytes)},
      (cs.map Prod.fst).Perm (names.dedup.map key) → (cs.map Prod.fst).Nodup :=
    fun h => h.nodup_iff.mpr (names.nodup_dedup.map hkey)
  simp only [ownersFromChanges_eq_ok hkey]
  refine ⟨⟨?_, ?_⟩, ?_⟩
  · rintro ⟨_, set, hset, hblock, hasked, hdecode, -⟩
    exact ⟨set, hset, hblock, hasked, (answers_decode (honce hasked) hasked).mp hdecode⟩
  · rintro ⟨set, hset, hblock, hasked, hdecode⟩
    exact ⟨_, set, hset, hblock, hasked, (answers_decode (honce hasked) hasked).mpr hdecode, rfl⟩
  · rintro _ set ⟨found, hfound, hblock, hasked, hdecode, rfl⟩ hset
    obtain rfl : found = set := List.singleton_inj.mp (hfound.symm.trans hset)
    refine ⟨fun name owner => ?_, fun set' hblock' hperm => ?_⟩
    · rw [← answerTo_eq_some (honce hasked)]
      simp only
      by_cases hname : name ∈ names
      · rw [if_pos hname, Option.bind_eq_some_iff]
        simp [accountOf_eq_some]
      · -- a name that was not asked for has no answer either
        have hnone : ¬ answerTo found.changes (key name) = some owner.1 := by
          rw [answerTo_eq_some (honce hasked)]
          intro hmem
          have hmem : key name ∈ names.dedup.map key :=
            hasked.mem_iff.mp (List.mem_map_of_mem hmem)
          exact hname (List.mem_dedup.mp ((List.mem_map_of_injective hkey).mp hmem))
        simp [hname, hnone]
    · have hanswers := answerTo_perm hperm (honce hasked)
      refine ⟨set', rfl, hblock'.trans hblock, (hperm.map Prod.fst).symm.trans hasked, ?_, ?_⟩
      · rw [← hanswers]
        exact hdecode
      · rw [← hanswers]

/-- A name asked for twice, and a free one; the answers come in another order. -/
theorem owner_read_exact_two :
    let names := ["b.02", "a.01", "b.02"]
    let owner : Account := ⟨List.replicate 32 2, rfl⟩
    let set : StorageChangeSet Nat := ⟨7, [(utf8 "b.02", some owner.1), (utf8 "a.01", none)]⟩
    ∃ owners, ownersFromChanges toString utf8 names 7 [set] = .ok owners ∧
      owners "b.02" = some owner ∧ owners "a.01" = none ∧
      ownersFromChanges toString utf8 names 7 [⟨7, set.changes.reverse⟩] = .ok owners := by
  intro names owner set
  obtain ⟨hsucceeds, hmap⟩ :=
    owner_read_exact toString utf8_injective names 7 [set]
  have hanswered : (set.changes.map Prod.fst).Perm (names.dedup.map utf8) := by decide +kernel
  have haccount : ∀ key bytes, (key, some bytes) ∈ set.changes → bytes.length = 32 := by
    simp [set, owner]
  obtain ⟨owners, hread⟩ := hsucceeds.mpr ⟨set, rfl, rfl, hanswered, haccount⟩
  obtain ⟨hentry, horder⟩ := hmap owners set hread rfl
  refine ⟨owners, hread, (hentry "b.02" owner).mpr (by simp [set]), ?_,
    horder ⟨7, set.changes.reverse⟩ rfl (List.reverse_perm _).symm⟩
  rw [Option.eq_none_iff_forall_ne_some]
  intro other hother
  have hmem := (hentry "a.01" other).mp hother
  have hne : utf8 "a.01" ≠ utf8 "b.02" := by decide +kernel
  simp [set, hne] at hmem

end DeviceUniqueness
