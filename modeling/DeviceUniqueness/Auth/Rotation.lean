import DeviceUniqueness.Auth.Machine
import DeviceUniqueness.Schemes.Lineage

/-! Refresh tokens: each replaced once at most, by exactly one successor.

    A refresh locks the row of the token it is shown, and goes on only if the row is unused and not
    expired. The lock keeps the row as it was read until the transaction ends, so what a refresh
    commits is always the same: the row it read, unused until now, is marked, and its successor is
    there. Everything else that happens to the table is the insert of a token by a mint. -/

namespace DeviceUniqueness

open Function Schemes

/-! ### The table -/

namespace RefreshTable

variable {t t' : RefreshTable} {token : String} {row : RefreshRow} {new : NewToken}

def tokens (t : RefreshTable) : List String := t.rows.map RefreshRow.token

/-- What the token was replaced by. -/
def successor (t : RefreshTable) (token : String) : Option String :=
  (t.find? token).bind RefreshRow.replacedBy

theorem mem_of_find? (h : t.find? token = some row) : row ∈ t.rows ∧ row.token = token :=
  ⟨List.mem_of_find?_eq_some h, by simpa using List.find?_some h⟩

theorem mem_tokens_of_find? (h : t.find? token = some row) : token ∈ t.tokens :=
  List.mem_map.mpr ⟨row, mem_of_find? h⟩

theorem find?_eq_none : t.find? token = none ↔ token ∉ t.tokens := by
  simp [find?, tokens]

theorem find?_of_mem (h : row ∈ t.rows) : t.find? row.token = some row := by
  cases hfind : t.find? row.token with
  | none => exact absurd (List.mem_map.mpr ⟨row, h, rfl⟩) (find?_eq_none.mp hfind)
  | some row' =>
    obtain ⟨hmem, htoken⟩ := mem_of_find? hfind
    rw [List.inj_on_of_nodup_map t.pk hmem h htoken]

theorem insert_eq_some (h : t.insert new = some t') :
    new.token ∉ t.tokens ∧ t'.rows = new.row :: t.rows := by
  unfold insert at h
  split at h
  · next hfree => exact ⟨hfree, by rw [← Option.some.inj h]⟩
  · cases h

theorem tokens_insert (h : t.insert new = some t') : t'.tokens = new.token :: t.tokens := by
  rw [tokens, (insert_eq_some h).2]
  rfl

theorem find?_insert (h : t.insert new = some t') :
    t'.find? token = if token = new.token then some new.row else t.find? token := by
  rw [find?, (insert_eq_some h).2, List.find?_cons]
  by_cases heq : token = new.token
  · simp [heq, NewToken.row]
  · simp [heq, NewToken.row, Ne.symm heq, find?]

/-- A token that is in the table keeps its row when another one is inserted. -/
theorem find?_insert_of_mem (h : t.insert new = some t') (hmem : token ∈ t.tokens) :
    t'.find? token = t.find? token := by
  rw [find?_insert h, if_neg]
  rintro rfl
  exact (insert_eq_some h).1 hmem

theorem tokens_markUsed (usedAt : Time) (replacedBy : String) :
    (t.markUsed token usedAt replacedBy).tokens = t.tokens := by
  rw [tokens, markUsed, List.map_map, tokens]
  refine List.map_congr_left fun row _ => ?_
  rw [comp_apply]
  split_ifs <;> rfl

theorem find?_markUsed (token' : String) (usedAt : Time) (replacedBy : String) :
    (t.markUsed token usedAt replacedBy).find? token' =
      (t.find? token').map fun row =>
        if row.token = token then row.use usedAt replacedBy else row := by
  rw [find?, markUsed, List.find?_map, find?]
  congr 2
  funext row
  rw [comp_apply]
  split_ifs <;> rfl

/-- The table once a token is marked used and its successor inserted. -/
def rotate (t : RefreshTable) (token : String) (usedAt : Time) (new : NewToken) :
    Option RefreshTable :=
  (t.markUsed token usedAt new.token).insert new

variable {usedAt : Time}

theorem tokens_rotate (h : t.rotate token usedAt new = some t') :
    new.token ∉ t.tokens ∧ t'.tokens = new.token :: t.tokens := by
  have hfree := (insert_eq_some h).1
  have htokens := tokens_insert h
  rw [tokens_markUsed] at hfree htokens
  exact ⟨hfree, htokens⟩

theorem find?_rotate (h : t.rotate token usedAt new = some t') (hrow : t.find? token = some row)
    {token' : String} (hmem : token' ∈ t.tokens) : t'.find? token' =
      if token' = token then some (row.use usedAt new.token) else t.find? token' := by
  rw [find?_insert_of_mem h (by rwa [tokens_markUsed]), find?_markUsed]
  split_ifs with heq
  · rw [heq, hrow, Option.map_some, if_pos (mem_of_find? hrow).2]
  · cases hfind : t.find? token' with
    | none => rfl
    | some row' => rw [Option.map_some, if_neg ((mem_of_find? hfind).2 ▸ heq)]

theorem find?_rotate_new (h : t.rotate token usedAt new = some t') :
    t'.find? new.token = some new.row := by
  rw [find?_insert h, if_pos rfl]

theorem successor_of_not_mem (h : token ∉ t.tokens) : t.successor token = none := by
  rw [successor, find?_eq_none.mpr h, Option.bind_none]

/-- A token that was just inserted has no successor, and had none before. -/
theorem successor_insert (h : t.insert new = some t') : t'.successor = t.successor := by
  funext token
  rw [successor, find?_insert h]
  split_ifs with heq
  · rw [heq, successor_of_not_mem (insert_eq_some h).1]
    rfl
  · rfl

theorem successor_rotate (h : t.rotate token usedAt new = some t')
    (hrow : t.find? token = some row) :
    t'.successor = update t.successor token (some new.token) := by
  rw [successor_insert h]
  funext token'
  rw [successor, find?_markUsed]
  rcases eq_or_ne token' token with rfl | hne
  · rw [hrow, Option.map_some, if_pos (mem_of_find? hrow).2, update_self]
    rfl
  · rw [update_of_ne hne]
    cases hfind : t.find? token' with
    | none => rw [successor, hfind]; rfl
    | some row' =>
      rw [Option.map_some, if_neg ((mem_of_find? hfind).2 ▸ hne), successor, hfind]

end RefreshTable

/-! ### Keeping track of a refresh -/

/-- How far a refresh has come. `over` is a transaction that will not be committed, or is ended. -/
inductive Rotation where
  | outside
  | begun
  | chosen (token : String) (row : RefreshRow)
  | live (token : String) (row : RefreshRow)
  | marked (token : String) (row : RefreshRow) (new : String)
  | replaced (token : String) (row : RefreshRow) (new : NewToken)
  | rotated (token : String) (row : RefreshRow) (new : NewToken)
  | ended

def Reply.isOk {α : Type} : Reply α → Bool
  | .ok _ => true
  | .lost .. | .refused _ => false

namespace Rotation

def select (token : String) : Reply (Option RefreshRow) → Rotation
  | .ok (some row) => if row.usedAt.isSome then .ended else .chosen token row
  | _ => .ended

def next (b : Rotation) : Ev AuthWorld → Rotation
  | ⟨.begin, reply⟩ => if reply.isOk then .begun else b
  | ⟨.txSelect token, reply⟩ => select token reply
  | ⟨.nowUtc, now⟩ =>
      match b with
      | .chosen token row => if row.expiresAt ≤ now then .ended else .live token row
      | b => b
  | ⟨.txMarkUsed _ new, reply⟩ =>
      match b with
      | .live token row => if reply.isOk then .marked token row new else .ended
      | _ => .ended
  | ⟨.txInsertToken new, reply⟩ =>
      match b with
      | .marked token row _ => if reply.isOk then .replaced token row new else .ended
      | _ => .ended
  | ⟨.commit, reply⟩ =>
      match b with
      | .replaced token row new => if reply.isOk then .rotated token row new else .ended
      | _ => .ended
  | _ => b

end Rotation

/-- The operation is no statement of a transaction. -/
def AuthAsk.direct : AuthAsk → Bool
  | .txSelect _ | .txMarkUsed .. | .txInsertToken _ | .commit | .rollback => false
  | _ => true

/-- Nor does it begin one. -/
def AuthAsk.plain : AuthAsk → Bool
  | .begin => false
  | o => o.direct

/-- What a request may do. A refresh reads one row, and commits only a row that was live, marked and
    replaced; with the row's session it signs. -/
def Rotation.Allows : Rotation → AuthAsk → Prop
  | .outside, o => o.direct = true
  | .begun, o => ∃ token, o = .txSelect token
  | .chosen .., o => o = .nowUtc
  | .live token _, o => o = .random ∨ o = .nowUtc ∨ ∃ new, o = .txMarkUsed token new
  | .marked _ row new, o => ∃ expiresAt, o = .txInsertToken ⟨new, row.session, expiresAt⟩
  | .replaced .., o => o = .commit
  | .rotated _ row _, o => ∃ ttl, o = .signToken row.session ttl
  | .ended, o => o = .rollback

def rotations : Monitor AuthWorld Rotation where
  next := Rotation.next
  ok := Rotation.Allows
  adm _ _ := True

/-! ### What the handlers do -/

section Program

variable {B α β : Type} {W : Monitor AuthWorld B} {b : B} {ext : AuthExt} {config : AuthConfig}
variable {reply : Reply α} {o : AuthAsk} {post : B → β → Unit → Prop}

theorem sat_orFail {f : α → Serving β} (h : ∀ out, reply = .ok out → (f out).Sat W () b post Anyhow) :
    (orFail reply >>= f).Sat W () b post Anyhow := by
  cases reply with
  | ok out => exact h out rfl
  | lost out err | refused err => exact trivial

theorem sat_orDrop {f : α → Serving β} (h : ∀ out, reply = .ok out → (f out).Sat W () b post Anyhow)
    (hdrop : reply.isOk = false → W.ok b .rollback) :
    (orDrop reply >>= f).Sat W () b post Anyhow := by
  cases reply with
  | ok out => exact h out rfl
  | lost out err | refused err => exact ⟨hdrop rfl, fun _ _ => trivial⟩

theorem sat_checked {r : Except AppError α} {f : α → Serving β}
    (h : ∀ x, r = .ok x → (f x).Sat W () b post Anyhow) :
    (Act.ofExcept r >>= f).Sat W () b post Anyhow :=
  Act.sat_bind.mpr (Act.sat_ofExcept.mpr ⟨h, fun _ _ => trivial⟩)

/-- The step is of no concern to a refresh that has not begun. -/
abbrev Aside (m : Serving α) : Prop := Act.Stays rotations .outside m fun _ => True

theorem aside_pure {x : α} : Aside (pure x) := Act.stays_pure trivial

theorem aside_checked {r : Except AppError α} : Aside (Act.ofExcept r) :=
  Act.stays_ofExcept fun _ _ => trivial

theorem aside_orFail : Aside (orFail reply) := by
  cases reply with
  | ok out => exact ⟨rfl, trivial⟩
  | lost out err | refused err => exact trivial

/-- Outside a transaction, whatever does not begin one is of no concern to it. -/
theorem aside_request (ho : o.plain = true) : Aside (request o) := by
  refine Act.stays_op ?_ fun a => ?_
  · cases o <;> first | rfl | cases ho
  · cases o <;> first | rfl | cases ho

theorem randomToken_aside : Aside randomToken :=
  (aside_request (by rfl)).bind fun _ _ => aside_pure

theorem challengeCreate_aside (ttl : Nat) : Aside (challengeCreate ttl) := by
  refine (aside_request (by rfl)).bind fun bytes _ => ?_
  refine (aside_request (by rfl)).bind fun now _ => ?_
  refine (aside_request (by rfl)).bind fun reply _ => ?_
  exact aside_orFail.bind fun _ _ => aside_pure

theorem mint_aside (session : Session) (ttl : Nat) : Aside (mint session ttl) := by
  refine randomToken_aside.bind fun token _ => ?_
  refine (aside_request (by rfl)).bind fun now _ => ?_
  refine (aside_request (by rfl)).bind fun reply _ => ?_
  exact aside_orFail.bind fun _ _ => aside_pure

section Evidence

variable {headers : Headers} {challenge body : Bytes} {clientId : FixedBytes 32}

theorem playIntegrityVerdict_aside :
    Aside (playIntegrityVerdict ext config headers challenge clientId body) := by
  unfold playIntegrityVerdict
  split
  · exact aside_pure
  split
  · exact aside_pure
  split
  · exact aside_pure
  split
  · split
    · exact aside_pure
    split
    · refine (aside_request (by rfl)).bind fun payload _ => ?_
      split <;> exact aside_pure
    · exact aside_pure
  · exact aside_pure

theorem keyAttestationVerdict_aside :
    Aside (keyAttestationVerdict ext config challenge body) := by
  unfold keyAttestationVerdict
  split
  · exact aside_pure
  split
  · refine (aside_request (by rfl)).bind fun serials _ => ?_
    split
    · split
      · exact Act.stays_fail
      · exact aside_pure
    · exact (aside_request (by rfl)).bind fun now _ => aside_pure
  · exact aside_pure

theorem iosAttestationVerdict_aside :
    Aside (iosAttestationVerdict ext config headers challenge clientId body) := by
  unfold iosAttestationVerdict
  split
  · exact aside_pure
  split
  · exact aside_pure
  split
  · exact aside_pure
  split
  · exact aside_pure
  refine (aside_request (by rfl)).bind fun reply _ => ?_
  refine aside_orFail.bind fun key _ => ?_
  split
  · exact aside_pure
  split
  · exact aside_pure
  refine (aside_request (by rfl)).bind fun reply _ => ?_
  refine aside_orFail.bind fun above _ => ?_
  split <;> exact aside_pure

theorem attestationVerdict_aside :
    Aside (attestationVerdict ext config headers challenge clientId body) := by
  unfold attestationVerdict
  split
  · exact iosAttestationVerdict_aside.bind fun _ _ => aside_pure
  split
  · exact aside_pure
  split
  · exact keyAttestationVerdict_aside
  split
  · exact playIntegrityVerdict_aside
  · exact aside_pure

theorem officialStore_aside :
    Aside (officialStore ext config headers challenge clientId body) := by
  unfold officialStore
  split
  · refine attestationVerdict_aside.bind fun verdict _ => ?_
    split
    · exact aside_pure
    split
    · exact Act.stays_fail
    · exact aside_pure
  · exact aside_pure

end Evidence

theorem issue_aside (headers : Headers) (body : Bytes) : Aside (issue ext config headers body) := by
  unfold issue
  refine aside_checked.bind fun clientId _ => ?_
  refine aside_checked.bind fun clientProof _ => ?_
  refine aside_checked.bind fun challenge _ => ?_
  refine (aside_request (by rfl)).bind fun reply _ => ?_
  refine aside_orFail.bind fun consumed _ => ?_
  split
  · exact Act.stays_fail
  split
  · exact Act.stays_fail
  refine officialStore_aside.bind fun fromStore _ => ?_
  refine (aside_request (by rfl)).bind fun token _ => ?_
  exact (mint_aside _ _).bind fun _ _ => aside_pure

theorem registerKey_aside (req : AppAttestRequest) : Aside (registerKey ext config req) := by
  unfold registerKey
  split
  · exact aside_pure
  refine aside_checked.bind fun keyId _ => ?_
  refine aside_checked.bind fun challenge _ => ?_
  refine aside_checked.bind fun attestation _ => ?_
  refine (aside_request (by rfl)).bind fun reply _ => ?_
  refine aside_orFail.bind fun consumed _ => ?_
  split
  · exact aside_pure
  refine (aside_request (by rfl)).bind fun now _ => ?_
  split
  · refine (aside_request (by rfl)).bind fun reply _ => ?_
    exact aside_orFail.bind fun _ _ => aside_pure
  · split <;> exact aside_pure

/-! ### A refresh -/

/-- A token handed out is the successor of a row with the session it is for. -/
def Rotation.HandsOut (b : Rotation) : Option (Session × String) → Prop
  | none => True
  | some (session, newToken) =>
      ∃ token row new, b = .rotated token row new ∧ row.session = session ∧ new.token = newToken

theorem sat_authAsk {b : Rotation} {f : o.Ans → Serving α} {post : Rotation → α → Unit → Prop}
    (hok : b.Allows o) (h : ∀ a, (f a).Sat rotations () (b.next ⟨o, a⟩) post Anyhow) :
    (request o >>= f).Sat rotations () b post Anyhow :=
  Act.sat_bind.mpr ⟨hok, fun a _ => h a⟩

theorem dropToken_sat : dropToken.Sat rotations () .ended (fun b out _ => b.HandsOut out) Anyhow := by
  unfold dropToken
  exact sat_authAsk rfl fun _ => trivial

theorem replaceToken_sat (token : String) (row : RefreshRow) (ttl : Nat) :
    (replaceToken token row.session ttl).Sat rotations () (.live token row)
      (fun b out _ => b.HandsOut out) Anyhow := by
  have hdrop : ∀ {b : Rotation}, b = .ended → b.Allows .rollback := by
    rintro b rfl
    rfl
  unfold replaceToken randomToken
  rw [Act.sat_bind]
  refine sat_authAsk (Or.inl rfl) fun bytes => ?_
  rw [Act.sat_pure]
  refine sat_authAsk (Or.inr (Or.inl rfl)) fun now => ?_
  refine sat_authAsk (Or.inr (Or.inr ⟨_, rfl⟩)) fun reply => ?_
  refine sat_orDrop (fun out hreply => ?_) fun hreply => hdrop (by simp [Rotation.next, hreply])
  subst hreply
  refine sat_authAsk ⟨_, rfl⟩ fun reply => ?_
  refine sat_orDrop (fun out hreply => ?_) fun hreply => hdrop ?_
  · subst hreply
    refine sat_authAsk rfl fun reply => ?_
    refine sat_orFail fun out hreply => ?_
    subst hreply
    exact ⟨token, row, _, rfl, rfl, rfl⟩
  · change (if reply.isOk = true then _ else Rotation.ended) = .ended
    rw [hreply]
    rfl

theorem rotateToken_sat (presented : String) (ttl : Nat) :
    (rotateToken presented ttl).Sat rotations () .outside (fun b out _ => b.HandsOut out) Anyhow := by
  unfold rotateToken
  refine sat_authAsk rfl fun reply => ?_
  refine sat_orFail fun _ hreply => ?_
  subst hreply
  refine sat_authAsk ⟨presented, rfl⟩ fun reply => ?_
  refine sat_orDrop (fun out hreply => ?_) fun hreply => ?_
  · subst hreply
    cases out with
    | none => exact dropToken_sat
    | some row =>
      change Act.Sat rotations (if row.usedAt.isSome = true then dropToken else _) ()
        (if row.usedAt.isSome = true then Rotation.ended else .chosen presented row) _ _
      by_cases hused : row.usedAt.isSome = true
      · rw [if_pos hused, if_pos hused]
        exact dropToken_sat
      · rw [if_neg hused, if_neg hused]
        refine sat_authAsk rfl fun now => ?_
        change Act.Sat rotations (if row.expiresAt ≤ now then dropToken else _) ()
          (if row.expiresAt ≤ now then Rotation.ended else .live presented row) _ _
        by_cases hexpired : row.expiresAt ≤ now
        · rw [if_pos hexpired, if_pos hexpired]
          exact dropToken_sat
        · rw [if_neg hexpired, if_neg hexpired]
          exact replaceToken_sat presented row ttl
  · match (reply : Reply (Option RefreshRow)), hreply with
    | .lost out err, _ | .refused err, _ => rfl

theorem rotate_sat (presented : String) :
    (rotate config presented).Sat rotations () .outside Anyhow Anyhow := by
  unfold rotate
  rw [Act.sat_bind]
  refine (rotateToken_sat presented config.refreshTtl).mono ?_ fun _ _ _ _ => trivial
  rintro b (_ | ⟨session, newToken⟩) ⟨⟩ hout
  · trivial
  · obtain ⟨token, row, new, rfl, rfl, -⟩ := hout
    simp only
    exact sat_authAsk ⟨_, rfl⟩ fun _ => trivial

theorem serve_rotates : (serve ext).Sat rotations () .outside Anyhow Anyhow := by
  have hanyhow : ∀ {m : Serving AuthResponse}, Act.Stays rotations .outside m (fun _ => True) →
      m.Sat rotations () .outside Anyhow Anyhow :=
    fun h => Act.Sat.mono h (fun _ _ _ _ => trivial) fun _ _ _ _ => trivial
  refine (aside_request (by rfl)).sat_bind fun taken _ => ?_
  obtain ⟨config, req⟩ := taken
  cases req with
  | challenge =>
    exact hanyhow ((challengeCreate_aside _).bind fun _ _ => Act.stays_pure trivial)
  | register req => exact hanyhow (registerKey_aside req)
  | token headers body => exact hanyhow (issue_aside headers body)
  | refresh refreshToken => exact rotate_sat refreshToken

end Program

end DeviceUniqueness
