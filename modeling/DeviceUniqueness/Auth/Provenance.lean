import DeviceUniqueness.Auth.Refresh

/-! Where the claims of an access token come from.

    A token is signed for a request whose proof and evidence were verified, or for the next pair of a
    refresh token. In the first case what was verified stands in the history of the process that
    signs. In the second the claims are those of the row that was presented, and so, back along the
    chain of rotations, those of the mint it descends from, where the first case applies. -/

namespace DeviceUniqueness

open Function Schemes

section Runs

variable {ext : AuthExt} {Served : AuthConfig → AuthRequest → Prop} {st₀ : AuthState}
  {ls : List (Label AuthWorld AuthEvent)} {s t : AuthSys} {p : Nat} {h : History}
variable {b : Rotation} {e : Ev AuthWorld} {st st' : AuthState}

theorem Rotation.next_eq_outside (hnext : b.next e = .outside) :
    b = .outside ∧ e ≠ ⟨.begin, .ok ()⟩ := by
  obtain ⟨o, a⟩ := e
  cases o with
  | begin =>
    match (a : Reply Unit), hnext with
    | .ok (), hnext => cases hnext
    | .lost .., hnext | .refused _, hnext => exact ⟨hnext, by simp⟩
  | txSelect token =>
    have hselect : Rotation.select token a = .outside := hnext
    unfold Rotation.select at hselect
    split at hselect
    · split at hselect <;> cases hselect
    · cases hselect
  | nowUtc =>
    cases b with
    | chosen token row =>
      simp only [Rotation.next] at hnext
      split at hnext <;> cases hnext
    | outside => exact ⟨rfl, by simp⟩
    | _ => cases hnext
  | txMarkUsed token new | txInsertToken new | commit =>
    cases b <;> simp only [Rotation.next, reduceCtorEq] at hnext
    split at hnext <;> cases hnext
  | _ => exact ⟨hnext, by simp⟩

/-- A refresh that has not begun has no transaction behind it. -/
theorem not_begun_of_outside : ∀ {b : Rotation} {h : History}, h.foldl Rotation.next b = .outside →
    b = .outside ∧ ⟨.begin, .ok ()⟩ ∉ h := by
  intro b h
  induction h generalizing b with
  | nil => exact fun hb => ⟨hb, by simp⟩
  | cons e h ih =>
    intro hb
    obtain ⟨hnext, hrest⟩ := ih hb
    obtain ⟨hb, he⟩ := Rotation.next_eq_outside hnext
    exact ⟨hb, by simp [hrest, he.symm]⟩

/-- Only an acknowledged commit ends a rotation. -/
theorem Rotation.next_eq_rotated {token : String} {row : RefreshRow} {new : NewToken}
    (hnext : b.next e = .rotated token row new) :
    b = .rotated token row new ∨ b = .replaced token row new ∧ e = ⟨.commit, .ok ()⟩ := by
  obtain ⟨o, a⟩ := e
  cases o with
  | begin =>
    cases a with
    | ok out => cases hnext
    | lost out err | refused err => exact Or.inl hnext
  | txSelect token' =>
    have hselect : Rotation.select token' a = .rotated token row new := hnext
    unfold Rotation.select at hselect
    split at hselect
    · split at hselect <;> cases hselect
    · cases hselect
  | nowUtc =>
    cases b with
    | chosen token row =>
      simp only [Rotation.next] at hnext
      split at hnext <;> cases hnext
    | _ => exact Or.inl hnext
  | txMarkUsed token' new' | txInsertToken new' =>
    cases b <;> simp only [Rotation.next, reduceCtorEq] at hnext
    split at hnext <;> cases hnext
  | commit =>
    cases b with
    | replaced token' row' new' =>
      cases a with
      | ok out => cases hnext; exact Or.inr ⟨rfl, rfl⟩
      | lost out err | refused err => cases hnext
    | _ => cases hnext
  | _ => exact Or.inl hnext

/-- The request was a refresh with a token, and it has committed another one in its place. -/
structure Rotates (h : History) (presented new : String) : Prop where
  request : Presented h presented
  marked : ⟨.txMarkUsed presented new, .ok ()⟩ ∈ h
  committed : ⟨.commit, .ok ()⟩ ∈ h

/-- What has been done by the time a refresh is there. -/
def Rotation.Told (h : History) : Rotation → Prop
  | .marked token _ new => ⟨.txMarkUsed token new, .ok ()⟩ ∈ h
  | .replaced token _ new => ⟨.txMarkUsed token new.token, .ok ()⟩ ∈ h
  | .rotated token _ new => ⟨.txMarkUsed token new.token, .ok ()⟩ ∈ h ∧ ⟨.commit, .ok ()⟩ ∈ h
  | _ => True

theorem Rotation.Told.step (hb : b.Told h) (hok : b.Allows e.1) : (b.next e).Told (h ++ [e]) := by
  have hkeep : b.Told (h ++ [e]) := by
    cases b with
    | marked _ _ _ | replaced _ _ _ => exact List.mem_append_left _ hb
    | rotated _ _ _ => exact ⟨List.mem_append_left _ hb.1, List.mem_append_left _ hb.2⟩
    | _ => trivial
  obtain ⟨o, a⟩ := e
  cases o with
  | begin =>
    simp only [Rotation.next]
    split_ifs
    · trivial
    · exact hkeep
  | txSelect token =>
    simp only [Rotation.next, Rotation.select]
    split
    · split_ifs <;> trivial
    · trivial
  | nowUtc =>
    cases b with
    | chosen token row =>
      simp only [Rotation.next]
      split_ifs <;> trivial
    | _ => exact hkeep
  | txMarkUsed token new =>
    cases b with
    | live token' row =>
      rcases hok with hok | hok | ⟨_, hok⟩ <;> cases hok
      cases a with
      | ok _ => exact mem_snoc _ _
      | _ => trivial
    | _ => trivial
  | txInsertToken new =>
    cases b with
    | marked token row new' =>
      obtain ⟨expiresAt, hinsert⟩ := hok
      cases hinsert
      cases a with
      | ok _ => exact hkeep
      | _ => trivial
    | _ => trivial
  | commit =>
    cases b with
    | replaced token row new =>
      cases a with
      | ok _ => exact ⟨hkeep, mem_snoc _ _⟩
      | _ => trivial
    | _ => trivial
  | _ => exact hkeep

/-- A process that has rotated a token has done so for the token it was shown. -/
theorem rotates_of_watch (r : Reachable (Auth ext Served) st₀ ls s) {token : String}
    {row : RefreshRow} {new : NewToken} (hh : s.hist p = some h)
    (hb : h.foldl Rotation.next .outside = .rotated token row new) : Rotates h token new.token := by
  have htold : (h.foldl Rotation.next .outside).Told h := by
    refine r.hist_inv (rotations_bound st₀) (fun h => (h.foldl Rotation.next .outside).Told h)
      trivial (fun h _ o a _ _ hi hok _ => ?_) hh
    rw [List.foldl_append]
    exact hi.step hok
  rw [hb] at htold
  obtain ⟨h₁, h₂, rfl⟩ := List.append_of_mem htold.1
  have hpresented : Presented h₁ token := hist_claims r hh
  exact ⟨hpresented.mono (List.prefix_append ..), htold.1, htold.2⟩

/-! ### Back to the mint -/

/-- Every proof and all evidence behind a session, as they were verified. -/
structure Verified (ext : AuthExt) (x : TokenRequest) (h : History) (session : Session) : Prop where
  backed : Backed ext x h session
  accepted : Accepted ext x h session.platform session.appFromOfficialStore

/-- In the run, `root` was minted for the session by a process that had verified it. -/
structure MintedVerified (ext : AuthExt) (Served : AuthConfig → AuthRequest → Prop)
    (st₀ : AuthState) (ls : List (Label AuthWorld AuthEvent)) (root : String) (session : Session) :
    Prop where
  minted : ∃ ls₁ ls₂ s q h e expiresAt x,
    ls = ls₁ ++ .op q e :: ls₂ ∧ e.1 = .insertToken ⟨root, session, expiresAt⟩ ∧
    mintedBy e = some root ∧ Reachable (Auth ext Served) st₀ ls₁ s ∧ s.hist q = some h ∧
    Verified ext x h session

theorem MintedVerified.later {root : String} {session : Session}
    (hm : MintedVerified ext Served st₀ ls root session) (l : Label AuthWorld AuthEvent) :
    MintedVerified ext Served st₀ (ls ++ [l]) root session := by
  obtain ⟨ls₁, ls₂, s, q, h, e, expiresAt, x, rfl, hmint⟩ := hm
  exact ⟨ls₁, ls₂ ++ [l], s, q, h, e, expiresAt, x, by simp, hmint⟩

theorem Backed.verified (hhard : ∀ config req, Served config req → config.Hard)
    (r : Reachable (Auth ext Served) st₀ ls s) (hh : s.hist p = some h) {x : TokenRequest}
    {session : Session} (hb : Backed ext x h session) : Verified ext x h session :=
  ⟨hb, hb.evidence (hhard _ _ (served_of_in r hh hb.request))⟩

/-- Every row of the table carries the session of the mint it descends from. -/
def Rooted (ext : AuthExt) (Served : AuthConfig → AuthRequest → Prop) (st₀ : AuthState)
    (ls : List (Label AuthWorld AuthEvent)) (t : RefreshTable) : Prop :=
  ∀ token row, t.find? token = some row →
    ∃ root, Descends t.successor root token ∧ MintedVerified ext Served st₀ ls root row.session

/-- A rotation that was acknowledged is in the table. -/
def Delivered (st : AuthState) (w : Nat → Option Rotation) : Prop :=
  ∀ p token row new, w p = some (.rotated token row new) → (token, new.token) ∈ st.rotations ∧
    ∃ row', st.tokens.find? token = some row' ∧ row'.session = row.session

theorem Rooted.later {t : RefreshTable} (hi : Rooted ext Served st₀ ls t)
    (l : Label AuthWorld AuthEvent) : Rooted ext Served st₀ (ls ++ [l]) t := by
  intro token row hrow
  obtain ⟨root, hroot, hminted⟩ := hi token row hrow
  exact ⟨root, hroot, hminted.later l⟩

/-- A step of the table keeps what descends from what, and a rotation adds one link. -/
theorem Rooted.step {minted : List String} {l : Label AuthWorld AuthEvent}
    (hi : Rooted ext Served st₀ ls st.tokens) (htokens : TokenInv st minted)
    (hstep : TableStep b e st st')
    (hmint : ∀ new : NewToken, e.1 = .insertToken new → mintedBy e = some new.token →
      MintedVerified ext Served st₀ (ls ++ [l]) new.token new.session) :
    Rooted ext Served st₀ (ls ++ [l]) st'.tokens := by
  replace hi := hi.later l
  cases hstep with
  | same tokens _ _ _ => rw [tokens]; exact hi
  | minted new event mints inserted _ =>
    intro token row hrow
    rw [RefreshTable.successor_insert inserted]
    rw [RefreshTable.find?_insert inserted] at hrow
    split at hrow
    · next heq =>
      rw [← Option.some.inj hrow, heq]
      exact ⟨new.token, .refl, hmint new event mints⟩
    · exact hi token row hrow
  | rotated token row usedAt new _ _ found unused session now _ =>
    have hsuccessor := RefreshTable.successor_rotate now found
    have hend := htokens.successor_unused found unused
    -- the presented token had no successor, so no link is lost
    have hkeep : ∀ k k', st.tokens.successor k = some k' → st'.tokens.successor k = some k' := by
      intro k k' hlink
      rw [hsuccessor, update_of_ne]
      · exact hlink
      · rintro rfl
        rw [hend] at hlink
        cases hlink
    obtain ⟨-, hcons⟩ := RefreshTable.tokens_rotate now
    intro token' row' hrow'
    have hmem := RefreshTable.mem_tokens_of_find? hrow'
    rw [hcons] at hmem
    rcases List.mem_cons.mp hmem with rfl | hmem
    · obtain ⟨root, hd, hminted⟩ := hi token row found
      rw [RefreshTable.find?_rotate_new now] at hrow'
      rw [← Option.some.inj hrow']
      refine ⟨root, (hd.grow hkeep).tail ?_, ?_⟩
      · rw [hsuccessor, update_self]
      · change MintedVerified _ _ _ _ _ new.session
        rw [session]
        exact hminted
    · rw [RefreshTable.find?_rotate now found hmem] at hrow'
      split at hrow'
      · next heq =>
        subst heq
        obtain ⟨root, hd, hminted⟩ := hi _ row found
        rw [← Option.some.inj hrow']
        exact ⟨root, hd.grow hkeep, hminted⟩
      · obtain ⟨root, hd, hminted⟩ := hi token' row' hrow'
        exact ⟨root, hd.grow hkeep, hminted⟩

theorem reachable_rooted (hhard : ∀ config req, Served config req → config.Hard)
    (h₀ : st₀.Unissued) (r : Reachable (Auth ext Served) st₀ ls s) :
    Rooted ext Served st₀ ls s.st.tokens := by
  induction r with
  | nil =>
    intro token row hrow
    change st₀.tokens.find? token = some row at hrow
    rw [RefreshTable.find?, h₀.tokens] at hrow
    cases hrow
  | @snoc ls s t l r d ih =>
    cases l with
    | op p e =>
      obtain ⟨b, -, -, hstep, -⟩ := step_table h₀.txs r d
      refine ih.step (reachable_tokenInv h₀ r) hstep fun new event mints => ?_
      obtain ⟨h, hh, hclaims⟩ := step_claims r d
      rw [event] at hclaims
      obtain ⟨x, hb⟩ := hclaims
      exact ⟨ls, [], s, p, h, e, new.expiresAt, x, rfl, event, mints, r, hh,
        hb.verified hhard r hh⟩
    | env e =>
      cases d with
      | env done =>
        obtain rfl : _ = e.act s.st := done
        cases e <;> exact ih.later _
    | start p => cases d with | start free boots => exact ih.later _
    | kill p =>
      cases d with
      | kill done =>
        obtain rfl : _ = s.st.close p := done
        exact ih.later _

/-- Losing processes, or starting one, acknowledges nothing. -/
theorem Delivered.other {w : Nat → Option Rotation} {b : Option Rotation} (hi : Delivered st w)
    (htokens : st'.tokens = st.tokens) (hrotations : st'.rotations = st.rotations)
    (hb : ∀ token row new, b ≠ some (.rotated token row new)) :
    Delivered st' (update w p b) := by
  intro p' token row new hw
  rw [htokens, hrotations]
  rcases eq_or_ne p' p with rfl | hne
  · rw [update_self] at hw
    exact absurd hw (hb token row new)
  · rw [update_of_ne hne] at hw
    exact hi p' token row new hw

theorem Delivered.step {w : Nat → Option Rotation} (hi : Delivered st w) (hb : w p = some b)
    (hstep : TableStep b e st st') : Delivered st' (update w p (some (b.next e))) := by
  have hkeep : ∀ p' token row new, w p' = some (.rotated token row new) →
      (token, new.token) ∈ st'.rotations ∧
        ∃ row', st'.tokens.find? token = some row' ∧ row'.session = row.session := by
    intro p' token row new hw
    obtain ⟨hlink, row', hrow', hsession⟩ := hi p' token row new hw
    obtain ⟨row'', hrow'', hsession'⟩ := hstep.keeps_session hrow'
    exact ⟨hstep.rotations_subset hlink, row'', hrow'', hsession'.trans hsession⟩
  intro p' token row new hw
  rcases eq_or_ne p' p with rfl | hne
  · rw [update_self] at hw
    rcases Rotation.next_eq_rotated (Option.some.inj hw) with rfl | ⟨rfl, rfl⟩
    · exact hkeep p' token row new hb
    · cases hstep with
      | same _ _ _ unacknowledged => exact absurd rfl unacknowledged
      | minted _ event => cases event
      | rotated _ _ usedAt _ at' _ found _ _ now rotations =>
        cases at'
        have hmem := RefreshTable.mem_tokens_of_find? found
        refine ⟨by rw [rotations]; exact List.mem_cons_self .., row.use usedAt new.token, ?_, rfl⟩
        rw [RefreshTable.find?_rotate now found hmem, if_pos rfl]
  · rw [update_of_ne hne] at hw
    exact hkeep p' token row new hw

theorem reachable_delivered (h₀ : st₀.txs = []) (r : Reachable (Auth ext Served) st₀ ls s) :
    Delivered s.st (s.watch rotations .outside) := by
  refine Reachable.inv (rotations_bound st₀) (fun _ st w => Delivered st w) ?_ ⟨?_, ?_, ?_, ?_⟩ r
  · intro p token row new hw
    cases hw
  · intro _ _ _ _ _ _ _ r hi hb hok hdone
    exact hi.step hb ((reachable_rotationInv h₀ r).tableStep hb hok hdone)
  · rintro _ _ e _ _ hi rfl
    cases e <;> exact hi
  · intro _ s p _ hi _
    exact hi.other rfl rfl fun _ _ _ h => by cases h
  · rintro _ s p _ _ hi rfl
    exact hi.other rfl rfl fun _ _ _ h => by cases h

/-- With attestation enabled and enforced, whoever asks for what: a token is signed for a session
    that the signing process has verified, or for the next pair of the refresh token that was shown to
    it and that it has rotated, and then for the session that was verified at the mint this token
    descends from. What was verified is the client proof by the account the session names, and the
    evidence of the platform it names with the verdict it carries. -/
theorem token_claims_verified (hhard : ∀ config req, Served config req → config.Hard)
    (h₀ : st₀.Unissued) (r : Reachable (Auth ext Served) st₀ ls s) {session : Session} {ttl : Nat}
    {jwt : String} (d : Step (Auth ext Served) s (.op p ⟨.signToken session ttl, jwt⟩) t) :
    (∃ h x, s.hist p = some h ∧ Verified ext x h session) ∨
    ∃ h presented new root, s.hist p = some h ∧ Rotates h presented new ∧
      (presented, new) ∈ s.st.rotations ∧ Descends s.st.tokens.successor root presented ∧
      MintedVerified ext Served st₀ ls root session := by
  obtain ⟨b, hb, hok, -, -⟩ := step_table h₀.txs r d
  obtain ⟨h, hh, hclaims⟩ := step_claims r d
  obtain ⟨h', hh', hfold⟩ := Option.map_eq_some_iff.mp hb
  obtain rfl := Option.some.inj (hh.symm.trans hh')
  -- a process signs outside of any transaction, or with the row of a rotation it has committed
  cases b with
  | outside =>
    obtain ⟨x, hbacked⟩ := hclaims.resolve_right (not_begun_of_outside hfold).2
    exact Or.inl ⟨h, x, hh, hbacked.verified hhard r hh⟩
  | rotated token row new =>
    obtain ⟨ttl', hsign⟩ := hok
    obtain rfl : session = row.session := (AuthAsk.signToken.inj hsign).1
    obtain ⟨hlink, row', hrow', hsession⟩ := reachable_delivered h₀.txs r p token row new hb
    obtain ⟨root, hroot, hminted⟩ := reachable_rooted hhard h₀ r token row' hrow'
    exact Or.inr ⟨h, token, new.token, root, hh, rotates_of_watch r hh hfold, hlink, hroot,
      hsession ▸ hminted⟩
  | begun => obtain ⟨_, hsign⟩ := hok; cases hsign
  | chosen token row => cases hok
  | live token row => obtain hsign | hsign | ⟨_, hsign⟩ := hok <;> cases hsign
  | marked token row new => obtain ⟨_, hsign⟩ := hok; cases hsign
  | replaced token row new | ended => cases hok

end Runs

/-- Only attestation that is enabled and enforced. -/
def HardServed (config : AuthConfig) (_ : AuthRequest) : Prop := config.Hard

theorem hardConfig_hard (req : AuthRequest) : HardServed hardConfig req := ⟨rfl, rfl⟩

/-- What Alice's token says. -/
def aliceSession : Session := ⟨hexEncode alice.1, true, some "ios"⟩

/-- The step signs Alice's session. -/
def signsAlice : Label AuthWorld AuthEvent → Bool
  | .op p ⟨.signToken session ttl, _⟩ => p = 1 && session = aliceSession && ttl = 3600
  | _ => false

theorem signsAlice_eq {l : Label AuthWorld AuthEvent} (h : signsAlice l = true) :
    ∃ jwt, l = .op 1 ⟨.signToken aliceSession 3600, jwt⟩ := by
  unfold signsAlice at h
  split at h
  · simp only [Bool.and_eq_true, decide_eq_true_eq] at h
    obtain ⟨⟨rfl, rfl⟩, rfl⟩ := h
    exact ⟨_, rfl⟩
  · cases h

def servesRefresh (h : History) : Bool :=
  match h.head? with
  | some ⟨.accept, (_, .refresh _)⟩ => true
  | _ => false

/-- A refresh signs for the session that the token of an iOS device was minted for. -/
theorem refreshed_claims_verified :
    ∃ ls s t jwt h presented new root,
      Reachable (Auth aliceExt HardServed) AuthState.fresh ls s ∧
      Step (Auth aliceExt HardServed) s (.op 1 ⟨.signToken aliceSession 3600, jwt⟩) t ∧
      s.hist 1 = some h ∧ Rotates h presented new ∧ (presented, new) ∈ s.st.rotations ∧
      Descends s.st.tokens.successor root presented ∧
      MintedVerified aliceExt HardServed AuthState.fresh ls root aliceSession := by
  let player := authPlayer aliceExt HardServed
  obtain ⟨ls, s, hr, ht⟩ := player.reaches AuthState.fresh
    (aliceScript (hardConfig_hard _) ++ refreshScript (hardConfig_hard _))
    (fun _ s => (s.hist 1).all servesRefresh &&
      (player.move s (.op 1 (.reply .smooth))).any fun x => signsAlice x.1.1)
    (by decide +kernel)
  rw [Bool.and_eq_true, Option.any_eq_true] at ht
  obtain ⟨hserves, ⟨⟨l, t⟩, hstep⟩, -, hsigns⟩ := ht
  obtain ⟨jwt, rfl⟩ := signsAlice_eq hsigns
  have hhard : ∀ config req, HardServed config req → config.Hard := fun _ _ h => h
  obtain ⟨h, x, hh, hv⟩ | ⟨h, presented, new, root, hrotated⟩ :=
    token_claims_verified hhard fresh_unissued hr hstep
  · rw [hh, Option.all_some, servesRefresh, hv.backed.request.taken] at hserves
    cases hserves
  · exact ⟨ls, s, t, jwt, h, presented, new, root, hr, hstep, hrotated⟩

end DeviceUniqueness
