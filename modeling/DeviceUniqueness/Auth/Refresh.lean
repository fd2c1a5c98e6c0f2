import DeviceUniqueness.Auth.Claims
import DeviceUniqueness.Auth.Script
import DeviceUniqueness.Schemes.Transactions

/-! What every interleaving of mints and refreshes leaves in the table of refresh tokens.

    The locks make a refresh sure of the row it read, so a step changes the table in one of two ways:
    a mint adds a root, or a refresh marks an unused row and adds its successor (`TableStep`). The
    rest is about keys that replace one another, in whatever order the steps come. -/

namespace DeviceUniqueness

open Function Schemes

/-! ### What an operation does to tokens and transactions -/

/-- The token a mint has put into the table. -/
def mintedBy : Ev AuthWorld → Option String
  | ⟨.insertToken new, reply⟩ => if reply.done then some new.token else none
  | _ => none

/-- The operation tells a refresh nothing that would let it go on. -/
def uneventful : Ev AuthWorld → Bool
  | ⟨.begin, reply⟩ => !reply.isOk
  | ⟨.txSelect _, reply⟩ => match (reply : Reply (Option RefreshRow)) with
      | .ok (some _) => false
      | _ => true
  | ⟨.txMarkUsed .., reply⟩ => !reply.isOk
  | ⟨.txInsertToken _, reply⟩ => !reply.isOk
  | ⟨.insertToken _, reply⟩ => !reply.done
  | ⟨.commit, _⟩ | ⟨.rollback, _⟩ => false
  | _ => true

inductive TokenMove (p : Nat) (st : AuthState) (e : Ev AuthWorld) (st' : AuthState) : Prop
  | kept (event : uneventful e = true) (txs : st'.txs = st.txs) (tokens : st'.tokens = st.tokens)
      (rotations : st'.rotations = st.rotations)
  | minted (new : NewToken) (tokens : RefreshTable) (event : e.1 = .insertToken new)
      (mints : mintedBy e = some new.token) (inserted : st.tokens.insert new = some tokens)
      (now : st' = { st with tokens := tokens })
  | opened (event : e = ⟨.begin, .ok ()⟩) (free : st.tx? p = none) (now : st' = st.opened p)
  | selected (token : String) (row : RefreshRow) (tx : AuthTx) (view : RefreshTable)
      (reply : Reply (Option RefreshRow)) (event : e = ⟨.txSelect token, reply⟩)
      (replied : ∀ out, reply = .ok out → out = some row) (found : st.tx? p = some tx)
      (viewed : tx.view st.tokens = some view) (read : view.find? token = some row)
      (free : st.rowFree p token = true)
      (now : st' = st.inTx p fun tx => { tx with locked := token :: tx.locked })
  | marked (token replacedBy : String) (event : e.1 = .txMarkUsed token replacedBy)
      (free : st.rowFree p token = true)
      (now : st' = st.inTx p fun tx =>
        { tx with
          locked := token :: tx.locked
          writes := tx.writes ++ [.markUsed token replacedBy] })
  | missed (token replacedBy : String) (tx : AuthTx) (view : RefreshTable)
      (event : e.1 = .txMarkUsed token replacedBy) (found : st.tx? p = some tx)
      (viewed : tx.view st.tokens = some view) (absent : view.find? token = none) (now : st' = st)
  | inserted (new : NewToken) (event : e.1 = .txInsertToken new)
      (now : st' = st.inTx p fun tx => { tx with writes := tx.writes ++ [.insert new] })
  | closed (event : e.1 = .commit ∨ e.1 = .rollback) (unacknowledged : e ≠ ⟨.commit, .ok ()⟩)
      (now : st' = st.close p)
  | committed (tx : AuthTx) (tokens : RefreshTable) (event : e.1 = .commit)
      (found : st.tx? p = some tx) (viewed : tx.view st.tokens = some tokens)
      (now : st' = st.committed p tx tokens)

variable {Served : AuthConfig → AuthRequest → Prop} {p : Nat} {st st' : AuthState}

theorem TokenMove.of_eq {e : Ev AuthWorld} (event : uneventful e = true) (h : st' = st) :
    TokenMove p st e st' := by
  subst h
  exact .kept event rfl rfl rfl

variable {o : AuthAsk} {a : o.Ans} {new : NewToken} {token : String} {row : RefreshRow}

theorem AuthAsk.Does.tokenMove (h : AuthAsk.Does Served p st o a st') :
    TokenMove p st ⟨o, a⟩ st' := by
  cases o with
  | accept => exact .of_eq rfl h.2
  | insertChallenge challenge expiresAt =>
    rcases Reply.Did.cases h with ⟨_, -, rfl⟩ | heq
    · exact .kept rfl rfl rfl rfl
    · exact .of_eq rfl heq
  | consumeChallenge challenge =>
    rcases Reply.Did.cases h with ⟨_, -, rfl⟩ | heq
    · unfold AuthState.consume
      split <;> exact .kept rfl rfl rfl rfl
    · exact .of_eq rfl heq
  | findKey keyId =>
    rcases Reply.Did.cases h with ⟨_, -, heq⟩ | heq <;> exact .of_eq rfl heq
  | commitSignCount keyId n =>
    rcases Reply.Did.cases h with ⟨_, -, rfl⟩ | heq
    · split <;> exact .kept rfl rfl rfl rfl
    · exact .of_eq rfl heq
  | upsertKey keyId publicKey receipt =>
    rcases Reply.Did.cases h with ⟨_, rfl⟩ | heq
    · exact .kept rfl rfl rfl rfl
    · exact .of_eq rfl heq
  | insertToken new =>
    match (a : Reply Unit), h with
    | .ok _, ⟨_, tokens, hinsert, heq⟩ => exact .minted new tokens rfl rfl hinsert heq
    | .lost _ _, ⟨_, tokens, hinsert, heq⟩ => exact .minted new tokens rfl rfl hinsert heq
    | .refused _, heq => exact .of_eq rfl heq
  | begin =>
    match (a : Reply Unit), h with
    | .ok (), ⟨hfree, heq⟩ => exact .opened rfl hfree heq
    | .lost _ _, heq | .refused _, heq => exact .of_eq rfl heq
  | txSelect token =>
    match (a : Reply (Option RefreshRow)), h with
    | .ok (some row), ⟨tx, view, hfound, hview, hread, hfree, heq⟩ =>
      exact .selected token row tx view _ rfl (fun _ h => (Reply.ok.inj h).symm) hfound hview
        hread.symm hfree heq
    | .lost (some row) _, ⟨tx, view, hfound, hview, hread, hfree, heq⟩ =>
      exact .selected token row tx view _ rfl nofun hfound hview hread.symm hfree heq
    | .ok none, ⟨_, _, _, _, _, heq⟩ | .lost none _, ⟨_, _, _, _, _, heq⟩ => exact .of_eq rfl heq
    | .refused _, heq => exact .of_eq rfl heq
  | txMarkUsed token replacedBy =>
    have hdone : (∃ tx view, st.tx? p = some tx ∧ tx.view st.tokens = some view ∧
        if (view.find? token).isSome then st.rowFree p token = true ∧
          st' = st.inTx p fun tx =>
            { tx with
              locked := token :: tx.locked
              writes := tx.writes ++ [.markUsed token replacedBy] }
        else st' = st) → TokenMove p st ⟨.txMarkUsed token replacedBy, a⟩ st' := by
      rintro ⟨tx, view, hfound, hview, hrest⟩
      split at hrest
      · exact .marked token replacedBy rfl hrest.1 hrest.2
      · next hnone =>
        exact .missed token replacedBy tx view rfl hfound hview (by simpa using hnone) hrest
    match (a : Reply Unit), h with
    | .ok _, h | .lost _ _, h => exact hdone h
    | .refused _, heq => exact .of_eq rfl heq
  | txInsertToken new =>
    match (a : Reply Unit), h with
    | .ok _, ⟨_, _, _, _, _, _, heq⟩ => exact .inserted new rfl heq
    | .lost _ _, ⟨_, _, _, _, _, _, heq⟩ => exact .inserted new rfl heq
    | .refused _, heq => exact .of_eq rfl heq
  | commit =>
    match (a : Reply Unit), h with
    | .ok (), ⟨tx, tokens, hfound, hview, heq⟩ => exact .committed tx tokens rfl hfound hview heq
    | .lost _ _, ⟨tx, tokens, hfound, hview, heq⟩ => exact .committed tx tokens rfl hfound hview heq
    | .refused _, heq => exact .closed (Or.inl rfl) (fun h => by cases h) heq
  | rollback => exact .closed (Or.inr rfl) (fun h => by cases h) h
  | _ => exact .of_eq rfl h

/-! ### Where a refresh is when it makes a statement -/

namespace Rotation.Allows

variable {b : Rotation}

theorem minting (h : b.Allows (.insertToken new)) : b = .outside := by
  cases b <;> simp_all [Rotation.Allows]

theorem selecting (h : b.Allows (.txSelect token)) : b = .begun := by
  cases b <;> simp_all [Rotation.Allows, AuthAsk.direct]

theorem marking {replacedBy : String} (h : b.Allows (.txMarkUsed token replacedBy)) :
    ∃ row, b = .live token row := by
  cases b <;> simp_all [Rotation.Allows, AuthAsk.direct]

theorem inserting (h : b.Allows (.txInsertToken new)) :
    ∃ token row, b = .marked token row new.token ∧ new.session = row.session := by
  cases b with
  | marked token row new =>
    obtain ⟨expiresAt, h⟩ := h
    obtain rfl := AuthAsk.txInsertToken.inj h
    exact ⟨token, row, rfl, rfl⟩
  | _ => simp_all [Rotation.Allows, AuthAsk.direct]

theorem committing (h : b.Allows .commit) : ∃ token row new, b = .replaced token row new := by
  cases b <;> simp_all [Rotation.Allows, AuthAsk.direct]

end Rotation.Allows

/-! ### What a refresh knows of its transaction -/

/-- The transaction has the row locked, and the row is unused. -/
structure AuthTx.Holds (tx : AuthTx) (t : RefreshTable) (token : String) (row : RefreshRow) :
    Prop where
  locked : token ∈ tx.locked
  found : t.find? token = some row
  unused : row.usedAt = none

def Rotation.Knows (t : RefreshTable) : Rotation → AuthTx → Prop
  | .outside, _ | .rotated .., _ => False
  | .begun, tx => tx.writes = []
  | .chosen token row, tx | .live token row, tx => tx.writes = [] ∧ tx.Holds t token row
  | .marked token row new, tx => tx.writes = [.markUsed token new] ∧ tx.Holds t token row
  | .replaced token row new, tx =>
      tx.writes = [.markUsed token new.token, .insert new] ∧ new.session = row.session ∧
        tx.Holds t token row
  | .ended, _ => True

namespace Rotation.Knows

variable {t t' : RefreshTable} {b : Rotation} {tx : AuthTx} {e : Ev AuthWorld}

/-- It is enough that the rows a transaction has locked stay as they are. -/
theorem retable (h : b.Knows t tx)
    (hsame : ∀ token ∈ tx.locked, ∀ row, t.find? token = some row → t'.find? token = some row) :
    b.Knows t' tx := by
  have holds : ∀ {token row}, tx.Holds t token row → tx.Holds t' token row := fun hh =>
    ⟨hh.locked, hsame _ hh.locked _ hh.found, hh.unused⟩
  cases b with
  | outside | rotated token row new | begun => exact h
  | chosen token row | live token row | marked token row new => exact ⟨h.1, holds h.2⟩
  | replaced token row new => exact ⟨h.1, h.2.1, holds h.2.2⟩
  | ended => trivial

theorem uneventful (h : b.Knows t tx) (hok : b.Allows e.1)
    (he : DeviceUniqueness.uneventful e = true) : (b.next e).Knows t tx := by
  obtain ⟨o, a⟩ := e
  cases b with
  | outside | rotated token row new => exact h.elim
  | begun =>
    obtain ⟨token, rfl⟩ : ∃ token, o = .txSelect token := hok
    match (a : Reply (Option RefreshRow)), he with
    | .ok none, _ | .lost _ _, _ | .refused _, _ => trivial
  | chosen token row =>
    obtain rfl : o = .nowUtc := hok
    simp only [next]
    split
    · trivial
    · exact h
  | live token row =>
    rcases (hok : o = .random ∨ o = .nowUtc ∨ _) with rfl | rfl | ⟨new, rfl⟩
    · exact h
    · exact h
    · have hfail : Reply.isOk a = false := by simpa [DeviceUniqueness.uneventful] using he
      simp [next, hfail, Knows]
  | marked token row new =>
    obtain ⟨expiresAt, rfl⟩ := hok
    have hfail : Reply.isOk a = false := by simpa [DeviceUniqueness.uneventful] using he
    simp [next, hfail, Knows]
  | replaced token row new =>
    obtain rfl : o = .commit := hok
    cases he
  | ended =>
    obtain rfl : o = .rollback := hok
    cases he

end Rotation.Knows

/-! ### The invariant -/

namespace AuthState

variable {tx : AuthTx}

theorem tx?_mem (h : st.tx? p = some tx) : tx ∈ st.txs ∧ tx.owner = p :=
  ⟨List.mem_of_find?_eq_some h, by simpa using List.find?_some h⟩

theorem owner_of_tx?_none (h : st.tx? p = none) (htx : tx ∈ st.txs) : tx.owner ≠ p := by
  simpa using List.find?_eq_none.mp h tx htx

theorem mem_close : tx ∈ (st.close p).txs ↔ tx ∈ st.txs ∧ tx.owner ≠ p := by
  simp [close]

theorem owner_of_rowFree (h : st.rowFree p token = true) (htx : tx ∈ st.txs)
    (hlocked : token ∈ tx.locked) : tx.owner = p := by
  simpa [hlocked] using List.all_eq_true.mp h tx htx

end AuthState

/-- Every open transaction is as its refresh knows it, and no row is locked twice. -/
structure RotationInv (st : AuthState) (w : Nat → Option Rotation) : Prop where
  known : ∀ tx ∈ st.txs, ∃ b, w tx.owner = some b ∧ b.Knows st.tokens tx
  single : ∀ tx ∈ st.txs, ∀ tx' ∈ st.txs, tx.owner = tx'.owner → tx = tx'
  sole : ∀ tx ∈ st.txs, ∀ tx' ∈ st.txs, ∀ token ∈ tx.locked, token ∈ tx'.locked →
    tx.owner = tx'.owner

namespace RotationInv

variable {w w' : Nat → Option Rotation} {b b' : Rotation} {tx : AuthTx}

theorem underway (hi : RotationInv st w) :
    Underway AuthTx.owner AuthTx.locked (fun b tx => b.Knows st.tokens tx) st.txs w :=
  ⟨hi.known, hi.single, hi.sole⟩

theorem of_underway
    (h : Underway AuthTx.owner AuthTx.locked (fun b tx => b.Knows st.tokens tx) st.txs w) :
    RotationInv st w :=
  ⟨h.known, h.single, h.sole⟩

/-- What the process knows of its own transaction. -/
theorem knows (hi : RotationInv st w) (hb : w p = some b) (htx : st.tx? p = some tx) :
    b.Knows st.tokens tx := by
  obtain ⟨hmem, rfl⟩ := AuthState.tx?_mem htx
  exact hi.underway.knows hb hmem

/-- The transaction of `p` is changed, and `p` knows how. -/
theorem change (hi : RotationInv st w) (hb : w p = some b) (f : AuthTx → AuthTx)
    (howner : ∀ tx, (f tx).owner = tx.owner)
    (hknows : ∀ tx, st.tx? p = some tx → b.Knows st.tokens tx → b'.Knows st.tokens (f tx))
    (hlocked : ∀ tx, ∀ token ∈ (f tx).locked, token ∈ tx.locked ∨ st.rowFree p token = true)
    (htxs : st'.txs = (st.inTx p f).txs) (htokens : st'.tokens = st.tokens) :
    RotationInv st' (update w p (some b')) := by
  refine .of_underway ?_
  rw [htokens]
  refine hi.underway.change hb howner (fun tx htx hp => hknows tx ?_)
    (fun tx _ _ token htoken => (hlocked tx token htoken).imp_right fun hfree _ =>
      AuthState.owner_of_rowFree hfree) htxs
  cases hfind : st.tx? p with
  | none => exact absurd hp (AuthState.owner_of_tx?_none hfind htx)
  | some tx' =>
    obtain ⟨hmem, howner⟩ := AuthState.tx?_mem hfind
    rw [hi.single tx' hmem tx htx (howner.trans hp.symm)]

/-- Some transactions are gone; the rest are known as before, and the rows they have locked are as
    before. -/
theorem shrink (hi : RotationInv st w) (htxs : ∀ tx ∈ st'.txs, tx ∈ st.txs)
    (hw : ∀ tx ∈ st'.txs, w' tx.owner = w tx.owner)
    (htokens : ∀ tx ∈ st'.txs, ∀ token ∈ tx.locked, ∀ row, st.tokens.find? token = some row →
      st'.tokens.find? token = some row) : RotationInv st' w' :=
  .of_underway (hi.underway.shrink htxs hw fun _ tx htx h => h.retable (htokens tx htx))

/-- A transaction is begun. -/
theorem opened (hi : RotationInv st w) (hfree : st.tx? p = none) :
    RotationInv (st.opened p) (update w p (some .begun)) :=
  .of_underway (hi.underway.opened ⟨p, st.now, [], []⟩
    (fun _ => AuthState.owner_of_tx?_none hfree) rfl rfl)

/-- What a refresh commits: the row it holds is marked, its successor inserted. -/
theorem commits (hi : RotationInv st w) (hb : w p = some b) (hok : b.Allows .commit)
    (htx : st.tx? p = some tx) {tokens : RefreshTable} (hview : tx.view st.tokens = some tokens) :
    ∃ token row new, b = .replaced token row new ∧ tx.Holds st.tokens token row ∧
      new.session = row.session ∧ tx.rotations = [(token, new.token)] ∧
      st.tokens.rotate token tx.startedAt new = some tokens := by
  obtain ⟨token, row, new, rfl⟩ := hok.committing
  obtain ⟨hwrites, hsession, hholds⟩ := hi.knows hb htx
  refine ⟨token, row, new, rfl, hholds, hsession, by simp [AuthTx.rotations, hwrites], ?_⟩
  simpa [AuthTx.view, hwrites, RefreshWrite.apply, RefreshTable.rotate] using hview

theorem op (hi : RotationInv st w) (hb : w p = some b) (hok : b.Allows o)
    (hdoes : AuthAsk.Does Served p st o a st') :
    RotationInv st' (update w p (some (b.next ⟨o, a⟩))) := by
  have hclosed : ∀ tx ∈ (st.close p).txs,
      update w p (some (b.next ⟨o, a⟩)) tx.owner = w tx.owner := fun tx htx =>
    update_of_ne (AuthState.mem_close.mp htx).2 ..
  have hidle : ∀ {st' : AuthState}, st'.txs = st.txs → st'.tokens = st.tokens →
      (∀ tx, st.tx? p = some tx → b.Knows st.tokens tx → (b.next ⟨o, a⟩).Knows st.tokens tx) →
      RotationInv st' (update w p (some (b.next ⟨o, a⟩))) := by
    intro st' htxs htokens hknows
    refine hi.change hb id (fun _ => rfl) hknows (fun _ _ h => Or.inl h) ?_ htokens
    rw [htxs]
    simp [AuthState.inTx]
  cases hdoes.tokenMove with
  | kept event txs tokens _ =>
    exact hidle txs tokens fun tx _ h => h.uneventful hok event
  | minted new tokens event _ inserted now =>
    subst now
    obtain rfl : o = .insertToken new := event
    obtain rfl := hok.minting
    refine hi.shrink (fun _ h => h) (fun tx htx => ?_) fun tx htx token hlocked row hrow => ?_
    · obtain ⟨c, hc, hknown⟩ := hi.known tx htx
      refine update_of_ne ?_ ..
      rintro rfl
      -- a mint works outside of any transaction
      rw [hb, Option.some.injEq] at hc
      subst hc
      exact hknown
    · exact (RefreshTable.find?_insert_of_mem inserted
        (RefreshTable.mem_tokens_of_find? hrow)).trans hrow
  | opened event free now =>
    obtain ⟨rfl, rfl⟩ := Sigma.mk.inj event
    subst now
    exact hi.opened free
  | selected token row tx view reply event replied found viewed read free now =>
    obtain ⟨rfl, heq⟩ := Sigma.mk.inj event
    obtain rfl : a = reply := eq_of_heq heq
    subst now
    refine hi.change hb (fun tx => { tx with locked := token :: tx.locked }) (fun _ => rfl) ?_ ?_
      rfl rfl
    · intro tx' hfound hknown
      obtain rfl : tx = tx' := Option.some.inj (found.symm.trans hfound)
      obtain rfl := hok.selecting
      have hwrites : tx.writes = [] := hknown
      rw [AuthTx.view, hwrites] at viewed
      obtain rfl := Option.some.inj viewed
      change (Rotation.select token a).Knows _ _
      match (a : Reply (Option RefreshRow)), replied with
      | .ok out, replied =>
        obtain rfl := replied out rfl
        simp only [Rotation.select]
        split
        · trivial
        · next hunused =>
          exact ⟨hknown, List.mem_cons_self .., read, by simpa using hunused⟩
      | .lost _ _, _ | .refused _, _ => trivial
    · intro tx' token' htoken'
      rcases List.mem_cons.mp htoken' with rfl | htoken'
      exacts [.inr free, .inl htoken']
  | marked token replacedBy event free now =>
    subst now
    obtain rfl : o = .txMarkUsed token replacedBy := event
    obtain ⟨row, rfl⟩ := hok.marking
    refine hi.change hb (fun tx =>
      { tx with
        locked := token :: tx.locked
        writes := tx.writes ++ [.markUsed token replacedBy] }) (fun _ => rfl) ?_ ?_ rfl rfl
    · rintro tx - ⟨hwrites, hholds⟩
      simp only [Rotation.next]
      split
      · exact ⟨by simp [hwrites], List.mem_cons_self .., hholds.found, hholds.unused⟩
      · trivial
    · intro tx' token' htoken'
      rcases List.mem_cons.mp htoken' with rfl | htoken'
      exacts [.inr free, .inl htoken']
  | missed token replacedBy tx view event found viewed absent now =>
    subst now
    obtain rfl : o = .txMarkUsed token replacedBy := event
    obtain ⟨row, rfl⟩ := hok.marking
    -- the row a refresh marks is the one it holds
    obtain ⟨hwrites, hholds⟩ := hi.knows hb found
    rw [AuthTx.view, hwrites] at viewed
    obtain rfl := Option.some.inj viewed
    rw [hholds.found] at absent
    cases absent
  | inserted new event now =>
    subst now
    obtain rfl : o = .txInsertToken new := event
    obtain ⟨token, row, rfl, hsession⟩ := hok.inserting
    refine hi.change hb (fun tx => { tx with writes := tx.writes ++ [.insert new] }) (fun _ => rfl)
      ?_ (fun _ _ h => Or.inl h) rfl rfl
    rintro tx - ⟨hwrites, hholds⟩
    simp only [Rotation.next]
    split
    · exact ⟨by simp [hwrites], hsession, hholds.locked, hholds.found, hholds.unused⟩
    · trivial
  | closed event _ now =>
    subst now
    exact hi.shrink (fun tx h => (AuthState.mem_close.mp h).1) hclosed fun _ _ _ _ _ h => h
  | committed tx tokens event found viewed now =>
    subst now
    obtain rfl : o = .commit := event
    obtain ⟨token, row, new, rfl, hholds, -, -, hrotate⟩ := hi.commits hb hok found viewed
    refine hi.shrink (fun tx h => (AuthState.mem_close.mp h).1) hclosed ?_
    intro tx' htx' token' hlocked row' hrow'
    obtain ⟨hmem', hne⟩ := AuthState.mem_close.mp htx'
    obtain ⟨hmem, howner⟩ := AuthState.tx?_mem found
    have hother : token' ≠ token := by
      rintro rfl
      exact hne ((hi.sole tx' hmem' tx hmem token' hlocked hholds.locked).trans howner)
    refine (RefreshTable.find?_rotate hrotate hholds.found
      (RefreshTable.mem_tokens_of_find? hrow')).trans ?_
    rw [if_neg hother]
    exact hrow'

theorem env (hi : RotationInv st w) (e : AuthEvent) : RotationInv (e.act st) w := by
  cases e with
  | tick d => exact hi.shrink (fun _ h => h) (fun _ _ => rfl) fun _ _ _ _ _ h => h
  | connectionLost p =>
    exact hi.shrink (fun _ h => (AuthState.mem_close.mp h).1) (fun _ _ => rfl) fun _ _ _ _ _ h => h
  | others challenges => exact hi.shrink (fun _ h => h) (fun _ _ => rfl) fun _ _ _ _ _ h => h

end RotationInv

/-! ### What a step does to the table -/

/-- A step of a process that stands at `b`: the table is left alone, or a root comes to it, or the
    row that was read is marked and replaced. -/
inductive TableStep (b : Rotation) (e : Ev AuthWorld) (st st' : AuthState) : Prop
  | same (tokens : st'.tokens = st.tokens) (rotations : st'.rotations = st.rotations)
      (mints : mintedBy e = none) (unacknowledged : e ≠ ⟨.commit, .ok ()⟩)
  | minted (new : NewToken) (event : e.1 = .insertToken new) (mints : mintedBy e = some new.token)
      (inserted : st.tokens.insert new = some st'.tokens) (rotations : st'.rotations = st.rotations)
  | rotated (token : String) (row : RefreshRow) (usedAt : Time) (new : NewToken)
      (at' : b = .replaced token row new) (event : e.1 = .commit)
      (found : st.tokens.find? token = some row) (unused : row.usedAt = none)
      (session : new.session = row.session)
      (now : st.tokens.rotate token usedAt new = some st'.tokens)
      (rotations : st'.rotations = (token, new.token) :: st.rotations)

theorem mintedBy_eq_none {e : Ev AuthWorld} (h : e.1 = o) (ho : ∀ new, o ≠ .insertToken new) :
    mintedBy e = none := by
  obtain ⟨o', a⟩ := e
  obtain rfl : o' = o := h
  cases o' <;> first | rfl | exact absurd rfl (ho _)

theorem RotationInv.tableStep {w : Nat → Option Rotation} {b : Rotation} (hi : RotationInv st w)
    (hb : w p = some b) (hok : b.Allows o) (hdoes : AuthAsk.Does Served p st o a st') :
    TableStep b ⟨o, a⟩ st st' := by
  have hsame : ∀ {o' : AuthAsk}, o = o' → (∀ new, o' ≠ .insertToken new) → o' ≠ .commit →
      st'.tokens = st.tokens → st'.rotations = st.rotations → TableStep b ⟨o, a⟩ st st' := by
    rintro _ rfl hmint hcommit tokens rotations
    refine .same tokens rotations (mintedBy_eq_none rfl hmint) fun h => hcommit ?_
    exact (Sigma.mk.inj h).1
  cases hdoes.tokenMove with
  | kept event _ tokens rotations =>
    refine .same tokens rotations ?_ ?_
    · cases o with
      | insertToken new =>
        have hdone : Reply.done a = false := by simpa [uneventful] using event
        simp [mintedBy, hdone]
      | _ => rfl
    · intro h
      rw [h] at event
      cases event
  | minted new tokens event mints inserted now =>
    subst now
    exact .minted new event mints inserted rfl
  | opened event _ now => subst now; exact hsame (Sigma.mk.inj event).1 nofun nofun rfl rfl
  | selected _ _ _ _ _ event _ _ _ _ _ now =>
    subst now; exact hsame (Sigma.mk.inj event).1 nofun nofun rfl rfl
  | marked _ _ event _ now => subst now; exact hsame event nofun nofun rfl rfl
  | missed _ _ _ _ event _ _ _ now => subst now; exact hsame event nofun nofun rfl rfl
  | inserted _ event now => subst now; exact hsame event nofun nofun rfl rfl
  | closed event unacknowledged now =>
    subst now
    refine .same rfl rfl ?_ unacknowledged
    exact event.elim (fun h => mintedBy_eq_none h nofun) fun h => mintedBy_eq_none h nofun
  | committed tx tokens event found viewed now =>
    subst now
    obtain rfl : o = .commit := event
    obtain ⟨token, row, new, hat, hholds, hsession, hrotations, hrotate⟩ :=
      hi.commits hb hok found viewed
    refine .rotated token row tx.startedAt new hat rfl hholds.found hholds.unused hsession hrotate ?_
    simp [AuthState.committed, hrotations]

theorem TableStep.rotations_subset {b : Rotation} {e : Ev AuthWorld} (h : TableStep b e st st') :
    st.rotations ⊆ st'.rotations := by
  cases h with
  | same _ rotations _ _ | minted _ _ _ _ rotations => rw [rotations]; exact List.Subset.refl _
  | rotated _ _ _ _ _ _ _ _ _ _ rotations => rw [rotations]; exact List.subset_cons_self ..

/-- A row stays, and keeps its session. -/
theorem TableStep.keeps_session {b : Rotation} {e : Ev AuthWorld} (h : TableStep b e st st')
    (hrow : st.tokens.find? token = some row) :
    ∃ row', st'.tokens.find? token = some row' ∧ row'.session = row.session := by
  have hmem := RefreshTable.mem_tokens_of_find? hrow
  cases h with
  | same tokens _ _ _ => exact ⟨row, by rw [tokens]; exact hrow, rfl⟩
  | minted _ _ _ inserted _ =>
    exact ⟨row, (RefreshTable.find?_insert_of_mem inserted hmem).trans hrow, rfl⟩
  | rotated token' row' usedAt new _ _ found _ _ now _ =>
    have hfind := RefreshTable.find?_rotate now found hmem
    split_ifs at hfind with heq
    · obtain rfl : row' = row := Option.some.inj (found.symm.trans (heq ▸ hrow))
      exact ⟨_, hfind, rfl⟩
    · exact ⟨row, hfind.trans hrow, rfl⟩

/-! ### Lineages -/

/-- The refresh tokens, given the tokens minted: they fall into lineages, one from each mint; a row
    is used when it has a successor; and the rotations committed are the links. -/
structure TokenInv (st : AuthState) (minted : List String) : Prop where
  lineages : ∃ chains, Lineages st.tokens.successor st.tokens.tokens minted chains
  used : ∀ token row, st.tokens.find? token = some row → row.usedAt.isSome = row.replacedBy.isSome
  links : ∀ token new, (token, new) ∈ st.rotations ↔ st.tokens.successor token = some new
  once : (st.rotations.map Prod.fst).Nodup

namespace TokenInv

variable {minted : List String} {b : Rotation} {e : Ev AuthWorld}

theorem mint (hi : TokenInv st minted) (hinsert : st.tokens.insert new = some st'.tokens)
    (hrotations : st'.rotations = st.rotations) : TokenInv st' (minted ++ [new.token]) := by
  have hsuccessor := RefreshTable.successor_insert hinsert
  have hnone : st'.tokens.successor new.token = none := by
    rw [hsuccessor, RefreshTable.successor_of_not_mem (RefreshTable.insert_eq_some hinsert).1]
  obtain ⟨chains, hchains⟩ := hi.lineages
  refine ⟨⟨[new.token] :: chains, ?_⟩, ?_, ?_, ?_⟩
  · rw [RefreshTable.tokens_insert hinsert]
    exact hchains.root (fun token _ => congrFun hsuccessor token) hnone
  · intro token row hrow
    rw [RefreshTable.find?_insert hinsert] at hrow
    split at hrow
    · rw [← Option.some.inj hrow]
      rfl
    · exact hi.used token row hrow
  · rw [hrotations, hsuccessor]
    exact hi.links
  · rw [hrotations]
    exact hi.once

/-- An unused row has no successor yet. -/
theorem successor_unused (hi : TokenInv st minted) (hfound : st.tokens.find? token = some row)
    (hunused : row.usedAt = none) : st.tokens.successor token = none := by
  have hsome : row.replacedBy.isSome = false := by rw [← hi.used token row hfound, hunused]; rfl
  rw [RefreshTable.successor, hfound]
  simpa using hsome

theorem rotate (hi : TokenInv st minted) {usedAt : Time} (hfound : st.tokens.find? token = some row)
    (hunused : row.usedAt = none) (hrotate : st.tokens.rotate token usedAt new = some st'.tokens)
    (hrotations : st'.rotations = (token, new.token) :: st.rotations) : TokenInv st' minted := by
  have hsuccessor := RefreshTable.successor_rotate hrotate hfound
  have hmem := RefreshTable.mem_tokens_of_find? hfound
  obtain ⟨hfresh, htokens⟩ := RefreshTable.tokens_rotate hrotate
  have hend := hi.successor_unused hfound hunused
  obtain ⟨chains, hchains⟩ := hi.lineages
  refine ⟨?_, ?_, ?_, ?_⟩
  · rw [htokens, hsuccessor]
    refine hchains.extend st.tokens.pk hmem hend (fun token' _ hne => ?_) ?_ ?_
    · exact update_of_ne hne ..
    · exact update_self ..
    · rw [update_of_ne, RefreshTable.successor_of_not_mem hfresh]
      rintro rfl
      exact hfresh hmem
  · intro token' row' hrow'
    have hmem' := RefreshTable.mem_tokens_of_find? hrow'
    rw [htokens] at hmem'
    rcases List.mem_cons.mp hmem' with rfl | hmem'
    · rw [RefreshTable.find?_rotate_new hrotate] at hrow'
      rw [← Option.some.inj hrow']
      rfl
    · rw [RefreshTable.find?_rotate hrotate hfound hmem'] at hrow'
      split at hrow'
      · rw [← Option.some.inj hrow']
        rfl
      · exact hi.used token' row' hrow'
  · intro token' new'
    rw [hrotations, List.mem_cons, hi.links, hsuccessor]
    rcases eq_or_ne token' token with rfl | hne
    · rw [hend, update_self]
      simp [eq_comm]
    · rw [update_of_ne hne]
      simp [hne]
  · rw [hrotations, List.map_cons, List.nodup_cons]
    refine ⟨fun hin => ?_, hi.once⟩
    obtain ⟨⟨token', new'⟩, hlink, rfl⟩ := List.mem_map.mp hin
    rw [(hi.links token' new').mp hlink] at hend
    cases hend

theorem step (hi : TokenInv st minted) (h : TableStep b e st st') :
    TokenInv st' (minted ++ (mintedBy e).toList) := by
  cases h with
  | same tokens rotations mints _ =>
    rw [mints, Option.toList_none, List.append_nil]
    exact ⟨tokens ▸ hi.lineages, tokens ▸ hi.used, by rw [rotations, tokens]; exact hi.links,
      rotations ▸ hi.once⟩
  | minted new _ mints inserted rotations =>
    rw [mints]
    exact hi.mint inserted rotations
  | rotated token row usedAt new _ event found unused _ now rotations =>
    rw [mintedBy_eq_none event nofun, Option.toList_none, List.append_nil]
    exact hi.rotate found unused now rotations

end TokenInv

/-! ### Whole runs -/

/-- Before the first token: nothing in the table, no transaction open or committed. -/
structure AuthState.Unissued (st : AuthState) : Prop where
  tokens : st.tokens.rows = []
  txs : st.txs = []
  rotations : st.rotations = []

/-- The tokens minted in a run. -/
def mintedTokens (ls : List (Label AuthWorld AuthEvent)) : List String :=
  ls.flatMap fun
    | .op _ e => (mintedBy e).toList
    | _ => []

section Runs

variable {ext : AuthExt} {st₀ : AuthState} {ls : List (Label AuthWorld AuthEvent)} {s t : AuthSys}

theorem rotations_bound (st₀ : AuthState) : Bound (Auth ext Served) st₀ rotations .outside where
  boot := by
    rintro p prog rfl
    exact Prog.Sat.mono (fun _ _ _ => trivial) serve_rotates
  adm _ _ _ _ _ _ _ _ := trivial

theorem reachable_rotationInv (h₀ : st₀.txs = []) (r : Reachable (Auth ext Served) st₀ ls s) :
    RotationInv s.st (s.watch rotations .outside) := by
  refine Reachable.inv (rotations_bound st₀) (fun _ st w => RotationInv st w) ?_
    ⟨?_, ?_, ?_, ?_⟩ r
  · constructor <;> simp [h₀]
  · intro _ _ _ _ _ _ _ _ hi hb hok hdone
    exact hi.op hb hok hdone
  · rintro _ _ e _ _ hi rfl
    exact hi.env e
  · intro _ s p _ hi hdead
    refine hi.shrink (fun _ h => h) (fun tx htx => ?_) fun _ _ _ _ _ h => h
    obtain ⟨b, hb, -⟩ := hi.known tx htx
    refine update_of_ne ?_ ..
    rintro rfl
    rw [hdead] at hb
    cases hb
  · rintro _ s p _ _ hi rfl
    exact hi.shrink (fun _ h => (AuthState.mem_close.mp h).1)
      (fun tx htx => update_of_ne (AuthState.mem_close.mp htx).2 ..) fun _ _ _ _ _ h => h

/-- A step of a run, as it concerns the table. -/
theorem step_table (h₀ : st₀.txs = []) (r : Reachable (Auth ext Served) st₀ ls s)
    {e : Ev AuthWorld} (d : Step (Auth ext Served) s (.op p e) t) :
    ∃ b, s.watch rotations .outside p = some b ∧ b.Allows e.1 ∧ TableStep b e s.st t.st ∧
      t.watch rotations .outside = update (s.watch rotations .outside) p (some (b.next e)) := by
  obtain ⟨b, hb, hok, hdone, hw⟩ := d.op_inv (Reachable.trusted (rotations_bound st₀) r)
  exact ⟨b, hb, hok, (reachable_rotationInv h₀ r).tableStep hb hok hdone, hw⟩

theorem reachable_tokenInv (h₀ : st₀.Unissued) (r : Reachable (Auth ext Served) st₀ ls s) :
    TokenInv s.st (mintedTokens ls) := by
  induction r with
  | nil =>
    have htokens : st₀.tokens.tokens = [] := by rw [RefreshTable.tokens, h₀.tokens]; rfl
    refine ⟨⟨[], ?_⟩, ?_, ?_, ?_⟩
    · change Lineages st₀.tokens.successor st₀.tokens.tokens [] []
      rw [htokens]
      exact .nil
    · intro token row hrow
      have := RefreshTable.mem_tokens_of_find? hrow
      change token ∈ st₀.tokens.tokens at this
      rw [htokens] at this
      cases this
    · intro token new
      change (token, new) ∈ st₀.rotations ↔ st₀.tokens.successor token = some new
      rw [h₀.rotations, RefreshTable.successor_of_not_mem (by simp [htokens])]
      simp
    · change (st₀.rotations.map Prod.fst).Nodup
      rw [h₀.rotations]
      exact List.nodup_nil
  | @snoc ls s t l r d ih =>
    rw [mintedTokens, List.flatMap_append, List.flatMap_singleton]
    have hquiet : ∀ {u : AuthSys}, u.st.tokens = s.st.tokens → u.st.rotations = s.st.rotations →
        TokenInv u.st (mintedTokens ls ++ []) := by
      intro u htokens hrotations
      rw [List.append_nil]
      exact ⟨htokens ▸ ih.lineages, htokens ▸ ih.used, by rw [hrotations, htokens]; exact ih.links,
        hrotations ▸ ih.once⟩
    cases l with
    | op p e =>
      obtain ⟨b, -, -, hstep, -⟩ := step_table h₀.txs r d
      exact ih.step hstep
    | env e =>
      cases d with
      | env done =>
        obtain rfl : _ = e.act s.st := done
        cases e <;> exact hquiet rfl rfl
    | start p => cases d with | start free boots => exact hquiet rfl rfl
    | kill p =>
      cases d with
      | kill done =>
        obtain rfl : _ = s.st.close p := done
        exact hquiet rfl rfl

/-! ### Single use -/

/-- The tokens that descend from `root`: one chain by `replaced_by`, of which only the end can be
    unused. -/
structure SingleChain (t : RefreshTable) (root : String) (chain : List String) : Prop where
  starts : chain.head? = some root
  nodup : chain.Nodup
  linked : Linked t.successor chain
  whole : ∀ token, Descends t.successor root token ↔ token ∈ chain
  unused : ∀ token row, token ∈ chain → t.find? token = some row → row.usedAt = none →
    ∃ front, chain = front ++ [token]

/-- What was read of a token, and the time looked at next, rule a refresh out: there is no row, it is
    used, or it is expired. -/
def RefreshSpent (out : Option RefreshRow) (rest : List (Ev AuthWorld)) : Prop :=
  ∀ row, out = some row → row.usedAt.isSome ∨
    ∃ now rest', rest = ⟨.nowUtc, now⟩ :: rest' ∧ row.expiresAt ≤ now

theorem TokenInv.chain {st : AuthState} {minted : List String} (hi : TokenInv st minted)
    {root : String} (hroot : root ∈ minted) : ∃ chain, SingleChain st.tokens root chain := by
  obtain ⟨chains, hchains⟩ := hi.lineages
  obtain ⟨chain, hchain, hstart⟩ := hchains.rooted root hroot
  have hlinked := hchains.linked chain hchain
  refine ⟨chain, hstart, hchains.chain_nodup st.tokens.pk hchain, hlinked,
    fun token => hlinked.descends_iff hstart, fun token row hmem hrow hunused => ?_⟩
  exact hlinked.ends_at hmem (hi.successor_unused hrow hunused)

/-- A refresh that is over does nothing but leave its transaction. -/
theorem heeds_ended {h : List (Ev AuthWorld)} (hh : rotations.Heeds .ended h) :
    ∀ e ∈ h, e.1 = .rollback := by
  induction h with
  | nil => simp
  | cons e h ih =>
    obtain ⟨o, a⟩ := e
    obtain ⟨hok, hrest⟩ := hh
    obtain rfl : o = .rollback := hok
    intro e he
    rcases List.mem_cons.mp he with rfl | he
    · rfl
    · exact ih hrest e he

theorem spent_stops {out : Option RefreshRow} {h₁ h₂ : List (Ev AuthWorld)}
    (hh : rotations.Heeds .outside (h₁ ++ ⟨.txSelect token, .ok out⟩ :: h₂))
    (hspent : RefreshSpent out h₂) : ∀ e ∈ h₂, e.1 = .nowUtc ∨ e.1 = .rollback := by
  have hrest : rotations.Heeds (Rotation.select token (.ok out)) h₂ :=
    ((Monitor.heeds_append h₁ _ _).mp hh).2.2
  have hover : ∀ {h}, rotations.Heeds .ended h → ∀ e ∈ h, e.1 = .nowUtc ∨ e.1 = .rollback :=
    fun hh e he => Or.inr (heeds_ended hh e he)
  cases out with
  | none => exact hover hrest
  | some row =>
    simp only [Rotation.select] at hrest
    split at hrest
    · exact hover hrest
    · next hunused =>
      obtain ⟨now, rest', rfl, hexpired⟩ := (hspent row rfl).resolve_left hunused
      have hnext : Rotation.next (.chosen token row) ⟨.nowUtc, now⟩ = .ended := if_pos hexpired
      refine List.forall_mem_cons.mpr ⟨Or.inl rfl, hover ?_⟩
      rw [← hnext]
      exact hrest.2

/-- What a refresh reads of a token is its row in the table. -/
theorem select_reads (h₀ : st₀.txs = []) (r : Reachable (Auth ext Served) st₀ ls s)
    {out : Option RefreshRow} (d : Step (Auth ext Served) s (.op p ⟨.txSelect token, .ok out⟩) t) :
    out = s.st.tokens.find? token := by
  obtain ⟨b, hb, hok, hdone, -⟩ := d.op_inv (Reachable.trusted (rotations_bound st₀) r)
  obtain ⟨tx, view, htx, hview, hout, -⟩ := hdone
  obtain rfl := Rotation.Allows.selecting hok
  have hwrites : tx.writes = [] := (reachable_rotationInv h₀ r).knows hb htx
  rw [AuthTx.view, hwrites] at hview
  obtain rfl := Option.some.inj hview
  exact hout

/-- In every interleaving of the auth routes, from an empty table of refresh tokens: no token is
    rotated twice; the tokens that descend from a mint are one chain, of which only the end can be
    unused, and every token descends from a mint; a row is used exactly if its successor is in the
    table, and that link is what a committed rotation made; a refresh reads the row that is there, of
    the token it was shown, and one that finds it missing, used or expired does nothing more than
    leave its transaction. -/
theorem refresh_single_use (h₀ : st₀.Unissued) (r : Reachable (Auth ext Served) st₀ ls s) :
    (s.st.rotations.map Prod.fst).Nodup ∧
    (∀ token new, (token, new) ∈ s.st.rotations ↔ s.st.tokens.successor token = some new) ∧
    (∀ root ∈ mintedTokens ls, ∃ chain, SingleChain s.st.tokens root chain) ∧
    (∀ token ∈ s.st.tokens.tokens, ∃ root ∈ mintedTokens ls,
      Descends s.st.tokens.successor root token) ∧
    (∀ row ∈ s.st.tokens.rows, row.usedAt.isSome ↔
      ∃ next ∈ s.st.tokens.rows, row.replacedBy = some next.token) ∧
    (∀ p token out t, Step (Auth ext Served) s (.op p ⟨.txSelect token, .ok out⟩) t →
      out = s.st.tokens.find? token) ∧
    ∀ p token out h₁ h₂, s.hist p = some (h₁ ++ ⟨.txSelect token, .ok out⟩ :: h₂) →
      Presented h₁ token ∧
      (RefreshSpent out h₂ → ∀ e ∈ h₂, e.1 = .nowUtc ∨ e.1 = .rollback) := by
  have hi := reachable_tokenInv h₀ r
  obtain ⟨chains, hchains⟩ := hi.lineages
  refine ⟨hi.once, hi.links, fun root hroot => hi.chain hroot, ?_, ?_, ?_, ?_⟩
  · intro token hmem
    obtain ⟨chain, hchain, hin⟩ := hchains.chain_of hmem
    obtain ⟨root, hroot, hstart⟩ := hchains.started chain hchain
    exact ⟨root, hroot, (hchains.linked chain hchain).descends hstart hin⟩
  · intro row hrow
    have hfind := RefreshTable.find?_of_mem hrow
    rw [hi.used row.token row hfind]
    constructor
    · intro hsome
      obtain ⟨new, hnew⟩ := Option.isSome_iff_exists.mp hsome
      have hnext : s.st.tokens.successor row.token = some new := by
        rw [RefreshTable.successor, hfind]
        exact hnew
      obtain ⟨chain, hchain, hin⟩ := hchains.chain_of (RefreshTable.mem_tokens_of_find? hfind)
      have hmem := hchains.mem hchain ((hchains.linked chain hchain).next_mem hin hnext)
      obtain ⟨next, hin', rfl⟩ := List.mem_map.mp hmem
      exact ⟨next, hin', hnew⟩
    · rintro ⟨next, -, hnext⟩
      rw [hnext]
      rfl
  · intro p token out t d
    exact select_reads h₀.txs r d
  · intro p token out h₁ h₂ hh
    exact ⟨hist_claims r hh, spent_stops (r.heeds (rotations_bound st₀) hh)⟩

end Runs

theorem fresh_unissued : AuthState.fresh.Unissued := ⟨rfl, rfl, rfl⟩

/-- Two requests present the token of a mint; the second reads it once the first has committed. -/
theorem refresh_raced :
    ∃ ls s chain, Reachable (Auth aliceExt fun _ _ => True) AuthState.fresh ls s ∧
      s.st.rotations = [(drawnToken 1, drawnToken 2)] ∧
      SingleChain s.st.tokens (drawnToken 1) chain ∧ drawnToken 2 ∈ chain := by
  obtain ⟨ls, s, hr, ht⟩ := (authPlayer aliceExt fun _ _ => True).reaches AuthState.fresh
    (aliceScript trivial ++ [.start 2 (), .op 2 (.takes hardConfig (.refresh (drawnToken 1)) trivial)] ++
      proceeds 2 1 ++ refreshScript trivial ++ proceeds 2 2)
    (fun ls s => mintedTokens ls = [drawnToken 1] &&
      s.st.rotations = [(drawnToken 1, drawnToken 2)]) (by decide +kernel)
  simp only [Bool.and_eq_true, decide_eq_true_eq] at ht
  obtain ⟨hminted, hrotations⟩ := ht
  obtain ⟨-, hlinks, hchains, -⟩ := refresh_single_use fresh_unissued hr
  obtain ⟨chain, hchain⟩ := hchains (drawnToken 1) (by simp [hminted])
  refine ⟨ls, s, chain, hr, hrotations, hchain, (hchain.whole _).mp ?_⟩
  exact Relation.ReflTransGen.single ((hlinks _ _).mp (by simp [hrotations]))

end DeviceUniqueness
