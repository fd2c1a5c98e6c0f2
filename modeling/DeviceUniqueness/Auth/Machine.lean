import DeviceUniqueness.Auth.Service

/-! Any number of auth requests at once, on any number of replicas.

    The requests share the challenges, the App Attest keys and the refresh tokens. A refresh works in
    a transaction: the row it selects `FOR UPDATE` is locked until the transaction ends, what it
    writes is there for others when it commits, and the key of the table makes an insert wait for
    another open insert of the same token. A transaction ends with its request and may be lost with
    its connection at any time. -/

namespace DeviceUniqueness

open Function Schemes

/-! ### Refresh tokens -/

/-- `refresh_tokens`, with its primary key. -/
structure RefreshTable where
  rows : List RefreshRow
  pk : (rows.map RefreshRow.token).Nodup

def NewToken.row (new : NewToken) : RefreshRow := ⟨new.token, new.session, new.expiresAt, none, none⟩

/-- The row, used at a time and replaced. -/
def RefreshRow.use (row : RefreshRow) (usedAt : Time) (replacedBy : String) : RefreshRow :=
  { row with usedAt := some usedAt, replacedBy := some replacedBy }

namespace RefreshTable

def empty : RefreshTable := ⟨[], List.nodup_nil⟩

variable (t : RefreshTable)

def find? (token : String) : Option RefreshRow := t.rows.find? fun row => row.token = token

def insert (new : NewToken) : Option RefreshTable :=
  if h : new.token ∉ t.rows.map RefreshRow.token then
    some ⟨new.row :: t.rows, List.nodup_cons.mpr ⟨h, t.pk⟩⟩
  else none

def markUsed (token : String) (usedAt : Time) (replacedBy : String) : RefreshTable where
  rows := t.rows.map fun row => if row.token = token then row.use usedAt replacedBy else row
  pk := by
    have htokens : (t.rows.map fun row =>
        if row.token = token then row.use usedAt replacedBy else row).map RefreshRow.token =
        t.rows.map RefreshRow.token := by
      rw [List.map_map]
      refine List.map_congr_left fun row _ => ?_
      rw [comp_apply]
      split_ifs <;> rfl
    rw [htokens]
    exact t.pk

end RefreshTable

/-- What a statement of a transaction will have written. -/
inductive RefreshWrite where
  | markUsed (token replacedBy : String)
  | insert (new : NewToken)
  deriving DecidableEq

def RefreshWrite.apply (now : Time) (t : RefreshTable) : RefreshWrite → Option RefreshTable
  | .markUsed token replacedBy => some (t.markUsed token now replacedBy)
  | .insert new => t.insert new

/-- An open transaction: when it was begun, which is its `now()`, the rows it has locked, and what it
    will have written. -/
structure AuthTx where
  owner : Nat
  startedAt : Time
  locked : List String
  writes : List RefreshWrite
  deriving DecidableEq

/-- The table as the transaction sees it, and leaves it. -/
def AuthTx.view (tx : AuthTx) (t : RefreshTable) : Option RefreshTable :=
  tx.writes.foldlM (RefreshWrite.apply tx.startedAt) t

/-- The tokens the transaction has marked, each with its successor. -/
def AuthTx.rotations (tx : AuthTx) : List (String × String) :=
  tx.writes.filterMap fun
    | .markUsed token replacedBy => some (token, replacedBy)
    | .insert _ => none

def AuthTx.inserts (tx : AuthTx) : List String :=
  tx.writes.filterMap fun
    | .markUsed .. => none
    | .insert new => some new.token

/-! ### The shared state -/

/-- `rotations` are the tokens marked by the transactions committed so far, each with its successor,
    the last one first: nothing reads it. -/
structure AuthState where
  now : Time
  challenges : Bytes → Option Challenge
  keys : Bytes → Option StoredKey
  tokens : RefreshTable
  txs : List AuthTx
  rotations : List (String × String)

namespace AuthState

variable (st : AuthState)

def tx? (p : Nat) : Option AuthTx := st.txs.find? fun tx => tx.owner = p

def close (p : Nat) : AuthState := { st with txs := st.txs.filter fun tx => tx.owner ≠ p }

def opened (p : Nat) : AuthState := { st with txs := ⟨p, st.now, [], []⟩ :: st.txs }

/-- The transaction of `p`, changed. -/
def inTx (p : Nat) (f : AuthTx → AuthTx) : AuthState :=
  { st with txs := st.txs.map fun tx => if tx.owner = p then f tx else tx }

/-- No open transaction of another request has locked the row. -/
def rowFree (p : Nat) (token : String) : Bool :=
  st.txs.all fun tx => tx.owner = p || token ∉ tx.locked

/-- No open transaction of another request is about to insert the token. -/
def tokenFree (p : Nat) (token : String) : Bool :=
  st.txs.all fun tx => tx.owner = p || token ∉ tx.inserts

/-- The transaction is over, and all it wrote is there. -/
def committed (p : Nat) (tx : AuthTx) (tokens : RefreshTable) : AuthState :=
  { st.close p with tokens, rotations := tx.rotations ++ st.rotations }

def challengeUsable (challenge : Bytes) : Bool :=
  (st.challenges challenge).any fun c => !c.consumed && st.now < c.expiresAt

def consume (challenge : Bytes) : AuthState :=
  if st.challengeUsable challenge then
    { st with
      challenges := update st.challenges challenge
        ((st.challenges challenge).map fun c => { c with consumed := true }) }
  else st

/-- `sign_count < n`, of a key that is there. -/
def signCountBelow (keyId : Bytes) (n : Int) : Bool := (st.keys keyId).any fun key => key.signCount < n

def setSignCount (keyId : Bytes) (n : Int) : AuthState :=
  { st with
    keys := update st.keys keyId
      ((st.keys keyId).map fun key => { key with signCount := n }) }

end AuthState

/-- What the world does for an operation of request `p`. -/
def AuthAsk.Does (Served : AuthConfig → AuthRequest → Prop) (p : Nat) (st : AuthState) :
    (o : AuthAsk) → o.Ans → AuthState → Prop
  | .accept, taken, st' => Served taken.1 taken.2 ∧ st' = st
  | .insertChallenge challenge expiresAt, reply, st' =>
      Reply.Did reply st st' fun _ =>
        st.challenges challenge.1 = none ∧
        st' = { st with
          challenges := update st.challenges challenge.1 (some ⟨expiresAt, false⟩) }
  | .consumeChallenge challenge, reply, st' =>
      Reply.Did reply st st' fun out =>
        out = st.challengeUsable challenge ∧ st' = st.consume challenge
  | .findKey keyId, reply, st' =>
      Reply.Did reply st st' fun out => out = st.keys keyId ∧ st' = st
  | .commitSignCount keyId n, reply, st' =>
      Reply.Did reply st st' fun out =>
        out = st.signCountBelow keyId n ∧ st' = if out then st.setSignCount keyId n else st
  | .upsertKey keyId publicKey _, reply, st' =>
      Reply.Did reply st st' fun _ =>
        st' = { st with keys := update st.keys keyId (some ⟨publicKey, 0⟩) }
  | .insertToken new, reply, st' =>
      Reply.Did reply st st' fun _ =>
        st.tokenFree p new.token ∧ ∃ tokens, st.tokens.insert new = some tokens ∧
          st' = { st with tokens := tokens }
  | .begin, reply, st' =>
      match (reply : Reply Unit) with
      | .ok () => st.tx? p = none ∧ st' = st.opened p
      | .lost .. | .refused _ => st' = st
  | .txSelect token, reply, st' =>
      -- a row another transaction has locked is waited for
      Reply.Did reply st st' fun out =>
        ∃ tx view, st.tx? p = some tx ∧ tx.view st.tokens = some view ∧ out = view.find? token ∧
        if out.isSome then st.rowFree p token ∧
          st' = st.inTx p fun tx => { tx with locked := token :: tx.locked }
        else st' = st
  | .txMarkUsed token replacedBy, reply, st' =>
      Reply.Did reply st st' fun _ =>
        ∃ tx view, st.tx? p = some tx ∧ tx.view st.tokens = some view ∧
        if (view.find? token).isSome then st.rowFree p token ∧
          st' = st.inTx p fun tx =>
            { tx with
              locked := token :: tx.locked
              writes := tx.writes ++ [.markUsed token replacedBy] }
        else st' = st
  | .txInsertToken new, reply, st' =>
      Reply.Did reply st st' fun _ =>
        ∃ tx view, st.tx? p = some tx ∧ tx.view st.tokens = some view ∧
        st.tokenFree p new.token ∧ (view.insert new).isSome ∧
        st' = st.inTx p fun tx => { tx with writes := tx.writes ++ [.insert new] }
  | .commit, reply, st' =>
      match (reply : Reply Unit) with
      | .ok () | .lost .. => ∃ tx tokens, st.tx? p = some tx ∧ tx.view st.tokens = some tokens ∧
          st' = st.committed p tx tokens
      | .refused _ => st' = st.close p
  | .rollback, _, st' => st' = st.close p
  | _, _, st' => st' = st

/-! ### The machine -/

/-- What else happens: the clock of the database moves on, a connection is lost with the transaction
    on it, the other services spend and sweep challenges. -/
inductive AuthEvent where
  | tick (d : Nat)
  | connectionLost (p : Nat)
  | others (challenges : Bytes → Option Challenge)

def AuthEvent.act (st : AuthState) : AuthEvent → AuthState
  | .tick d => { st with now := st.now + d }
  | .connectionLost p => st.close p
  | .others challenges => { st with challenges }

/-- `Served` are the requests that come in, each with the configuration of the replica it comes to. -/
def Auth (ext : AuthExt) (Served : AuthConfig → AuthRequest → Prop) :
    Machine AuthWorld AuthState AuthEvent (Except AppError AuthResponse × Unit) where
  exec p o st a st' := AuthAsk.Does Served p st o a st'
  env e st st' := st' = e.act st
  boot _ prog := prog = serve ext ()
  die p st st' := st' = st.close p

abbrev AuthSys := Sys AuthWorld AuthState (Except AppError AuthResponse × Unit)

end DeviceUniqueness
