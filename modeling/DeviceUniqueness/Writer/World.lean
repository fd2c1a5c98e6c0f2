import DeviceUniqueness.Chain.Calls
import DeviceUniqueness.Schemes.Prog
import DeviceUniqueness.Writer.Gates

/-! What a writer asks of the world: its database, the two chains and the clocks.

    Nothing is assumed of the chains: every read may fail or return anything, a submission may be
    refused or stay without a verdict. A database statement may come back, may be refused, or may be
    done without its answer arriving; in the last two cases the writer sees the same error.

    Where an operation is issued for particular rows it carries them, so that a run shows which rows
    a nonce, a signature or a submission was for. -/

namespace DeviceUniqueness

open Schemes

/-- How a statement came back. -/
inductive Reply (α : Type) where
  | ok (out : α)
  | lost (out : α) (err : String)
  | refused (err : String)

/-- What a statement did, if it did anything: `done` for every reply that is not a refusal. -/
def Reply.Did {α S : Type} (reply : Reply α) (st st' : S) (done : α → Prop) : Prop :=
  match reply with
  | .ok out | .lost out _ => done out
  | .refused _ => st' = st

/-- A statement was done, or it had no effect. -/
theorem Reply.Did.cases {α S : Type} {reply : Reply α} {st st' : S} {done : α → Prop}
    (h : reply.Did st st' done) : (∃ out, done out) ∨ st' = st := by
  cases reply with
  | ok out | lost out _ => exact Or.inl ⟨out, h⟩
  | refused _ => exact Or.inr h

def Reply.seen {α : Type} : Reply α → Except WriterError α
  | .ok out => .ok out
  | .lost _ err | .refused err => .error (.db err)

theorem Reply.seen_eq_ok {α : Type} {reply : Reply α} {out : α} :
    reply.seen = .ok out ↔ reply = .ok out := by
  cases reply <;> simp [Reply.seen]

/-- A decoded chain event. -/
structure Event where
  pallet : String
  name : String
  fieldBytes : Bytes

/-- The events of a finalized extrinsic, some of which may not decode, and how the runtime's
    metadata renders a dispatch error. -/
structure Finalized where
  events : List (Except String Event)
  describe : Bytes → String

/-- What waiting for finalization comes to: time to renew the lease, out of time, or a verdict. -/
inductive Watched where
  | renew
  | timeout
  | done (verdict : Except String Finalized)

/-- The owners a registry read returned; a name without an entry is free. -/
abbrev Owners := List (String × Account)

inductive Ask where
  | stmt (s : Stmt)
  | nowUtc
  | instantNow
  | connectAssetHub (url : String)
  | signatureForm (l : Lane)
  | owners (l : Lane) (names : List String)
  | owner (l : Lane) (name : String)
  | accountNonce (l : Lane) (signer : Account) (rows : List Reservation)
  | sign (l : Lane) (payload : Payload) (nonce : Nat) (rows : List Reservation)
  | submitAndWatch (l : Lane) (tx : Tx)
  | awaitFinalized (l : Lane) (tx : Tx)
  | attesterResources
  | startupReconcileFailed (l : Lane) (err : String)

@[reducible] def Ask.Ans : Ask → Type
  | .stmt s => Reply s.Out
  | .nowUtc | .instantNow => Time
  | .connectAssetHub _ => Except String ValidityWindow
  | .signatureForm _ => Except String AccountSignatureForm
  | .owners .. => Except String Owners
  | .owner .. => Except String (Option Account)
  | .accountNonce .. => Except String Nat
  | .sign .. => Except String String
  | .submitAndWatch .. => Except String Unit
  | .awaitFinalized .. => Watched
  | .attesterResources => Except String Unit
  | .startupReconcileFailed .. => Unit

/-- The world as a writer sees it. -/
abbrev Outside : Iface := ⟨Ask, Ask.Ans⟩

section Operations

variable {σ ε : Type}

def dbCall (s : Stmt) : Act Outside σ WriterError s.Out :=
  Act.op (I := Outside) (.stmt s) >>= fun reply => Act.ofExcept (Reply.seen reply)

def nowUtc : Act Outside σ ε Time := Act.op (I := Outside) .nowUtc

def instantNow : Act Outside σ ε Time := Act.op (I := Outside) .instantNow

def connectAssetHub (url : String) : Act Outside σ ε (Except String ValidityWindow) :=
  Act.op (I := Outside) (.connectAssetHub url)

def accountSignatureForm (l : Lane) : Act Outside σ ε (Except String AccountSignatureForm) :=
  Act.op (I := Outside) (.signatureForm l)

/-- The batched owner read; over no names it does not go to the chain. -/
def ownersOf (l : Lane) (names : List String) : Act Outside σ ε (Except String Owners) :=
  if names.isEmpty then pure (.ok []) else Act.op (I := Outside) (.owners l names)

def ownerOf (l : Lane) (name : String) : Act Outside σ ε (Except String (Option Account)) :=
  Act.op (I := Outside) (.owner l name)

def accountNonce (l : Lane) (signer : Account) (rows : List Reservation) :
    Act Outside σ ε (Except String Nat) :=
  Act.op (I := Outside) (.accountNonce l signer rows)

def createSigned (l : Lane) (payload : Payload) (nonce : Nat) (rows : List Reservation) :
    Act Outside σ ε (Except String String) :=
  Act.op (I := Outside) (.sign l payload nonce rows)

def submitAndWatch (l : Lane) (tx : Tx) : Act Outside σ ε (Except String Unit) :=
  Act.op (I := Outside) (.submitAndWatch l tx)

def awaitFinalized (l : Lane) (tx : Tx) : Act Outside σ ε Watched :=
  Act.op (I := Outside) (.awaitFinalized l tx)

def attesterResources : Act Outside σ ε (Except String Unit) :=
  Act.op (I := Outside) .attesterResources

def startupReconcileFailed (l : Lane) (err : String) : Act Outside σ ε Unit :=
  Act.op (I := Outside) (.startupReconcileFailed l err)

end Operations

/-! ### Watching the operations -/

section Watching

variable {B σ ε : Type} {M : Monitor Outside B} {s : σ} {b : B} {err : B → ε → σ → Prop}

theorem sat_dbCall {st : Stmt} {post : B → st.Out → σ → Prop}
    {err : B → WriterError → σ → Prop} :
    (dbCall st).Sat M s b post err ↔
      M.ok b (.stmt st) ∧ ∀ reply : Reply st.Out, M.adm (.stmt st) reply →
        (∀ out, reply.seen = .ok out → post (M.next b ⟨.stmt st, reply⟩) out s) ∧
        (∀ e, reply.seen = .error e → err (M.next b ⟨.stmt st, reply⟩) e s) := by
  simp only [dbCall, Act.sat_bind, Act.sat_ofExcept]
  exact Iff.rfl

variable {l : Lane}

theorem sat_ownersOf {names : List String} {post : B → Except String Owners → σ → Prop}
    (hnone : names = [] → post b (.ok []) s)
    (hread : names ≠ [] → M.ok b (.owners l names) ∧ ∀ a : Except String Owners,
      M.adm (.owners l names) a → post (M.next b ⟨.owners l names, a⟩) a s) :
    (ownersOf l names).Sat M s b post err := by
  cases names with
  | nil => exact hnone rfl
  | cons name names => exact hread (by simp)

end Watching

/-! ### The connection of a lane -/

def dotnsReconnectInterval : Time := seconds 30

/-- The Asset Hub link. Parks and redials on its own schedule while the chain is unreachable. -/
structure DotnsLink where
  rpcUrl : String
  attester : Account
  connected : Option ValidityWindow
  lastError : Option String
  retryAt : Option Time

inductive DotnsDial where
  | ready
  | dial
  | skip
  deriving DecidableEq

namespace DotnsLink

def new (rpcUrl : String) (attester : Account) : DotnsLink :=
  ⟨rpcUrl, attester, none, none, none⟩

def dialState (link : DotnsLink) (now : Time) : DotnsDial :=
  if link.connected.isSome then .ready
  else if link.retryAt.any (now < ·) then .skip
  else .dial

def recordDialFailure (link : DotnsLink) (reason : String) (now : Time) : DotnsLink :=
  { link with retryAt := some (now + dotnsReconnectInterval), lastError := some reason }

def recordDialSuccess (link : DotnsLink) (window : ValidityWindow) : DotnsLink :=
  { link with connected := some window, lastError := none, retryAt := none }

end DotnsLink

/-- The People chain is connected before the writer starts and has no state of its own. -/
@[reducible] def Lane.Link : Lane → Type
  | .people => Unit
  | .dotns => DotnsLink

section Link

variable {ε : Type}

def DotnsLink.up : Act Outside DotnsLink ε Bool := do
  let now ← instantNow
  let link ← Act.get
  match link.dialState now with
  | .skip => pure false
  | .ready => pure true
  | .dial =>
      match ← connectAssetHub link.rpcUrl with
      | .ok window =>
          Act.modify fun link => link.recordDialSuccess window
          pure true
      | .error reason =>
          Act.modify fun link => link.recordDialFailure reason now
          pure false

/-- Whether the lane's chain can be talked to, dialling if a retry is due. -/
def Lane.up : (l : Lane) → Act Outside l.Link ε Bool
  | .people => pure true
  | .dotns => DotnsLink.up

/-- The lane's context, read once per pass with rows due. -/
def Lane.ctx : (l : Lane) → Act Outside l.Link ε (Except String l.Ctx)
  | .people => accountSignatureForm .people
  | .dotns => do
      let link : DotnsLink ← Act.get
      match link.connected with
      | none => pure (.error "dotns lane is not connected")
      | some window =>
          match ← accountSignatureForm .dotns with
          | .ok form => pure (.ok ⟨window, link.attester, form⟩)
          | .error e => pure (.error e)

end Link

end DeviceUniqueness
