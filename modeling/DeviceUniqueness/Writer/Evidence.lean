import DeviceUniqueness.Writer.Engine

/-! Why a row was recorded the way it was.

    The landed, the failed and the charged outcome are each written from several places of the
    engine. `Why` names the places: in the history of the pass so far there is what the place goes
    by, a verdict on the row's own submission, an owner read, a check that did not pass. The main
    result is that every settling write of a pass or a startup reconcile has its `Why`, whatever
    the database and the chains answered (`pass_why`, `reconcile_why`).

    A pass submits at most one extrinsic, and all its reads but those about a failed submission come
    before it. So a history is written out as what preceded the submission, the submission and the
    wait for its verdict, and what followed. -/

namespace DeviceUniqueness

open Schemes

abbrev Hist := List (Ev Outside)

/-! ### Events -/

def isSubmit : Ev Outside → Bool
  | ⟨.submitAndWatch .., _⟩ => true
  | _ => false

/-- Nothing was handed to a node. -/
def NoSubmit (h : Hist) : Prop := ∀ e ∈ h, isSubmit e = false

/-- A lane context, batched owner or nonce read that failed. -/
def failedRead : Ev Outside → Bool
  | ⟨.signatureForm _, (a : Except String AccountSignatureForm)⟩ => !a.isOk
  | ⟨.owners .., (a : Except String Owners)⟩ => !a.isOk
  | ⟨.accountNonce .., (a : Except String Nat)⟩ => !a.isOk
  | _ => false

/-- No read before the submission failed. -/
def ReadsSucceeded (h : Hist) : Prop :=
  ∀ e ∈ h.takeWhile fun e => !isSubmit e, failedRead e = false

/-- Nothing was handed to a node, and no read failed. -/
def Quiet (h : Hist) : Prop := ∀ e ∈ h, isSubmit e = false ∧ failedRead e = false

/-- Waiting for the verdict on `tx`: watching it, and renewing the lease meanwhile. -/
def Waits (l : Lane) (tx : Tx) (ws : Hist) : Prop :=
  ∀ e ∈ ws, e.1 = .awaitFinalized l tx ∨ ∃ g ttl, e.1 = .stmt (.renew g ttl)

/-- Writing down what was decided: clock reads and settling writes. -/
def Records (rs : Hist) : Prop :=
  ∀ e ∈ rs, e.1 = .nowUtc ∨ ∃ l g r w, e.1 = .stmt (.settle l g r w)

/-- What the wait came to, read off its events. -/
def verdictOf : Hist → Except String Finalized
  | ⟨.awaitFinalized .., (a : Watched)⟩ :: ws =>
      match a with
      | .done verdict => verdict
      | .timeout => .error finalizeTimeout
      | .renew =>
          match ws with
          | ⟨.stmt (.renew ..), (reply : Reply Bool)⟩ :: ws =>
              match reply.seen with
              | .ok true => verdictOf ws
              | .ok false => .error (WriterError.leaseLost .finalizing).display
              | .error e => .error e.display
          | _ => .error finalizeTimeout
  | _ => .error finalizeTimeout

/-- What became of a submission: `sent` is the node's answer, `ws` the wait that followed. -/
def submissionOf (sent : Except String Unit) (ws : Hist) : Except String Finalized :=
  match sent with
  | .ok () => verdictOf ws
  | .error e => .error e

/-- The verdict on a lone row. -/
def oneOf (sent : Except String Unit) (ws : Hist) : Except String Unit :=
  match submissionOf sent ws with
  | .ok fin => checkProxiedCall fin.describe fin.events
  | .error e => .error e

/-- The verdicts on the rows of a batch. -/
def itemsOf (sent : Except String Unit) (ws : Hist) : Except String (List (Except String Unit)) :=
  match submissionOf sent ws with
  | .ok fin =>
      match checkProxiedCall fin.describe fin.events with
      | .ok () => itemResults fin
      | .error e => .error e
  | .error e => .error e

/-- `tx` was handed to the node and waited for, and `after` is what the pass did then. -/
structure Sent (l : Lane) (h : Hist) (tx : Tx) (sent : Except String Unit) (ws after : Hist) :
    Prop where
  split : ∃ before, h = before ++ ⟨.submitAndWatch l tx, sent⟩ :: (ws ++ after) ∧ Quiet before
  waits : Waits l tx ws

/-- No claim returned two rows of one username: the column is unique. -/
def ClaimsDistinct (h : Hist) : Prop :=
  ∀ l n rows, (⟨.stmt (.claim l n), (Reply.ok rows : Reply (List Reservation))⟩ : Ev Outside) ∈ h →
    (rows.map Reservation.fullUsername).Nodup

/-- The row's own item in a batch that reported as many items as it had calls. -/
structure ItemOf (l : Lane) (h : Hist) (r : Reservation) (after : Hist) (item : Except String Unit)
    (tx : Tx) (sent : Except String Unit) (ws : Hist) (items : List (Except String Unit)) :
    Prop where
  handed : Sent l h tx sent ws after
  many : 2 ≤ tx.rows.length
  reported : itemsOf sent ws = .ok items
  matched : items.length = tx.rows.length
  own : (r, item) ∈ tx.rows.zip items
  distinct : ClaimsDistinct h → (tx.rows.map Reservation.fullUsername).Nodup

def OwnItem (l : Lane) (h : Hist) (r : Reservation) (after : Hist) (item : Except String Unit) :
    Prop :=
  ∃ tx sent ws items, ItemOf l h r after item tx sent ws items

/-- The row's own single submission. -/
def OwnCall (l : Lane) (h : Hist) (r : Reservation) (after : Hist) (result : Except String Unit) :
    Prop :=
  ∃ tx sent ws, Sent l h tx sent ws after ∧ tx.rows = [r] ∧ oneOf sent ws = result

/-- What a mark that did not come back well says. -/
def markFailure : Reply Bool → Option String
  | .ok true => none
  | .ok false => some (WriterError.leaseLost .submitting).display
  | .lost _ err | .refused err => some err

/-- The row's own single submission failed before it was handed to the node. -/
inductive Unsent (l : Lane) (h : Hist) (r : Reservation) (reason : String) : Prop
  | sign {payload : Payload} {nonce : Nat}
      (failed : (⟨.sign l payload nonce [r], (Except.error reason : Except String String)⟩ :
        Ev Outside) ∈ h)
  | mark {g : Guard} {tx : Tx} {attempt : Int} {reply : Reply Bool} (lone : tx.rows = [r])
      (failed : (⟨.stmt (.mark l g r tx attempt), reply⟩ : Ev Outside) ∈ h)
      (text : markFailure reply = some reason)

/-- The row's own single submission failed, handed to the node or not. -/
inductive OwnFailure (l : Lane) (h : Hist) (r : Reservation) (after : Hist) (reason : String) : Prop
  | unsent {before : Hist} (split : h = before ++ after) (quiet : Quiet before)
      (failed : Unsent l before r reason)
  | called (call : OwnCall l h r after (.error reason))

/-- A batched owner read that succeeded returned `owner` for the row's username. -/
inductive OwnerRead (l : Lane) (h : Hist) (r : Reservation) (owner : Account) : Prop
  | mk {names : List String} {owners : Owners} (named : r.fullUsername ∈ names)
      (found : owners.lookup r.fullUsername = some owner)
      (read : (⟨.owners l names, (Except.ok owners : Except String Owners)⟩ : Ev Outside) ∈ h)

/-! ### The places an outcome is recorded from -/

/-- What `Drain.settle` records for a failed submission. -/
def settleOutcome (cx : Cx) (l : Lane) (r : Reservation) (candidate : Account)
    (observed : Option Account) (reason : String) (now : Time) : Outcome :=
  match classifySubmitFailure reason observed candidate (l.attempt r + 1) cx.maxAttempts with
  | .assign => .landed
  | .park => .park reason
  | .retry => .retry reason
  | .defer => signerDefer now reason
  | .fail => .failed (terminalReason reason)

/-- What was read about a failed submission: one owner for a lone row, all of them for a batch. A
    read that failed counts as no owner. -/
inductive Observed (l : Lane) (h : Hist) (r : Reservation) (reason : String) :
    Option Account → Prop
  | one {answer : Except String (Option Account)} {rs : Hist}
      (failure : OwnFailure l h r (⟨.owner l r.fullUsername, answer⟩ :: rs) reason)
      (records : Records rs) : Observed l h r reason answer.toOption.join
  | item {names : List String} {answer : Except String Owners} {rs : Hist}
      (named : r.fullUsername ∈ names)
      (failure : OwnItem l h r (⟨.owners l names, answer⟩ :: rs) (.error reason))
      (records : Records rs) :
      Observed l h r reason ((answer.toOption.getD []).lookup r.fullUsername)

/-- A batch whose items did not match its calls was read back from the chain, and the row is its
    candidate's. -/
def ReadBack (ext : Ext) (l : Lane) (h : Hist) (r : Reservation) : Prop :=
  ∃ candidate tx sent ws names owners rs,
    ext.accountFromStr r.candidateAccountId = some candidate ∧
    Sent l h tx sent ws (⟨.owners l names, (Except.ok owners : Except String Owners)⟩ :: rs) ∧
    r.fullUsername ∈ names ∧ owners.lookup r.fullUsername = some candidate ∧ Records rs

/-- Why the outcome is recorded for the row, given the history of the pass. -/
inductive Why (cx : Cx) (l : Lane) (h : Hist) (r : Reservation) : Outcome → Prop
  | gated {ctx : l.Ctx} {wall : Time} {gate : Gate} (unsent : NoSubmit h)
      (refused : l.gate cx.ext r ctx wall = .error gate) : Why cx l h r gate.outcome
  | unparsed {gate : Gate} (unsent : NoSubmit h) (refused : parseCandidate cx.ext r = .error gate) :
      Why cx l h r gate.outcome
  | elsewhere {owner : Account} (unsent : NoSubmit h) (read : OwnerRead l h r owner)
      (other : cx.ext.accountFromStr r.candidateAccountId ≠ some owner) :
      Why cx l h r (.failed l.ownedElsewhere)
  | observed {candidate : Account} (unsent : NoSubmit h)
      (parsed : cx.ext.accountFromStr r.candidateAccountId = some candidate)
      (read : OwnerRead l h r candidate) : Why cx l h r .observed
  | requeued (unsent : NoSubmit h) : Why cx l h r (.retry l.reconciled)
  | deferred (until_ : Time) (reason : String) : Why cx l h r (.defer until_ reason .batch)
  | nonceUnread {signer : Account} {e : String} (reason : String)
      (failed : (⟨.accountNonce l signer [r], (Except.error e : Except String Nat)⟩ :
        Ev Outside) ∈ h) : Why cx l h r (.retry reason)
  | called {rs : Hist} (call : OwnCall l h r rs (.ok ())) (records : Records rs) :
      Why cx l h r .landed
  | completed {tx : Tx} {sent : Except String Unit} {ws q rs : Hist}
      {items : List (Except String Unit)} (item : ItemOf l h r (q ++ rs) (.ok ()) tx sent ws items)
      (others : q = [] ∨ ∃ names answer, q = [⟨.owners l names, answer⟩] ∧
        ∀ name ∈ names, ∃ r' e, (r', .error e) ∈ tx.rows.zip items ∧ r'.fullUsername = name)
      (records : Records rs) : Why cx l h r .landed
  | readBack (read : ReadBack cx.ext l h r) : Why cx l h r .landed
  | judged {candidate : Account} {observed : Option Account} {reason : String} (now : Time)
      (parsed : cx.ext.accountFromStr r.candidateAccountId = some candidate)
      (seen : Observed l h r reason observed) :
      Why cx l h r (settleOutcome cx l r candidate observed reason now)

/-- What recording an outcome writes. -/
def writeOf (l : Lane) (r : Reservation) (now : Time) : Outcome → Write
  | .landed | .observed => .landed
  | .retry reason => .retry (now + rowBackoff (l.attempt r + 1)) (l.attempt r + 1) reason
  | .park reason => .retry (parkUntil now) (l.attempt r) reason
  | .defer until_ reason _ => .retry until_ (l.attempt r) reason
  | .failed reason => .failed reason
  | .expired reason => .expired reason

/-- The owners that the last batched read gave, if it succeeded. -/
def lastRead (h : Hist) : Option Owners := h.foldl noted none
where
  noted (last : Option Owners) : Ev Outside → Option Owners
    | ⟨.owners .., answer⟩ => Except.toOption (answer : Except String Owners)
    | _ => last

/-- Why a startup reconcile records the outcome: the candidate cannot be read, or the last owner read
    says whether the name is the candidate's. -/
inductive Reconciled (cx : Cx) (l : Lane) (h : Hist) (r : Reservation) : Outcome → Prop
  | unparsed {gate : Gate} (unsent : NoSubmit h) (refused : parseCandidate cx.ext r = .error gate) :
      Reconciled cx l h r gate.outcome
  | read {candidate : Account} {names : List String} {owners : Owners} (unsent : NoSubmit h)
      (parsed : cx.ext.accountFromStr r.candidateAccountId = some candidate)
      (named : r.fullUsername ∈ names)
      (read : (⟨.owners l names, (Except.ok owners : Except String Owners)⟩ : Ev Outside) ∈ h)
      (last : lastRead h = some owners) :
      Reconciled cx l h r
        (if owners.lookup r.fullUsername = some candidate then .observed else .retry l.reconciled)

/-- A settling write needs its reason; everything else is free. -/
def Justified (why : Lane → Hist → Reservation → Outcome → Prop) (h : Hist) : Ask → Prop
  | .stmt (.settle l _ r w) => ∃ now o, w = writeOf l r now o ∧ why l h r o
  | _ => True

/-- The monitor that asks every settling write for its reason. -/
def evidence (why : Lane → Hist → Reservation → Outcome → Prop) : Monitor Outside Hist :=
  Monitor.history (Justified why)

/-! ### What later events leave standing -/

variable {h rs after : Hist} {l : Lane} {r : Reservation}

theorem Quiet.noSubmit (q : Quiet h) : NoSubmit h := fun e he => (q e he).1

theorem Quiet.concat {e : Ev Outside} (q : Quiet h)
    (he : isSubmit e = false ∧ failedRead e = false) : Quiet (h ++ [e]) := by
  intro e' he'
  rcases List.mem_append.mp he' with h' | h'
  · exact q e' h'
  · rw [List.mem_singleton.mp h']; exact he

theorem NoSubmit.append {h' : Hist} (n : NoSubmit h) (n' : NoSubmit h') : NoSubmit (h ++ h') := by
  intro e he
  rcases List.mem_append.mp he with he | he
  · exact n e he
  · exact n' e he

theorem NoSubmit.concat {e : Ev Outside} (n : NoSubmit h) (he : isSubmit e = false) :
    NoSubmit (h ++ [e]) :=
  n.append fun _ he' => List.mem_singleton.mp he' ▸ he

theorem Records.noSubmit (hr : Records rs) : NoSubmit rs := by
  rintro ⟨o, a⟩ he
  rcases hr _ he with rfl | ⟨l, g, r, w, rfl⟩ <;> rfl

theorem Records.append {rs' : Hist} (hr : Records rs) (hr' : Records rs') :
    Records (rs ++ rs') := by
  intro e he
  rcases List.mem_append.mp he with he | he
  · exact hr e he
  · exact hr' e he

theorem OwnerRead.append {owner : Account} (o : OwnerRead l h r owner) :
    OwnerRead l (h ++ rs) r owner := by
  obtain ⟨named, found, read⟩ := o
  exact ⟨named, found, List.mem_append_left _ read⟩

theorem Sent.append {t : Hist} {tx : Tx} {sent : Except String Unit} {ws : Hist}
    (s : Sent l h tx sent ws after) : Sent l (h ++ t) tx sent ws (after ++ t) := by
  obtain ⟨⟨before, rfl, quiet⟩, waits⟩ := s
  exact ⟨⟨before, by simp, quiet⟩, waits⟩

theorem OwnCall.append {result : Except String Unit} (c : OwnCall l h r after result) :
    OwnCall l (h ++ rs) r (after ++ rs) result := by
  obtain ⟨tx, sent, ws, s, rest⟩ := c
  exact ⟨tx, sent, ws, s.append, rest⟩

theorem ClaimsDistinct.mono {h' : Hist} (hp : h <+: h') (d : ClaimsDistinct h') :
    ClaimsDistinct h :=
  fun l n rows hmem => d l n rows (hp.subset hmem)

theorem ItemOf.append {item : Except String Unit} {tx : Tx} {sent : Except String Unit} {ws : Hist}
    {items : List (Except String Unit)} (c : ItemOf l h r after item tx sent ws items) :
    ItemOf l (h ++ rs) r (after ++ rs) item tx sent ws items where
  handed := c.handed.append
  many := c.many
  reported := c.reported
  matched := c.matched
  own := c.own
  distinct hd := c.distinct (hd.mono (List.prefix_append ..))

theorem OwnItem.append {item : Except String Unit} (c : OwnItem l h r after item) :
    OwnItem l (h ++ rs) r (after ++ rs) item := by
  obtain ⟨tx, sent, ws, items, own⟩ := c
  exact ⟨tx, sent, ws, items, own.append⟩

theorem OwnFailure.append {reason : String} (f : OwnFailure l h r after reason) :
    OwnFailure l (h ++ rs) r (after ++ rs) reason := by
  cases f with
  | unsent split quiet failed => exact .unsent (by rw [split, List.append_assoc]) quiet failed
  | called call => exact .called call.append

theorem Observed.append {reason : String} {observed : Option Account}
    (o : Observed l h r reason observed) (hr : Records rs) :
    Observed l (h ++ rs) r reason observed := by
  cases o with
  | one failure records => exact .one failure.append (records.append hr)
  | item named failure records => exact .item named failure.append (records.append hr)

theorem ReadBack.append {ext : Ext} (b : ReadBack ext l h r) (hr : Records rs) :
    ReadBack ext l (h ++ rs) r := by
  obtain ⟨candidate, tx, sent, ws, names, owners, rs', parsed, s, named, found, records⟩ := b
  exact ⟨candidate, tx, sent, ws, names, owners, rs' ++ rs, parsed, s.append, named, found,
    records.append hr⟩

/-- Recording other rows takes no row its reason. -/
theorem Why.append {cx : Cx} {o : Outcome} (w : Why cx l h r o) (hr : Records rs) :
    Why cx l (h ++ rs) r o := by
  cases w with
  | gated unsent refused => exact .gated (unsent.append hr.noSubmit) refused
  | unparsed unsent refused => exact .unparsed (unsent.append hr.noSubmit) refused
  | elsewhere unsent read other => exact .elsewhere (unsent.append hr.noSubmit) read.append other
  | observed unsent parsed read => exact .observed (unsent.append hr.noSubmit) parsed read.append
  | requeued unsent => exact .requeued (unsent.append hr.noSubmit)
  | deferred until_ reason => exact .deferred until_ reason
  | nonceUnread reason failed => exact .nonceUnread reason (List.mem_append_left _ failed)
  | called call records => exact .called call.append (records.append hr)
  | completed item others records =>
    exact .completed (List.append_assoc .. ▸ item.append) others (records.append hr)
  | readBack read => exact .readBack (read.append hr)
  | judged now parsed seen => exact .judged now parsed (seen.append hr)

theorem lastRead_append (hr : Records rs) : lastRead (h ++ rs) = lastRead h := by
  induction rs using List.reverseRecOn with
  | nil => rw [List.append_nil]
  | append_singleton rs e ih =>
    rw [← ih fun x hx => hr x (List.mem_append_left _ hx), ← List.append_assoc, lastRead,
      List.foldl_concat, ← lastRead]
    obtain ⟨o, a⟩ := e
    rcases hr ⟨o, a⟩ (by simp) with rfl | ⟨l, g, r, w, rfl⟩ <;> rfl

theorem Reconciled.append {cx : Cx} {o : Outcome} (w : Reconciled cx l h r o) (hr : Records rs) :
    Reconciled cx l (h ++ rs) r o := by
  cases w with
  | unparsed unsent refused => exact .unparsed (unsent.append hr.noSubmit) refused
  | read unsent parsed named read last =>
    exact .read (unsent.append hr.noSubmit) parsed named (List.mem_append_left _ read)
      ((lastRead_append hr).trans last)

theorem Reconciled.why {cx : Cx} {o : Outcome} (w : Reconciled cx l h r o) : Why cx l h r o := by
  cases w with
  | unparsed unsent refused => exact .unparsed unsent refused
  | read unsent parsed named read last =>
    split
    · next found => exact .observed unsent parsed ⟨named, found, read⟩
    · exact .requeued unsent

end DeviceUniqueness
