import DeviceUniqueness.Writer.Evidence
import DeviceUniqueness.Writer.Loop

/-! The discipline of a writer: what it may do with the rows it has read.

    A `Book` keeps what a writer has under way since it last took the lease: the rows read and not
    settled yet, which of them were marked, and how the startup reconcile of each lane went. The
    discipline (`Allowed`) says that rows are marked and settled only while they are in the book and
    under the guard of the lease that was taken, that an attempt is charged only where a mark or a
    named failure precedes it, and that a lane is claimed from only when nothing of it is left over.

    Nothing here depends on what the database or the chains do. -/

namespace DeviceUniqueness

open Schemes

/-! ### Books -/

/-- One lane since the lease was taken. `owed` are lone rows whose submission failed before they
    were marked; `asked`, `swept` and `failed` tell how far the startup reconcile came. -/
structure LaneBook where
  todo : List Reservation
  marked : List Nat
  owed : List Nat
  asked : Bool
  swept : Bool
  failed : Bool

def LaneBook.new : LaneBook := ⟨[], [], [], false, false, false⟩

/-- `lost`: a mark was turned down, so the lease is gone. `since` are the events since the lease was
    taken. -/
structure Book where
  guard : Option Guard
  lost : Bool
  since : Hist
  lanes : Lane → LaneBook

namespace Book

def new : Book := ⟨none, false, [], fun _ => .new⟩

def onLane (b : Book) (l : Lane) (f : LaneBook → LaneBook) : Book :=
  { b with lanes := Function.update b.lanes l (f (b.lanes l)) }

/-- The rows a lane's read returned are what the lane has under way. -/
def opened (rows : List Reservation) (lb : LaneBook) : LaneBook :=
  { lb with todo := rows, marked := [], owed := [] }

def markNoted (r : Reservation) (lb : LaneBook) : LaneBook := { lb with marked := r.id :: lb.marked }

def oweNoted (r : Reservation) (lb : LaneBook) : LaneBook := { lb with owed := r.id :: lb.owed }

def settledNoted (r : Reservation) (lb : LaneBook) : LaneBook :=
  { lb with todo := lb.todo.filter fun r' => r'.id ≠ r.id }

/-- What one event changes in the lanes. -/
def note (b : Book) : Ev Outside → Book
  | ⟨.stmt (.claim l _), (.ok rows : Reply (List Reservation))⟩ => b.onLane l (opened rows)
  | ⟨.stmt (.submitting l), (.ok rows : Reply (List Reservation))⟩ =>
      b.onLane l fun lb => { opened rows lb with asked := true, swept := true }
  | ⟨.stmt (.submitting l), _⟩ => b.onLane l fun lb => { lb with asked := true }
  | ⟨.stmt (.mark l _ r tx _), (reply : Reply Bool)⟩ =>
      match reply with
      | .ok true | .lost true _ => b.onLane l (markNoted r)
      | .ok false | .lost false _ => { b with lost := true }
      | .refused _ => if tx.rows = [r] then b.onLane l (oweNoted r) else b
  | ⟨.stmt (.settle l _ r _), (reply : Reply Bool)⟩ =>
      match reply with
      | .ok true | .lost true _ => b.onLane l (settledNoted r)
      | _ => b
  | ⟨.accountNonce l _ [r], (.error _ : Except String Nat)⟩ => b.onLane l (oweNoted r)
  | ⟨.sign l _ _ [r], (.error _ : Except String String)⟩ => b.onLane l (oweNoted r)
  | ⟨.startupReconcileFailed l _, _⟩ => b.onLane l fun lb => { lb with failed := true }
  | _ => b

def logged (b : Book) (since : Hist) : Book := { b with since := since }

def next (b : Book) : Ev Outside → Book
  | ⟨.stmt (.tryAcquire name holderId _), (reply : Reply (Option Nat))⟩ =>
      match reply with
      | .ok (some epoch) => { new with guard := some ⟨name, holderId, epoch⟩ }
      | _ => new
  | e => (b.note e).logged (b.since ++ [e])

end Book

/-! ### What is allowed -/

/-- An attempt is charged for a row that was marked, for a lone row that failed on the way to being
    marked, or by the startup reconcile. -/
def Earned (b : Book) (l : Lane) (r : Reservation) (err : String) : Prop :=
  r.id ∈ (b.lanes l).marked ∨ r.id ∈ (b.lanes l).owed ∨ b.lost = true ∨ err = l.reconciled

def ChargeOk (b : Book) (l : Lane) (r : Reservation) : Write → Prop
  | .retry _ attempt err => attempt = l.attempt r ∨ attempt = l.attempt r + 1 ∧ Earned b l r err
  | _ => True

/-- The lane may be claimed from: if its startup reconcile got to read the rows in flight, it settled
    all of them or was reported as failed. The People lane's always gets there. -/
def Ready (l : Lane) (lb : LaneBook) : Prop :=
  (l = .people → lb.asked = true) ∧
    (lb.asked = true → lb.failed = true ∨ lb.swept = true ∧ lb.todo = [])

def Allowed (leaseName : String) (b : Book) : Ask → Prop
  | .stmt (.tryAcquire name _ _) => name = leaseName
  | .stmt (.claim l _) => b.guard.isSome ∧ Ready l (b.lanes l)
  | .stmt (.submitting _) => b.guard.isSome
  | .stmt (.mark l g r _ attempt) =>
      b.guard = some g ∧ r ∈ (b.lanes l).todo ∧ attempt = l.attempt r + 1
  | .stmt (.settle l g r w) => b.guard = some g ∧ r ∈ (b.lanes l).todo ∧ ChargeOk b l r w
  | _ => True

/-- Reads return no row twice. -/
def Sound : (o : Ask) → o.Ans → Prop
  | .stmt (.claim ..), (.ok rows : Reply (List Reservation)) => (rows.map Reservation.id).Nodup
  | .stmt (.submitting ..), (.ok rows : Reply (List Reservation)) => (rows.map Reservation.id).Nodup
  | _, _ => True

def discipline (leaseName : String) : Monitor Outside Book := ⟨Book.next, Allowed leaseName, Sound⟩

/-! ### How books go on -/

/-- Only lane `l` moved on, and what was noted for it stands. -/
structure Onward (l : Lane) (b b' : Book) : Prop where
  guard : b'.guard = b.guard
  lost : b.lost = true → b'.lost = true
  others : ∀ l', l' ≠ l → b'.lanes l' = b.lanes l'
  marked : (b.lanes l).marked ⊆ (b'.lanes l).marked
  owed : (b.lanes l).owed ⊆ (b'.lanes l).owed
  asked : (b'.lanes l).asked = (b.lanes l).asked
  swept : (b'.lanes l).swept = (b.lanes l).swept
  failed : (b'.lanes l).failed = (b.lanes l).failed

/-- As `Onward`, with the same rows under way. -/
structure Notes (l : Lane) (b b' : Book) : Prop extends Onward l b b' where
  todo : (b'.lanes l).todo = (b.lanes l).todo

/-- As `Notes`, with nothing noted. -/
structure Same (b b' : Book) : Prop where
  guard : b'.guard = b.guard
  lost : b'.lost = b.lost
  lanes : b'.lanes = b.lanes

variable {l : Lane} {b b' b'' : Book} {r : Reservation}

theorem Onward.refl (l : Lane) (b : Book) : Onward l b b :=
  ⟨rfl, fun h => h, fun _ _ => rfl, fun _ h => h, fun _ h => h, rfl, rfl, rfl⟩

theorem Onward.trans (h : Onward l b b') (h' : Onward l b' b'') : Onward l b b'' where
  guard := h'.guard.trans h.guard
  lost := fun hl => h'.lost (h.lost hl)
  others := fun l' hl => (h'.others l' hl).trans (h.others l' hl)
  marked := fun _ hm => h'.marked (h.marked hm)
  owed := fun _ hm => h'.owed (h.owed hm)
  asked := h'.asked.trans h.asked
  swept := h'.swept.trans h.swept
  failed := h'.failed.trans h.failed

theorem Notes.refl (l : Lane) (b : Book) : Notes l b b := ⟨Onward.refl l b, rfl⟩

theorem Notes.trans (h : Notes l b b') (h' : Notes l b' b'') : Notes l b b'' :=
  ⟨h.toOnward.trans h'.toOnward, h'.todo.trans h.todo⟩

theorem Same.refl (b : Book) : Same b b := ⟨rfl, rfl, rfl⟩

theorem Same.trans (h : Same b b') (h' : Same b' b'') : Same b b'' :=
  ⟨h'.guard.trans h.guard, h'.lost.trans h.lost, h'.lanes.trans h.lanes⟩

theorem Same.notes (h : Same b b') (l : Lane) : Notes l b b' where
  guard := h.guard
  lost := fun hl => h.lost.trans hl
  others := fun l' _ => by rw [h.lanes]
  marked := by rw [h.lanes]; exact fun _ hm => hm
  owed := by rw [h.lanes]; exact fun _ hm => hm
  asked := by rw [h.lanes]
  swept := by rw [h.lanes]
  failed := by rw [h.lanes]
  todo := by rw [h.lanes]

theorem Earned.notes {err : String} (h : Onward l b b') (he : Earned b l r err) :
    Earned b' l r err := by
  rcases he with he | he | he | he
  · exact Or.inl (h.marked he)
  · exact Or.inr (Or.inl (h.owed he))
  · exact Or.inr (Or.inr (Or.inl (h.lost he)))
  · exact Or.inr (Or.inr (Or.inr he))

end DeviceUniqueness
