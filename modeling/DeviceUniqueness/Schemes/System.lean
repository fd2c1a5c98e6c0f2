import DeviceUniqueness.Schemes.Prog

/-! Any number of programs over one shared state, in every interleaving.

    Each operation is one atomic step on the shared state. Between two steps of a process any other
    process may run, the environment may act, and any process may be lost or started. What a proof
    about such a system needs of the programs is collected once: if every program that can be
    started satisfies a monitor (`Prog.Sat`), then in every reachable state every live process is
    still bound by it (`Reachable.trusted`). From there on an invariant is an argument about shared
    states and monitors, and the programs themselves are no longer looked at (`Reachable.inv`).

    `Player` is the other direction: a run given as a script, which a proof can evaluate. -/

namespace Schemes

open Function

variable {I : Iface} {B S E R K α : Type}

/-- What an operation of process `p` does, what the environment does, which programs a process may
    be started with, and what losing a process does. -/
structure Machine (I : Iface) (S E α : Type) where
  exec : Nat → (o : I.Op) → S → I.Ans o → S → Prop
  env : E → S → S → Prop
  boot : Nat → Prog I α → Prop
  die : Nat → S → S → Prop

/-- A live process: what it still has to do, and what it has done since it was started. -/
structure Proc (I : Iface) (α : Type) where
  prog : Prog I α
  hist : List (Ev I)

structure Sys (I : Iface) (S α : Type) where
  st : S
  procs : Nat → Option (Proc I α)

/-- The history of process `p`, if it is alive. -/
def Sys.hist (s : Sys I S α) (p : Nat) : Option (List (Ev I)) := (s.procs p).map Proc.hist

/-- Where the monitor of process `p` stands, if it is alive. -/
def Sys.watch (W : Monitor I B) (b₀ : B) (s : Sys I S α) (p : Nat) : Option B :=
  (s.hist p).map fun h => h.foldl W.next b₀

/-- The operation process `p` is about to perform. -/
def Sys.upcoming (s : Sys I S α) (p : Nat) : Option I.Op :=
  match s.procs p with
  | some ⟨.call o _, _⟩ => some o
  | _ => none

inductive Label (I : Iface) (E : Type) where
  | op (p : Nat) (e : Ev I)
  | env (e : E)
  | start (p : Nat)
  | kill (p : Nat)

variable {M : Machine I S E α}

inductive Step (M : Machine I S E α) : Sys I S α → Label I E → Sys I S α → Prop
  | op {s : Sys I S α} {p : Nat} {o : I.Op} {k : I.Ans o → Prog I α} {h : List (Ev I)}
      {a : I.Ans o} {st' : S} (live : s.procs p = some ⟨.call o k, h⟩) (done : M.exec p o s.st a st') :
      Step M s (.op p ⟨o, a⟩) ⟨st', update s.procs p (some ⟨k a, h ++ [⟨o, a⟩]⟩)⟩
  | env {s : Sys I S α} {e : E} {st' : S} (done : M.env e s.st st') :
      Step M s (.env e) ⟨st', s.procs⟩
  | start {s : Sys I S α} {p : Nat} {prog : Prog I α} (free : s.procs p = none)
      (boots : M.boot p prog) :
      Step M s (.start p) ⟨s.st, update s.procs p (some ⟨prog, []⟩)⟩
  | kill {s : Sys I S α} {p : Nat} {st' : S} (done : M.die p s.st st') :
      Step M s (.kill p) ⟨st', update s.procs p none⟩

/-- From `s`, the labelled steps lead to the state. -/
inductive Run (M : Machine I S E α) (s : Sys I S α) : List (Label I E) → Sys I S α → Prop
  | nil : Run M s [] s
  | snoc {ls : List (Label I E)} {t u : Sys I S α} {l : Label I E} (r : Run M s ls t)
      (d : Step M t l u) : Run M s (ls ++ [l]) u

/-- No process started yet. -/
def Sys.init (st₀ : S) : Sys I S α := ⟨st₀, fun _ => none⟩

/-- Runs from the shared state `st₀` with no process started yet. -/
def Reachable (M : Machine I S E α) (st₀ : S) (ls : List (Label I E)) (s : Sys I S α) : Prop :=
  Run M (Sys.init st₀) ls s

variable {s t : Sys I S α} {ls ls' : List (Label I E)} {l : Label I E} {p : Nat} {e : Ev I}

/-- After one entry was changed there is the new one there, and elsewhere what was. -/
theorem of_update {f : Nat → Option B} {x : Option B} {q : Nat} {b : B}
    (h : update f p x q = some b) : q = p ∧ x = some b ∨ q ≠ p ∧ f q = some b := by
  rcases eq_or_ne q p with rfl | hne
  · exact .inl ⟨rfl, by rwa [update_self] at h⟩
  · exact .inr ⟨hne, by rwa [update_of_ne hne] at h⟩

theorem of_update_none {f : Nat → Option B} {q : Nat} {b : B}
    (h : update f p none q = some b) : q ≠ p ∧ f q = some b :=
  (of_update h).resolve_left nofun

theorem Run.append {u : Sys I S α} (r : Run M s ls t) (r' : Run M t ls' u) :
    Run M s (ls ++ ls') u := by
  induction r' with
  | nil => simpa using r
  | snoc _ d ih => rw [← List.append_assoc]; exact ih.snoc d

theorem Run.snoc_inv (r : Run M s (ls ++ [l]) t) : ∃ u, Run M s ls u ∧ Step M u l t := by
  generalize hls : ls ++ [l] = ls' at r
  cases r with
  | nil => simp at hls
  | snoc r d =>
    obtain ⟨rfl, hlast⟩ := List.append_inj' hls rfl
    obtain rfl := List.singleton_inj.mp hlast
    exact ⟨_, r, d⟩

/-- A run, cut in two. -/
theorem Run.cut (r : Run M s (ls ++ ls') t) : ∃ u, Run M s ls u ∧ Run M u ls' t := by
  generalize hls : ls ++ ls' = ls'' at r
  induction r generalizing ls' with
  | nil =>
    obtain ⟨rfl, rfl⟩ := List.append_eq_nil_iff.mp hls
    exact ⟨s, .nil, .nil⟩
  | @snoc ls'' t v l r d ih =>
    rcases List.eq_nil_or_concat ls' with rfl | ⟨ls', l', rfl⟩
    · rw [List.append_nil] at hls
      exact ⟨v, hls ▸ r.snoc d, .nil⟩
    · rw [List.concat_eq_append, ← List.append_assoc] at hls
      obtain ⟨hinit, hlast⟩ := List.append_inj' hls rfl
      obtain rfl := List.singleton_inj.mp hlast
      obtain ⟨u, r₁, r₂⟩ := ih hinit
      exact ⟨u, r₁, by rw [List.concat_eq_append]; exact r₂.snoc d⟩

/-- A run, cut at one of its steps. -/
theorem Run.cut_at (r : Run M s (ls ++ l :: ls') t) : ∃ u v, Run M s ls u ∧ Step M u l v := by
  rw [List.append_cons] at r
  obtain ⟨v, r, -⟩ := r.cut
  obtain ⟨u, r, d⟩ := r.snoc_inv
  exact ⟨u, v, r, d⟩

/-- A rule for live processes: it holds of every one that may be started, and an answer does not end
    it. -/
theorem Run.proc_inv (P : Proc I α → Prop) (hboot : ∀ p prog, M.boot p prog → P ⟨prog, []⟩)
    (hcall : ∀ ls u p o k h (a : I.Ans o) st', Run M s ls u → u.procs p = some ⟨.call o k, h⟩ →
      M.exec p o u.st a st' → P ⟨.call o k, h⟩ → P ⟨k a, h ++ [⟨o, a⟩]⟩)
    (r : Run M s ls t) (hs : ∀ p q, s.procs p = some q → P q) :
    ∀ p q, t.procs p = some q → P q := by
  induction r with
  | nil => exact hs
  | snoc r d ih =>
    intro p' q hq
    cases d with
    | op live done =>
      rcases of_update hq with ⟨-, ⟨⟩⟩ | ⟨-, hq⟩
      · exact hcall _ _ _ _ _ _ _ _ r live done (ih _ _ live)
      · exact ih p' q hq
    | env done => exact ih p' q hq
    | start free boots =>
      rcases of_update hq with ⟨-, ⟨⟩⟩ | ⟨-, hq⟩
      · exact hboot _ _ boots
      · exact ih p' q hq
    | kill done => exact ih p' q (of_update_none hq).2

/-! ### What the programs owe the proof -/

variable {W : Monitor I B} {b₀ : B} {st₀ : S}

/-- Every live process is bound by the monitor for the rest of its program. -/
def Sys.Trusted (W : Monitor I B) (b₀ : B) (s : Sys I S α) : Prop :=
  ∀ p q, s.procs p = some q → q.prog.Sat W (q.hist.foldl W.next b₀) fun _ _ => True

theorem Sys.watch_update (s : Sys I S α) (p : Nat) (q : Option (Proc I α)) (st' : S) :
    Sys.watch W b₀ ⟨st', update s.procs p q⟩ =
      update (s.watch W b₀) p (q.map fun x => x.hist.foldl W.next b₀) := by
  funext p'
  rcases eq_or_ne p' p with rfl | hne
  · simp [Sys.watch, Sys.hist, comp_def]
  · simp [Sys.watch, Sys.hist, update_of_ne hne]

/-- What the programs of a system and the answers they get must meet for `W` to bind them. -/
structure Bound (M : Machine I S E α) (st₀ : S) (W : Monitor I B) (b₀ : B) : Prop where
  boot : ∀ p prog, M.boot p prog → prog.Sat W b₀ fun _ _ => True
  adm : ∀ ls s p o a st', Reachable M st₀ ls s → M.exec p o s.st a st' → W.adm o a

/-- The discipline of the programs is the discipline of the system: no interleaving, loss or restart
    makes a process perform an operation its monitor does not allow. -/
theorem Reachable.trusted (hb : Bound M st₀ W b₀) (r : Reachable M st₀ ls s) : s.Trusted W b₀ := by
  refine r.proc_inv (fun q => q.prog.Sat W (q.hist.foldl W.next b₀) fun _ _ => True) hb.boot ?_ nofun
  intro ls u p o k h a st' r live done hq
  simpa using hq.2 a (hb.adm _ _ _ _ _ _ r done)

/-- Every operation of the history was allowed in the state the ones before it led to from `b`. -/
def Monitor.Heeds (W : Monitor I B) : B → List (Ev I) → Prop
  | _, [] => True
  | b, e :: h => W.ok b e.1 ∧ W.Heeds (W.next b e) h

theorem Monitor.heeds_append : ∀ (h h' : List (Ev I)) (b : B),
    W.Heeds b (h ++ h') ↔ W.Heeds b h ∧ W.Heeds (h.foldl W.next b) h'
  | [], _, _ => (iff_of_eq (true_and _)).symm
  | e :: h, h', b => by
      rw [List.cons_append, Monitor.Heeds, Monitor.heeds_append h h', Monitor.Heeds, and_assoc,
        List.foldl_cons]

/-- A rule for what processes have done: an operation that was allowed and took place is added. -/
theorem Reachable.hist_inv (hb : Bound M st₀ W b₀) (P : List (Ev I) → Prop) (hnil : P [])
    (hsnoc : ∀ h p o a st st', P h → W.ok (h.foldl W.next b₀) o → M.exec p o st a st' →
      P (h ++ [⟨o, a⟩])) (r : Reachable M st₀ ls s) {h : List (Ev I)} (hh : s.hist p = some h) :
    P h := by
  have hall : ∀ p q, s.procs p = some q → P q.hist :=
    r.proc_inv (fun q => P q.hist) (fun _ _ _ => hnil) (fun ls u p o k h a st' r live done hP =>
      hsnoc h p o a _ _ hP (Reachable.trusted hb r _ _ live).1 done) nofun
  cases hq : s.procs p with
  | none => simp [Sys.hist, hq] at hh
  | some q =>
    obtain rfl : q.hist = h := by simpa [Sys.hist, hq] using hh
    exact hall p q hq

theorem Reachable.heeds (hb : Bound M st₀ W b₀) (r : Reachable M st₀ ls s) {h : List (Ev I)}
    (hh : s.hist p = some h) : W.Heeds b₀ h := by
  refine r.hist_inv hb (W.Heeds b₀) trivial (fun h p o a _ _ hh hok _ => ?_) hh
  exact (Monitor.heeds_append h _ b₀).mpr ⟨hh, hok, trivial⟩

/-- What a process of a trusted system is about to do is allowed. -/
theorem Sys.Trusted.upcoming (ht : s.Trusted W b₀) {o : I.Op} {h : List (Ev I)}
    (ho : s.upcoming p = some o) (hh : s.hist p = some h) : W.ok (h.foldl W.next b₀) o := by
  unfold Sys.upcoming at ho
  split at ho
  · next o' k h' live =>
    obtain rfl : h' = h := by simpa [Sys.hist, live] using hh
    exact Option.some.inj ho ▸ (ht _ _ live).1
  · cases ho

/-- A step of a trusted system, seen without the programs: what the monitor allowed was done. -/
theorem Step.op_inv (d : Step M s (.op p e) t) (ht : s.Trusted W b₀) :
    ∃ b, s.watch W b₀ p = some b ∧ W.ok b e.1 ∧ M.exec p e.1 s.st e.2 t.st ∧
      t.watch W b₀ = update (s.watch W b₀) p (some (W.next b e)) := by
  cases d with
  | @op p o k h a st' live done =>
    refine ⟨h.foldl W.next b₀, by simp [Sys.watch, Sys.hist, live], (ht _ _ live).1, done, ?_⟩
    rw [Sys.watch_update]
    simp

/-- What is to be shown of an invariant over shared states and monitors. Each obligation may use what
    is already known of the reachable state the step starts from. -/
structure Preserved (M : Machine I S E α) (st₀ : S) (W : Monitor I B) (b₀ : B)
    (Inv : List (Label I E) → S → (Nat → Option B) → Prop) : Prop where
  op : ∀ ls s p b o a st', Reachable M st₀ ls s → Inv ls s.st (s.watch W b₀) →
    s.watch W b₀ p = some b → W.ok b o → M.exec p o s.st a st' →
    Inv (ls ++ [.op p ⟨o, a⟩]) st' (update (s.watch W b₀) p (some (W.next b ⟨o, a⟩)))
  env : ∀ ls s e st', Reachable M st₀ ls s → Inv ls s.st (s.watch W b₀) → M.env e s.st st' →
    Inv (ls ++ [.env e]) st' (s.watch W b₀)
  start : ∀ ls s p, Reachable M st₀ ls s → Inv ls s.st (s.watch W b₀) → s.watch W b₀ p = none →
    Inv (ls ++ [.start p]) s.st (update (s.watch W b₀) p (some b₀))
  kill : ∀ ls s p st', Reachable M st₀ ls s → Inv ls s.st (s.watch W b₀) → M.die p s.st st' →
    Inv (ls ++ [.kill p]) st' (update (s.watch W b₀) p none)

/-- The invariant rule, from any reachable state on. -/
theorem Run.inv (hb : Bound M st₀ W b₀) (Inv : List (Label I E) → S → (Nat → Option B) → Prop)
    (hInv : Preserved M st₀ W b₀ Inv) {ls₀ : List (Label I E)} (r₀ : Reachable M st₀ ls₀ s)
    (h : Inv ls₀ s.st (s.watch W b₀)) (r : Run M s ls t) :
    Inv (ls₀ ++ ls) t.st (t.watch W b₀) := by
  induction r with
  | nil => simpa using h
  | @snoc ls t u l r d ih =>
    have hreach : Reachable M st₀ (ls₀ ++ ls) t := Run.append r₀ r
    rw [← List.append_assoc]
    cases l with
    | op p e =>
      obtain ⟨b, hw, hok, hdone, heq⟩ := d.op_inv (Reachable.trusted hb hreach)
      rw [heq]
      exact hInv.op _ _ _ _ _ _ _ hreach ih hw hok hdone
    | env e =>
      cases d with
      | env done => exact hInv.env _ t _ _ hreach ih done
    | start p =>
      cases d with
      | start free boots =>
        rw [Sys.watch_update]
        exact hInv.start _ t _ hreach ih (by simp [Sys.watch, Sys.hist, free])
    | kill p =>
      cases d with
      | kill done =>
        rw [Sys.watch_update]
        exact hInv.kill _ t _ _ hreach ih done

/-- The invariant rule for whole runs. -/
theorem Reachable.inv (hb : Bound M st₀ W b₀) (Inv : List (Label I E) → S → (Nat → Option B) → Prop)
    (hinit : Inv [] st₀ fun _ => none) (hInv : Preserved M st₀ W b₀ Inv)
    (r : Reachable M st₀ ls s) : Inv ls s.st (s.watch W b₀) :=
  Run.inv hb Inv hInv .nil hinit r

/-! ### Processes that are not lost -/

def Label.isKill : Label I E → Bool
  | .kill _ => true
  | _ => false

/-- The same system, in which no process is lost: one that ends early just does not go on, and the
    number of a process is its own. -/
def Machine.immortal (M : Machine I S E α) : Machine I S E α :=
  { M with die := fun _ _ _ => False }

theorem Run.immortal (r : Run M s ls t) (h : ls.all (fun l => !l.isKill) = true) :
    Run M.immortal s ls t := by
  induction r with
  | nil => exact .nil
  | snoc _ d ih =>
    rw [List.all_append, Bool.and_eq_true] at h
    refine (ih h.1).snoc ?_
    cases d with
    | op live done => exact .op live done
    | env done => exact .env done
    | start free boots => exact .start free boots
    | kill done => cases h.2

/-- The same system with a single process, which is not lost. -/
def Machine.solo (M : Machine I S E α) : Machine I S E α :=
  Machine.immortal { M with boot := fun p prog => p = 0 ∧ M.boot p prog }

def Label.isSolo : Label I E → Bool
  | .start p => p == 0
  | .kill _ => false
  | _ => true

theorem Run.solo (r : Run M s ls t) (h : ls.all Label.isSolo = true) : Run M.solo s ls t := by
  induction r with
  | nil => exact .nil
  | snoc _ d ih =>
    rw [List.all_append, Bool.and_eq_true] at h
    refine (ih h.1).snoc ?_
    cases d with
    | op live done => exact .op live done
    | env done => exact .env done
    | @start p prog free boots =>
      have hp : (p == 0 && true) = true := h.2
      rw [Bool.and_true, beq_iff_eq] at hp
      exact .start free ⟨hp, boots⟩
    | kill done => cases h.2

/-- What process `p` did in a step. -/
def Label.own (p : Nat) : Label I E → Option (Ev I)
  | .op q e => if q = p then some e else none
  | _ => none

theorem Label.mem_own : e ∈ ls.filterMap (Label.own p) ↔ .op p e ∈ ls := by
  rw [List.mem_filterMap]
  constructor
  · rintro ⟨l, hl, heq⟩
    cases l with
    | op q e' =>
      rw [Label.own] at heq
      split_ifs at heq with hq
      obtain rfl := hq
      exact Option.some.inj heq ▸ hl
    | _ => cases heq
  · exact fun hl => ⟨_, hl, if_pos rfl⟩

/-- The history of a process is what it did in the whole run. -/
theorem Reachable.own_eq (r : Reachable M.immortal st₀ ls s) (p : Nat) :
    ls.filterMap (Label.own p) = (s.hist p).getD [] := by
  induction r with
  | nil => rfl
  | @snoc ls t u l r d ih =>
    rw [List.filterMap_append, ih]
    cases d with
    | @op q o k h a st' live done =>
      rcases eq_or_ne p q with rfl | hne
      · simp [Sys.hist, Label.own, live]
      · simp [Sys.hist, Label.own, update_of_ne hne, Ne.symm hne]
    | env done => simp [Sys.hist, Label.own]
    | @start q prog free boots =>
      rcases eq_or_ne p q with rfl | hne
      · simp [Sys.hist, Label.own, free]
      · simp [Sys.hist, Label.own, update_of_ne hne]
    | kill done => exact done.elim

/-- Whatever a process does is allowed by what it did before. -/
theorem Reachable.op_allowed {ok : List (Ev I) → I.Op → Prop}
    (hb : Bound M.immortal st₀ (Monitor.history ok) []) {before after : List (Label I E)}
    (r : Reachable M.immortal st₀ (before ++ .op p e :: after) s) :
    ok (before.filterMap (Label.own p)) e.1 := by
  obtain ⟨u, v, r, d⟩ := r.cut_at
  rw [Reachable.own_eq r]
  have htrust := Reachable.trusted hb r
  cases d with
  | @op p o k h a st' live done =>
    have hok : ok (h.foldl (Monitor.history ok).next []) o := (htrust p _ live).1
    rw [Prog.foldl_history, List.nil_append] at hok
    simpa [Sys.hist, live] using hok

/-! ### Scripted runs -/

/-- One line of a script: the process goes on, with a hint for the answer it gets; or the
    environment acts; or a process is started on a program, or lost. -/
inductive Move (R E K : Type) where
  | op (p : Nat) (hint : R)
  | env (e : E)
  | start (p : Nat) (k : K)
  | kill (p : Nat)

/-- An executable reading of a machine: from a hint, an answer the operation may get and the state it
    leaves; the effect of the environment; the programs by name. Each comes with the proof that the
    machine does it. -/
structure Player (M : Machine I S E α) (R K : Type) where
  answer (p : Nat) (o : I.Op) (st : S) (hint : R) :
    Option { x : I.Ans o × S // M.exec p o st x.1 x.2 }
  act (e : E) (st : S) : Option { st' : S // M.env e st st' }
  image (k : K) : { prog : Prog I α // ∀ p, M.boot p prog }
  lose (p : Nat) (st : S) : { st' : S // M.die p st st' }

namespace Player

def move (P : Player M R K) (s : Sys I S α) :
    Move R E K → Option { x : Label I E × Sys I S α // Step M s x.1 x.2 }
  | .op p hint =>
      match live : s.procs p with
      | some ⟨.call o _, _⟩ => (P.answer p o s.st hint).map fun x => ⟨(_, _), .op live x.2⟩
      | _ => none
  | .env e => (P.act e s.st).map fun x => ⟨(_, _), .env x.2⟩
  | .start p k =>
      match free : s.procs p with
      | none => some ⟨(_, _), .start free ((P.image k).2 p)⟩
      | some _ => none
  | .kill p => some ⟨(_, _), .kill (P.lose p s.st).2⟩

/-- The script played on from the end of a run. -/
def play (P : Player M R K) {s : Sys I S α} :
    List (Move R E K) → { x : List (Label I E) × Sys I S α // Run M s x.1 x.2 } →
      Option { x : List (Label I E) × Sys I S α // Run M s x.1 x.2 }
  | [], x => some x
  | m :: ms, x => (P.move x.1.2 m).bind fun y => P.play ms ⟨(_, _), x.2.snoc y.2⟩

/-- A script that can be played to its end is a run, and what its end was tested for holds there. -/
theorem reaches (P : Player M R K) (st₀ : S) (ms : List (Move R E K))
    (test : List (Label I E) → Sys I S α → Bool)
    (h : (P.play ms ⟨([], Sys.init st₀), .nil⟩).any (fun x => test x.1.1 x.1.2) = true) :
    ∃ ls s, Reachable M st₀ ls s ∧ test ls s = true := by
  obtain ⟨x, -, hx⟩ := (Option.any_eq_true ..).mp h
  exact ⟨x.1.1, x.1.2, x.2, hx⟩

end Player

end Schemes
