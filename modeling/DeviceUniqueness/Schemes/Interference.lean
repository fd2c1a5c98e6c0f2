import DeviceUniqueness.Schemes.System

/-! Programs under interference.

    Where programs share a state, what one of them knows of it has to outlast the steps of the
    others. Each program is given terms: what its operations do, which moves of the state the others
    may make between two of them (`rely`), and which moves it may make itself (`guar`). `Prog.Safe`
    follows the program from a state on: before every operation the others move, the operation keeps
    to the guarantee, and the program goes on from where that led. A specification is then about
    states and needs no record of what was done.

    `Pact` says when the terms of all the programs of a machine fit together, and `Pact.reachable`
    what follows: no interleaving, loss or restart breaks them. -/

namespace Schemes

open Function

variable {I : Iface} {S α β γ σ ε : Type}

/-- What a program may count on and has to keep to. -/
structure Terms (I : Iface) (S : Type) where
  exec : (o : I.Op) → S → I.Ans o → S → Prop
  rely : S → S → Prop
  guar : S → S → Prop

variable {T : Terms I S}

namespace Prog

/-- From the state on, the program keeps to its terms, and ends as `post` says. -/
def Safe (T : Terms I S) : Prog I α → S → (S → α → Prop) → Prop
  | .ret x, st, post => post st x
  | .call o k, st, post => ∀ st₁ a st₂, T.rely st st₁ → T.exec o st₁ a st₂ →
      T.guar st₁ st₂ ∧ (k a).Safe T st₂ post

theorem safe_bind (f : α → Prog I β) (post : S → β → Prop) :
    ∀ (p : Prog I α) (st : S),
      (p.bind f).Safe T st post ↔ p.Safe T st (fun st x => (f x).Safe T st post)
  | .ret _, _ => Iff.rfl
  | .call _ k, _ =>
      forall_congr' fun _ => forall_congr' fun a => forall_congr' fun _ => imp_congr_right fun _ =>
        imp_congr_right fun _ => and_congr_right fun _ => safe_bind f post (k a) _

theorem Safe.mono {post post' : S → α → Prop} (hp : ∀ st x, post st x → post' st x) :
    ∀ {p : Prog I α} {st : S}, p.Safe T st post → p.Safe T st post'
  | .ret _, _, h => hp _ _ h
  | .call _ _, _, h => fun _ _ _ hr he => ⟨(h _ _ _ hr he).1, Safe.mono hp (h _ _ _ hr he).2⟩

/-- A program that has not begun yet puts up with one more move of the others. -/
theorem Safe.after (htrans : ∀ {a b c}, T.rely a b → T.rely b c → T.rely a c) {st st' : S}
    (hr : T.rely st st') :
    ∀ {p : Prog I α}, p.Safe T st (fun _ _ => True) → p.Safe T st' fun _ _ => True
  | .ret _, _ => trivial
  | .call _ _, h => fun _ _ _ hr' he => h _ _ _ (htrans hr hr') he

end Prog

namespace Act

/-- `Prog.Safe` with one postcondition for each way out. -/
def Safe (T : Terms I S) (m : Act I σ ε α) (s : σ) (st : S) (post : S → α → σ → Prop)
    (err : S → ε → σ → Prop) : Prop :=
  (m s).Safe T st (Ends post err)

variable {s : σ} {st : S} {post : S → α → σ → Prop} {err : S → ε → σ → Prop}
variable {m : Act I σ ε α} {f : α → Act I σ ε β}

theorem Safe.mono {post' : S → α → σ → Prop} {err' : S → ε → σ → Prop} (hm : m.Safe T s st post err)
    (hp : ∀ st x s, post st x s → post' st x s) (he : ∀ st e s, err st e s → err' st e s) :
    m.Safe T s st post' err' := by
  refine Prog.Safe.mono ?_ hm
  rintro st ⟨_ | x, s⟩ h
  · exact he _ _ _ h
  · exact hp _ _ _ h

theorem Safe.weaken {post' : S → α → σ → Prop} (hm : m.Safe T s st post err)
    (hp : ∀ st x s, post st x s → post' st x s) : m.Safe T s st post' err :=
  hm.mono hp fun _ _ _ h => h

theorem safe_bind' {post : S → β → σ → Prop} : (bind m f).Safe T s st post err ↔
      m.Safe T s st (fun st x s => (f x).Safe T s st post err) err := by
  refine (Prog.safe_bind _ _ _ _).trans
    ⟨fun hs => Prog.Safe.mono ?_ hs, fun hs => Prog.Safe.mono ?_ hs⟩ <;>
    rintro st ⟨_ | _, s⟩ hp <;> exact hp

theorem safe_bind {post : S → β → σ → Prop} : (m >>= f).Safe T s st post err ↔
      m.Safe T s st (fun st x s => (f x).Safe T s st post err) err :=
  safe_bind'

/-- One step after another: the first is specified on its own. -/
theorem Safe.then {Q : S → α → σ → Prop} {post : S → β → σ → Prop} (hm : m.Safe T s st Q err)
    (hf : ∀ st x s, Q st x s → (f x).Safe T s st post err) : (m >>= f).Safe T s st post err :=
  safe_bind.mpr (hm.weaken hf)

theorem safe_op {o : I.Op} {post : S → I.Ans o → σ → Prop}
    (h : ∀ st₁ a st₂, T.rely st st₁ → T.exec o st₁ a st₂ → T.guar st₁ st₂ ∧ post st₂ a s) :
    (op o : Act I σ ε _).Safe T s st post err :=
  h

theorem safe_get {post : S → σ → σ → Prop} :
    (get : Act I σ ε σ).Safe T s st post err ↔ post st s s :=
  Iff.rfl

theorem safe_modify {f : σ → σ} {post : S → Unit → σ → Prop} :
    (modify f : Act I σ ε Unit).Safe T s st post err ↔ post st () (f s) :=
  Iff.rfl

theorem safe_ofExcept {r : Except ε α} (hok : ∀ x, r = .ok x → post st x s)
    (herr : ∀ e, r = .error e → err st e s) : (ofExcept r : Act I σ ε α).Safe T s st post err := by
  cases r with
  | ok x => exact hok x rfl
  | error e => exact herr e rfl

theorem safe_attempt {ε' : Type} {post : S → Except ε α → σ → Prop} {err : S → ε' → σ → Prop}
    (hm : m.Safe T s st (fun st x s => post st (.ok x) s) fun st e s => post st (.error e) s) :
    (attempt m : Act I σ ε' _).Safe T s st post err := by
  refine (Prog.safe_bind _ _ _ _).mpr (Prog.Safe.mono ?_ hm)
  rintro st ⟨_ | _, s⟩ hp <;> exact hp

/-- The loop rule. `Inv` speaks of the elements still to come, the value carried, the shared and the
    local state; a turn that fails ends the loop. -/
theorem safe_fold (Inv : List α → β → S → σ → Prop) {f : β → α → Act I σ ε β}
    (turn : ∀ x xs y st s, Inv (x :: xs) y st s →
      (f y x).Safe T s st (fun st y' s => Inv xs y' st s) err) :
    ∀ {xs : List α} {y : β} {st : S} {s : σ}, Inv xs y st s →
      (fold f y xs).Safe T s st (fun st y' s => Inv [] y' st s) err
  | [], _, _, _, h => h
  | _ :: xs, _, _, _, h => safe_bind'.mpr
      ((turn _ xs _ _ _ h).mono (fun _ _ _ h => safe_fold Inv turn h) fun _ _ _ h => h)

theorem safe_forEach (Inv : List α → S → σ → Prop) {f : α → Act I σ ε Unit}
    (turn : ∀ x xs st s, Inv (x :: xs) st s → (f x).Safe T s st (fun st _ s => Inv xs st s) err)
    {xs : List α} (h : Inv xs st s) :
    (forEach f xs).Safe T s st (fun st _ s => Inv [] st s) err :=
  safe_fold (fun xs _ st s => Inv xs st s) (fun x xs _ st s h => turn x xs st s h) h

end Act

/-! ### The programs of a machine -/

variable {E : Type} {M : Machine I S E α} {Terms' : Nat → Terms I S} {Inv : S → Prop}

/-- The terms of a machine's processes fit together: what one guarantees the others may rely on, and
    so it is with the environment and with losses. `Inv` holds of every state and is there to count
    on when a process is started. -/
structure Pact (M : Machine I S E α) (T : Nat → Terms I S) (Inv : S → Prop) : Prop where
  exec : ∀ {p o st a st'}, M.exec p o st a st' → (T p).exec o st a st'
  trans : ∀ {p a b c}, (T p).rely a b → (T p).rely b c → (T p).rely a c
  guar : ∀ {p q st st'}, p ≠ q → (T p).guar st st' → (T q).rely st st'
  env : ∀ {e q st st'}, M.env e st st' → (T q).rely st st'
  die : ∀ {p q st st'}, p ≠ q → M.die p st st' → (T q).rely st st'
  inv_guar : ∀ {p st st'}, (T p).guar st st' → Inv st → Inv st'
  inv_env : ∀ {e st st'}, M.env e st st' → Inv st → Inv st'
  inv_die : ∀ {p st st'}, M.die p st st' → Inv st → Inv st'
  boot : ∀ {p prog st}, M.boot p prog → Inv st → prog.Safe (T p) st fun _ _ => True

variable {st₀ : S} {T : Nat → Terms I S}

/-- Every live process is safe from the state the system is in. -/
def Sys.Kept (T : Nat → Terms I S) (s : Sys I S α) : Prop :=
  ∀ p q, s.procs p = some q → q.prog.Safe (T p) s.st fun _ _ => True

theorem Sys.Kept.update {s : Sys I S α} {p : Nat} {x : Option (Proc I α)} {st' : S}
    (hk : s.Kept T) (hx : ∀ q, x = some q → q.prog.Safe (T p) st' fun _ _ => True)
    (htrans : ∀ {q a b c}, (T q).rely a b → (T q).rely b c → (T q).rely a c)
    (hothers : ∀ q, p ≠ q → (T q).rely s.st st') :
    Sys.Kept T ⟨st', update s.procs p x⟩ := by
  intro p' q hq
  simp only at hq
  rcases eq_or_ne p' p with rfl | hne
  · rw [update_self] at hq
    exact hx q hq
  · rw [update_of_ne hne] at hq
    exact (hk p' q hq).after htrans (hothers p' hne.symm)

namespace Pact

/-- An operation of a system whose processes keep to their terms is one its process guaranteed. -/
theorem op_guar (pact : Pact M T Inv) {s t : Sys I S α} {p : Nat} {e : Ev I}
    (hk : s.Kept T) (hrefl : ∀ p st, (T p).rely st st) (d : Step M s (.op p e) t) :
    (T p).guar s.st t.st := by
  cases d with
  | op live done => exact (hk _ _ live _ _ _ (hrefl _ _) (pact.exec done)).1

/-- No interleaving, loss or restart breaks the terms or the invariant. -/
theorem reachable (pact : Pact M T Inv) (hrefl : ∀ p st, (T p).rely st st) (h₀ : Inv st₀)
    {ls : List (Label I E)} {s : Sys I S α} (r : Reachable M st₀ ls s) : Inv s.st ∧ s.Kept T := by
  induction r with
  | nil => exact ⟨h₀, fun p q hq => by simp [Sys.init] at hq⟩
  | @snoc ls s t l r d ih =>
    obtain ⟨hinv, hk⟩ := ih
    cases d with
    | op live done =>
      obtain ⟨hguar, hsafe⟩ := hk _ _ live _ _ _ (hrefl _ _) (pact.exec done)
      refine ⟨pact.inv_guar hguar hinv, hk.update ?_ pact.trans fun q hne => pact.guar hne hguar⟩
      rintro q ⟨⟩
      exact hsafe
    | env done =>
      exact ⟨pact.inv_env done hinv, fun p q hq => (hk p q hq).after pact.trans (pact.env done)⟩
    | start free boots =>
      refine ⟨hinv, hk.update ?_ pact.trans fun q _ => hrefl q _⟩
      rintro q ⟨⟩
      exact pact.boot boots hinv
    | kill done =>
      refine ⟨pact.inv_die done hinv, hk.update ?_ pact.trans fun q hne => pact.die hne done⟩
      rintro q ⟨⟩

end Pact

/-! ### Runs that meet a condition -/

/-- The machine, of which only those runs are considered whose operations all meet `C` in the state
    they are performed in. -/
def Machine.given (M : Machine I S E α) (C : Nat → (o : I.Op) → S → Prop) : Machine I S E α :=
  { M with exec := fun p o st a st' => C p o st ∧ M.exec p o st a st' }

/-- A player of the machine plays those of its runs that meet the condition. -/
def Player.given {R K : Type} (P : Player M R K) (C : Nat → (o : I.Op) → S → Prop)
    [∀ p o st, Decidable (C p o st)] : Player (M.given C) R K :=
  { P with
    answer := fun p o st r =>
      if hC : C p o st then (P.answer p o st r).map fun x => ⟨x.1, hC, x.2⟩ else none }

end Schemes
