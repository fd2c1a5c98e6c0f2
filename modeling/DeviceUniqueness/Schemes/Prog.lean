import Mathlib

/-! Programs that talk to an outside world, as resumptions.

    A program is a finite tree: it stops with a value, or it performs one operation and continues
    with whatever the world answers. Nothing is said here about what an operation does, so a fact
    proved of every branch of the tree holds for every behaviour of the world.

    `Prog.Sat` is the one proof rule. A monitor watches the program: it has a state that every
    operation and its answer moves on, and it says in each state which operations are allowed. A
    program satisfies the monitor when no branch of it performs an operation that is not allowed.
    The rule composes through `bind`, so a specification is proved function by function. `Act` adds
    what imperative code with early returns needs: a local state that survives a failure, and a
    failure; its specifications have one postcondition for each way out. -/

namespace Schemes

/-- What a computation that returned went through. -/
theorem bind_eq_ok {ε α β : Type} {x : Except ε α} {f : α → Except ε β} {b : β} :
    x >>= f = .ok b ↔ ∃ a, x = .ok a ∧ f a = .ok b := by
  cases x <;> simp [bind, Except.bind]

/-- The operations a program may perform, each with the type of its answers. -/
structure Iface where
  Op : Type
  Ans : Op → Type

variable {I : Iface} {B α β γ σ τ ε ε' : Type}

/-- One operation performed, with the answer it got. -/
abbrev Ev (I : Iface) := (o : I.Op) × I.Ans o

/-- A program: stop with a value, or perform an operation and go on with its answer. -/
inductive Prog (I : Iface) (α : Type) where
  | ret (x : α)
  | call (o : I.Op) (k : I.Ans o → Prog I α)

/-- The program on its own: every operation is answered at once, from a state that only it uses. -/
def Prog.runWith {S : Type} (answer : (o : I.Op) → S → I.Ans o × S) : Prog I α → S → α × S
  | .ret x, st => (x, st)
  | .call o k, st => (k (answer o st).1).runWith answer (answer o st).2

/-- What watches a program: how its state moves with each operation performed, which operations it
    allows in a state, and which answers it takes into account. -/
structure Monitor (I : Iface) (B : Type) where
  next : B → Ev I → B
  ok : B → I.Op → Prop
  adm : (o : I.Op) → I.Ans o → Prop

/-- The monitor whose state is everything the program has done. -/
def Monitor.history (ok : List (Ev I) → I.Op → Prop) : Monitor I (List (Ev I)) where
  next h e := h ++ [e]
  ok := ok
  adm _ _ := True

variable {S : Type} {answer : (o : I.Op) → S → I.Ans o × S} {o : I.Op}

namespace Prog

def bind : Prog I α → (α → Prog I β) → Prog I β
  | .ret x, f => f x
  | .call o k, f => .call o (fun a => (k a).bind f)

/-- `t` is what the program may have done by some point; with a value, it has also finished. -/
inductive Trace : Prog I α → List (Ev I) → Option α → Prop
  | stop (p : Prog I α) : Trace p [] none
  | ret (x : α) : Trace (.ret x) [] (some x)
  | call {o : I.Op} {k : I.Ans o → Prog I α} {t : List (Ev I)} {r : Option α} (a : I.Ans o)
      (h : Trace (k a) t r) : Trace (.call o k) (⟨o, a⟩ :: t) r

/-- Every operation is allowed in the state it is performed in, for all answers taken into account,
    and the value returned meets `post`. -/
def Sat (M : Monitor I B) : Prog I α → B → (B → α → Prop) → Prop
  | .ret x, b, post => post b x
  | .call o k, b, post => M.ok b o ∧ ∀ a, M.adm o a → (k a).Sat M (M.next b ⟨o, a⟩) post

theorem runWith_bind (f : α → Prog I β) : ∀ (p : Prog I α) (st : S), (p.bind f).runWith answer st =
      (f (p.runWith answer st).1).runWith answer (p.runWith answer st).2
  | .ret _, _ => rfl
  | .call _ k, _ => runWith_bind f (k _) _

variable {M : Monitor I B}

theorem sat_bind (f : α → Prog I β) (post : B → β → Prop) :
    ∀ (p : Prog I α) (b : B), (p.bind f).Sat M b post ↔ p.Sat M b (fun b x => (f x).Sat M b post)
  | .ret _, _ => Iff.rfl
  | .call _ k, _ =>
      and_congr_right fun _ => forall_congr' fun a => imp_congr_right fun _ => sat_bind f post (k a) _

theorem Sat.mono {post post' : B → α → Prop} (hp : ∀ b x, post b x → post' b x) :
    ∀ {p : Prog I α} {b : B}, p.Sat M b post → p.Sat M b post'
  | .ret _, _, hs => hp _ _ hs
  | .call _ _, _, hs => ⟨hs.1, fun a ha => Sat.mono hp (hs.2 a ha)⟩

theorem sat_bind_iff {f : α → Prog I β} {post : B → β → Prop} {post' : B → α → Prop} {p : Prog I α}
    {b : B} (h : ∀ b x, (f x).Sat M b post ↔ post' b x) : (p.bind f).Sat M b post ↔ p.Sat M b post' :=
  (sat_bind f post p b).trans ⟨Sat.mono fun b x => (h b x).mp, Sat.mono fun b x => (h b x).mpr⟩

/-- What a specification says of a run: every operation performed was allowed by what preceded it. -/
theorem Sat.trace {post : B → α → Prop} {p : Prog I α} {t : List (Ev I)} {r : Option α}
    (ht : Trace p t r) : ∀ {b : B}, p.Sat M b post → (∀ e ∈ t, M.adm e.1 e.2) →
    ∀ {t₁ t₂ : List (Ev I)} {e : Ev I}, t = t₁ ++ e :: t₂ → M.ok (t₁.foldl M.next b) e.1 := by
  induction ht with
  | stop p | ret x => intro b _ _ t₁ t₂ e heq; simp at heq
  | @call o k t r a _ ih =>
    intro b hs hadm t₁ t₂ e heq
    cases t₁ with
    | nil =>
      rw [List.nil_append, List.cons.injEq] at heq
      rw [← heq.1]
      exact hs.1
    | cons e₁ t₁ =>
      rw [List.cons_append, List.cons.injEq] at heq
      obtain ⟨rfl, heq⟩ := heq
      exact ih (hs.2 a (hadm ⟨o, a⟩ (List.mem_cons_self ..)))
        (fun e he => hadm e (List.mem_cons_of_mem _ he)) heq

/-- What a specification says of a run that is finished. -/
theorem Sat.ends {post : B → α → Prop} {x : α} :
    ∀ {p : Prog I α} {t : List (Ev I)} {b : B}, Trace p t (some x) → p.Sat M b post →
      (∀ e ∈ t, M.adm e.1 e.2) → post (t.foldl M.next b) x
  | .ret _, _, _, .ret _, hs, _ => hs
  | .call _ _, _, _, .call a h, hs, hadm =>
      (Sat.ends h (hs.2 a (hadm _ (List.mem_cons_self ..)))
        fun e he => hadm e (List.mem_cons_of_mem _ he) :)

/-- Once the first part of a sequence is finished, the run goes on with what follows. -/
theorem Trace.after {f : α → Prog I β} {x : α} {r : Option β} :
    ∀ {p : Prog I α} {t₁ t₂ : List (Ev I)}, Trace p t₁ (some x) → Trace (p.bind f) (t₁ ++ t₂) r →
      Trace (f x) t₂ r
  | .ret _, _, _, .ret _, h => h
  | .call _ _, _, _, .call _ h₁, .call _ h => after h₁ h

theorem foldl_history (ok : List (Ev I) → I.Op → Prop) :
    ∀ t h : List (Ev I), t.foldl (Monitor.history ok).next h = h ++ t
  | [], h => (List.append_nil h).symm
  | e :: t, h => by
      rw [List.foldl_cons, foldl_history ok t]
      simp [Monitor.history]

/-- For the history monitor: the operations before the one at hand are all there is to go by. -/
theorem Sat.history (ok : List (Ev I) → I.Op → Prop) {post : List (Ev I) → α → Prop}
    {p : Prog I α} {t t₁ t₂ : List (Ev I)} {e : Ev I} {r : Option α} (ht : Trace p t r)
    (hs : p.Sat (Monitor.history ok) [] post) (heq : t = t₁ ++ e :: t₂) : ok t₁ e.1 := by
  have h : ok (t₁.foldl (Monitor.history ok).next []) e.1 :=
    Sat.trace ht hs (fun _ _ => trivial) heq
  rwa [foldl_history] at h

/-- A history is only ever extended, so what it held at the start of a program it still holds. -/
theorem Sat.extends {ok : List (Ev I) → I.Op → Prop} {post : List (Ev I) → α → Prop} :
    ∀ {p : Prog I α} {h : List (Ev I)}, p.Sat (Monitor.history ok) h post →
      p.Sat (Monitor.history ok) h (fun h' x => h <+: h' ∧ post h' x)
  | .ret _, _, hs => ⟨List.prefix_refl _, hs⟩
  | .call _ _, h, hs => ⟨hs.1, fun a ha => Sat.mono
      (fun _ _ hp => ⟨(List.prefix_append h _).trans hp.1, hp.2⟩) (Sat.extends (hs.2 a ha))⟩

end Prog

/-- A program with a local state that outlives its failures. -/
def Act (I : Iface) (σ ε α : Type) := σ → Prog I (Except ε α × σ)

/-- Nothing is required of the value or the failure a step ends with. -/
abbrev Anyhow {B α : Type} : B → α → Unit → Prop := fun _ _ _ => True

namespace Act

def pure (x : α) : Act I σ ε α := fun s => .ret (.ok x, s)

def bind (m : Act I σ ε α) (f : α → Act I σ ε β) : Act I σ ε β := fun s =>
  (m s).bind fun p => match p with
    | (.ok x, s') => f x s'
    | (.error e, s') => .ret (.error e, s')

instance : Monad (Act I σ ε) where
  pure := pure
  bind := bind

/-- Perform one operation. -/
def op (o : I.Op) : Act I σ ε (I.Ans o) := fun s => .call o fun a => .ret (.ok a, s)

def fail (e : ε) : Act I σ ε α := fun s => .ret (.error e, s)

def get : Act I σ ε σ := fun s => .ret (.ok s, s)

def modify (f : σ → σ) : Act I σ ε Unit := fun s => .ret (.ok (), f s)

/-- Run `m` to the end and hand its result over, failure included, as a value. -/
def attempt (m : Act I σ ε α) : Act I σ ε' (Except ε α) := fun s =>
  (m s).bind fun p => .ret (.ok p.1, p.2)

/-- Run `m` on a part of a larger state. -/
def zoom (part : τ → σ) (put : τ → σ → τ) (m : Act I σ ε α) : Act I τ ε α := fun t =>
  (m (part t)).bind fun p => .ret (p.1, put t p.2)

def ofExcept : Except ε α → Act I σ ε α
  | .ok x => pure x
  | .error e => fail e

def mapError (f : ε → ε') (m : Act I σ ε α) : Act I σ ε' α := fun s =>
  (m s).bind fun p => .ret (p.1.mapError f, p.2)

/-- A loop over a list that carries a value from one turn to the next. -/
def fold (f : β → α → Act I σ ε β) : β → List α → Act I σ ε β
  | y, [] => pure y
  | y, x :: xs => bind (f y x) fun y' => fold f y' xs

def forEach (f : α → Act I σ ε Unit) (xs : List α) : Act I σ ε Unit := fold (fun _ x => f x) () xs

/-- A loop that keeps what `f` hands back, in order. -/
def collect (f : α → Act I σ ε (Option β)) (xs : List α) : Act I σ ε (List β) :=
  fold (fun ys x => bind (f x) fun y => pure (ys ++ y.toList)) [] xs

/-- What comes of the steps when they run on their own. -/
def alone {S : Type} (answer : (o : I.Op) → S → I.Ans o × S) (m : Act I Unit ε α) (st : S) :
    Except ε α × S :=
  let out := (m ()).runWith answer st
  (out.1.1, out.2)

variable {st : S} {r : Except ε α}

theorem alone_bind_eq (m : Act I Unit ε α) (f : α → Act I Unit ε β) (st : S) :
    (bind m f).alone answer st = match m.alone answer st with
      | (.ok x, st') => (f x).alone answer st'
      | (.error e, st') => (.error e, st') := by
  rw [alone, alone, bind, Prog.runWith_bind]
  generalize (m ()).runWith answer st = out
  obtain ⟨⟨_ | _, _⟩, _⟩ := out <;> rfl

theorem alone_bind {m : Act I Unit ε α} {f : α → Act I Unit ε β} {st' : S} {x : α}
    (h : m.alone answer st = (.ok x, st')) :
    (bind m f).alone answer st = (f x).alone answer st' := by
  rw [alone_bind_eq, h]

theorem alone_bind_error {m : Act I Unit ε α} {f : α → Act I Unit ε β} {st' : S} {e : ε}
    (h : m.alone answer st = (.error e, st')) : (bind m f).alone answer st = (.error e, st') := by
  rw [alone_bind_eq, h]

theorem alone_error {e : ε} {f : α → Act I Unit ε β} (h : r = .error e) :
    (ofExcept r >>= f).alone answer st = (.error e, st) := by
  subst h
  rfl

/-- The value a result returned meets `post`, the failure it ended with meets `err`. -/
def Ends (post : B → α → σ → Prop) (err : B → ε → σ → Prop) (b : B) : Except ε α × σ → Prop
  | (.ok x, s) => post b x s
  | (.error e, s) => err b e s

/-- `Prog.Sat` with one postcondition for each way out. -/
def Sat (M : Monitor I B) (m : Act I σ ε α) (s : σ) (b : B) (post : B → α → σ → Prop)
    (err : B → ε → σ → Prop) : Prop :=
  (m s).Sat M b (Ends post err)

variable {M : Monitor I B} {s : σ} {b : B} {post : B → α → σ → Prop} {err : B → ε → σ → Prop}

theorem Sat.mono {m : Act I σ ε α} {post' : B → α → σ → Prop} {err' : B → ε → σ → Prop}
    (hm : m.Sat M s b post err) (hp : ∀ b x s, post b x s → post' b x s)
    (he : ∀ b e s, err b e s → err' b e s) : m.Sat M s b post' err' := by
  refine Prog.Sat.mono ?_ hm
  rintro b ⟨_ | x, s⟩ h
  · exact he _ _ _ h
  · exact hp _ _ _ h

theorem Sat.weaken {m : Act I σ ε α} {post' : B → α → σ → Prop} (hm : m.Sat M s b post err)
    (hp : ∀ b x s, post b x s → post' b x s) : m.Sat M s b post' err :=
  hm.mono hp fun _ _ _ h => h

theorem Sat.anyhow {m : Act I σ ε α} (hm : m.Sat M s b post err) :
    m.Sat M s b (fun _ _ _ => True) fun _ _ _ => True :=
  hm.mono (fun _ _ _ _ => trivial) fun _ _ _ _ => trivial

theorem Sat.extends {ok : List (Ev I) → I.Op → Prop} {h : List (Ev I)} {m : Act I σ ε α}
    {post : List (Ev I) → α → σ → Prop} {err : List (Ev I) → ε → σ → Prop}
    (hm : m.Sat (Monitor.history ok) s h post err) :
    m.Sat (Monitor.history ok) s h (fun h' x s => h <+: h' ∧ post h' x s)
      (fun h' e s => h <+: h' ∧ err h' e s) := by
  refine Prog.Sat.mono ?_ (Prog.Sat.extends hm)
  rintro b ⟨_ | x, s⟩ h <;> exact h

@[simp] theorem sat_pure (x : α) :
    (Pure.pure x : Act I σ ε α).Sat M s b post err ↔ post b x s :=
  Iff.rfl

theorem sat_bind' {m : Act I σ ε α} {f : α → Act I σ ε β} {post : B → β → σ → Prop} :
    (bind m f).Sat M s b post err ↔
      m.Sat M s b (fun b x s => (f x).Sat M s b post err) err :=
  Prog.sat_bind_iff fun | _, (.ok _, _) | _, (.error _, _) => Iff.rfl

@[simp] theorem sat_bind {m : Act I σ ε α} {f : α → Act I σ ε β} {post : B → β → σ → Prop} :
    (m >>= f).Sat M s b post err ↔
      m.Sat M s b (fun b x s => (f x).Sat M s b post err) err :=
  sat_bind'

/-- One step after another: the first is specified on its own. -/
theorem Sat.then {m : Act I σ ε α} {f : α → Act I σ ε β} {post' : B → β → σ → Prop}
    (hm : m.Sat M s b post err) (hf : ∀ b x s, post b x s → (f x).Sat M s b post' err) :
    (m >>= f).Sat M s b post' err :=
  sat_bind.mpr (hm.weaken hf)

@[simp] theorem sat_op {post : B → I.Ans o → σ → Prop} : (op o : Act I σ ε _).Sat M s b post err ↔
      M.ok b o ∧ ∀ a, M.adm o a → post (M.next b ⟨o, a⟩) a s :=
  Iff.rfl

@[simp] theorem sat_fail {e : ε} : (fail e : Act I σ ε α).Sat M s b post err ↔ err b e s :=
  Iff.rfl

@[simp] theorem sat_get {post : B → σ → σ → Prop} :
    (get : Act I σ ε σ).Sat M s b post err ↔ post b s s :=
  Iff.rfl

@[simp] theorem sat_modify {f : σ → σ} {post : B → Unit → σ → Prop} :
    (modify f : Act I σ ε Unit).Sat M s b post err ↔ post b () (f s) :=
  Iff.rfl

@[simp] theorem sat_attempt {m : Act I σ ε α} {post : B → Except ε α → σ → Prop}
    {err : B → ε' → σ → Prop} :
    (attempt m : Act I σ ε' _).Sat M s b post err ↔
      m.Sat M s b (fun b x s => post b (.ok x) s) (fun b e s => post b (.error e) s) :=
  Prog.sat_bind_iff fun | _, (.ok _, _) | _, (.error _, _) => Iff.rfl

@[simp] theorem sat_zoom {part : τ → σ} {put : τ → σ → τ} {m : Act I σ ε α} {t : τ}
    {post : B → α → τ → Prop} {err : B → ε → τ → Prop} :
    (zoom part put m).Sat M t b post err ↔
      m.Sat M (part t) b (fun b x s => post b x (put t s)) (fun b e s => err b e (put t s)) :=
  Prog.sat_bind_iff fun | _, (.ok _, _) | _, (.error _, _) => Iff.rfl

@[simp] theorem sat_ofExcept : (ofExcept r : Act I σ ε α).Sat M s b post err ↔
      (∀ x, r = .ok x → post b x s) ∧ (∀ e, r = .error e → err b e s) := by
  cases r <;> simp [ofExcept, fail, pure, Sat, Prog.Sat, Ends]

@[simp] theorem sat_mapError {f : ε → ε'} {m : Act I σ ε α} {err : B → ε' → σ → Prop} :
    (mapError f m).Sat M s b post err ↔ m.Sat M s b post (fun b e s => err b (f e) s) :=
  Prog.sat_bind_iff fun | _, (.ok _, _) | _, (.error _, _) => Iff.rfl

/-- The loop rule. `Inv` speaks of the elements still to come, the value carried, the monitor and
    the local state; a turn that fails ends the loop. -/
theorem sat_fold (Inv : List α → β → B → σ → Prop) {f : β → α → Act I σ ε β}
    (turn : ∀ x xs y b s, Inv (x :: xs) y b s →
      (f y x).Sat M s b (fun b y' s => Inv xs y' b s) err) :
    ∀ {xs : List α} {y : β} {b : B} {s : σ}, Inv xs y b s →
      (fold f y xs).Sat M s b (fun b y' s => Inv [] y' b s) err
  | [], _, _, _, h => h
  | _ :: xs, _, _, _, h =>
      sat_bind'.mpr ((turn _ xs _ _ _ h).mono (fun _ _ _ h => sat_fold Inv turn h) fun _ _ _ h => h)

theorem sat_forEach (Inv : List α → B → σ → Prop) {f : α → Act I σ ε Unit}
    (turn : ∀ x xs b s, Inv (x :: xs) b s → (f x).Sat M s b (fun b _ s => Inv xs b s) err)
    {xs : List α} {b : B} {s : σ} (h : Inv xs b s) :
    (forEach f xs).Sat M s b (fun b _ s => Inv [] b s) err :=
  sat_fold (fun xs _ b s => Inv xs b s) (fun x xs _ b s h => turn x xs b s h) h

theorem sat_collect (Inv : List α → List β → B → σ → Prop) {f : α → Act I σ ε (Option β)}
    (turn : ∀ x xs ys b s, Inv (x :: xs) ys b s →
      (f x).Sat M s b (fun b y s => Inv xs (ys ++ y.toList) b s) err)
    {xs : List α} {b : B} {s : σ} (h : Inv xs [] b s) :
    (collect f xs).Sat M s b (fun b ys s => Inv [] ys b s) err :=
  sat_fold Inv (fun x xs ys b s h => sat_bind'.mpr (turn x xs ys b s h)) h

/-- The step leaves the monitor where it is, and what it hands on meets `P`. -/
def Stays (M : Monitor I B) (b : B) (m : Act I Unit ε α) (P : α → Prop) : Prop :=
  m.Sat M () b (fun b' x _ => b' = b ∧ P x) Anyhow

section Stays

variable {m : Act I Unit ε α} {f : α → Act I Unit ε β} {P : α → Prop} {Q : β → Prop}

theorem Stays.sat_bind (hm : Stays M b m P) {post : B → β → Unit → Prop}
    (hf : ∀ x, P x → (f x).Sat M () b post Anyhow) : (m >>= f).Sat M () b post Anyhow := by
  rw [Act.sat_bind]
  refine Sat.mono hm ?_ fun _ _ _ h => h
  rintro _ x _ ⟨rfl, hx⟩
  exact hf x hx

theorem Stays.bind (hm : Stays M b m P) (hf : ∀ x, P x → Stays M b (f x) Q) :
    Stays M b (m >>= f) Q :=
  hm.sat_bind hf

theorem stays_pure {x : α} (hx : P x) : Stays M b (Pure.pure x : Act I Unit ε α) P := ⟨rfl, hx⟩

theorem stays_fail {e : ε} : Stays M b (fail e : Act I Unit ε α) P := trivial

theorem stays_ofExcept (h : ∀ x, r = .ok x → P x) : Stays M b (ofExcept r : Act I Unit ε α) P :=
  sat_ofExcept.mpr ⟨fun x hx => ⟨rfl, h x hx⟩, fun _ _ => trivial⟩

theorem stays_op (hok : M.ok b o) (hnext : ∀ a, M.next b ⟨o, a⟩ = b) :
    Stays M b (op o : Act I Unit ε _) fun _ => True :=
  ⟨hok, fun a _ => ⟨hnext a, trivial⟩⟩

end Stays

/-- The step leaves the monitor where it is, whichever way it ends. -/
def Rests (M : Monitor I B) (b : B) (m : Act I σ ε α) : Prop :=
  ∀ s, m.Sat M s b (fun b' _ _ => b' = b) fun b' _ _ => b' = b

section Rests

variable {m : Act I σ ε α} {f : α → Act I σ ε β}

theorem Rests.sat_bind (hm : Rests M b m) {post : B → β → σ → Prop} {err : B → ε → σ → Prop}
    (hf : ∀ x s, (f x).Sat M s b post err) (he : ∀ e s, err b e s) :
    (m >>= f).Sat M s b post err := by
  rw [Act.sat_bind]
  refine Sat.mono (hm s) ?_ ?_
  · rintro _ x s rfl
    exact hf x s
  · rintro _ e s rfl
    exact he e s

theorem Rests.bind (hm : Rests M b m) (hf : ∀ x, Rests M b (f x)) : Rests M b (m >>= f) :=
  fun _ => hm.sat_bind (fun x s => hf x s) fun _ _ => rfl

theorem rests_pure (x : α) : Rests M b (Pure.pure x : Act I σ ε α) := fun _ => rfl

theorem rests_fail (e : ε) : Rests M b (fail e : Act I σ ε α) := fun _ => rfl

theorem rests_ofExcept (r : Except ε α) : Rests M b (ofExcept r : Act I σ ε α) :=
  fun _ => sat_ofExcept.mpr ⟨fun _ _ => rfl, fun _ _ => rfl⟩

theorem rests_op (hok : M.ok b o) (hnext : ∀ a, M.next b ⟨o, a⟩ = b) :
    Rests M b (op o : Act I σ ε _) :=
  fun _ => ⟨hok, fun a _ => hnext a⟩

theorem rests_attempt (hm : Rests M b m) : Rests M b (attempt m : Act I σ ε' _) :=
  fun s => sat_attempt.mpr (hm s)

theorem rests_fold {g : β → α → Act I σ ε β} (hg : ∀ y x, Rests M b (g y x)) :
    ∀ (xs : List α) (y : β), Rests M b (fold g y xs)
  | [], y => rests_pure y
  | x :: xs, y => (hg y x).bind fun y' => rests_fold hg xs y'

theorem rests_collect {g : α → Act I σ ε (Option β)} (hg : ∀ x, Rests M b (g x)) (xs : List α) :
    Rests M b (collect g xs) :=
  rests_fold (fun _ x => (hg x).bind fun _ => rests_pure _) xs []

end Rests

/-- Some run of the step ends in the failure. -/
def Fails (m : Act I σ ε α) (e : ε) : Prop :=
  ∃ s t s', Prog.Trace (m s) t (some (.error e, s'))

theorem Sat.not_fails {m : Act I σ ε α} {e : ε} (hm : ∀ s, m.Sat M s b post err)
    (hadm : ∀ o a, M.adm o a) (he : ∀ b s, ¬ err b e s) : ¬ m.Fails e := by
  rintro ⟨s, t, s', h⟩
  exact he _ _ (Prog.Sat.ends h (hm s) fun _ _ => hadm _ _)

end Act

end Schemes
