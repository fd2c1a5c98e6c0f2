import DeviceUniqueness.Schemes.Interference

/-! A program that has the state to itself.

    `Prog.Goes` is all such a program can do: every point it may have come to, with the state there
    and the record of what it asked and was told. A specification under interference covers it, with
    nobody to interfere and the record as a part of the state (`Safe.goes`).

    `Prog.Spares` compares two programs of which one leaves out questions it knows the answers to.
    Each does what the other does, up to those questions. -/

namespace Schemes

variable {I : Iface} {S α β γ δ σ ε : Type}

/-- From `p` and the first state the program may come to `p'` and the second, having asked and been
    told what the list says. -/
inductive Prog.Goes (exec : (o : I.Op) → S → I.Ans o → S → Prop) :
    Prog I α → S → List (Ev I) → Prog I α → S → Prop
  | here {p : Prog I α} {st : S} : Goes exec p st [] p st
  | step {o : I.Op} {k : I.Ans o → Prog I α} {st st' st'' : S} {a : I.Ans o} {t : List (Ev I)}
      {p' : Prog I α} (done : exec o st a st') (rest : Goes exec (k a) st' t p' st'') :
      Goes exec (.call o k) st (⟨o, a⟩ :: t) p' st''

/-- The program played with the answers given, as far as they are given. -/
def Prog.play {exec : (o : I.Op) → S → I.Ans o → S → Prop}
    (answer : (o : I.Op) → (st : S) → Option { x : I.Ans o × S // exec o st x.1 x.2 }) :
    (p : Prog I α) → (st : S) → Option { x : α × S // ∃ t, Goes exec p st t (.ret x.1) x.2 }
  | .ret x, st => some ⟨(x, st), [], .here⟩
  | .call _ k, st => (answer _ st).bind fun r => ((k r.1.1).play answer r.1.2).map fun y =>
      ⟨y.1, let ⟨_, g⟩ := y.2; ⟨_, .step r.2 g⟩⟩

/-- The terms of a program without others, which keeps a record of what it does. -/
def Terms.alone (exec : (o : I.Op) → S → I.Ans o → S → Prop) (guar : S → S → Prop) :
    Terms I (S × List (Ev I)) where
  exec o x a y := exec o x.1 a y.1 ∧ y.2 = x.2 ++ [⟨o, a⟩]
  rely x y := x = y
  guar x y := guar x.1 y.1

variable {p : Prog I α}

/-- What a program guarantees step by step it has kept to at every point, and from there it is as
    safe as it was. -/
theorem Prog.Safe.goes {exec : (o : I.Op) → S → I.Ans o → S → Prop} {guar : S → S → Prop}
    (hrefl : ∀ st, guar st st) (htrans : ∀ {a b c}, guar a b → guar b c → guar a c)
    {post : S × List (Ev I) → α → Prop} {p' : Prog I α} {st st' : S} {t : List (Ev I)}
    (g : Goes exec p st t p' st') : ∀ {h : List (Ev I)}, p.Safe (.alone exec guar) (st, h) post →
      guar st st' ∧ p'.Safe (.alone exec guar) (st', h ++ t) post := by
  induction g with
  | here =>
    intro h hs
    rw [List.append_nil]
    exact ⟨hrefl _, hs⟩
  | @step o k st st' st'' a t p' done rest ih =>
    intro h hs
    obtain ⟨hguar, hs'⟩ := hs (st, h) a (st', h ++ [⟨o, a⟩]) rfl ⟨done, rfl⟩
    obtain ⟨hguar', hs''⟩ := ih hs'
    rw [List.append_assoc] at hs''
    exact ⟨htrans hguar hguar', hs''⟩

/-! ### Questions left out -/

namespace Prog

/-- The first program does what the second does, but may leave out questions whose answer is
    `known`; their values are related by `R`. -/
inductive Spares (known : (o : I.Op) → I.Ans o → Prop) (R : α → β → Prop) :
    Prog I α → Prog I β → Prop
  | ret {x : α} {y : β} (h : R x y) : Spares known R (.ret x) (.ret y)
  | call {o : I.Op} {k : I.Ans o → Prog I α} {k' : I.Ans o → Prog I β}
      (h : ∀ a, Spares known R (k a) (k' a)) : Spares known R (.call o k) (.call o k')
  | skip {p : Prog I α} {o : I.Op} {a : I.Ans o} {k' : I.Ans o → Prog I β} (hk : known o a)
      (h : Spares known R p (k' a)) : Spares known R p (.call o k')

variable {known : (o : I.Op) → I.Ans o → Prop} {R : α → β → Prop} {R' : γ → δ → Prop}
variable {q : Prog I β}

theorem Spares.bind (h : Spares known R p q) {f : α → Prog I γ} {g : β → Prog I δ}
    (hfg : ∀ x y, R x y → Spares known R' (f x) (g y)) : Spares known R' (p.bind f) (q.bind g) := by
  induction h with
  | ret h => exact hfg _ _ h
  | call _ ih => exact .call ih
  | skip hk _ ih => exact .skip hk ih

section Runs

variable {exec : (o : I.Op) → S → I.Ans o → S → Prop} {spared : I.Op → Bool}

/-- What was asked besides the questions that may be left out. -/
def asides (spared : I.Op → Bool) (t : List (Ev I)) : List (Ev I) := t.filter fun e => !spared e.1

theorem asides_cons_congr (e : Ev I) {t t' : List (Ev I)} (h : asides spared t = asides spared t') :
    asides spared (e :: t) = asides spared (e :: t') := by
  rw [asides, asides, List.filter_cons, List.filter_cons]
  split_ifs
  · exact congrArg (e :: ·) h
  · exact h

theorem asides_cons_spared {e : Ev I} (he : spared e.1 = true) (t : List (Ev I)) :
    asides spared (e :: t) = asides spared t :=
  List.filter_cons_of_neg (by simp [he])

/-- Where the short program ends, so does the long one, if it is told what is known. -/
theorem Spares.long (h : Spares known R p q) (hspared : ∀ {o a}, known o a → spared o = true)
    (hknown : ∀ {o a} (st : S), known o a → exec o st a st) :
    ∀ {st st' : S} {t : List (Ev I)} {x : α}, Goes exec p st t (.ret x) st' →
      ∃ t' y, Goes exec q st t' (.ret y) st' ∧ R x y ∧ asides spared t' = asides spared t := by
  induction h with
  | ret h =>
    intro st st' t x g
    cases g
    exact ⟨[], _, .here, h, rfl⟩
  | call _ ih =>
    intro st st' t x g
    cases g with
    | step done rest =>
      obtain ⟨t', y, g', hR, ht⟩ := ih _ rest
      exact ⟨_ :: t', y, .step done g', hR, asides_cons_congr _ ht⟩
  | skip hk _ ih =>
    intro st st' t x g
    obtain ⟨t', y, g', hR, ht⟩ := ih g
    exact ⟨_ :: t', y, .step (hknown st hk) g', hR, (asides_cons_spared (hspared hk) t').trans ht⟩

/-- Where the long program ends, so does the short one, if the long one was told what is known. -/
theorem Spares.short (h : Spares known R p q) (hspared : ∀ {o a}, known o a → spared o = true)
    (told : Ev I → Prop)
    (hknown : ∀ {o a a' st st'}, known o a → told ⟨o, a'⟩ → exec o st a' st' → a' = a ∧ st' = st) :
    ∀ {st st' : S} {t' : List (Ev I)} {y : β}, Goes exec q st t' (.ret y) st' →
      (∀ e ∈ t', told e) →
      ∃ t x, Goes exec p st t (.ret x) st' ∧ R x y ∧ asides spared t = asides spared t' := by
  induction h with
  | ret h =>
    intro st st' t' y g _
    cases g
    exact ⟨[], _, .here, h, rfl⟩
  | call _ ih =>
    intro st st' t' y g htold
    cases g with
    | step done rest =>
      obtain ⟨t, x, g', hR, ht⟩ := ih _ rest fun e he => htold e (List.mem_cons_of_mem _ he)
      exact ⟨_ :: t, x, .step done g', hR, asides_cons_congr _ ht⟩
  | skip hk _ ih =>
    intro st st' t' y g htold
    cases g with
    | step done rest =>
      obtain ⟨rfl, rfl⟩ := hknown hk (htold _ (List.mem_cons_self ..)) done
      obtain ⟨t, x, g', hR, ht⟩ := ih rest fun e he => htold e (List.mem_cons_of_mem _ he)
      exact ⟨t, x, g', hR, ht.trans (asides_cons_spared (hspared hk) _).symm⟩

end Runs

end Prog

namespace Act

variable {known : (o : I.Op) → I.Ans o → Prop} {s s' : σ}

/-- Both end the same way, and where they return a value their local states are as `Q` says. -/
def Agree (Q : α → σ → σ → Prop) (x y : Except ε α × σ) : Prop :=
  x.1 = y.1 ∧ ∀ a, x.1 = .ok a → Q a x.2 y.2

/-- `Prog.Spares` of steps begun in two local states. -/
def Spares (known : (o : I.Op) → I.Ans o → Prop) (Q : α → σ → σ → Prop) (m m' : Act I σ ε α)
    (s s' : σ) : Prop :=
  (m s).Spares known (Agree Q) (m' s')

variable {Q : α → σ → σ → Prop}

theorem spares_pure {x : α} (h : Q x s s') :
    Spares known Q (Pure.pure x : Act I σ ε α) (Pure.pure x) s s' :=
  .ret ⟨rfl, fun _ ha => by cases ha; exact h⟩

theorem spares_op {o : I.Op} {Q : I.Ans o → σ → σ → Prop} (h : ∀ a, Q a s s') :
    Spares known Q (op o : Act I σ ε _) (op o) s s' :=
  .call fun a => .ret ⟨rfl, fun _ hx => by cases hx; exact h a⟩

theorem spares_ofExcept {r : Except ε α} (h : ∀ x, r = .ok x → Q x s s') :
    Spares known Q (ofExcept r : Act I σ ε α) (ofExcept r) s s' := by
  cases r with
  | ok x => exact .ret ⟨rfl, fun _ ha => by cases ha; exact h x rfl⟩
  | error e => exact .ret ⟨rfl, nofun⟩

theorem Spares.then {Q' : β → σ → σ → Prop} {m m' : Act I σ ε α} {f f' : α → Act I σ ε β}
    (hm : Spares known Q m m' s s') (hf : ∀ x s s', Q x s s' → Spares known Q' (f x) (f' x) s s') :
    Spares known Q' (m >>= f) (m' >>= f') s s' := by
  refine Prog.Spares.bind hm ?_
  rintro ⟨x, s⟩ ⟨y, s'⟩ ⟨rfl, hQ⟩
  cases x with
  | error e => exact .ret ⟨rfl, nofun⟩
  | ok x => exact hf x s s' (hQ x rfl)

theorem spares_fold (Inv : List α → σ → σ → Prop) {f f' : β → α → Act I σ ε β}
    (turn : ∀ x xs y s s', Inv (x :: xs) s s' →
      Spares known (fun _ s s' => Inv xs s s') (f y x) (f' y x) s s') :
    ∀ {xs : List α} {y : β} {s s' : σ}, Inv xs s s' →
      Spares known (fun _ s s' => Inv [] s s') (fold f y xs) (fold f' y xs) s s'
  | [], _, _, _, h => spares_pure h
  | x :: xs, y, s, s', h => Spares.then (turn x xs y s s' h) fun _ _ _ h => spares_fold Inv turn h

end Act

end Schemes
