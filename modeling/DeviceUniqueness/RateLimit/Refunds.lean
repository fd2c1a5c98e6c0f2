import DeviceUniqueness.Schemes.System

/-! Refunded requests.

    A request that is let through and then cannot be served is refunded: its key gets a credit, which
    pays for one later request before the quota is asked. Credits are counted in an atomic counter for
    each key, in a cache that may drop the counter at any time, so requests may still be at work on a
    counter that the cache has replaced. The counters are updated by compare and exchange, which is
    tried again when another request came in between. -/

namespace DeviceUniqueness.RateLimit

open Function Schemes

/-! ### What is asked -/

inductive Paid where
  | quota
  | credit
  deriving DecidableEq

/-- A counter, by the key it was made for and the number of those made before. -/
structure Counter where
  key : String
  gen : Nat
  deriving DecidableEq

inductive CreditAsk where
  | get (key : String)
  | getWith (key : String)
  | load (counter : Counter)
  | compareExchange (counter : Counter) (current new : Nat)
  | checkKey (key : String)
  | issue

@[reducible] def CreditAsk.Ans : CreditAsk → Type
  | .get _ => Option Counter
  | .getWith _ => Counter
  | .load _ => Nat
  | .compareExchange .. | .checkKey _ => Except Nat Unit
  | .issue => Bool

abbrev CreditWorld : Iface := ⟨CreditAsk, CreditAsk.Ans⟩

abbrev Throttled := Act CreditWorld Unit Unit

def creditAsk (o : CreditAsk) : Throttled o.Ans := Act.op (I := CreditWorld) o

/-! ### The limiter -/

/-- `fetch_update`, from the value last seen. It is followed for so many exchanges. -/
def fetchUpdate (f : Nat → Option Nat) (counter : Counter) : Nat → Nat → Throttled Bool
  | 0, _ => Act.fail ()
  | patience + 1, seen =>
      match f seen with
      | none => pure false
      | some new => do
          match ← creditAsk (.compareExchange counter seen new) with
          | .ok () => pure true
          | .error seen => fetchUpdate f counter patience seen

/-- `checked_sub(1)`. -/
def lessOne (held : Nat) : Option Nat := if held = 0 then none else some (held - 1)

def oneMore (maxBurst held : Nat) : Option Nat := if held < maxBurst then some (held + 1) else none

def spendCredit (patience : Nat) (key : String) : Throttled Bool := do
  match ← creditAsk (.get key) with
  | none => pure false
  | some counter =>
      let seen ← creditAsk (.load counter)
      fetchUpdate lessOne counter patience seen

def allow (patience : Nat) (key : String) : Throttled (Except Nat Paid) := do
  if ← spendCredit patience key then pure (.ok .credit)
  else
    match ← creditAsk (.checkKey key) with
    | .ok () => pure (.ok .quota)
    | .error earliest => pure (.error earliest)

def refund (maxBurst patience : Nat) (key : String) (paid : Paid) : Throttled Unit :=
  if paid ≠ .quota then pure ()
  else do
    let counter ← creditAsk (.getWith key)
    let seen ← creditAsk (.load counter)
    let _ ← fetchUpdate (oneMore maxBurst) counter patience seen
    pure ()

/-- A request of one of the two routes, as far as it concerns the limiter. -/
def issueCredentials (maxBurst patience : Nat) (key : String) : Throttled Unit := do
  match ← allow patience key with
  | .error _ => pure ()
  | .ok paid =>
      if ← creditAsk .issue then pure () else refund maxBurst patience key paid

/-! ### The counters -/

/-- `entry` is the counter the cache has for a key, `made` is how many were made for it. -/
structure Credits where
  entry : String → Option Nat
  held : Counter → Nat
  made : String → Nat

def Credits.none : Credits := ⟨fun _ => .none, fun _ => 0, fun _ => 0⟩

/-- An exchange takes place only on the value it expects. What is loaded may be out of date, and what
    the quota says is up to it. -/
def CreditAsk.Does (st : Credits) : (o : CreditAsk) → o.Ans → Credits → Prop
  | .get key, counter, st' => counter = (st.entry key).map (Counter.mk key) ∧ st' = st
  | .getWith key, counter, st' =>
      match st.entry key with
      | some gen => counter = ⟨key, gen⟩ ∧ st' = st
      | .none => counter = ⟨key, st.made key⟩ ∧
          st' = { st with
            entry := update st.entry key (some (st.made key))
            made := update st.made key (st.made key + 1) }
  | .compareExchange counter current new, reply, st' =>
      match (reply : Except Nat Unit) with
      | .ok () => st.held counter = current ∧
          st' = { st with held := update st.held counter new }
      | .error _ => st' = st
  | .load _, _, st' | .checkKey _, _, st' | .issue, _, st' => st' = st

variable {counter : Counter}

/-- The counter of a key is the one in the cache, or a new one. -/
theorem getWith_does {st st' : Credits} {key : String}
    (h : CreditAsk.Does st (.getWith key) counter st') :
    (∃ gen, st.entry key = some gen ∧ counter = ⟨key, gen⟩ ∧ st' = st) ∨
      (counter = ⟨key, st.made key⟩ ∧
        st' = { st with
          entry := update st.entry key (some (st.made key))
          made := update st.made key (st.made key + 1) }) := by
  rw [CreditAsk.Does] at h
  split at h
  · next gen hgen => exact .inl ⟨gen, hgen, h⟩
  · exact .inr h

/-- Any number of requests. The cache may drop the counter of a key at any time. -/
def Requests (maxBurst : Nat) : Machine CreditWorld Credits String (Except Unit Unit × Unit) where
  exec _ o st a st' := CreditAsk.Does st o a st'
  env key st st' := st' = { st with entry := update st.entry key .none }
  boot _ prog := ∃ patience key, prog = issueCredentials maxBurst patience key ()
  die _ st st' := st' = st

/-- A request that is dropped does not go on. -/
def Throttle (maxBurst : Nat) : Machine CreditWorld Credits String (Except Unit Unit × Unit) :=
  (Requests maxBurst).immortal

/-! ### Where a request stands -/

inductive CreditStage where
  | fresh
  | spending (counter : Counter)
  | without (key : String)
  | refused
  | granted (key : String)
  | credited (key : String)
  | banking (counter : Counter)
  | banked (key : String)

def creditNext : CreditStage → Ev CreditWorld → CreditStage
  | .fresh, ⟨.get key, counter⟩ =>
      match (counter : Option Counter) with
      | none => .without key
      | some counter => .spending counter
  | .spending _, ⟨.checkKey key, reply⟩ | .without _, ⟨.checkKey key, reply⟩ =>
      match (reply : Except Nat Unit) with
      | .ok () => .granted key
      | .error _ => .refused
  | .spending counter, ⟨.compareExchange .., reply⟩ =>
      match (reply : Except Nat Unit) with
      | .ok () => .credited counter.key
      | .error _ => .spending counter
  | .granted _, ⟨.getWith _, counter⟩ => .banking counter
  | .banking counter, ⟨.compareExchange .., reply⟩ =>
      match (reply : Except Nat Unit) with
      | .ok () => .banked counter.key
      | .error _ => .banking counter
  | stage, _ => stage

/-- A credit is spent from the counter found and banked in the counter got, one at a time, and only
    a request that the quota let through banks one. -/
def creditMonitor (maxBurst : Nat) : Monitor CreditWorld CreditStage where
  next := creditNext
  ok stage o :=
    match stage, o with
    | .fresh, .get _ => True
    | .spending counter, .load counter' => counter' = counter
    | .spending counter, .compareExchange counter' current new => counter' = counter ∧ current = new + 1
    | .spending counter, .checkKey key => key = counter.key
    | .without key, .checkKey key' => key' = key
    | .granted key, .getWith key' => key' = key
    | .granted _, .issue | .credited _, .issue => True
    | .banking counter, .load counter' => counter' = counter
    | .banking counter, .compareExchange counter' current new =>
        counter' = counter ∧ new = current + 1 ∧ new ≤ maxBurst
    | _, _ => False
  adm o a :=
    match o, a with
    | .get key, counter => ∀ c, counter = some c → c.key = key
    | .getWith key, counter => counter.key = key
    | _, _ => True

section Requests

variable {maxBurst : Nat}

theorem spend_sat : ∀ (patience seen : Nat),
    (fetchUpdate lessOne counter patience seen).Sat (creditMonitor maxBurst) () (.spending counter)
      (fun stage spent _ => stage = if spent then .credited counter.key else .spending counter) Anyhow
  | 0, _ => trivial
  | patience + 1, seen => by
      rw [fetchUpdate, lessOne]
      split_ifs with hzero
      · exact rfl
      · refine Act.sat_bind.mpr ⟨⟨rfl, (Nat.succ_pred_eq_of_ne_zero hzero).symm⟩, fun reply _ => ?_⟩
        match (reply : Except Nat Unit) with
        | .ok () => exact rfl
        | .error seen => exact spend_sat patience seen

theorem bank_sat : ∀ (patience seen : Nat),
    (fetchUpdate (oneMore maxBurst) counter patience seen).Sat (creditMonitor maxBurst) ()
      (.banking counter) Anyhow Anyhow
  | 0, _ => trivial
  | patience + 1, seen => by
      rw [fetchUpdate, oneMore]
      split_ifs with hroom
      · refine Act.sat_bind.mpr ⟨⟨rfl, rfl, hroom⟩, fun reply _ => ?_⟩
        match (reply : Except Nat Unit) with
        | .ok () => exact trivial
        | .error seen => exact bank_sat patience seen
      · exact trivial

/-- Where a look for a credit leaves the request. -/
def Looked (key : String) (spent : Bool) (stage : CreditStage) : Prop :=
  if spent then stage = .credited key
  else stage = .without key ∨ ∃ counter, stage = .spending counter ∧ counter.key = key

theorem spendCredit_sat (patience : Nat) (key : String) :
    (spendCredit patience key).Sat (creditMonitor maxBurst) () .fresh
      (fun stage spent _ => Looked key spent stage) Anyhow := by
  refine Act.sat_bind.mpr ⟨trivial, fun counter hkey => ?_⟩
  match counter with
  | none => exact .inl rfl
  | some (counter : Counter) =>
    obtain rfl : counter.key = key := hkey counter rfl
    refine Act.sat_bind.mpr ⟨rfl, fun seen _ => Act.Sat.mono (spend_sat patience seen) ?_ fun _ _ _ h => h⟩
    rintro _ spent _ rfl
    cases spent with
    | true => exact rfl
    | false => exact .inr ⟨_, rfl, rfl⟩

/-- Where the limiter leaves the request. -/
def Allowed (key : String) : Except Nat Paid → CreditStage → Prop
  | .ok .quota, stage => stage = .granted key
  | .ok .credit, stage => stage = .credited key
  | .error _, stage => stage = .refused

theorem allow_sat (patience : Nat) (key : String) :
    (allow patience key).Sat (creditMonitor maxBurst) () .fresh
      (fun stage paid _ => Allowed key paid stage) Anyhow := by
  refine Act.sat_bind.mpr (Act.Sat.mono (spendCredit_sat patience key) ?_ fun _ _ _ h => h)
  intro stage spent _ hlooked
  cases spent with
  | true => exact hlooked
  | false =>
    rcases hlooked with rfl | ⟨counter, rfl, rfl⟩
    · refine Act.sat_bind.mpr ⟨rfl, fun reply _ => ?_⟩
      match (reply : Except Nat Unit) with
      | .ok () | .error _ => exact rfl
    · refine Act.sat_bind.mpr ⟨rfl, fun reply _ => ?_⟩
      match (reply : Except Nat Unit) with
      | .ok () | .error _ => exact rfl

theorem issueCredentials_sat (patience : Nat) (key : String) :
    (issueCredentials maxBurst patience key).Sat (creditMonitor maxBurst) () .fresh Anyhow Anyhow := by
  refine Act.sat_bind.mpr (Act.Sat.mono (allow_sat patience key) ?_ fun _ _ _ h => h)
  intro stage paid _ hallowed
  match paid with
  | .error _ => exact trivial
  | .ok .credit =>
    obtain rfl : stage = .credited key := hallowed
    refine Act.sat_bind.mpr ⟨trivial, fun (issued : Bool) _ => ?_⟩
    cases issued <;> exact trivial
  | .ok .quota =>
    obtain rfl : stage = .granted key := hallowed
    refine Act.sat_bind.mpr ⟨trivial, fun (issued : Bool) _ => ?_⟩
    cases issued with
    | true => exact trivial
    | false =>
      refine Act.sat_bind.mpr ⟨rfl, fun counter _ => Act.sat_bind.mpr ⟨rfl, fun seen _ => ?_⟩⟩
      exact Act.sat_bind.mpr (Act.Sat.mono (bank_sat patience seen) (fun _ _ _ h => h) fun _ _ _ h => h)

end Requests

theorem throttle_bound (maxBurst : Nat) (st₀ : Credits) :
    Bound (Throttle maxBurst) st₀ (creditMonitor maxBurst) .fresh where
  boot := by
    rintro p _ ⟨patience, key, rfl⟩
    exact Prog.Sat.mono (fun _ _ _ => trivial) (issueCredentials_sat patience key)
  adm := by
    intro ls s p o a st' _ hexec
    cases o with
    | get key =>
      rintro counter rfl
      obtain ⟨gen, -, rfl⟩ := Option.map_eq_some_iff.mp hexec.1.symm
      rfl
    | getWith key =>
      rcases getWith_does hexec with ⟨gen, -, rfl, -⟩ | ⟨rfl, -⟩ <;> exact rfl
    | _ => exact trivial

/-! ### The accounts -/

inductive CreditEvent where
  | granted (p : Nat) (key : String)
  | spent (p : Nat) (key : String)
  | banked (p : Nat) (key : String)

/-- What a step means for the accounts: the quota let a request through, or a counter was lowered or
    raised. -/
def creditEvent : Label CreditWorld String → Option CreditEvent
  | .op p ⟨.checkKey key, .ok _⟩ => some (.granted p key)
  | .op p ⟨.compareExchange counter current new, .ok _⟩ =>
      some (if new < current then .spent p counter.key else .banked p counter.key)
  | _ => none

namespace CreditEvent

def grantedTo (key : String) : CreditEvent → Option Nat
  | .granted p key' => if key' = key then some p else none
  | _ => none

def spentBy (key : String) : CreditEvent → Option Nat
  | .spent p key' => if key' = key then some p else none
  | _ => none

def bankedFor (key : String) : CreditEvent → Option Nat
  | .banked p key' => if key' = key then some p else none
  | _ => none

end CreditEvent

/-- The requests of some kind, in the order they came to it. -/
def account (kind : CreditEvent → Option Nat) (ls : List (Label CreditWorld String)) : List Nat :=
  ls.filterMap fun l => (creditEvent l).bind kind

section Accounts

variable (key : String) (ls : List (Label CreditWorld String))

/-- The requests of the key the quota let through. -/
def grants : List Nat := account (CreditEvent.grantedTo key) ls

/-- The requests of the key that spent a credit. -/
def spends : List Nat := account (CreditEvent.spentBy key) ls

/-- The requests of the key whose refund banked a credit. -/
def banks : List Nat := account (CreditEvent.bankedFor key) ls

/-- The requests of the key that were let through and not refunded. -/
def unrefunded : List Nat := (grants key ls ++ spends key ls).filter (· ∉ banks key ls)

end Accounts

namespace CreditStage

def grantKey : CreditStage → Option String
  | .granted key | .banked key => some key
  | .banking counter => some counter.key
  | _ => none

def creditKey : CreditStage → Option String
  | .credited key => some key
  | _ => none

def bankKey : CreditStage → Option String
  | .banked key => some key
  | _ => none

end CreditStage

/-- The requests on an account are those that stand accordingly, each once. -/
structure Tally (kind : String → CreditEvent → Option Nat) (stands : CreditStage → Option String)
    (ls : List (Label CreditWorld String)) (watch : Nat → Option CreditStage) : Prop where
  mem : ∀ p key, p ∈ account (kind key) ls ↔ (watch p).bind stands = some key
  nodup : ∀ key, (account (kind key) ls).Nodup

variable {stage : CreditStage}

section Tally

variable {kind : String → CreditEvent → Option Nat} {stands : CreditStage → Option String}
  {ls : List (Label CreditWorld String)} {watch : Nat → Option CreditStage}
  {l : Label CreditWorld String} {p : Nat}

theorem account_snoc (kind : CreditEvent → Option Nat) (ls : List (Label CreditWorld String))
    (l : Label CreditWorld String) :
    account kind (ls ++ [l]) = account kind ls ++ ((creditEvent l).bind kind).toList := by
  rw [account, List.filterMap_append, account]
  cases h : (creditEvent l).bind kind <;> simp [h]

/-- A step that is not on the account, of a process that stands as before. -/
theorem Tally.same (h : Tally kind stands ls watch)
    (hl : ∀ key, (creditEvent l).bind (kind key) = none) {stage : Option CreditStage}
    (hstage : stage.bind stands = (watch p).bind stands) :
    Tally kind stands (ls ++ [l]) (update watch p stage) := by
  have haccount : ∀ key, account (kind key) (ls ++ [l]) = account (kind key) ls := by
    intro key
    rw [account_snoc, hl key, Option.toList_none, List.append_nil]
  refine ⟨fun q key => ?_, fun key => haccount key ▸ h.nodup key⟩
  rw [haccount, h.mem]
  rcases eq_or_ne q p with rfl | hne
  · rw [update_self, hstage]
  · rw [update_of_ne hne]

/-- A step that is on the account of a key, of a process that was on none. -/
theorem Tally.add (h : Tally kind stands ls watch) {key : String}
    (hl : ∀ key', (creditEvent l).bind (kind key') = if key = key' then some p else none)
    (hbefore : (watch p).bind stands = none) (hstage : stands stage = some key) :
    Tally kind stands (ls ++ [l]) (update watch p (some stage)) := by
  have hnew : ∀ key', p ∉ account (kind key') ls := by
    intro key' hp
    rw [h.mem, hbefore] at hp
    cases hp
  refine ⟨fun q key' => ?_, fun key' => ?_⟩
  · rw [account_snoc, hl, List.mem_append, h.mem]
    rcases eq_or_ne q p with rfl | hne
    · rw [hbefore, update_self, Option.bind_some, hstage]
      by_cases hkey : key = key' <;> simp [hkey]
    · rw [update_of_ne hne]
      by_cases hkey : key = key' <;> simp [hkey, hne]
  · rw [account_snoc, hl]
    split_ifs with hkey
    · rw [Option.toList_some, List.nodup_append]
      refine ⟨h.nodup key', List.nodup_singleton p, fun q hq q' hq' => ?_⟩
      obtain rfl := List.mem_singleton.mp hq'
      exact fun heq => hnew key' (heq ▸ hq)
    · rw [Option.toList_none, List.append_nil]
      exact h.nodup key'

end Tally

/-! ### What the counters hold -/

/-- All credits of a key, wherever they are. -/
def Credits.total (st : Credits) (key : String) : Nat :=
  ∑ gen ∈ Finset.range (st.made key), st.held ⟨key, gen⟩

/-- One counter is set: the total of its key changes by as much. -/
theorem total_update {st : Credits} (hmade : counter.gen < st.made counter.key) (new : Nat)
    (key : String) : ({ st with held := update st.held counter new } : Credits).total key +
        (if key = counter.key then st.held counter else 0) =
      st.total key + if key = counter.key then new else 0 := by
  rw [Credits.total, Credits.total]
  by_cases hkey : key = counter.key
  · subst hkey
    rw [if_pos rfl, if_pos rfl]
    have hmem : counter.gen ∈ Finset.range (st.made counter.key) := Finset.mem_range.mpr hmade
    have hrest : ∑ gen ∈ (Finset.range (st.made counter.key)).erase counter.gen,
          update st.held counter new ⟨counter.key, gen⟩ =
        ∑ gen ∈ (Finset.range (st.made counter.key)).erase counter.gen, st.held ⟨counter.key, gen⟩ := by
      refine Finset.sum_congr rfl fun gen hgen => update_of_ne ?_ _ _
      exact fun heq => (Finset.mem_erase.mp hgen).1 (congrArg Counter.gen heq)
    rw [← Finset.add_sum_erase _ _ hmem, hrest,
      ← Finset.add_sum_erase _ (fun gen => st.held ⟨counter.key, gen⟩) hmem]
    have hself : update st.held counter new ⟨counter.key, counter.gen⟩ = new :=
      update_self counter new st.held
    have hcounter : st.held ⟨counter.key, counter.gen⟩ = st.held counter := rfl
    dsimp only
    rw [hself, hcounter]
    omega
  · rw [if_neg hkey, if_neg hkey]
    refine congrArg (· + 0) (Finset.sum_congr rfl fun gen _ => update_of_ne ?_ _ _)
    exact fun heq => hkey (congrArg Counter.key heq)

/-- What is in the counters and what was spent is what was banked. Whoever works on a counter, in the
    cache or not, has one that was made. -/
structure CreditInv (maxBurst : Nat) (ls : List (Label CreditWorld String)) (st : Credits)
    (watch : Nat → Option CreditStage) : Prop where
  granted : Tally CreditEvent.grantedTo CreditStage.grantKey ls watch
  spent : Tally CreditEvent.spentBy CreditStage.creditKey ls watch
  banked : Tally CreditEvent.bankedFor CreditStage.bankKey ls watch
  balance : ∀ key, st.total key + (spends key ls).length = (banks key ls).length
  unmade : ∀ counter : Counter, st.made counter.key ≤ counter.gen → st.held counter = 0
  capped : ∀ counter, st.held counter ≤ maxBurst
  cached : ∀ key gen, st.entry key = some gen → gen < st.made key
  working : ∀ p counter, watch p = some (.spending counter) ∨ watch p = some (.banking counter) →
    counter.gen < st.made counter.key

section Steps

variable {maxBurst : Nat} {ls : List (Label CreditWorld String)} {st st' : Credits}
  {watch : Nat → Option CreditStage} {l : Label CreditWorld String} {p : Nat}

/-- A step that is on no account and leaves the counters, of a process that stands as before. -/
theorem CreditInv.quiet (h : CreditInv maxBurst ls st watch) (hl : creditEvent l = none)
    {stage : Option CreditStage}
    (hgrant : stage.bind CreditStage.grantKey = (watch p).bind CreditStage.grantKey)
    (hcredit : stage.bind CreditStage.creditKey = (watch p).bind CreditStage.creditKey)
    (hbank : stage.bind CreditStage.bankKey = (watch p).bind CreditStage.bankKey)
    (htotal : ∀ key, st'.total key = st.total key) (hheld : st'.held = st.held)
    (hmade : ∀ key, st.made key ≤ st'.made key)
    (hcached : ∀ key gen, st'.entry key = some gen → gen < st'.made key)
    (hworking : ∀ counter, stage = some (.spending counter) ∨ stage = some (.banking counter) →
      counter.gen < st'.made counter.key) :
    CreditInv maxBurst (ls ++ [l]) st' (update watch p stage) := by
  have hnone : ∀ kind : String → CreditEvent → Option Nat, ∀ key,
      (creditEvent l).bind (kind key) = none := by
    intro kind key
    rw [hl]
    rfl
  have haccount : ∀ kind, account kind (ls ++ [l]) = account kind ls := by
    intro kind
    rw [account_snoc, hl]
    exact List.append_nil _
  refine ⟨h.granted.same (hnone _) hgrant, h.spent.same (hnone _) hcredit, h.banked.same (hnone _) hbank,
    fun key => ?_, fun counter hc => ?_, fun counter => ?_, hcached, fun q counter hq => ?_⟩
  · rw [htotal, spends, banks, haccount, haccount]
    exact h.balance key
  · rw [hheld]
    exact h.unmade counter ((hmade counter.key).trans hc)
  · rw [hheld]
    exact h.capped counter
  · rcases eq_or_ne q p with rfl | hne
    · rw [update_self] at hq
      exact hworking counter hq
    · rw [update_of_ne hne] at hq
      exact (h.working q counter hq).trans_le (hmade counter.key)

variable {current new : Nat}

/-- An exchange that took place on a counter that was made: it is on one account, and the others
    stay. -/
theorem CreditInv.exchanged (h : CreditInv maxBurst ls st watch)
    (hmade : counter.gen < st.made counter.key) (hheld : st.held counter = current)
    (hnew : new ≤ maxBurst)
    (hworking : ∀ counter, stage ≠ .spending counter ∧ stage ≠ .banking counter)
    (hgranted : Tally CreditEvent.grantedTo CreditStage.grantKey (ls ++ [l])
      (update watch p (some stage)))
    (hspent : Tally CreditEvent.spentBy CreditStage.creditKey (ls ++ [l])
      (update watch p (some stage)))
    (hbanked : Tally CreditEvent.bankedFor CreditStage.bankKey (ls ++ [l])
      (update watch p (some stage)))
    {e : CreditEvent} (hevent : creditEvent l = some e)
    (hchange : ∀ key, (e.spentBy key).toList.length + (if key = counter.key then new else 0) =
      (e.bankedFor key).toList.length + (if key = counter.key then current else 0)) :
    CreditInv maxBurst (ls ++ [l]) { st with held := update st.held counter new }
      (update watch p (some stage)) := by
  refine ⟨hgranted, hspent, hbanked, fun key => ?_, fun c hc => ?_, fun c => ?_, h.cached,
    fun q c hq => ?_⟩
  · have htotal := total_update hmade new key
    have hbefore := h.balance key
    have hafter := hchange key
    rw [hheld] at htotal
    rw [spends, banks, account_snoc, account_snoc, hevent, List.length_append, List.length_append,
      Option.bind_some, Option.bind_some]
    rw [spends, banks] at hbefore
    omega
  · have hne : c ≠ counter := by
      rintro rfl
      exact absurd hmade (Nat.not_lt.mpr hc)
    exact (update_of_ne hne ..).trans (h.unmade c hc)
  · rcases eq_or_ne c counter with rfl | hne
    · dsimp only
      rw [update_self]
      exact hnew
    · dsimp only
      rw [update_of_ne hne]
      exact h.capped c
  · rcases eq_or_ne q p with rfl | hne
    · rw [update_self, Option.some.injEq, Option.some.injEq] at hq
      exact absurd hq (not_or.mpr (hworking c))
    · rw [update_of_ne hne] at hq
      exact h.working q c hq

/-- A step that is on no account and moves no request. The cache may drop a counter. -/
theorem CreditInv.unmoved (h : CreditInv maxBurst ls st watch) (hl : creditEvent l = none)
    (hheld : st'.held = st.held) (hmade : st'.made = st.made)
    (hcached : ∀ key gen, st'.entry key = some gen → st.entry key = some gen) :
    CreditInv maxBurst (ls ++ [l]) st' watch := by
  have htotal : ∀ key, st'.total key = st.total key := by
    intro key
    rw [Credits.total, hheld, hmade, Credits.total]
  have hquiet := h.quiet (p := 0) hl (rfl : (watch 0).bind CreditStage.grantKey = _) rfl rfl htotal
    hheld
    (fun key => (congrFun hmade key).ge)
    (fun key gen hgen => (h.cached key gen (hcached key gen hgen)).trans_eq (congrFun hmade key).symm)
    (fun counter hc => (h.working 0 counter hc).trans_eq (congrFun hmade counter.key).symm)
  rwa [update_eq_self] at hquiet

/-- A request looks into the cache. -/
theorem CreditInv.get (h : CreditInv maxBurst ls st watch) (hp : watch p = some .fresh)
    (key : String) :
    CreditInv maxBurst (ls ++ [.op p ⟨.get key, (st.entry key).map (Counter.mk key)⟩]) st
      (update watch p
        (some (creditNext .fresh ⟨.get key, (st.entry key).map (Counter.mk key)⟩))) := by
  cases hentry : st.entry key with
  | none =>
    refine h.quiet rfl (by rw [hp]; rfl) (by rw [hp]; rfl) (by rw [hp]; rfl) (fun _ => rfl) rfl
      (fun _ => le_refl _) h.cached ?_
    rintro counter (hc | hc) <;> cases hc
  | some gen =>
    refine h.quiet rfl (by rw [hp]; rfl) (by rw [hp]; rfl) (by rw [hp]; rfl) (fun _ => rfl) rfl
      (fun _ => le_refl _) h.cached ?_
    rintro counter (hc | hc)
    · cases hc
      exact h.cached key gen hentry
    · cases hc

/-- A counter that is made holds nothing, so the totals stay. -/
theorem CreditInv.total_made (h : CreditInv maxBurst ls st watch) (key key' : String)
    (entry : String → Option Nat) :
    (⟨entry, st.held, update st.made key (st.made key + 1)⟩ : Credits).total key' =
      st.total key' := by
  rw [Credits.total, Credits.total]
  rcases eq_or_ne key' key with rfl | hne
  · dsimp only
    rw [update_self, Finset.sum_range_succ, h.unmade ⟨key', st.made key'⟩ (le_refl _), add_zero]
  · dsimp only
    rw [update_of_ne hne]

/-- A request that was let through gets the counter of its key, to bank its refund. -/
theorem CreditInv.getWith (h : CreditInv maxBurst ls st watch) {key : String}
    (hp : watch p = some (.granted key)) (hexec : CreditAsk.Does st (.getWith key) counter st') :
    CreditInv maxBurst (ls ++ [.op p ⟨.getWith key, counter⟩]) st'
      (update watch p (some (.banking counter))) := by
  rcases getWith_does hexec with ⟨gen, hentry, rfl, rfl⟩ | ⟨rfl, rfl⟩
  · refine h.quiet rfl (by rw [hp]; rfl) (by rw [hp]; rfl) (by rw [hp]; rfl) (fun _ => rfl) rfl
      (fun _ => le_refl _) h.cached ?_
    rintro counter (hc | hc)
    · cases hc
    · cases hc
      exact h.cached key gen hentry
  · have hgrows : ∀ key', st.made key' ≤ update st.made key (st.made key + 1) key' := by
      intro key'
      rcases eq_or_ne key' key with rfl | hne
      · rw [update_self]
        exact Nat.le_succ _
      · rw [update_of_ne hne]
    have hnew : st.made key < update st.made key (st.made key + 1) key := by
      rw [update_self]
      exact Nat.lt_succ_self _
    refine h.quiet rfl (by rw [hp]; rfl) (by rw [hp]; rfl) (by rw [hp]; rfl)
      (fun key' => h.total_made key key' _) rfl hgrows ?_ ?_
    · intro key' gen hgen
      rcases eq_or_ne key' key with rfl | hne
      · dsimp only at hgen
        rw [update_self] at hgen
        cases hgen
        exact hnew
      · dsimp only at hgen
        rw [update_of_ne hne] at hgen
        exact (h.cached key' gen hgen).trans_le (hgrows key')
    · rintro counter (hc | hc)
      · cases hc
      · cases hc
        exact hnew

/-- The quota lets a request through. -/
theorem CreditInv.grant (h : CreditInv maxBurst ls st watch) {key : String}
    (hp : watch p = some stage) (hgrant : stage.grantKey = none) (hcredit : stage.creditKey = none)
    (hbank : stage.bankKey = none) : CreditInv maxBurst (ls ++ [.op p ⟨.checkKey key, .ok ()⟩]) st
      (update watch p (some (.granted key))) := by
  refine ⟨h.granted.add (fun _ => rfl) (by rw [hp]; exact hgrant) rfl,
    h.spent.same (fun _ => rfl) (by rw [hp]; exact hcredit.symm),
    h.banked.same (fun _ => rfl) (by rw [hp]; exact hbank.symm), fun key' => ?_, h.unmade, h.capped,
    h.cached, fun q counter hq => ?_⟩
  · rw [spends, banks, account_snoc, account_snoc]
    exact (congrArg₂ _ rfl (congrArg List.length (List.append_nil _))).trans
      ((h.balance key').trans (congrArg List.length (List.append_nil _)).symm)
  · rcases eq_or_ne q p with rfl | hne
    · rw [update_self] at hq
      rcases hq with hq | hq <;> cases hq
    · rw [update_of_ne hne] at hq
      exact h.working q counter hq

/-- A request takes a credit out of the counter it found. -/
theorem CreditInv.spend (h : CreditInv maxBurst ls st watch)
    (hp : watch p = some (.spending counter)) (hheld : st.held counter = new + 1) :
    CreditInv maxBurst (ls ++ [.op p ⟨.compareExchange counter (new + 1) new, .ok ()⟩])
      { st with held := update st.held counter new }
      (update watch p (some (.credited counter.key))) := by
  have hevent : creditEvent (.op p ⟨.compareExchange counter (new + 1) new, .ok ()⟩) =
      some (.spent p counter.key) := congrArg some (if_pos (Nat.lt_succ_self new))
  refine h.exchanged (h.working p counter (.inl hp)) hheld ?_ (fun _ => ⟨nofun, nofun⟩)
    (h.granted.same (fun _ => by rw [hevent]; rfl) (by rw [hp]; rfl))
    (h.spent.add (fun _ => by rw [hevent]; rfl) (by rw [hp]; rfl) rfl)
    (h.banked.same (fun _ => by rw [hevent]; rfl) (by rw [hp]; rfl)) hevent fun key => ?_
  · have := h.capped counter
    omega
  · rcases eq_or_ne key counter.key with rfl | hne
    · simp [CreditEvent.spentBy, CreditEvent.bankedFor, Nat.add_comm]
    · simp [CreditEvent.spentBy, CreditEvent.bankedFor, hne, hne.symm]

/-- A refund puts a credit into the counter it got. -/
theorem CreditInv.bank (h : CreditInv maxBurst ls st watch) (hp : watch p = some (.banking counter))
    (hheld : st.held counter = current) (hroom : current + 1 ≤ maxBurst) :
    CreditInv maxBurst (ls ++ [.op p ⟨.compareExchange counter current (current + 1), .ok ()⟩])
      { st with held := update st.held counter (current + 1) }
      (update watch p (some (.banked counter.key))) := by
  have hevent : creditEvent (.op p ⟨.compareExchange counter current (current + 1), .ok ()⟩) =
      some (.banked p counter.key) := congrArg some (if_neg (Nat.not_lt.mpr (Nat.le_succ current)))
  refine h.exchanged (h.working p counter (.inr hp)) hheld hroom (fun _ => ⟨nofun, nofun⟩)
    (h.granted.same (fun _ => by rw [hevent]; rfl) (by rw [hp]; rfl))
    (h.spent.same (fun _ => by rw [hevent]; rfl) (by rw [hp]; rfl))
    (h.banked.add (fun _ => by rw [hevent]; rfl) (by rw [hp]; rfl) rfl) hevent fun key => ?_
  rcases eq_or_ne key counter.key with rfl | hne
  · simp [CreditEvent.spentBy, CreditEvent.bankedFor, Nat.add_comm]
  · simp [CreditEvent.spentBy, CreditEvent.bankedFor, hne, hne.symm]

/-- A request the quota lets not through. -/
theorem CreditInv.refuse (h : CreditInv maxBurst ls st watch) {key : String} {earliest : Nat}
    (hp : watch p = some stage) (hgrant : stage.grantKey = none) (hcredit : stage.creditKey = none)
    (hbank : stage.bankKey = none) :
    CreditInv maxBurst (ls ++ [.op p ⟨.checkKey key, .error earliest⟩]) st
      (update watch p (some .refused)) := by
  refine h.quiet rfl (by rw [hp]; exact hgrant.symm) (by rw [hp]; exact hcredit.symm)
    (by rw [hp]; exact hbank.symm) (fun _ => rfl) rfl (fun _ => le_refl _) h.cached ?_
  rintro counter (hc | hc) <;> cases hc

/-- The quota's answer to a request that found no credit. -/
theorem CreditInv.checkKey (h : CreditInv maxBurst ls st watch) {key : String}
    {reply : Except Nat Unit} (hp : watch p = some stage)
    (hok : (creditMonitor maxBurst).ok stage (.checkKey key)) :
    CreditInv maxBurst (ls ++ [.op p ⟨.checkKey key, reply⟩]) st
      (update watch p (some (creditNext stage ⟨.checkKey key, reply⟩))) := by
  cases stage with
  | spending counter | without key' =>
    cases reply with
    | ok => exact h.grant hp rfl rfl rfl
    | error => exact h.refuse hp rfl rfl rfl
  | _ => exact hok.elim

/-- An exchange: on the value expected, or without effect. -/
theorem CreditInv.compareExchange (h : CreditInv maxBurst ls st watch) {reply : Except Nat Unit}
    (hp : watch p = some stage)
    (hok : (creditMonitor maxBurst).ok stage (.compareExchange counter current new))
    (hexec : CreditAsk.Does st (.compareExchange counter current new) reply st') :
    CreditInv maxBurst (ls ++ [.op p ⟨.compareExchange counter current new, reply⟩]) st'
      (update watch p
        (some (creditNext stage ⟨.compareExchange counter current new, reply⟩))) := by
  cases reply with
  | error seen =>
    have hstays : creditNext stage ⟨.compareExchange counter current new, .error seen⟩ = stage := by
      cases stage <;> rfl
    obtain rfl : st' = st := hexec
    rw [hstays, ← hp, update_eq_self]
    exact h.unmoved rfl rfl rfl fun _ _ => id
  | ok =>
    obtain ⟨hheld, rfl⟩ := hexec
    cases stage with
    | spending counter' =>
      obtain ⟨rfl, rfl⟩ := hok
      exact h.spend hp hheld
    | banking counter' =>
      obtain ⟨rfl, rfl, hroom⟩ := hok
      exact h.bank hp hheld hroom
    | _ => exact hok.elim

/-- What an operation that is allowed does. -/
theorem CreditInv.op (h : CreditInv maxBurst ls st watch) {o : CreditAsk} {a : o.Ans}
    (hp : watch p = some stage) (hok : (creditMonitor maxBurst).ok stage o)
    (hexec : CreditAsk.Does st o a st') : CreditInv maxBurst (ls ++ [.op p ⟨o, a⟩]) st'
      (update watch p (some (creditNext stage ⟨o, a⟩))) := by
  cases o with
  | issue =>
    have hstays : creditNext stage ⟨.issue, a⟩ = stage := by cases stage <;> rfl
    obtain rfl : st' = st := hexec
    rw [hstays, ← hp, update_eq_self]
    exact h.unmoved rfl rfl rfl fun _ _ => id
  | load counter =>
    have hstays : creditNext stage ⟨.load counter, a⟩ = stage := by cases stage <;> rfl
    obtain rfl : st' = st := hexec
    rw [hstays, ← hp, update_eq_self]
    exact h.unmoved rfl rfl rfl fun _ _ => id
  | get key =>
    obtain ⟨rfl, rfl⟩ := hexec
    cases stage with
    | fresh => exact h.get hp key
    | _ => exact hok.elim
  | getWith key =>
    cases stage with
    | granted key' =>
      obtain rfl : key = key' := hok
      exact h.getWith hp hexec
    | _ => exact hok.elim
  | checkKey key =>
    obtain rfl : st' = st := hexec
    exact h.checkKey hp hok
  | compareExchange counter current new => exact h.compareExchange hp hok hexec

end Steps

theorem reachable_creditInv {maxBurst : Nat} {ls : List (Label CreditWorld String)}
    {s : Sys CreditWorld Credits (Except Unit Unit × Unit)}
    (r : Reachable (Throttle maxBurst) Credits.none ls s) :
    CreditInv maxBurst ls s.st (s.watch (creditMonitor maxBurst) .fresh) := by
  refine Reachable.inv (throttle_bound maxBurst Credits.none) (CreditInv maxBurst) ?_
    ⟨?_, ?_, ?_, ?_⟩ r
  · exact ⟨⟨fun _ _ => ⟨nofun, nofun⟩, fun _ => .nil⟩, ⟨fun _ _ => ⟨nofun, nofun⟩, fun _ => .nil⟩,
      ⟨fun _ _ => ⟨nofun, nofun⟩, fun _ => .nil⟩, fun _ => rfl, fun _ _ => rfl, fun _ => Nat.zero_le _,
      nofun, fun _ _ hq => hq.elim nofun nofun⟩
  · exact fun _ _ _ _ _ _ _ _ h hp hok hexec => h.op hp hok hexec
  · rintro ls s key _ _ h rfl
    refine h.unmoved rfl rfl rfl fun key' gen hgen => ?_
    rcases eq_or_ne key' key with rfl | hne
    · dsimp only at hgen
      rw [update_self] at hgen
      cases hgen
    · dsimp only at hgen
      rwa [update_of_ne hne] at hgen
  · intro ls s p _ h hp
    refine h.quiet rfl (by rw [hp]; rfl) (by rw [hp]; rfl) (by rw [hp]; rfl) (fun _ => rfl) rfl
      (fun _ => le_refl _) h.cached ?_
    rintro counter (hc | hc) <;> cases hc
  · exact fun _ _ _ _ _ _ => False.elim

/-! ### Nothing is gained by refunds -/

section Conserved

variable {maxBurst : Nat} {ls : List (Label CreditWorld String)} {st : Credits}
  {watch : Nat → Option CreditStage}

/-- A request that banked a credit was let through by the quota. -/
theorem CreditInv.bank_granted (h : CreditInv maxBurst ls st watch) {p : Nat} {key : String}
    (hp : p ∈ banks key ls) : p ∈ grants key ls := by
  obtain ⟨stage, hwatch, hstage⟩ := Option.bind_eq_some_iff.mp ((h.banked.mem p key).mp hp)
  refine (h.granted.mem p key).mpr (Option.bind_eq_some_iff.mpr ⟨stage, hwatch, ?_⟩)
  cases stage with
  | banked => exact hstage
  | _ => cases hstage

/-- A request that spent a credit banks none. -/
theorem CreditInv.bank_not_spent (h : CreditInv maxBurst ls st watch) {p : Nat} {key : String}
    (hp : p ∈ banks key ls) (key' : String) : p ∉ spends key' ls := by
  intro hspent
  obtain ⟨stage, hwatch, hstage⟩ := Option.bind_eq_some_iff.mp ((h.banked.mem p key).mp hp)
  have hcredit := (h.spent.mem p key').mp hspent
  rw [hwatch] at hcredit
  cases stage with
  | banked => cases hcredit
  | _ => cases hstage

theorem CreditInv.spends_le (h : CreditInv maxBurst ls st watch) (key : String) :
    (spends key ls).length ≤ (banks key ls).length := by
  have := h.balance key
  omega

/-- Every credit spent is that of a request let through by the quota and refunded. -/
theorem CreditInv.unrefunded_le (h : CreditInv maxBurst ls st watch) (key : String) :
    (unrefunded key ls).length ≤ (grants key ls).length := by
  have hrefunded : (banks key ls).length ≤ ((grants key ls).filter (· ∈ banks key ls)).length := by
    refine (List.Nodup.subperm (h.banked.nodup key) fun p hp => ?_).length_le
    exact List.mem_filter.mpr ⟨h.bank_granted hp, decide_eq_true hp⟩
  have hsplit := List.length_eq_length_filter_add (l := grants key ls) fun p => decide (p ∈ banks key ls)
  have hspends := List.length_filter_le (fun p => decide (p ∉ banks key ls)) (spends key ls)
  have := h.spends_le key
  rw [unrefunded, List.filter_append, List.length_append]
  simp only [decide_not] at hspends hsplit ⊢
  omega

end Conserved

/-- In every run of any number of requests, with counters dropped at any time, no more requests of a
    key go unrefunded than its quota let through. The counter of a key holds at most the burst, each
    refund pays for at most one request of its key, and a request paid by a credit banks none. -/
theorem refunds_conserve {maxBurst : Nat} {ls : List (Label CreditWorld String)}
    {s : Sys CreditWorld Credits (Except Unit Unit × Unit)}
    (r : Reachable (Throttle maxBurst) Credits.none ls s) (key : String) :
    (unrefunded key ls).length ≤ (grants key ls).length ∧
    (∀ gen, s.st.entry key = some gen → s.st.held ⟨key, gen⟩ ≤ maxBurst) ∧
    (spends key ls).length ≤ (banks key ls).length ∧ (banks key ls).Nodup ∧
    ∀ p ∈ banks key ls, p ∈ grants key ls ∧ ∀ key', p ∉ spends key' ls := by
  have h := reachable_creditInv r
  exact ⟨h.unrefunded_le key, fun gen _ => h.capped ⟨key, gen⟩, h.spends_le key, h.banked.nodup key,
    fun p hp => ⟨h.bank_granted hp, h.bank_not_spent hp⟩⟩

/-- Whether what a request asks for is granted. -/
def creditAnswer (st : Credits) :
    (o : CreditAsk) → Bool → Option { x : o.Ans × Credits // CreditAsk.Does st o x.1 x.2 }
  | .get key, _ => some ⟨((st.entry key).map (Counter.mk key), st), rfl, rfl⟩
  | .getWith key, _ =>
      match hkey : st.entry key with
      | some gen => some ⟨(⟨key, gen⟩, st), by simp [CreditAsk.Does, hkey]⟩
      | .none => some ⟨(⟨key, st.made key⟩,
          { st with
            entry := update st.entry key (some (st.made key))
            made := update st.made key (st.made key + 1) }), by simp [CreditAsk.Does, hkey]⟩
  | .load counter, _ => some ⟨(st.held counter, st), rfl⟩
  | .compareExchange counter current new, _ =>
      if hheld : st.held counter = current then
        some ⟨(.ok (), { st with held := update st.held counter new }), hheld, rfl⟩
      else some ⟨(.error (st.held counter), st), rfl⟩
  | .checkKey _, yes => some ⟨(if yes then .ok () else .error 0, st), rfl⟩
  | .issue, yes => some ⟨(yes, st), rfl⟩

def creditPlayer (maxBurst : Nat) : Player (Requests maxBurst) Bool String where
  answer _ o st yes := creditAnswer st o yes
  act key st := some ⟨{ st with entry := update st.entry key .none }, rfl⟩
  image key := ⟨issueCredentials maxBurst 3 key (), fun _ => ⟨3, key, rfl⟩⟩
  lose _ st := ⟨st, rfl⟩

/-- Two requests cannot be served. The cache drops the counter with the first one's credit, a third
    request spends the credit of the second, and a fourth is refused. -/
def refundsTwo : List (Move Bool String String) :=
  [.start 1 "alice", .start 2 "alice", .start 3 "alice", .start 4 "alice",
    .op 1 true, .op 1 true, .op 1 false, .op 1 true, .op 1 true, .op 1 true, .env "alice",
    .op 2 true, .op 2 true, .op 2 false, .op 2 true, .op 3 true, .op 2 true, .op 2 true,
    .op 3 true, .op 3 true, .op 3 true, .op 4 true, .op 4 true, .op 4 false]

theorem refunds_conserve_two :
    ∃ ls s, Reachable (Throttle 2) Credits.none ls s ∧ banks "alice" ls = [1, 2] ∧
      spends "alice" ls = [3] ∧ s.st.entry "alice" = some 1 ∧
      (unrefunded "alice" ls).length ≤ (grants "alice" ls).length ∧ s.st.held ⟨"alice", 1⟩ ≤ 2 := by
  obtain ⟨ls, s, r, htest⟩ := (creditPlayer 2).reaches Credits.none refundsTwo
    (fun ls s => ls.all (fun l => !l.isKill) && (banks "alice" ls == [1, 2]) &&
      (spends "alice" ls == [3]) && (s.st.entry "alice" == some 1)) (by decide +kernel)
  simp only [Bool.and_eq_true, beq_iff_eq] at htest
  obtain ⟨⟨⟨hkill, hbanks⟩, hspends⟩, hentry⟩ := htest
  have r' : Reachable (Throttle 2) Credits.none ls s := Run.immortal r hkill
  obtain ⟨hunrefunded, hheld, -⟩ := refunds_conserve r' "alice"
  exact ⟨ls, s, r', hbanks, hspends, hentry, hunrefunded, hheld 1 hentry⟩

end DeviceUniqueness.RateLimit
