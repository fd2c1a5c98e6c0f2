import DeviceUniqueness.Intake.Json
import DeviceUniqueness.Schemes.System

/-! TURN credentials from the upstream provider.

    Every call asks the provider for a credential of its own. The last one that came is kept, and is
    served when the provider cannot be reached, as long as enough of its life is left. After three
    failures in a row the provider is not asked for a while. The kept credential and the count of
    failures are behind locks of their own, and the calls go on concurrently, each with the time it
    was made at. -/

namespace DeviceUniqueness.Turn

open Schemes

/-! ### What the provider answers -/

structure IceCredentials where
  servers : List String
  username : String
  password : String
  expiresAt : Nat
  deriving DecidableEq

def IceCredentials.remaining (c : IceCredentials) (now : Nat) : Nat := c.expiresAt - now

inductive CloudflareError where
  | unreachable (message : String)
  | rejected (message : String)
  | malformed (message : String)
  deriving DecidableEq

/-- The status with the text it is shown as, and the body, if that is JSON. -/
structure HttpReply where
  status : Nat
  shown : String
  body : Except String Json

def asStr : Json → Option String
  | .str s => some s
  | _ => none

def asU64 : Json → Option Nat
  | .num (.int n _) => if 0 ≤ n then some n.toNat else none
  | _ => none

def entryUrls (entry : Json) : List String :=
  match entry.get "urls" with
  | some (.str url) => [url]
  | some (.arr urls) => urls.filterMap asStr
  | _ => []

def pushNew (servers : List String) (url : String) : List String :=
  if url ∈ servers then servers else servers ++ [url]

/-- The servers and the credential, after one more entry. -/
def readEntry (read : List String × Option (String × String)) (entry : Json) :
    List String × Option (String × String) :=
  ((entryUrls entry).foldl pushNew read.1,
    match read.2 with
    | some credential => some credential
    | none => do
        let username ← (entry.get "username").bind asStr
        let password ← (entry.get "credential").bind asStr
        return (username, password))

def parseResponse (body : Json) (now requestedTtl : Nat) : Except String IceCredentials := do
  let entries ← match body.get "iceServers" with
    | some (.arr entries) => .ok entries
    | some _ => .error "iceServers is not an array"
    | none => .error "response has no iceServers"
  let (servers, credential) := entries.foldl readEntry ([], none)
  if servers = [] then .error "iceServers carried no URLs"
  match credential with
  | none => .error "iceServers carried no TURN credential"
  | some (username, password) =>
      let ttl := ((body.get "ttl").bind asU64).getD requestedTtl
      return ⟨servers, username, password, (now + ttl) % 2 ^ 64⟩

/-- What `fetch` makes of the reply to its request. -/
def fetched (ttl now : Nat) (reply : Except String HttpReply) :
    Except CloudflareError IceCredentials :=
  match reply with
  | .error message => .error (.unreachable message)
  | .ok reply =>
      if ¬(200 ≤ reply.status ∧ reply.status < 300) then
        let message := "status " ++ reply.shown
        -- 408 and 429 are the two that say "later", not "never"
        if (400 ≤ reply.status ∧ reply.status < 500) ∧ reply.status ≠ 408 ∧ reply.status ≠ 429 then
          .error (.rejected message)
        else .error (.unreachable message)
      else
        match reply.body with
        | .error message => .error (.malformed message)
        | .ok body => (parseResponse body now ttl).mapError .malformed

/-! ### The client -/

structure Breaker where
  consecutiveFailures : Nat
  skipUntil : Nat
  deriving DecidableEq

namespace Breaker

def default : Breaker := ⟨0, 0⟩

def failureThreshold : Nat := 3

def failureCooldown : Nat := 30

/-- `record_failure`. The count saturates, the end of the cooldown may wrap around. -/
def recordFailure (b : Breaker) (now : Nat) : Bool × Breaker :=
  let failures := min (b.consecutiveFailures + 1) (2 ^ 32 - 1)
  if failureThreshold ≤ failures then (true, ⟨failures, (now + failureCooldown) % 2 ^ 64⟩)
  else (false, ⟨failures, b.skipUntil⟩)

end Breaker

/-- What is reported to the caller. -/
structure Issued where
  servers : List String
  username : String
  password : String
  ttl : Nat
  deriving DecidableEq

/-- `from_cloudflare`, from what the client returned. -/
def fromCloudflare (now : Nat) : Except CloudflareError IceCredentials → Except Unit Issued
  | .ok c => .ok ⟨c.servers, c.username, c.password, c.remaining now⟩
  | .error _ => .error ()

inductive TurnAsk where
  | inCooldown (now : Nat)
  | lastGood
  | generate (now : Nat)
  | store (c : IceCredentials)
  | recordSuccess
  | recordFailure (now : Nat)
  | answer (now : Nat) (result : Except CloudflareError IceCredentials) (issued : Except Unit Issued)

@[reducible] def TurnAsk.Ans : TurnAsk → Type
  | .inCooldown _ | .recordFailure _ => Bool
  | .lastGood => Option IceCredentials
  | .generate _ => Except String HttpReply
  | .store _ | .recordSuccess | .answer .. => Unit

abbrev TurnWorld : Iface := ⟨TurnAsk, TurnAsk.Ans⟩

abbrev Issuing := Act TurnWorld Unit CloudflareError

def ask (o : TurnAsk) : Issuing o.Ans := Act.op (I := TurnWorld) o

def minUsefulRemaining (ttl : Nat) : Nat := min 60 (max (ttl / 4) 1)

def cached (ttl now : Nat) : Issuing (Option IceCredentials) := do
  let held ← ask .lastGood
  pure (held.filter fun c => minUsefulRemaining ttl ≤ c.remaining now)

def fetch (ttl now : Nat) : Issuing IceCredentials := do
  let reply ← ask (.generate now)
  Act.ofExcept (fetched ttl now reply)

/-- The part of `issue` that comes after a failure of the provider. -/
def fallBack (ttl now : Nat) (err : CloudflareError) : Issuing IceCredentials := do
  let _tripped ← ask (.recordFailure now)
  match ← cached ttl now with
  | some c => pure c
  | none => Act.fail err

/-- The part of `issue` that asks the provider. -/
def fetchOrFallBack (ttl now : Nat) : Issuing IceCredentials := do
  match ← Act.attempt (fetch ttl now) with
  | .ok fresh =>
      ask (.store fresh)
      ask .recordSuccess
      pure fresh
  | .error (.rejected message) => Act.fail (.rejected message)
  | .error err => fallBack ttl now err

def issue (ttl now : Nat) : Issuing IceCredentials := do
  if ← ask (.inCooldown now) then
    match ← cached ttl now with
    | some c => pure c
    | none => fetchOrFallBack ttl now
  else fetchOrFallBack ttl now

/-- A call, up to its answer. -/
def call (ttl now : Nat) : Issuing Unit := do
  let result ← Act.attempt (issue ttl now)
  ask (.answer now result (fromCloudflare now result))

structure ClientState where
  lastGood : Option IceCredentials
  breaker : Breaker

def ClientState.new : ClientState := ⟨none, .default⟩

/-- What an operation does. The provider may answer anything. -/
def TurnAsk.Does (st : ClientState) : (o : TurnAsk) → o.Ans → ClientState → Prop
  | .inCooldown now, yes, st' => yes = decide (now < st.breaker.skipUntil) ∧ st' = st
  | .lastGood, held, st' => held = st.lastGood ∧ st' = st
  | .store c, _, st' => st' = { st with lastGood := some c }
  | .recordSuccess, _, st' => st' = { st with breaker := .default }
  | .recordFailure now, tripped, st' =>
      tripped = (st.breaker.recordFailure now).1 ∧
        st' = { st with breaker := (st.breaker.recordFailure now).2 }
  | .generate _, _, st' | .answer .., _, st' => st' = st

/-- Any number of calls. -/
def Callers (ttl : Nat) : Machine TurnWorld ClientState Empty (Except CloudflareError Unit × Unit) where
  exec _ o st a st' := TurnAsk.Does st o a st'
  env e _ _ := nomatch e
  boot _ prog := ∃ now, prog = call ttl now ()
  die _ st st' := st' = st

/-- A call that is dropped does not go on. -/
def Calls (ttl : Nat) : Machine TurnWorld ClientState Empty (Except CloudflareError Unit × Unit) :=
  (Callers ttl).immortal

/-! ### What a call may do -/

abbrev CallHistory := List (Ev TurnWorld)

def fetchOf : Ev TurnWorld → Option (Nat × Except String HttpReply)
  | ⟨.generate now, reply⟩ => some (now, reply)
  | _ => none

/-- The requests to the provider in the history of a call. -/
def fetches (h : CallHistory) : List (Nat × Except String HttpReply) := h.filterMap fetchOf

theorem mem_fetches {h : CallHistory} {now : Nat} {reply : Except String HttpReply} :
    (now, reply) ∈ fetches h ↔ ⟨.generate now, reply⟩ ∈ h := by
  rw [fetches, List.mem_filterMap]
  constructor
  · rintro ⟨⟨o, a⟩, he, heq⟩
    cases o with
    | generate now' =>
      cases heq
      exact he
    | _ => cases heq
  · exact fun he => ⟨_, he, rfl⟩

def Got (ttl : Nat) (h : CallHistory) (now : Nat) (outcome : Except CloudflareError IceCredentials) :
    Prop :=
  ∃ reply, (now, reply) ∈ fetches h ∧ fetched ttl now reply = outcome

/-- What a call may return, given what it did. -/
structure Returns (ttl : Nat) (h : CallHistory) (now : Nat)
    (result : Except CloudflareError IceCredentials) : Prop where
  served : ∀ c, result = .ok c → Got ttl h now (.ok c) ∨
    ⟨.lastGood, some c⟩ ∈ h ∧ minUsefulRemaining ttl ≤ c.remaining now
  rejected : ∀ now' message, Got ttl h now' (.error (.rejected message)) →
    result = .error (.rejected message)
  spared : fetches h = [] → ⟨.inCooldown now, true⟩ ∈ h

/-- A call stores what it fetched, and records the failure of its own request. -/
def CallAllows (ttl : Nat) (h : CallHistory) : TurnAsk → Prop
  | .store c => ∃ now, Got ttl h now (.ok c)
  | .recordFailure now => ∃ err, Got ttl h now (.error err) ∧ ∀ message, err ≠ .rejected message
  | .answer now result issued => issued = fromCloudflare now result ∧ Returns ttl h now result
  | _ => True

section Programs

variable {ttl now : Nat} {h : CallHistory} {c : IceCredentials} {reply : Except String HttpReply}

theorem got_of_fetches (hh : fetches h = [(now, reply)]) : Got ttl h now (fetched ttl now reply) :=
  ⟨reply, by rw [hh]; exact List.mem_singleton_self _, rfl⟩

/-- The one request of a call was rejected only if its reply says so. -/
theorem not_rejected (hh : fetches h = [(now, reply)])
    (hreply : ∀ message, fetched ttl now reply ≠ .error (.rejected message)) (now' : Nat)
    (message : String) : ¬Got ttl h now' (.error (.rejected message)) := by
  rintro ⟨reply', hmem, heq⟩
  rw [hh, List.mem_singleton] at hmem
  cases hmem
  exact hreply message heq

theorem cached_sat :
    (cached ttl now).Sat (Monitor.history (CallAllows ttl)) () h
      (fun h' held _ => ∃ kept, h' = h ++ [⟨.lastGood, kept⟩] ∧
        ∀ c, held = some c → kept = some c ∧ minUsefulRemaining ttl ≤ c.remaining now)
      (fun _ _ _ => False) := by
  refine Act.sat_bind.mpr ⟨trivial, fun kept _ => ⟨kept, rfl, fun c hc => ?_⟩⟩
  obtain ⟨hkept, huseful⟩ := Option.filter_eq_some_iff.mp hc
  exact ⟨hkept, of_decide_eq_true huseful⟩

theorem fetches_append (h h' : CallHistory) : fetches (h ++ h') = fetches h ++ fetches h' :=
  List.filterMap_append

/-- A call whose one request failed, and was not rejected. -/
theorem fallBack_sat {err : CloudflareError} (hh : fetches h = [(now, reply)])
    (herr : fetched ttl now reply = .error err) (hnot : ∀ message, err ≠ .rejected message) :
    (fallBack ttl now err).Sat (Monitor.history (CallAllows ttl)) () h
      (fun h' c _ => Returns ttl h' now (.ok c)) (fun h' err _ => Returns ttl h' now (.error err)) := by
  have hreply : ∀ message, fetched ttl now reply ≠ .error (.rejected message) := by
    intro message heq
    exact hnot message (Except.error.inj (herr.symm.trans heq))
  refine Act.sat_bind.mpr ⟨⟨err, herr ▸ got_of_fetches hh, hnot⟩, fun tripped _ => ?_⟩
  refine Act.sat_bind.mpr (Act.Sat.mono cached_sat ?_ fun _ _ _ => False.elim)
  rintro _ held _ ⟨kept, rfl, hkept⟩
  have hfetches : fetches (h ++ [⟨.recordFailure now, tripped⟩] ++ [⟨.lastGood, kept⟩]) =
      [(now, reply)] := by
    rw [fetches_append, fetches_append, hh]
    rfl
  have hspared : fetches (h ++ [⟨.recordFailure now, tripped⟩] ++ [⟨.lastGood, kept⟩]) ≠ [] := by
    rw [hfetches]
    exact List.cons_ne_nil _ _
  have hrejected : ∀ now' message, ¬Got ttl (h ++ [⟨.recordFailure now, tripped⟩] ++
      [⟨.lastGood, kept⟩]) now' (.error (.rejected message)) := not_rejected hfetches hreply
  cases held with
  | none => exact ⟨nofun, fun _ _ hgot => (hrejected _ _ hgot).elim, fun hnil => (hspared hnil).elim⟩
  | some c =>
    obtain ⟨rfl, huseful⟩ := hkept c rfl
    refine ⟨?_, fun _ _ hgot => (hrejected _ _ hgot).elim, fun hnil => (hspared hnil).elim⟩
    rintro c' ⟨⟩
    exact .inr ⟨List.mem_append_right _ (List.mem_singleton_self _), huseful⟩

theorem fetchOrFallBack_sat (hh : fetches h = []) :
    (fetchOrFallBack ttl now).Sat (Monitor.history (CallAllows ttl)) () h
      (fun h' c _ => Returns ttl h' now (.ok c)) (fun h' err _ => Returns ttl h' now (.error err)) := by
  refine Act.sat_bind.mpr (Act.sat_attempt.mpr (Act.sat_bind.mpr ⟨trivial, fun reply _ => ?_⟩))
  have hone : fetches (h ++ [⟨.generate now, reply⟩]) = [(now, reply)] := by
    rw [fetches_append, hh]
    rfl
  refine Act.sat_ofExcept.mpr ⟨fun fresh hfresh => ?_, fun err herr => ?_⟩
  · have hgot : Got ttl (h ++ [⟨.generate now, reply⟩]) now (.ok fresh) := hfresh ▸ got_of_fetches hone
    refine Act.sat_bind.mpr ⟨⟨now, hgot⟩, fun _ _ => Act.sat_bind.mpr ⟨trivial, fun _ _ => ?_⟩⟩
    have hfetches : fetches (h ++ [⟨.generate now, reply⟩] ++ [⟨.store fresh, ()⟩] ++
        [⟨.recordSuccess, ()⟩]) = [(now, reply)] := by
      rw [fetches_append, fetches_append, hone]
      rfl
    refine ⟨?_, fun _ _ hgot => absurd hgot (not_rejected hfetches ?_ _ _), fun hnil => ?_⟩
    · rintro c ⟨⟩
      exact .inl (hfresh ▸ got_of_fetches hfetches)
    · intro message heq
      cases hfresh.symm.trans heq
    · exact absurd (hfetches.symm.trans hnil) (List.cons_ne_nil _ _)
  · cases err with
    | rejected message =>
      refine ⟨nofun, ?_, fun hnil => absurd (hone.symm.trans hnil) (List.cons_ne_nil _ _)⟩
      rintro now' message' ⟨reply', hmem, heq⟩
      change (now', reply') ∈ fetches (h ++ [⟨.generate now, reply⟩]) at hmem
      rw [hone, List.mem_singleton] at hmem
      cases hmem
      exact herr.symm.trans heq
    | unreachable message | malformed message => exact fallBack_sat hone herr nofun

theorem issue_sat :
    (issue ttl now).Sat (Monitor.history (CallAllows ttl)) () []
      (fun h' c _ => Returns ttl h' now (.ok c)) (fun h' err _ => Returns ttl h' now (.error err)) := by
  refine Act.sat_bind.mpr ⟨trivial, fun (cooling : Bool) _ => ?_⟩
  cases cooling with
  | false => exact fetchOrFallBack_sat rfl
  | true =>
    refine Act.sat_bind.mpr (Act.Sat.mono cached_sat ?_ fun _ _ _ => False.elim)
    rintro _ held _ ⟨kept, rfl, hkept⟩
    cases held with
    | none => exact fetchOrFallBack_sat rfl
    | some c =>
      obtain ⟨rfl, huseful⟩ := hkept c rfl
      refine ⟨?_, ?_, fun _ => List.mem_cons_self ..⟩
      · rintro c' ⟨⟩
        exact .inr ⟨List.mem_cons_of_mem _ (List.mem_cons_self ..), huseful⟩
      · rintro now' message ⟨reply, hmem, -⟩
        cases hmem

theorem call_sat :
    (call ttl now).Sat (Monitor.history (CallAllows ttl)) () [] Anyhow Anyhow := by
  refine Act.sat_bind.mpr (Act.sat_attempt.mpr (Act.Sat.mono issue_sat ?_ ?_))
  · exact fun _ _ _ hreturns => ⟨⟨rfl, hreturns⟩, fun _ _ => trivial⟩
  · exact fun _ _ _ hreturns => ⟨⟨rfl, hreturns⟩, fun _ _ => trivial⟩

theorem calls_bound (ttl : Nat) (st₀ : ClientState) :
    Bound (Callers ttl).immortal st₀ (Monitor.history (CallAllows ttl)) [] where
  boot := by
    rintro p _ ⟨now, rfl⟩
    exact Prog.Sat.mono (fun _ _ _ => trivial) call_sat
  adm _ _ _ _ _ _ _ _ := trivial

end Programs

/-! ### What a run shows -/

section Runs

variable {ttl : Nat} {ls : List (Label TurnWorld Empty)}
  {s : Sys TurnWorld ClientState (Except CloudflareError Unit × Unit)}

/-- The call's request to the provider came to the outcome. -/
def Fetched (ttl : Nat) (ls : List (Label TurnWorld Empty)) (p now : Nat)
    (outcome : Except CloudflareError IceCredentials) : Prop :=
  ∃ reply, .op p ⟨.generate now, reply⟩ ∈ ls ∧ fetched ttl now reply = outcome

theorem got_own {p now : Nat} {outcome : Except CloudflareError IceCredentials} :
    Got ttl (ls.filterMap (Label.own p)) now outcome ↔ Fetched ttl ls p now outcome := by
  refine exists_congr fun reply => and_congr_left fun _ => ?_
  rw [mem_fetches, Label.mem_own]

/-- One more step, for the failures since the last success. -/
def recorded (failures : List Nat) : Label TurnWorld Empty → List Nat
  | .op _ ⟨.recordSuccess, _⟩ => []
  | .op _ ⟨.recordFailure now, _⟩ => failures ++ [now]
  | _ => failures

/-- The failures recorded since the last recorded success, each with its time. -/
def failuresSince (ls : List (Label TurnWorld Empty)) : List Nat := ls.foldl recorded []

/-- The breaker after some failures. -/
def Breaker.after (failures : List Nat) : Breaker :=
  failures.foldl (fun b now => (b.recordFailure now).2) .default

theorem Breaker.after_snoc (failures : List Nat) (now : Nat) :
    Breaker.after (failures ++ [now]) = ((Breaker.after failures).recordFailure now).2 :=
  List.foldl_concat ..

theorem Breaker.recordFailure_count (b : Breaker) (now : Nat) :
    (b.recordFailure now).2.consecutiveFailures = min (b.consecutiveFailures + 1) (2 ^ 32 - 1) := by
  rw [recordFailure]
  split <;> rfl

theorem Breaker.after_count (failures : List Nat) :
    (Breaker.after failures).consecutiveFailures = min failures.length (2 ^ 32 - 1) := by
  induction failures using List.reverseRecOn with
  | nil => rfl
  | append_singleton failures now ih =>
    rw [Breaker.after_snoc, Breaker.recordFailure_count, ih, List.length_append, List.length_singleton]
    omega

/-- The provider is not asked only after three failures, and for a while after the last of them. -/
theorem Breaker.after_skips {failures : List Nat} {now : Nat}
    (h : now < (Breaker.after failures).skipUntil) :
    3 ≤ failures.length ∧ ∃ latest, failures.getLast? = some latest ∧ now < latest + 30 := by
  induction failures using List.reverseRecOn with
  | nil => cases h
  | append_singleton failures latest ih =>
    rw [Breaker.after_snoc, Breaker.recordFailure, Breaker.after_count] at h
    rw [List.length_append, List.length_singleton]
    split_ifs at h with hthree
    · rw [Breaker.failureThreshold] at hthree
      refine ⟨by omega, latest, List.getLast?_concat .., h.trans_le (Nat.mod_le _ _)⟩
    · -- below the threshold there was no cooldown before either
      obtain ⟨hlength, -⟩ := ih h
      rw [Breaker.failureThreshold] at hthree
      omega

/-- What is kept was fetched, and the breaker is that of the failures since the last success. -/
structure ClientInv (ttl : Nat) (ls : List (Label TurnWorld Empty)) (st : ClientState) : Prop where
  kept : ∀ c, st.lastGood = some c → ∃ p now, Fetched ttl ls p now (.ok c)
  breaker : st.breaker = .after (failuresSince ls)

theorem Fetched.mono {p now : Nat} {outcome : Except CloudflareError IceCredentials}
    (h : Fetched ttl ls p now outcome) (ls' : List (Label TurnWorld Empty)) :
    Fetched ttl (ls ++ ls') p now outcome := by
  obtain ⟨reply, hmem, heq⟩ := h
  exact ⟨reply, List.mem_append_left _ hmem, heq⟩

theorem failuresSince_snoc (ls : List (Label TurnWorld Empty)) (l : Label TurnWorld Empty) :
    failuresSince (ls ++ [l]) = recorded (failuresSince ls) l :=
  List.foldl_concat ..

/-- A step that leaves the client as it is. -/
theorem ClientInv.same {st : ClientState} {l : Label TurnWorld Empty} (h : ClientInv ttl ls st)
    (hl : recorded (failuresSince ls) l = failuresSince ls) : ClientInv ttl (ls ++ [l]) st := by
  refine ⟨fun c hc => ?_, ?_⟩
  · obtain ⟨p, now, hgot⟩ := h.kept c hc
    exact ⟨p, now, hgot.mono _⟩
  · rw [failuresSince_snoc, hl]
    exact h.breaker

theorem ClientInv.op {st st' : ClientState} {p : Nat} {o : TurnAsk} {a : o.Ans}
    (h : ClientInv ttl ls st) (hallowed : CallAllows ttl (ls.filterMap (Label.own p)) o)
    (hexec : TurnAsk.Does st o a st') : ClientInv ttl (ls ++ [.op p ⟨o, a⟩]) st' := by
  cases o with
  | store c =>
    obtain rfl : st' = { st with lastGood := some c } := hexec
    obtain ⟨now, hgot⟩ := hallowed
    refine ⟨?_, (h.same rfl).breaker⟩
    rintro _ ⟨⟩
    exact ⟨p, now, (got_own.mp hgot).mono _⟩
  | recordSuccess =>
    obtain rfl : st' = { st with breaker := .default } := hexec
    exact ⟨fun c hc => (h.kept c hc).imp fun _ => .imp fun _ hgot => hgot.mono _,
      (failuresSince_snoc ..).symm ▸ rfl⟩
  | recordFailure now =>
    obtain ⟨-, rfl⟩ := hexec
    refine ⟨fun c hc => (h.kept c hc).imp fun _ => .imp fun _ hgot => hgot.mono _, ?_⟩
    dsimp only
    rw [failuresSince_snoc, h.breaker]
    exact (Breaker.after_snoc _ now).symm
  | inCooldown now | lastGood =>
    obtain ⟨-, rfl⟩ := hexec
    exact h.same rfl
  | generate now | answer now result issued =>
    obtain rfl : st' = st := hexec
    exact h.same rfl

theorem reachable_clientInv (r : Reachable (Calls ttl) .new ls s) : ClientInv ttl ls s.st := by
  induction r with
  | nil => exact ⟨nofun, rfl⟩
  | @snoc ls t u l r d ih =>
    cases d with
    | @op p o _ _ a _ live done =>
      have hrun : Reachable (Callers ttl).immortal .new (ls ++ .op p ⟨o, a⟩ :: []) _ :=
        r.snoc (.op live done)
      exact ih.op (Reachable.op_allowed (calls_bound ttl .new) hrun) done
    | @env _ e => exact nomatch e
    | start free boots => exact ih.same rfl
    | kill done => exact done.elim

/-- A kept credential that a call was handed had been fetched. -/
theorem lastGood_fetched {before after : List (Label TurnWorld Empty)} {p : Nat} {c : IceCredentials}
    (r : Reachable (Calls ttl) .new (before ++ .op p ⟨.lastGood, some c⟩ :: after) s) :
    ∃ q now, Fetched ttl before q now (.ok c) := by
  obtain ⟨u, v, r, d⟩ := r.cut_at
  cases d with
  | op live done => exact (reachable_clientInv r).kept c done.1.symm

/-- A call that is told to spare the provider comes soon after three failures. -/
theorem inCooldown_failures {before after : List (Label TurnWorld Empty)} {p now : Nat}
    (r : Reachable (Calls ttl) .new (before ++ .op p ⟨.inCooldown now, true⟩ :: after) s) :
    3 ≤ (failuresSince before).length ∧
      ∃ latest, (failuresSince before).getLast? = some latest ∧ now < latest + 30 := by
  obtain ⟨u, v, r, d⟩ := r.cut_at
  cases d with
  | op live done =>
    have hskips := of_decide_eq_true done.1.symm
    rw [(reachable_clientInv r).breaker] at hskips
    exact Breaker.after_skips hskips

theorem minUsefulRemaining_bounds (httl : 1 ≤ ttl) :
    1 ≤ minUsefulRemaining ttl ∧ minUsefulRemaining ttl ≤ ttl ∧ minUsefulRemaining ttl ≤ 60 := by
  rw [minUsefulRemaining]
  omega

end Runs

/-- In every run of any number of calls, of a call that has answered: a credential it returns it
    fetched itself, or it was fetched before and is good for the floor at least, and what is reported
    is what is left of its life. A rejection is returned. A call that did not ask the provider came
    within 30 seconds of the last of three failures or more, with no success since; and a failure is
    recorded only for a request that failed and was not rejected. -/
theorem fallback_sound {ttl : Nat} (httl : 1 ≤ ttl) {before after : List (Label TurnWorld Empty)}
    {s : Sys TurnWorld ClientState (Except CloudflareError Unit × Unit)} {p now : Nat}
    {result : Except CloudflareError IceCredentials} {issued : Except Unit Issued}
    (r : Reachable (Calls ttl) .new (before ++ .op p ⟨.answer now result issued, ()⟩ :: after) s) :
    (1 ≤ minUsefulRemaining ttl ∧ minUsefulRemaining ttl ≤ ttl ∧ minUsefulRemaining ttl ≤ 60) ∧
    (∀ c, result = .ok c →
      (Fetched ttl before p now (.ok c) ∨
        (∃ q now', Fetched ttl before q now' (.ok c)) ∧ minUsefulRemaining ttl ≤ c.remaining now) ∧
      issued = .ok ⟨c.servers, c.username, c.password, c.expiresAt - now⟩) ∧
    (∀ now' message, Fetched ttl before p now' (.error (.rejected message)) →
      result = .error (.rejected message) ∧ issued = .error ()) ∧
    ((∀ now' reply, .op p ⟨.generate now', reply⟩ ∉ before) →
      ∃ early late, before = early ++ .op p ⟨.inCooldown now, true⟩ :: late ∧
        3 ≤ (failuresSince early).length ∧
        ∃ latest, (failuresSince early).getLast? = some latest ∧ now < latest + 30) ∧
    ∀ q now' tripped, .op q ⟨.recordFailure now', tripped⟩ ∈ before →
      ∃ err, Fetched ttl before q now' (.error err) ∧ ∀ message, err ≠ .rejected message := by
  obtain ⟨hissued, hreturns⟩ := Reachable.op_allowed (calls_bound ttl .new) r
  refine ⟨minUsefulRemaining_bounds httl, ?_, ?_, fun hnone => ?_, fun q now' tripped hfailed => ?_⟩
  · rintro c rfl
    refine ⟨?_, hissued⟩
    rcases hreturns.served c rfl with hgot | ⟨hkept, huseful⟩
    · exact .inl (got_own.mp hgot)
    · obtain ⟨early, late, rfl⟩ := List.append_of_mem (Label.mem_own.mp hkept)
      rw [List.append_assoc] at r
      obtain ⟨q, now', hfetched⟩ := lastGood_fetched r
      exact .inr ⟨⟨q, now', hfetched.mono _⟩, huseful⟩
  · intro now' message hrejected
    obtain rfl := hreturns.rejected now' message (got_own.mpr hrejected)
    exact ⟨rfl, hissued⟩
  · have hnil : fetches (before.filterMap (Label.own p)) = [] := by
      refine List.eq_nil_iff_forall_not_mem.mpr ?_
      rintro ⟨now', reply⟩ hmem
      exact hnone now' reply (Label.mem_own.mp (mem_fetches.mp hmem))
    obtain ⟨early, late, rfl⟩ := List.append_of_mem (Label.mem_own.mp (hreturns.spared hnil))
    rw [List.append_assoc] at r
    exact ⟨early, late, rfl, inCooldown_failures r⟩
  · obtain ⟨early, late, rfl⟩ := List.append_of_mem hfailed
    rw [List.append_assoc] at r
    obtain ⟨err, hgot, hnot⟩ := Reachable.op_allowed (calls_bound ttl .new) r
    exact ⟨err, (got_own.mp hgot).mono _, hnot⟩

def turnAnswer (st : ClientState) (reply : Except String HttpReply) :
    (o : TurnAsk) → { x : o.Ans × ClientState // TurnAsk.Does st o x.1 x.2 }
  | .inCooldown now => ⟨(decide (now < st.breaker.skipUntil), st), rfl, rfl⟩
  | .lastGood => ⟨(st.lastGood, st), rfl, rfl⟩
  | .generate _ => ⟨(reply, st), rfl⟩
  | .store c => ⟨((), { st with lastGood := some c }), rfl⟩
  | .recordSuccess => ⟨((), { st with breaker := .default }), rfl⟩
  | .recordFailure now => ⟨((st.breaker.recordFailure now).1,
      { st with breaker := (st.breaker.recordFailure now).2 }), rfl, rfl⟩
  | .answer .. => ⟨((), st), rfl⟩

def turnPlayer (ttl : Nat) : Player (Callers ttl) (Except String HttpReply) Nat where
  answer _ o st reply := some (turnAnswer st reply o)
  act e _ := nomatch e
  image now := ⟨call ttl now (), fun _ => ⟨now, rfl⟩⟩
  lose _ st := ⟨st, rfl⟩

/-- A reply with a credential. -/
def devReply : Except String HttpReply :=
  .ok ⟨201, "201 Created", .ok (.obj [("iceServers", .arr [
    .obj [("urls", .arr [.str "stun:stun.cloudflare.com:3478"])],
    .obj [("urls", .str "turn:turn.cloudflare.com:3478?transport=udp"),
      ("username", .str "cf-user"), ("credential", .str "cf-secret")]])])⟩

def devCredentials : IceCredentials :=
  ⟨["stun:stun.cloudflare.com:3478", "turn:turn.cloudflare.com:3478?transport=udp"], "cf-user",
    "cf-secret", 700⟩

/-- One call gets a credential, three find the provider unreachable, and a fifth does not ask. -/
def sparesProvider : List (Move (Except String HttpReply) Empty Nat) :=
  [.start 1 100, .start 2 130, .start 3 130, .start 4 131, .start 5 140] ++
    List.replicate 5 (.op 1 devReply) ++ List.replicate 2 (.op 2 (.error "timeout")) ++
    List.replicate 5 (.op 3 (.error "timeout")) ++ List.replicate 3 (.op 2 (.error "timeout")) ++
    List.replicate 5 (.op 4 (.error "timeout")) ++ List.replicate 3 (.op 5 (.error "timeout"))

/-- The last label is the answer to the fifth call, with the credential of the first. -/
def answersCached (ls : List (Label TurnWorld Empty)) : Bool :=
  match ls.getLast? with
  | some (.op 5 ⟨.answer 140 (.ok c) _, _⟩) => c == devCredentials
  | _ => false

theorem fallback_sound_spared :
    ∃ before s issued,
      Reachable (Calls 600) .new
        (before ++ [.op 5 ⟨.answer 140 (.ok devCredentials) issued, ()⟩]) s ∧
      issued = .ok ⟨devCredentials.servers, "cf-user", "cf-secret", 560⟩ ∧
      (∀ now' reply, .op 5 ⟨.generate now', reply⟩ ∉ before) ∧
      ∃ early late, before = early ++ .op 5 ⟨.inCooldown 140, true⟩ :: late ∧
        3 ≤ (failuresSince early).length ∧
        ∃ latest, (failuresSince early).getLast? = some latest ∧ 140 < latest + 30 := by
  obtain ⟨ls, s, r, htest⟩ := (turnPlayer 600).reaches .new sparesProvider
    (fun ls _ => ls.all (fun l => !l.isKill) &&
      ((fetches (ls.filterMap (Label.own 5))).length == 0) && answersCached ls) (by decide +kernel)
  simp only [Bool.and_eq_true, beq_iff_eq, List.length_eq_zero_iff] at htest
  obtain ⟨⟨hkill, hnone⟩, hlast⟩ := htest
  unfold answersCached at hlast
  split at hlast
  · next c issued _ hlabel =>
    obtain rfl := eq_of_beq hlast
    obtain ⟨before, rfl⟩ := List.getLast?_eq_some_iff.mp hlabel
    have r' : Reachable (Calls 600) .new _ s := Run.immortal r hkill
    obtain ⟨-, hserved, -, hspared, -⟩ := fallback_sound (by decide) r'
    have hasked : ∀ now' reply, .op 5 ⟨.generate now', reply⟩ ∉ before := by
      intro now' reply hmem
      refine List.not_mem_nil (a := (now', reply)) ?_
      rw [← hnone]
      exact mem_fetches.mpr (Label.mem_own.mpr (List.mem_append_left _ hmem))
    exact ⟨before, s, issued, r', (hserved _ rfl).2, hasked, hspared hasked⟩
  · cases hlast

end DeviceUniqueness.Turn
