import DeviceUniqueness.Auth.Claims
import DeviceUniqueness.Auth.Script

/-! The counter of an App Attest key only goes up.

    A request checks the counter of its assertion against what it read of the key, which other
    requests may have moved on meanwhile; the update that follows is done only where the counter is
    still above the stored one. So what the updates write to a key, until it is registered anew, is
    strictly increasing in the order they take place, whatever each request had read. -/

namespace DeviceUniqueness

open Function Schemes

/-! ### What is written to a key -/

/-- The counter an update of the key has written. -/
def writtenCount (keyId : Bytes) : Ev AuthWorld → Option Int
  | ⟨.commitSignCount keyId' n, reply⟩ =>
      match (reply : Reply Bool) with
      | .ok true | .lost true _ => if keyId' = keyId then some n else none
      | _ => none
  | _ => none

/-- The counters written to the key in a run, in the order they were. -/
def signCounts (keyId : Bytes) (ls : List (Label AuthWorld AuthEvent)) : List Int :=
  ls.filterMap fun
    | .op _ e => writtenCount keyId e
    | _ => none

/-- The step registers the key, for the first time or anew. -/
def registersKey (keyId : Bytes) : Label AuthWorld AuthEvent → Bool
  | .op _ ⟨.upsertKey keyId' _ _, reply⟩ => keyId' = keyId && Reply.done reply
  | _ => false

/-- The counter an assertion carries. -/
def assertionCounter (ext : AuthExt) (assertion : Bytes) : Except AttestError Int := do
  let (_, authData) ← decodeAssertion ext assertion
  let auth ← AuthenticatorData.parse authData
  return auth.counter

theorem assertionCounter_of_verify {ext : AuthExt} {assertion publicKey : Bytes}
    {hash : FixedBytes 32} {appIds : List String} {prev n : Int}
    (h : verifyAssertion ext assertion hash publicKey appIds prev = .ok n) :
    assertionCounter ext assertion = .ok n ∧ prev < n := by
  unfold verifyAssertion at h
  obtain ⟨⟨signature, authData⟩, hdecode, h⟩ := bind_eq_ok.mp h
  obtain ⟨auth, hparse, h⟩ := bind_eq_ok.mp h
  obtain ⟨_, -, h⟩ := bind_eq_ok.mp h
  dsimp only at h
  split at h
  · cases h
  split at h
  · cases h
  obtain ⟨_, -, h⟩ := bind_eq_ok.mp h
  split at h
  · cases h
  · next habove =>
    obtain rfl := Except.ok.inj h
    refine ⟨?_, not_le.mp habove⟩
    exact bind_eq_ok.mpr ⟨_, hdecode, bind_eq_ok.mpr ⟨auth, hparse, rfl⟩⟩

/-! ### One step -/

variable {Served : AuthConfig → AuthRequest → Prop} {p : Nat} {st st' : AuthState} {keyId : Bytes}

/-- What a step can do to a key: nothing; raise its counter; register it. -/
inductive KeyMove (keyId : Bytes) (e : Ev AuthWorld) (st st' : AuthState) : Prop
  | kept (unwritten : writtenCount keyId e = none) (now : st'.keys keyId = st.keys keyId)
  | raised (n : Int) (key : StoredKey) (written : writtenCount keyId e = some n)
      (stored : st.keys keyId = some key) (above : key.signCount < n)
      (now : st'.keys keyId = some { key with signCount := n })
  | registered (registers : ∀ p, registersKey keyId (.op p e) = true)

theorem KeyMove.of_eq {e : Ev AuthWorld} (h : writtenCount keyId e = none) (heq : st' = st) :
    KeyMove keyId e st st' := .kept h (by rw [heq])

theorem AuthState.signCountBelow_iff {n : Int} :
    st.signCountBelow keyId n = true ↔ ∃ key, st.keys keyId = some key ∧ key.signCount < n := by
  simp [AuthState.signCountBelow, Option.any_eq_true]

/-- An update of a key, of this one or another. -/
theorem keyMove_commit {keyId' : Bytes} {n : Int} {out : Bool} {reply : Reply Bool}
    (hreply : reply = .ok out ∨ ∃ err, reply = .lost out err)
    (hout : out = st.signCountBelow keyId' n)
    (hst : st' = if out then st.setSignCount keyId' n else st) :
    KeyMove keyId ⟨.commitSignCount keyId' n, reply⟩ st st' := by
  cases out with
  | false =>
    subst hst
    refine .kept ?_ rfl
    obtain rfl | ⟨err, rfl⟩ := hreply <;> rfl
  | true =>
    subst hst
    obtain ⟨key, hkey, habove⟩ := AuthState.signCountBelow_iff.mp hout.symm
    have hwritten : writtenCount keyId ⟨.commitSignCount keyId' n, reply⟩ =
        if keyId' = keyId then some n else none := by
      obtain rfl | ⟨err, rfl⟩ := hreply <;> rfl
    rcases eq_or_ne keyId' keyId with rfl | hne
    · refine .raised n key (hwritten.trans (if_pos rfl)) hkey habove ?_
      simp [AuthState.setSignCount, hkey]
    · refine .kept (hwritten.trans (if_neg hne)) ?_
      simp [AuthState.setSignCount, update_of_ne hne.symm]

theorem AuthAsk.Does.keyMove {o : AuthAsk} {a : o.Ans} (h : AuthAsk.Does Served p st o a st') :
    KeyMove keyId ⟨o, a⟩ st st' := by
  cases o with
  | accept => exact .of_eq rfl h.2
  | commitSignCount keyId' n =>
    match (a : Reply Bool), h with
    | .ok out, h => exact keyMove_commit (Or.inl rfl) h.1 h.2
    | .lost out err, h => exact keyMove_commit (Or.inr ⟨err, rfl⟩) h.1 h.2
    | .refused err, h => exact .of_eq rfl h
  | upsertKey keyId' publicKey receipt =>
    have hdone : st' = { st with keys := update st.keys keyId' (some ⟨publicKey, 0⟩) } →
        Reply.done a = true → KeyMove keyId ⟨.upsertKey keyId' publicKey receipt, a⟩ st st' := by
      rintro rfl hreply
      rcases eq_or_ne keyId' keyId with rfl | hne
      · exact .registered fun p => by simp [registersKey, hreply]
      · exact .kept rfl (update_of_ne hne.symm ..)
    match (a : Reply Unit), h with
    | .ok _, h | .lost _ _, h => exact hdone h rfl
    | .refused _, h => exact .of_eq rfl h
  | insertChallenge challenge expiresAt =>
    rcases Reply.Did.cases h with ⟨_, -, rfl⟩ | rfl <;> exact .kept rfl rfl
  | consumeChallenge challenge =>
    rcases Reply.Did.cases h with ⟨_, -, rfl⟩ | rfl
    · unfold AuthState.consume
      split <;> exact .kept rfl rfl
    · exact .kept rfl rfl
  | findKey keyId' =>
    rcases Reply.Did.cases h with ⟨_, -, rfl⟩ | rfl <;> exact .kept rfl rfl
  | insertToken new =>
    rcases Reply.Did.cases h with ⟨_, -, _, -, rfl⟩ | rfl <;> exact .kept rfl rfl
  | begin =>
    match (a : Reply Unit), h with
    | .ok (), ⟨_, heq⟩ => subst heq; exact .kept rfl rfl
    | .lost _ _, h | .refused _, h => exact .of_eq rfl h
  | txSelect token =>
    rcases Reply.Did.cases h with ⟨_, _, _, -, -, -, hst⟩ | rfl
    · split at hst
      · rw [hst.2]; exact .kept rfl rfl
      · exact .of_eq rfl hst
    · exact .kept rfl rfl
  | txMarkUsed token replacedBy =>
    rcases Reply.Did.cases h with ⟨_, _, _, -, -, hst⟩ | rfl
    · split at hst
      · rw [hst.2]; exact .kept rfl rfl
      · exact .of_eq rfl hst
    · exact .kept rfl rfl
  | txInsertToken new =>
    rcases Reply.Did.cases h with ⟨_, _, _, -, -, -, -, rfl⟩ | rfl <;> exact .kept rfl rfl
  | commit =>
    match (a : Reply Unit), h with
    | .ok (), ⟨_, _, _, _, heq⟩ | .lost _ _, ⟨_, _, _, _, heq⟩ => subst heq; exact .kept rfl rfl
    | .refused _, heq => rw [show st' = st.close p from heq]; exact .kept rfl rfl
  | rollback => rw [show st' = st.close p from h]; exact .kept rfl rfl
  | _ => exact .of_eq rfl h

/-! ### Whole runs -/

/-- What was written to the key is increasing, and bounded by what is stored. -/
structure Increasing (keyId : Bytes) (counts : List Int) (st : AuthState) : Prop where
  increasing : counts.Pairwise (· < ·)
  bounded : ∀ n ∈ counts, ∃ key, st.keys keyId = some key ∧ n ≤ key.signCount

theorem Increasing.step {counts : List Int} {e : Ev AuthWorld} (hi : Increasing keyId counts st)
    (hmove : KeyMove keyId e st st') (hkept : registersKey keyId (.op p e) = false) :
    Increasing keyId (counts ++ (writtenCount keyId e).toList) st' := by
  cases hmove with
  | kept unwritten now =>
    rw [unwritten, Option.toList_none, List.append_nil]
    exact ⟨hi.increasing, by rw [now]; exact hi.bounded⟩
  | raised n key written stored above now =>
    -- what was written before is at most the count that was stored, and that is below `n`
    have hbelow : ∀ m ∈ counts, m < n := by
      intro m hm
      obtain ⟨key', hkey', hle⟩ := hi.bounded m hm
      obtain rfl := Option.some.inj (stored.symm.trans hkey')
      omega
    rw [written, Option.toList_some]
    refine ⟨List.pairwise_append.mpr ⟨hi.increasing, List.pairwise_singleton .., ?_⟩, ?_⟩
    · intro m hm n' hn'
      rw [List.mem_singleton.mp hn']
      exact hbelow m hm
    · intro m hm
      refine ⟨_, now, ?_⟩
      rcases List.mem_append.mp hm with hm | hm
      · exact (hbelow m hm).le
      · exact (List.mem_singleton.mp hm).le
  | registered registers =>
    rw [registers p] at hkept
    cases hkept

section Runs

variable {ext : AuthExt} {st₀ : AuthState} {ls₀ ls : List (Label AuthWorld AuthEvent)}
  {s t : AuthSys}

theorem signCounts_append (ls ls' : List (Label AuthWorld AuthEvent)) :
    signCounts keyId (ls ++ ls') = signCounts keyId ls ++ signCounts keyId ls' :=
  List.filterMap_append ..

theorem signCounts_written (n : Int) :
    signCounts keyId (.op p ⟨.commitSignCount keyId n, .ok true⟩ :: ls) =
      n :: signCounts keyId ls :=
  List.filterMap_cons_some (if_pos rfl)

theorem signCounts_snoc (l : Label AuthWorld AuthEvent) :
    signCounts keyId (ls ++ [l]) = signCounts keyId ls ++
      (match l with
        | .op _ e => writtenCount keyId e
        | _ => none).toList := by
  rw [signCounts_append]
  congr 1

theorem run_increasing (r : Run (Auth ext Served) s ls t)
    (hkept : ∀ l ∈ ls, registersKey keyId l = false) :
    Increasing keyId (signCounts keyId ls) t.st := by
  induction r with
  | nil => exact ⟨List.Pairwise.nil, by simp [signCounts]⟩
  | @snoc ls t u l r d ih =>
    have hi := ih fun l hl => hkept l (List.mem_append_left _ hl)
    have hl := hkept l (by simp)
    rw [signCounts_snoc]
    cases d with
    | op live done => exact hi.step (AuthAsk.Does.keyMove done) hl
    | @env e st' done =>
      obtain rfl : st' = e.act t.st := done
      rw [Option.toList_none, List.append_nil]
      cases e <;> exact ⟨hi.increasing, hi.bounded⟩
    | start free boots => rw [Option.toList_none, List.append_nil]; exact hi
    | @kill p st' done =>
      obtain rfl : st' = t.st.close p := done
      rw [Option.toList_none, List.append_nil]
      exact ⟨hi.increasing, hi.bounded⟩

/-- Between two registrations of a key, in every interleaving of requests on any number of replicas:
    the counters that updates write to the key are strictly increasing, so of two updates that were
    acknowledged the later one has the larger counter; and every update is made with the counter of
    the assertion of its request, which verified against the key as the request had read it. -/
theorem sign_counts_increase (r₀ : Reachable (Auth ext Served) st₀ ls₀ s)
    (r : Run (Auth ext Served) s ls t) (hkept : ∀ l ∈ ls, registersKey keyId l = false) :
    (signCounts keyId ls).Pairwise (· < ·) ∧
    (∀ ls₁ ls₂ ls₃ p q n m, ls = ls₁ ++ .op p ⟨.commitSignCount keyId n, .ok true⟩ ::
      (ls₂ ++ .op q ⟨.commitSignCount keyId m, .ok true⟩ :: ls₃) → n < m) ∧
    ∀ ls₁ ls₂ p n reply, ls = ls₁ ++ .op p ⟨.commitSignCount keyId n, reply⟩ :: ls₂ →
      ∃ u h x assertion, Run (Auth ext Served) s ls₁ u ∧ u.hist p = some h ∧ x.In h ∧
        Asserted ext x h assertion keyId n ∧ assertionCounter ext assertion = .ok n := by
  have hincreasing := (run_increasing r hkept).increasing
  refine ⟨hincreasing, ?_, ?_⟩
  · rintro ls₁ ls₂ ls₃ p q n m rfl
    rw [signCounts_append, signCounts_written, signCounts_append, signCounts_written,
      List.pairwise_append] at hincreasing
    exact (List.pairwise_cons.mp hincreasing.2.1).1 m (by simp)
  rintro ls₁ ls₂ p n reply rfl
  obtain ⟨u, v, r₁, d⟩ := r.cut_at
  obtain ⟨h, hh, x, assertion, hx, hasserted⟩ := step_claims (r₀.append r₁) d
  obtain ⟨key, -, hverified⟩ := hasserted.verified
  exact ⟨u, h, x, assertion, r₁, hh, hx, hasserted, (assertionCounter_of_verify hverified).1⟩

end Runs

/-! ### Two assertions with one counter -/

def otherChallenge : FixedBytes 32 := ⟨List.replicate 32 10, rfl⟩

def otherDataHash : FixedBytes 32 :=
  ⟨[70, 137, 255, 161, 53, 225, 96, 119, 45, 69, 177, 204, 37, 236, 179, 203, 10, 185, 63, 155, 43,
    114, 154, 122, 138, 153, 62, 7, 44, 128, 122, 21], rfl⟩

def otherNonce : FixedBytes 32 :=
  ⟨[190, 141, 32, 241, 74, 252, 236, 66, 196, 4, 110, 219, 195, 36, 26, 103, 69, 163, 2, 67, 240, 2,
    134, 68, 129, 203, 250, 226, 13, 225, 2, 8], rfl⟩

/-- An assertion over the other challenge, with the counter of the first. -/
def otherAssertion : Bytes :=
  [162, 105] ++ utf8 "signature" ++ [65, 6] ++ [113] ++ utf8 "authenticatorData" ++ [88, 37] ++
    firstAuthData

/-- The libraries, on the other assertion too: the proof of 64 sixes and the byte 6 stand for its
    signatures. -/
def raceExt : AuthExt :=
  { aliceExt with
    verify := fun signature message signer =>
      aliceExt.verify signature message signer ||
        (signature.1 = List.replicate 64 6 && message = otherDataHash.1 && signer = alice)
    sha256 := fun m =>
      if m = otherChallenge.1 ++ alice.1 ++ emptyBodyHash.1 then otherDataHash
      else if m = firstAuthData ++ otherDataHash.1 then otherNonce
      else aliceExt.sha256 m
    cborFromReader := fun bytes =>
      if bytes = otherAssertion then
        .ok (.map [(.text "signature", .bytes [6]),
          (.text "authenticatorData", .bytes firstAuthData)])
      else aliceExt.cborFromReader bytes
    p256Signature := fun signature => signature = [6] || aliceExt.p256Signature signature
    p256Verify := fun key message signature =>
      aliceExt.p256Verify key message signature ||
        (key = [4] && message = otherNonce.1 && signature = [6]) }

def otherTokenRequest : AuthRequest :=
  .token ⟨[
    ("auth-clientid", base64Encode alice.1),
    ("auth-clientproof", base64Encode (List.replicate 64 6)),
    ("auth-challenge", base64Encode otherChallenge.1),
    ("auth-ios-package", utf8 "io.pcf.polkadotapp"),
    ("auth-ios-keyid", utf8 "AQ=="),
    ("auth-payload", base64Encode otherAssertion)]⟩ (utf8 "\x7b\x7d")

/-- Both challenges are out. -/
def raceState : AuthState :=
  { AuthState.fresh with
    challenges := fun c =>
      if c = otherChallenge.1 then some ⟨seconds 1760000400, false⟩
      else AuthState.fresh.challenges c }

/-- Both requests read the stored counter; then both try to write theirs. -/
def raceScript : List (Move (AuthHint fun _ _ => True) AuthEvent Unit) :=
  [.start 0 (), .start 1 (), .op 0 (.takes hardConfig aliceTokenRequest trivial),
    .op 1 (.takes hardConfig otherTokenRequest trivial)] ++
    proceeds 0 2 ++ proceeds 1 2 ++ proceeds 0 1 ++ proceeds 1 1

/-- Who has tried to write which counter, and whether it was written. -/
def commitTried : Label AuthWorld AuthEvent → Option (Nat × Int × Bool)
  | .op p ⟨.commitSignCount _ n, reply⟩ =>
      match (reply : Reply Bool) with
      | .ok out => some (p, n, out)
      | _ => none
  | _ => none

/-- The one that is second writes nothing. -/
theorem same_count_once :
    ∃ ls t, Reachable (Auth raceExt fun _ _ => True) raceState ls t ∧
      (∀ l ∈ ls, registersKey [1] l = false) ∧
      ls.filterMap commitTried = [(0, 1, true), (1, 1, false)] ∧ signCounts [1] ls = [1] ∧
      (signCounts [1] ls).Pairwise (· < ·) := by
  obtain ⟨ls, t, hr, ht⟩ := (authPlayer raceExt fun _ _ => True).reaches raceState raceScript
    (fun ls _ => ls.all (fun l => registersKey [1] l = false) &&
      ls.filterMap commitTried = [(0, 1, true), (1, 1, false)] && signCounts [1] ls = [1])
    (by decide +kernel)
  simp only [Bool.and_eq_true, List.all_eq_true, decide_eq_true_eq] at ht
  obtain ⟨⟨hkept, htried⟩, hcounts⟩ := ht
  exact ⟨ls, t, hr, hkept, htried, hcounts, (sign_counts_increase .nil hr hkept).1⟩

end DeviceUniqueness
