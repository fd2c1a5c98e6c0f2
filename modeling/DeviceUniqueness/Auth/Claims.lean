import DeviceUniqueness.Auth.Rotation

/-! What a request has verified by the time it signs, mints or commits a counter.

    The history of a process records what came back to it: the request, whether the challenge was
    spent, the key that was stored, the verdicts. The monitor `claims` lets it sign for a session
    only if that history backs the session, and every handler keeps to it. -/

namespace DeviceUniqueness

open Schemes

/-! ### What a history shows -/

abbrev History := List (Ev AuthWorld)

/-- A request for a token, decoded. -/
structure TokenRequest where
  config : AuthConfig
  headers : Headers
  body : Bytes
  clientId : FixedBytes 32
  clientProof : FixedBytes 64
  challenge : Bytes

/-- The request is what the process serves. -/
structure TokenRequest.In (x : TokenRequest) (h : History) : Prop where
  taken : h.head? = some ⟨.accept, (x.config, .token x.headers x.body)⟩
  clientId : decodeHeaderFixed 32 x.headers "auth-clientid" = .ok x.clientId
  clientProof : decodeHeaderFixed 64 x.headers "auth-clientproof" = .ok x.clientProof
  challenge : decodeHeader x.headers "auth-challenge" = .ok x.challenge

variable (ext : AuthExt)

/-- The App Attest assertion of the request verified against the stored key, with counter `n`. -/
structure Asserted (x : TokenRequest) (h : History) (assertion keyId : Bytes) (n : Int) : Prop where
  payload : decodeHeader x.headers "auth-payload" = .ok assertion
  named : decodeHeader x.headers "auth-ios-keyid" = .ok keyId
  verified : ∃ key, ⟨.findKey keyId, .ok (some key)⟩ ∈ h ∧
    verifyAssertion ext assertion (clientDataHash ext x.challenge x.clientId x.body) key.publicKey
      x.config.appleAppAttestAppIds key.signCount = .ok n

/-- The evidence of a platform was accepted, and says whether the app is from an official store. -/
inductive Accepted (x : TokenRequest) (h : History) : Option String → Bool → Prop
  | appAttest {assertion keyId : Bytes} {n : Int} (asserted : Asserted ext x h assertion keyId n)
      (committed : ⟨.commitSignCount keyId n, .ok true⟩ ∈ h) : Accepted x h (some "ios") true
  | keyAttestation {chain : List Bytes} {playstore website : FixedBytes 32} {serials : List String}
      {now : Time} (body : chainFromBody ext x.body = .ok chain)
      (playstoreDigest : x.config.androidSigningDigestPlaystore = some playstore)
      (websiteDigest : x.config.androidSigningDigestWebsite = some website)
      (revoked : ⟨.revokedSerials, .ok serials⟩ ∈ h) (clock : ⟨.nowUtc, now⟩ ∈ h)
      (verified : ext.verifyChain chain
        (chainParams x.config x.challenge playstore website serials now) = .ok ()) :
      Accepted x h (some "android") false
  | playIntegrity {token : String} {playstore website decryptionKey : FixedBytes 32}
      {verificationKey : Bytes} {fromStore : Bool}
      (payload : x.headers.text "auth-payload" = some token)
      (playstoreDigest : x.config.androidSigningDigestPlaystore = some playstore)
      (websiteDigest : x.config.androidSigningDigestWebsite = some website)
      (decryption : x.config.playIntegrityDecryptionKey = some decryptionKey)
      (verification : x.config.playIntegrityVerificationKey = some verificationKey)
      (verified : verifyToken ext token decryptionKey verificationKey
        (integrityPolicy ext x.config x.challenge x.clientId x.body playstore website) =
          .ok fromStore) :
      Accepted x h (some "android") fromStore
  | googleDecoded {packageName token : String} {playstore website : FixedBytes 32}
      {payload : TokenPayload} {fromStore : Bool}
      (header : x.headers.text "auth-payload" = some token)
      (playstoreDigest : x.config.androidSigningDigestPlaystore = some playstore)
      (websiteDigest : x.config.androidSigningDigestWebsite = some website)
      (decoded : ⟨.googleDecode packageName token, .ok payload⟩ ∈ h)
      (verified : checkPayload payload
        (integrityPolicy ext x.config x.challenge x.clientId x.body playstore website) =
          .ok fromStore) :
      Accepted x h (some "android") fromStore

/-- Attestation is enabled and enforced. -/
def AuthConfig.Hard (config : AuthConfig) : Prop :=
  config.authEnabled = true ∧ config.enforceAuth = true

/-- The challenge was spent, the proof over it is by the account the session names, and where
    attestation is enforced the evidence was accepted for the platform the session names, with the
    verdict it carries. -/
structure Backed (x : TokenRequest) (h : History) (session : Session) : Prop where
  request : x.In h
  spent : ⟨.consumeChallenge x.challenge, .ok true⟩ ∈ h
  proof : proofVerify ext x.challenge x.clientId x.body x.clientProof = true
  account : session.accountId = hexEncode x.clientId.1
  evidence : x.config.Hard → Accepted ext x h session.platform session.appFromOfficialStore

/-- The request is a refresh with the token. -/
def Presented (h : History) (token : String) : Prop :=
  ∃ config, h.head? = some ⟨.accept, (config, .refresh token)⟩

/-- What may be done with the history so far: sign for a backed request or after a refresh has begun,
    mint for a backed request, commit the counter of an assertion that verified, and rotate the token
    that was presented. -/
def ClaimsAllow (h : History) : AuthAsk → Prop
  | .signToken session _ => (∃ x, Backed ext x h session) ∨ ⟨.begin, .ok ()⟩ ∈ h
  | .insertToken new => ∃ x, Backed ext x h new.session
  | .commitSignCount keyId n => ∃ x assertion, x.In h ∧ Asserted ext x h assertion keyId n
  | .txSelect token | .txMarkUsed token _ => Presented h token
  | _ => True

def claims : Monitor AuthWorld History := Monitor.history (ClaimsAllow ext)

variable {ext}

/-! ### Histories only grow -/

section Growth

variable {x : TokenRequest} {h h' : History} {session : Session}

theorem head?_mono {e : Ev AuthWorld} (he : h.head? = some e) (hp : h <+: h') : h'.head? = some e := by
  obtain ⟨rest, rfl⟩ := hp
  rw [List.head?_append, he]
  rfl

theorem TokenRequest.In.mono (hx : x.In h) (hp : h <+: h') : x.In h' :=
  ⟨head?_mono hx.taken hp, hx.clientId, hx.clientProof, hx.challenge⟩

theorem Presented.mono {token : String} (hpresented : Presented h token) (hp : h <+: h') :
    Presented h' token := by
  obtain ⟨config, htaken⟩ := hpresented
  exact ⟨config, head?_mono htaken hp⟩

theorem Asserted.mono {assertion keyId : Bytes} {n : Int} (ha : Asserted ext x h assertion keyId n)
    (hp : h <+: h') : Asserted ext x h' assertion keyId n := by
  obtain ⟨key, hfound, hverified⟩ := ha.verified
  exact ⟨ha.payload, ha.named, key, hp.subset hfound, hverified⟩

theorem Accepted.mono {platform : Option String} {fromStore : Bool}
    (ha : Accepted ext x h platform fromStore) (hp : h <+: h') :
    Accepted ext x h' platform fromStore := by
  cases ha with
  | appAttest asserted committed => exact .appAttest (asserted.mono hp) (hp.subset committed)
  | keyAttestation body playstore website revoked clock verified =>
    exact .keyAttestation body playstore website (hp.subset revoked) (hp.subset clock) verified
  | playIntegrity payload playstore website decryption verification verified =>
    exact .playIntegrity payload playstore website decryption verification verified
  | googleDecoded header playstore website decoded verified =>
    exact .googleDecoded header playstore website (hp.subset decoded) verified

theorem Backed.mono (hb : Backed ext x h session) (hp : h <+: h') : Backed ext x h' session :=
  ⟨hb.request.mono hp, hp.subset hb.spent, hb.proof, hb.account, fun hard => (hb.evidence hard).mono hp⟩

end Growth

/-! ### What the handlers establish -/

section Program

variable {α : Type} {x : TokenRequest} {h : History} {config : AuthConfig}
variable {o : AuthAsk} {post : History → α → Unit → Prop}

theorem sat_claims {f : o.Ans → Serving α} (hok : ClaimsAllow ext h o)
    (hf : ∀ a, (f a).Sat (claims ext) () (h ++ [⟨o, a⟩]) post Anyhow) :
    (request o >>= f).Sat (claims ext) () h post Anyhow :=
  Act.sat_bind.mpr ⟨hok, fun a _ => hf a⟩

theorem mem_snoc (h : History) (e : Ev AuthWorld) : e ∈ h ++ [e] := by
  simp

/-- A verdict of an iOS request: the assertion verified and its counter was committed. -/
theorem iosAttestationVerdict_sat (hx : x.In h) :
    (iosAttestationVerdict ext x.config x.headers x.challenge x.clientId x.body).Sat (claims ext) ()
      h (fun h' v _ => v = .ok () → Accepted ext x h' (some "ios") true) Anyhow := by
  unfold iosAttestationVerdict
  split
  · exact nofun
  split
  · exact nofun
  split
  · exact nofun
  next assertion hpayload =>
  split
  · exact nofun
  next keyId hkeyId =>
  refine sat_claims trivial fun reply => ?_
  refine sat_orFail fun found hreply => ?_
  subst hreply
  split
  · exact nofun
  next key =>
  split
  · exact nofun
  next n hverified =>
  have hasserted : Asserted ext x (h ++ [⟨.findKey keyId, .ok (some key)⟩]) assertion keyId n :=
    ⟨hpayload, hkeyId, key, mem_snoc _ _, hverified⟩
  refine sat_claims ⟨x, assertion, hx.mono (List.prefix_append ..), hasserted⟩ fun reply => ?_
  refine sat_orFail fun above hreply => ?_
  subst hreply
  cases above with
  | false => exact nofun
  | true => exact fun _ => .appAttest (hasserted.mono (List.prefix_append ..)) (mem_snoc _ _)

theorem keyAttestationVerdict_sat :
    (keyAttestationVerdict ext x.config x.challenge x.body).Sat (claims ext) () h
      (fun h' v _ => ∀ fromStore, v = .ok fromStore →
        Accepted ext x h' (some "android") fromStore) Anyhow := by
  unfold keyAttestationVerdict
  split
  · exact nofun
  · next chain hbody =>
    split
    · next playstore website hplaystore hwebsite =>
      refine sat_claims trivial fun serials => ?_
      match (serials : Except String (List String)) with
      | .error e =>
        simp only
        split
        · trivial
        · exact nofun
      | .ok serials =>
        simp only
        refine sat_claims trivial fun now => ?_
        intro fromStore hv
        cases hverify : ext.verifyChain chain
            (chainParams x.config x.challenge playstore website serials now) with
        | error e =>
          rw [hverify] at hv
          cases hv
        | ok u =>
          rw [hverify] at hv
          obtain rfl : false = fromStore := Except.ok.inj hv
          exact .keyAttestation hbody hplaystore hwebsite
            (List.mem_append_left _ (mem_snoc _ _)) (mem_snoc _ _) hverify
    · exact nofun

theorem playIntegrityVerdict_sat :
    (playIntegrityVerdict ext x.config x.headers x.challenge x.clientId x.body).Sat (claims ext) () h
      (fun h' v _ => ∀ fromStore, v = .ok fromStore →
        (∃ packageName, x.headers.text "auth-android-package" = some packageName) ∧
        Accepted ext x h' (some "android") fromStore) Anyhow := by
  have hmap : ∀ {r : Except PlayIntegrityError Bool} {fromStore : Bool},
      r.mapError (·.text) = .ok fromStore → r = .ok fromStore := by
    rintro (e | b) fromStore hr
    · cases hr
    · rw [Except.ok.inj hr]
  unfold playIntegrityVerdict
  split
  · exact nofun
  next packageName hpackage =>
  split
  · exact nofun
  split
  · exact nofun
  next token htoken =>
  split
  · next playstore website hplaystore hwebsite =>
    simp only
    split
    · next decryptionKey verificationKey hdecryption hverification =>
      intro fromStore hv
      exact ⟨⟨packageName, hpackage⟩, .playIntegrity htoken hplaystore hwebsite hdecryption
        hverification (hmap hv)⟩
    split
    · refine sat_claims trivial fun payload => ?_
      match (payload : Except String TokenPayload) with
      | .error e => exact nofun
      | .ok payload =>
        intro fromStore hv
        exact ⟨⟨packageName, hpackage⟩, .googleDecoded htoken hplaystore hwebsite (mem_snoc _ _)
          (hmap hv)⟩
    · exact nofun
  · exact nofun

/-- The platform in the claims is the platform whose evidence was accepted, whichever headers there
    are. -/
theorem attestationVerdict_sat (hx : x.In h) :
    (attestationVerdict ext x.config x.headers x.challenge x.clientId x.body).Sat (claims ext) () h
      (fun h' v _ => ∀ fromStore, v = .ok fromStore →
        Accepted ext x h' (detectPlatform x.headers) fromStore) Anyhow := by
  unfold attestationVerdict
  split
  · next hios =>
    refine (iosAttestationVerdict_sat hx).then ?_
    rintro h' (e | u) _ hverdict fromStore hv
    · cases hv
    · obtain rfl : true = fromStore := Except.ok.inj hv
      rw [detectPlatform_ios hios]
      exact hverdict rfl
  · next hios =>
    have hios : x.headers.containsKey "auth-ios-package" = false := by simpa using hios
    split
    · exact nofun
    · next kind hkind =>
      split
      · next hkey =>
        rw [detectPlatform_android hios (Or.inl (hkey ▸ hkind))]
        exact keyAttestationVerdict_sat
      · split
        · refine playIntegrityVerdict_sat.weaken ?_
          intro h' v _ hverdict fromStore hv
          obtain ⟨hpackage, haccepted⟩ := hverdict fromStore hv
          rw [detectPlatform_android hios (Or.inr hpackage)]
          exact haccepted
        · exact nofun

theorem officialStore_sat (hx : x.In h) :
    (officialStore ext x.config x.headers x.challenge x.clientId x.body).Sat (claims ext) () h
      (fun h' fromStore _ => x.config.Hard →
        Accepted ext x h' (detectPlatform x.headers) fromStore) Anyhow := by
  unfold officialStore
  split
  · refine (attestationVerdict_sat hx).then ?_
    rintro h' (reason | fromStore) _ hverdict
    · simp only
      split
      · trivial
      · next hsoft => exact fun hard => absurd hard.2 hsoft
    · exact fun _ => hverdict fromStore rfl
  · next hoff => exact fun hard => absurd hard.1 hoff

theorem mint_sat {session : Session} {ttl : Nat} (hb : Backed ext x h session) :
    (mint session ttl).Sat (claims ext) () h Anyhow Anyhow := by
  unfold mint randomToken
  rw [Act.sat_bind]
  refine sat_claims trivial fun bytes => ?_
  refine sat_claims trivial fun now => ?_
  refine sat_claims ⟨x, (hb.mono (List.prefix_append ..)).mono (List.prefix_append ..)⟩ fun reply => ?_
  exact sat_orFail fun _ _ => trivial

theorem issue_sat {headers : Headers} {body : Bytes}
    (htaken : h.head? = some ⟨.accept, (config, .token headers body)⟩) :
    (issue ext config headers body).Sat (claims ext) () h Anyhow Anyhow := by
  unfold issue
  refine sat_checked fun clientId hclientId => ?_
  refine sat_checked fun clientProof hclientProof => ?_
  refine sat_checked fun challenge hchallenge => ?_
  let x : TokenRequest := ⟨config, headers, body, clientId, clientProof, challenge⟩
  have hx : x.In h := ⟨htaken, hclientId, hclientProof, hchallenge⟩
  refine sat_claims trivial fun reply => ?_
  refine sat_orFail fun consumed hreply => ?_
  subst hreply
  split
  · trivial
  · next hconsumed =>
    obtain rfl : consumed = true := by simpa using hconsumed
    split
    · trivial
    · next hproof =>
      have hx' := hx.mono (List.prefix_append h [⟨.consumeChallenge challenge, .ok true⟩])
      rw [Act.sat_bind]
      refine (officialStore_sat hx').extends.mono ?_ fun _ _ _ _ => trivial
      rintro h' fromStore _ ⟨hp, hevidence⟩
      have hb : Backed ext x h' ⟨hexEncode clientId.1, fromStore, detectPlatform headers⟩ :=
        ⟨hx'.mono hp, hp.subset (mem_snoc _ _), by simpa using hproof, rfl, hevidence⟩
      simp only
      refine sat_claims (Or.inl ⟨x, hb⟩) fun token => ?_
      rw [Act.sat_bind]
      exact (mint_sat (hb.mono (List.prefix_append ..))).anyhow

theorem dropToken_claims : dropToken.Sat (claims ext) () h Anyhow Anyhow :=
  sat_claims trivial fun _ => trivial

theorem replaceToken_claims {presented : String} (hp : Presented h presented) (session : Session)
    (ttl : Nat) : (replaceToken presented session ttl).Sat (claims ext) () h Anyhow Anyhow := by
  unfold replaceToken randomToken
  rw [Act.sat_bind]
  refine sat_claims trivial fun bytes => ?_
  refine sat_claims trivial fun now => ?_
  refine sat_claims (hp.mono (by simp)) fun reply => ?_
  refine sat_orDrop (fun _ _ => ?_) fun _ => trivial
  refine sat_claims trivial fun reply => ?_
  refine sat_orDrop (fun _ _ => ?_) fun _ => trivial
  refine sat_claims trivial fun reply => ?_
  exact sat_orFail fun _ _ => trivial

/-- A refresh that hands out a token has begun a transaction. -/
theorem rotateToken_claims {presented : String} (hp : Presented h presented) (ttl : Nat) :
    (rotateToken presented ttl).Sat (claims ext) () h
      (fun h' _ _ => ⟨.begin, .ok ()⟩ ∈ h') Anyhow := by
  unfold rotateToken
  refine sat_claims trivial fun reply => ?_
  refine sat_orFail fun _ hreply => ?_
  subst hreply
  -- what begins the transaction stays in the history of what follows
  refine Act.Sat.mono (Act.Sat.extends (?_ : Act.Sat _ _ _ _ Anyhow Anyhow))
    (fun _ _ _ hp => hp.1.subset (mem_snoc _ _)) fun _ _ _ _ => trivial
  have hp := hp.mono (List.prefix_append h [⟨.begin, .ok ()⟩])
  refine sat_claims hp fun reply => ?_
  refine sat_orDrop (fun out _ => ?_) fun _ => trivial
  split
  · exact dropToken_claims
  · split
    · exact dropToken_claims
    · refine sat_claims trivial fun now => ?_
      split
      · exact dropToken_claims
      · exact replaceToken_claims (hp.mono (by simp)) ..

theorem rotate_claims {presented : String} (hp : Presented h presented) :
    (rotate config presented).Sat (claims ext) () h Anyhow Anyhow := by
  unfold rotate
  rw [Act.sat_bind]
  refine (rotateToken_claims hp config.refreshTtl).mono ?_ fun _ _ _ _ => trivial
  rintro h' (_ | ⟨session, newToken⟩) _ hbegun
  · trivial
  · simp only
    exact sat_claims (Or.inr hbegun) fun _ => trivial

theorem challengeCreate_claims (ttl : Nat) :
    (challengeCreate ttl).Sat (claims ext) () h Anyhow Anyhow := by
  refine sat_claims trivial fun bytes => ?_
  refine sat_claims trivial fun now => ?_
  refine sat_claims trivial fun reply => ?_
  exact sat_orFail fun _ _ => trivial

theorem registerKey_claims (req : AppAttestRequest) :
    (registerKey ext config req).Sat (claims ext) () h Anyhow Anyhow := by
  unfold registerKey
  split
  · trivial
  · refine sat_checked fun keyId _ => ?_
    refine sat_checked fun challenge _ => ?_
    refine sat_checked fun attestation _ => ?_
    refine sat_claims trivial fun reply => ?_
    refine sat_orFail fun consumed _ => ?_
    split
    · trivial
    · refine sat_claims trivial fun now => ?_
      split
      · refine sat_claims trivial fun reply => ?_
        exact sat_orFail fun _ _ => trivial
      · split <;> trivial

theorem serve_claims : (serve ext).Sat (claims ext) () [] Anyhow Anyhow := by
  refine sat_claims trivial fun taken => ?_
  obtain ⟨config, req⟩ := taken
  cases req with
  | challenge =>
    change Act.Sat (claims ext) (challengeCreate config.challengeTtl >>= _) _ _ _ _
    rw [Act.sat_bind]
    exact (challengeCreate_claims _).anyhow
  | register req => exact registerKey_claims req
  | token headers body => exact issue_sat rfl
  | refresh refreshToken => exact rotate_claims ⟨config, rfl⟩

end Program

/-! ### Whole runs -/

section Runs

variable {Served : AuthConfig → AuthRequest → Prop} {st₀ : AuthState}
  {ls : List (Label AuthWorld AuthEvent)} {s t : AuthSys} {p : Nat} {h : History}

theorem claims_bound (st₀ : AuthState) : Bound (Auth ext Served) st₀ (claims ext) [] where
  boot := by
    rintro p prog rfl
    exact Prog.Sat.mono (fun _ _ _ => trivial) serve_claims
  adm _ _ _ _ _ _ _ _ := trivial

/-- What a process of a run is about to do is allowed by its history. -/
theorem step_claims (r : Reachable (Auth ext Served) st₀ ls s) {e : Ev AuthWorld}
    (d : Step (Auth ext Served) s (.op p e) t) :
    ∃ h, s.hist p = some h ∧ ClaimsAllow ext h e.1 := by
  obtain ⟨h', hw, hok, -⟩ := d.op_inv (Reachable.trusted (claims_bound st₀) r)
  obtain ⟨h, hh, rfl⟩ := Option.map_eq_some_iff.mp hw
  refine ⟨h, hh, ?_⟩
  have hfold := Prog.foldl_history (ClaimsAllow ext) h []
  rw [List.nil_append] at hfold
  rw [← hfold]
  exact hok

/-- And so was what it has done. -/
theorem hist_claims (r : Reachable (Auth ext Served) st₀ ls s) {h₁ h₂ : History} {e : Ev AuthWorld}
    (hh : s.hist p = some (h₁ ++ e :: h₂)) : ClaimsAllow ext h₁ e.1 := by
  have hok := ((Monitor.heeds_append h₁ _ _).mp (r.heeds (claims_bound st₀) hh)).2.1
  rwa [claims, Prog.foldl_history, List.nil_append] at hok

/-- A request in a history is one that came in. -/
theorem served_of_in (r : Reachable (Auth ext Served) st₀ ls s) (hh : s.hist p = some h)
    {x : TokenRequest} (hx : x.In h) : Served x.config (.token x.headers x.body) := by
  have hall : ∀ e ∈ h, ∀ taken, e = ⟨.accept, taken⟩ → Served taken.1 taken.2 := by
    refine r.hist_inv (claims_bound st₀)
      (fun h => ∀ e ∈ h, ∀ taken, e = ⟨.accept, taken⟩ → Served taken.1 taken.2) (by simp) ?_ hh
    intro h p o a st st' hi _ hdone e he taken htaken
    rcases List.mem_append.mp he with he | he
    · exact hi e he taken htaken
    · obtain ⟨rfl, heq⟩ := Sigma.mk.inj ((List.mem_singleton.mp he).symm.trans htaken)
      obtain rfl := eq_of_heq heq
      exact hdone.1
  exact hall _ (List.mem_of_mem_head? hx.taken) _ rfl

end Runs

end DeviceUniqueness
