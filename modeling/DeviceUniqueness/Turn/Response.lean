import DeviceUniqueness.Turn.Cloudflare

/-! What is read out of the provider's response.

    The loop over the entries collects the URLs that are new and keeps the first complete credential.
    The expiry is the only number: the life that was granted comes from the response and is added to
    the time without a check, so it is the expiry only if the sum fits. -/

namespace DeviceUniqueness.Turn

/-! ### What the response holds -/

/-- The credential of an entry that has both halves as strings. -/
def entryCredential (entry : Json) : Option (String × String) := do
  let username ← (entry.get "username").bind asStr
  let password ← (entry.get "credential").bind asStr
  return (username, password)

/-- The entries of the server list, if there is one. -/
def iceServers (body : Json) : Option (List Json) :=
  match body.get "iceServers" with
  | some (.arr entries) => some entries
  | _ => none

/-- The life the response grants, or else the one that was asked for. -/
def grantedTtl (body : Json) (requestedTtl : Nat) : Nat :=
  ((body.get "ttl").bind asU64).getD requestedTtl

/-- There is a server list with a URL and a complete credential. -/
def relays (body : Json) : Bool :=
  match iceServers body with
  | some entries => !(entries.flatMap entryUrls).isEmpty && (entries.findSome? entryCredential).isSome
  | none => false

/-! ### The loop -/

/-- What is new is kept in the order it came in. -/
theorem foldl_pushNew (urls seen : List String) :
    urls.foldl pushNew seen = seen ++ (urls.filter (· ∉ seen)).eraseDups := by
  induction urls generalizing seen with
  | nil => simp
  | cons url urls ih =>
    rw [List.foldl_cons, ih, pushNew]
    by_cases hseen : url ∈ seen
    · simp [hseen]
    · rw [if_neg hseen, List.filter_cons_of_pos (by simpa using hseen), List.eraseDups_cons,
        List.append_assoc, List.singleton_append, List.filter_filter]
      congr 3
      refine List.filter_congr fun x _ => ?_
      simp only [List.mem_append, List.mem_singleton, not_or, Bool.decide_and, Bool.and_comm]
      by_cases hx : x = url
      · simp [hx]
      · simp [hx]

theorem foldl_readEntry (entries : List Json) (seen : List String)
    (credential : Option (String × String)) :
    entries.foldl readEntry (seen, credential) =
      ((entries.flatMap entryUrls).foldl pushNew seen,
        credential.or (entries.findSome? entryCredential)) := by
  induction entries generalizing seen credential with
  | nil => simp
  | cons entry entries ih =>
    rw [List.foldl_cons, readEntry, ih, List.flatMap_cons, List.foldl_append, List.findSome?_cons]
    cases credential with
    | some credential => rfl
    | none =>
      change (_, (entryCredential entry).or _) = (_, _)
      cases entryCredential entry <;> rfl

theorem eraseDups_eq_nil {urls : List String} : urls.eraseDups = [] ↔ urls = [] := by
  cases urls with
  | nil => simp
  | cons url urls => simp [List.eraseDups_cons]

/-! ### What comes of a response -/

section Response

variable {body : Json} {now requestedTtl : Nat}

theorem parseResponse_of_entries {entries : List Json} (h : iceServers body = some entries) :
    parseResponse body now requestedTtl =
      if entries.flatMap entryUrls = [] then .error "iceServers carried no URLs"
      else match entries.findSome? entryCredential with
        | none => .error "iceServers carried no TURN credential"
        | some (username, password) =>
            .ok ⟨(entries.flatMap entryUrls).eraseDups, username, password,
              (now + grantedTtl body requestedTtl) % 2 ^ 64⟩ := by
  have hget : body.get "iceServers" = some (.arr entries) := by
    unfold iceServers at h
    split at h
    · next found hfound => rw [hfound, Option.some.inj h]
    · cases h
  have hfold : entries.foldl readEntry ([], none) =
      ((entries.flatMap entryUrls).eraseDups, entries.findSome? entryCredential) := by
    rw [foldl_readEntry, foldl_pushNew, Option.none_or]
    simp
  unfold parseResponse
  simp only [hget, hfold, eraseDups_eq_nil, bind, Except.bind]
  split
  · rfl
  · cases entries.findSome? entryCredential <;> rfl

/-- Without a list there is nothing to read. -/
theorem parseResponse_of_none (h : iceServers body = none) :
    ∃ why, parseResponse body now requestedTtl = .error why := by
  unfold iceServers at h
  unfold parseResponse
  cases hget : body.get "iceServers" with
  | none => exact ⟨_, rfl⟩
  | some found =>
    rw [hget] at h
    cases found with
    | arr entries => cases h
    | null | bool | num | str | obj => exact ⟨_, rfl⟩

theorem relays_of_entries {entries : List Json} (h : iceServers body = some entries) :
    relays body = true ↔ entries.flatMap entryUrls ≠ [] ∧
      ∃ credential, entries.findSome? entryCredential = some credential := by
  unfold relays
  rw [h]
  simp [Option.isSome_iff_exists]

variable (body now requestedTtl) in
/-- A response that relays is read, with an expiry that may have wrapped around; no other is. -/
theorem parseResponse_cases :
    (relays body = false ∧ ∃ why, parseResponse body now requestedTtl = .error why) ∨
      relays body = true ∧ ∃ entries username password, iceServers body = some entries ∧
        entries.flatMap entryUrls ≠ [] ∧
        entries.findSome? entryCredential = some (username, password) ∧
        parseResponse body now requestedTtl =
          .ok ⟨(entries.flatMap entryUrls).eraseDups, username, password,
            (now + grantedTtl body requestedTtl) % 2 ^ 64⟩ := by
  cases hservers : iceServers body with
  | none => exact .inl ⟨by rw [relays, hservers], parseResponse_of_none hservers⟩
  | some entries =>
    have hrelays := relays_of_entries hservers
    rw [parseResponse_of_entries hservers]
    by_cases hurls : entries.flatMap entryUrls = []
    · refine .inl ⟨?_, by rw [if_pos hurls]; exact ⟨_, rfl⟩⟩
      rw [Bool.eq_false_iff]
      exact fun h => (hrelays.mp h).1 hurls
    · rw [if_neg hurls]
      cases hcredential : entries.findSome? entryCredential with
      | none =>
        refine .inl ⟨?_, _, rfl⟩
        rw [Bool.eq_false_iff]
        intro h
        obtain ⟨_, _, hsome⟩ := hrelays.mp h
        rw [hcredential] at hsome
        cases hsome
      | some credential =>
        obtain ⟨username, password⟩ := credential
        exact .inr ⟨hrelays.mpr ⟨hurls, _, hcredential⟩, entries, username, password, rfl, hurls,
          hcredential, rfl⟩

end Response

/-- The response is read exactly if the life it grants, added to the time, is a number of 64 bits: what
    is returned then are the URLs in the order they first occur in, the first complete credential and
    the sum; and there is an error only if the response cannot relay. -/
theorem response_read_exactly_iff (body : Json) (now requestedTtl : Nat) :
    ((∀ c, parseResponse body now requestedTtl = .ok c → ∃ entries,
        iceServers body = some entries ∧ c.servers = (entries.flatMap entryUrls).eraseDups ∧
        c.servers ≠ [] ∧ entries.findSome? entryCredential = some (c.username, c.password) ∧
        c.expiresAt = now + grantedTtl body requestedTtl) ∧
      ∀ why, parseResponse body now requestedTtl = .error why → relays body = false) ↔
      (relays body = true → now + grantedTtl body requestedTtl < 2 ^ 64) := by
  obtain ⟨hrelays, why, herror⟩ | ⟨hrelays, entries, username, password, hservers, hurls,
    hcredential, hok⟩ := parseResponse_cases body now requestedTtl
  · rw [herror, hrelays]
    simp
  · rw [hok, hrelays]
    constructor
    · rintro ⟨hread, -⟩ -
      obtain ⟨_, -, -, -, -, hexpires⟩ := hread _ rfl
      have hlt : (now + grantedTtl body requestedTtl) % 2 ^ 64 < 2 ^ 64 := Nat.mod_lt _ (by decide)
      exact hexpires ▸ hlt
    · intro hfits
      refine ⟨fun c hc => ?_, fun why hwhy => by cases hwhy⟩
      cases hc
      refine ⟨entries, hservers, rfl, ?_, hcredential, Nat.mod_eq_of_lt (hfits rfl)⟩
      exact fun hnil => hurls (eraseDups_eq_nil.mp hnil)

/-- A response with one server and the given life. -/
def oneServer (ttl : JsonNumber) : Json :=
  .obj [("iceServers", .arr [.obj [("urls", .str "turn:t:3478"), ("username", .str "u"),
    ("credential", .str "p")]]), ("ttl", .num ttl)]

/-- A life of all 64 bits ends at the time it began, less a second. -/
theorem granted_life_wraps :
    relays (oneServer (.int 18446744073709551615 (by decide))) = true ∧
      grantedTtl (oneServer (.int 18446744073709551615 (by decide))) 1800 = 2 ^ 64 - 1 ∧
      parseResponse (oneServer (.int 18446744073709551615 (by decide))) 1760000000 1800 =
        .ok ⟨["turn:t:3478"], "u", "p", 1759999999⟩ := by
  refine ⟨by decide +kernel, by decide +kernel, by decide +kernel⟩

end DeviceUniqueness.Turn
