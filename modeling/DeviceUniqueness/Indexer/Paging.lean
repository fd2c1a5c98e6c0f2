import DeviceUniqueness.Indexer.Search
import DeviceUniqueness.Indexer.Projected

/-! Following the cursors of a search from its first page to its last.

    The table stays as it is meanwhile, and its rows were decoded from consumer entries. Then every
    cursor handed out is accepted again, and stands for the row it was taken from; so each page goes
    on where the one before it ended. -/

namespace DeviceUniqueness.Indexer

open Function Schemes

/-! ### The pattern -/

/-- A character as it stands in a pattern that is to match it. -/
def escapeChar (c : Char) : List Char :=
  if c = '\\' ∨ c = '%' ∨ c = '_' then ['\\', c] else [c]

theorem escapeLike_cons (c : Char) (text : List Char) :
    escapeLike (c :: text) = escapeChar c ++ escapeLike text := by
  by_cases hb : c = '\\'
  · subst hb
    rfl
  by_cases hp : c = '%'
  · subst hp
    rfl
  by_cases hu : c = '_'
  · subst hu
    rfl
  simp [escapeLike, replaceChar, escapeChar, hb, hp, hu]

theorem like_percent (text : List Char) : like ['%'] text = true := by
  induction text with
  | nil => simp [like]
  | cons c text ih => rw [like, ih, Bool.or_true]

theorem like_escapeChar (c : Char) (pattern text : List Char) :
    like (escapeChar c ++ pattern) text =
      match text with
      | [] => false
      | d :: text => c == d && like pattern text := by
  rw [escapeChar]
  split_ifs with h
  · cases text with
    | nil | cons d text => simp [like]
  · rw [not_or, not_or] at h
    obtain ⟨hb, hp, hu⟩ := h
    cases text with
    | nil =>
      rw [List.singleton_append, like]
      · exact fun hc => hp hc
    | cons d text =>
      rw [List.singleton_append, like]
      · exact hp
      · exact fun _ _ hc => absurd hc hb
      · exact hu

/-- The pattern of a prefix matches what starts with it. -/
theorem like_escapeLike (start text : List Char) :
    like (escapeLike start ++ ['%']) text = true ↔ start <+: text := by
  induction start generalizing text with
  | nil => simp [escapeLike, replaceChar, like_percent]
  | cons c start ih =>
    rw [escapeLike_cons, List.append_assoc, like_escapeChar]
    cases text with
    | nil => simp
    | cons d text => rw [Bool.and_eq_true, beq_iff_eq, ih, List.cons_prefix_cons]

/-! ### Rows that were decoded -/

/-- The row holds what some consumer entry decoded to. -/
def Produced (entry : Entry) : Prop :=
  ∃ (ss58 : Ss58Ext) (consumer : ConsumerInfo) (network : Ss58Prefix) (hash : BlockHash)
    (number : Nat) (record : AssignedUsername),
    decodeConsumer ss58 entry.1 consumer network hash number = .ok record ∧
      entry.2.said = record.said

/-- What an admission writes was decoded, and what it does not touch stays. -/
theorem produced_insert {rows : Rows} (hrows : ∀ entry ∈ rows.entries, Produced entry)
    {account : Account} {row : Row} (hrow : Produced ⟨account, row⟩) :
    ∀ entry ∈ (rows.insert account row).entries, Produced entry := by
  rintro ⟨other, row'⟩ hmem
  have hlookup : (rows.insert account row).lookup other = some row' :=
    AList.mem_lookup_iff.mpr hmem
  rw [Rows.lookup_insert] at hlookup
  split_ifs at hlookup with h
  · cases hlookup
    rw [h]
    exact hrow
  · exact hrows _ (AList.mem_lookup_iff.mp hlookup)

theorem rsplitOnce_ne_nil {sep : Char} {text : List Char} {parts : List Char × List Char}
    (h : rsplitOnce sep text = some parts) : text ≠ [] := by
  rintro rfl
  cases h

theorem decodeUsernames_ne {lite : Bytes} {full : Option Bytes} {names : Usernames}
    (h : decodeUsernames lite full = .ok names) :
    names.liteBase ≠ "" ∧ names.displayUsername ≠ "" := by
  rw [decodeUsernames] at h
  cases hlite : fromUtf8 lite with
  | none =>
    rw [hlite] at h
    cases h
  | some text =>
    simp only [hlite] at h
    cases hsplit : rsplitOnce '.' text.toList with
    | none =>
      rw [hsplit] at h
      cases h
    | some parts =>
      simp only [hsplit] at h
      have htext : text ≠ "" := by
        rintro rfl
        exact rsplitOnce_ne_nil hsplit rfl
      by_cases hparts : (parts.1.isEmpty || parts.2.isEmpty || !parts.2.all Char.isDigit) = true
      · rw [if_pos hparts] at h
        cases h
      rw [if_neg hparts] at h
      have hbase : String.ofList parts.1 ≠ "" := by
        intro hnil
        have : parts.1 = [] := by rw [← String.toList_ofList (l := parts.1), hnil]; rfl
        simp [this] at hparts
      -- what is shown is the full username, which is not empty, or else the lite one
      rcases full with _ | value
      · simp only [bind, Except.bind, reduceCtorEq, if_false] at h
        split_ifs at h
        cases h
        exact ⟨hbase, htext⟩
      · dsimp only at h
        cases hvalue : fromUtf8 value with
        | none =>
          rw [hvalue] at h
          cases h
        | some fullText =>
          simp only [hvalue, bind, Except.bind, Option.some.injEq] at h
          split_ifs at h with hempty
          cases h
          exact ⟨hbase, hempty⟩

variable {entry : Entry}

theorem Produced.ne (h : Produced entry) :
    entry.2.content.liteBase ≠ "" ∧ entry.2.content.displayUsername ≠ "" := by
  obtain ⟨ss58, consumer, network, hash, number, record, hrecord, hsaid⟩ := h
  rw [decodeConsumer] at hrecord
  obtain ⟨names, hnames, hrecord⟩ := bind_eq_ok.mp hrecord
  cases hrecord
  have hcontent : entry.2.content = _ := congrArg Prod.snd hsaid
  rw [hcontent]
  exact decodeUsernames_ne hnames

/-! ### Cursors -/

variable (ext : SearchExt)

theorem castNumeric_numericText (n : Nat) : castNumeric (numericText n) = n := by
  rw [castNumeric, numericText, String.toList_ofList, ← Nat.ofDigitChars_eq_foldl]
  exact Nat.ofDigitChars_toDigits (by decide) (by decide)

/-- The cursor of a row stands for the row. -/
theorem sortKey_entryCursor (entry : Entry) :
    (entryCursor ext entry).sortKey = sortKey ext entry := by
  rw [Cursor.sortKey, entryCursor, castNumeric_numericText, sortKey]

theorem isEmpty_eq_false {text : String} (h : text ≠ "") : text.isEmpty = false := by
  simpa using h

/-- A cursor that was handed out is accepted. -/
theorem decodeCursor_encodeCursor (h : Produced entry) :
    decodeCursor ext (encodeCursor ext (entryCursor ext entry)) = .ok (entryCursor ext entry) := by
  obtain ⟨hbase, hdisplay⟩ := h.ne
  have hkey : displayKey ext entry ≠ "" := ext.lower_ne _ hdisplay
  have hdigits : numericText entry.2.content.liteDigits ≠ "" := by
    intro hnil
    have hlist : Nat.toDigits 10 entry.2.content.liteDigits = [] := by
      rw [← String.toList_ofList (l := Nat.toDigits 10 _)]
      exact congrArg String.toList hnil
    exact Nat.toDigits_ne_nil hlist
  have hall : (numericText entry.2.content.liteDigits).toList.all Char.isDigit = true := by
    rw [numericText, String.toList_ofList, List.all_eq_true]
    exact fun c hc => Nat.isDigit_of_mem_toDigits (by decide) (by decide) hc
  rw [decodeCursor, encodeCursor, ext.decode64_encode64]
  dsimp only
  rw [ext.fromSlice_toVec]
  dsimp only [entryCursor]
  rw [isEmpty_eq_false hkey, isEmpty_eq_false hbase, isEmpty_eq_false hdigits, hall]
  rfl

/-! ### Pages -/

theorem codes_injective : Function.Injective codes :=
  List.map_injective_iff.mpr fun _ _ h => UInt8.toNat_inj.mp h

theorem entries_distinct (rows : Rows) :
    rows.entries.Pairwise fun x y => sortKey ext x ≠ sortKey ext y := by
  refine (List.pairwise_map.mp rows.nodupKeys).imp fun {x y} hne heq => hne ?_
  have hcodes : codes x.1.1 = codes y.1.1 :=
    congrArg (fun key : SortKey => (ofLex (ofLex (ofLex key).2).2).2) heq
  exact Subtype.ext (codes_injective hcodes)

/-- The rows of the table that the search is for. -/
def Wanted (start : String) (entry : Entry) : Prop :=
  searchable entry.2 = true ∧ start.toList <+: (displayKey ext entry).toList

/-- All the rows the search is for, in order. -/
def results (rows : Rows) (start : String) : List Entry :=
  Keyset.ordered (sortKey ext) (rows.entries.filter fun entry =>
    like (escapeLike start.toList ++ ['%']) (displayKey ext entry).toList && searchable entry.2)

theorem mem_results {rows : Rows} {start : String} :
    entry ∈ results ext rows start ↔ entry ∈ rows.entries ∧ Wanted ext start entry := by
  rw [results, Keyset.mem_ordered, List.mem_filter, Bool.and_eq_true, like_escapeLike, Wanted,
    and_comm (b := searchable entry.2 = true)]

theorem results_strict (rows : Rows) (start : String) :
    (results ext rows start).Pairwise fun x y => sortKey ext x < sortKey ext y :=
  Keyset.ordered_strict ((entries_distinct ext rows).filter _)

theorem selectRows_eq (rows : Rows) (start : String) (cursor : Option Cursor) (n : Nat) :
    selectRows ext rows (escapeLike start.toList ++ ['%']) cursor n =
      ((results ext rows start).filter fun entry =>
        Keyset.After (sortKey ext) (cursor.map Cursor.sortKey) entry).take n := by
  rw [selectRows, results, ← Keyset.ordered_filter ((entries_distinct ext rows).filter _),
    List.filter_filter]
  simp only [Bool.and_comm]

/-- The parameters with the cursor of the page before. -/
def withCursor (params : Params) (cursor : Option String) : Params :=
  update params "cursor" cursor

/-- Where the search stands: which cursor it goes on with, and what is left of the results. -/
inductive Left (ext : SearchExt) (l : List Entry) : Option String → List Entry → Prop
  | start : Left ext l none l
  | after {done rest : List Entry} {last : Entry} (h : l = done ++ last :: rest) :
      Left ext l (some (encodeCursor ext (entryCursor ext last))) rest

/-- The page that shows the rows, and says how to go on if there are more. -/
def pageOf (limit : Nat) (rest : List Entry) : SearchResponse :=
  ⟨(rest.take limit).map entryItem, if limit < rest.length then
    (rest.take limit).getLast?.map fun entry => encodeCursor ext (entryCursor ext entry) else none⟩

theorem assemblePage_eq (limit : Nat) (rest : List Entry) :
    assemblePage ext ((rest.take (limit + 1)).map (rowFromDb ext)) limit =
      ((pageOf ext limit rest).usernames, (pageOf ext limit rest).nextCursor) := by
  have hlen : ((rest.take (limit + 1)).map (rowFromDb ext)).length = min (limit + 1) rest.length := by
    rw [List.length_map, List.length_take]
  rw [assemblePage, hlen, pageOf]
  rcases Nat.lt_or_ge limit rest.length with hlt | hge
  · have hmin : limit < min (limit + 1) rest.length := by omega
    have hkept : ((rest.take (limit + 1)).map (rowFromDb ext)).dropLast =
        (rest.take limit).map (rowFromDb ext) := by
      rw [← List.map_dropLast, List.dropLast_eq_take, List.length_take, List.take_take]
      congr 2
      omega
    simp only [hmin, hlt, decide_true, if_true, hkept, List.map_map, List.getLast?_map,
      Option.map_map]
    rfl
  · have hmin : ¬ limit < min (limit + 1) rest.length := by omega
    have hall : rest.take (limit + 1) = rest.take limit := by
      rw [List.take_of_length_le (by omega), List.take_of_length_le hge]
    simp only [hmin, Nat.not_lt.mpr hge, decide_false, Bool.false_eq_true, if_false, hall, List.map_map]
    rfl

/-! ### Following the cursors -/

theorem limitOf_pos {raw : Option String} {limit : Nat} (h : limitOf raw = .ok limit) :
    0 < limit := by
  cases raw with
  | none =>
    cases h
    decide
  | some raw =>
    rw [limitOf] at h
    split at h
    · cases h
    · rename_i n hn hparsed
      cases h
      exact Nat.pos_of_ne_zero hn
    · cases h

theorem validate_decoded {params : Params} {cursor : Option String} {decoded : Option Cursor}
    (hdecoded : cursor.mapM (decodeCursor ext) = .ok decoded) :
    validate ext (withCursor params cursor) =
      match prefixErrors (params "prefix"), limitOf (params "limit") with
      | [], .ok limit => .ok ⟨(params "prefix").getD "", min limit maxLimit, decoded⟩
      | errors, .ok _ => .error (.invalidQuery errors)
      | errors, .error e => .error (.invalidQuery (errors ++ [e])) := by
  have hcursor : withCursor params cursor "cursor" = cursor := update_self ..
  have hnamePrefix : withCursor params cursor "prefix" = params "prefix" :=
    update_of_ne (by decide) _ _
  have hlimit : withCursor params cursor "limit" = params "limit" :=
    update_of_ne (by decide) _ _
  rw [validate, hcursor, hdecoded, hnamePrefix, hlimit]
  rfl

/-- Parameters that are valid without a cursor are valid with one that is accepted. -/
theorem validate_withCursor {params : Params} {query : ValidatedQuery}
    (h : validate ext (withCursor params none) = .ok query) :
    ∃ start limit, params "prefix" = some start ∧ limitOf (params "limit") = .ok limit ∧
      ∀ cursor decoded, cursor.mapM (decodeCursor ext) = .ok decoded →
        validate ext (withCursor params cursor) = .ok ⟨start, min limit maxLimit, decoded⟩ := by
  have hnone : (none : Option String).mapM (decodeCursor ext) = .ok none := rfl
  rw [validate_decoded ext hnone] at h
  cases hnamePrefix : params "prefix" with
  | none =>
    rw [hnamePrefix] at h
    cases hlimit : limitOf (params "limit") <;> rw [hlimit] at h <;> cases h
  | some start =>
    cases herrors : prefixErrors (some start) with
    | cons e errors =>
      rw [hnamePrefix, herrors] at h
      cases hlimit : limitOf (params "limit") <;> rw [hlimit] at h <;> cases h
    | nil =>
      cases hlimit : limitOf (params "limit") with
      | error e =>
        rw [hnamePrefix, herrors, hlimit] at h
        cases h
      | ok limit =>
        refine ⟨start, limit, rfl, rfl, fun cursor decoded hdecoded => ?_⟩
        rw [validate_decoded ext hdecoded, hnamePrefix, herrors, hlimit]
        rfl

/-- The pages from a cursor on: each is asked for with what the one before returned, until one
    returns nothing. -/
inductive Follows (ask : Option String → Except SearchError SearchResponse) :
    Option String → List SearchResponse → Prop
  | last {cursor : Option String} {page : SearchResponse} (h : ask cursor = .ok page)
      (hnext : page.nextCursor = none) : Follows ask cursor [page]
  | more {cursor : Option String} {page : SearchResponse} {next : String}
      {pages : List SearchResponse} (h : ask cursor = .ok page)
      (hnext : page.nextCursor = some next) (rest : Follows ask (some next) pages) :
      Follows ask cursor (page :: pages)

section Follow

variable {ext} {rows : Rows} {params : Params} {start : String} {n : Nat}
variable {cursor : Option String} {rest l : List Entry}

/-- One page, wherever the search stands. -/
theorem search_left (hrows : ∀ entry ∈ rows.entries, Produced entry)
    (hvalid : ∀ cursor decoded, cursor.mapM (decodeCursor ext) = .ok decoded →
      validate ext (withCursor params cursor) = .ok ⟨start, n, decoded⟩)
    (h : Left ext (results ext rows start.toLower) cursor rest) :
    search ext rows (withCursor params cursor) = .ok (pageOf ext n rest) := by
  have hpage : ∀ decoded, cursor.mapM (decodeCursor ext) = .ok decoded →
      ((results ext rows start.toLower).filter fun entry =>
        Keyset.After (sortKey ext) (decoded.map Cursor.sortKey) entry) = rest →
      search ext rows (withCursor params cursor) = .ok (pageOf ext n rest) := by
    intro decoded hdecoded hrest
    rw [search, hvalid cursor decoded hdecoded]
    change Except.ok (SearchResponse.mk
      (assemblePage ext ((selectRows ext rows _ decoded (n + 1)).map (rowFromDb ext)) n).1
      (assemblePage ext ((selectRows ext rows _ decoded (n + 1)).map (rowFromDb ext)) n).2) = _
    rw [selectRows_eq, hrest, assemblePage_eq]
  cases h with
  | start => exact hpage none rfl (Keyset.filter_start _)
  | @after done rest last hsplit =>
    have hlast : last ∈ rows.entries := ((mem_results ext).mp
      (hsplit ▸ List.mem_append_right _ (List.mem_cons_self ..))).1
    refine hpage (some (entryCursor ext last)) ?_ ?_
    · rw [Option.mapM_some, decodeCursor_encodeCursor ext (hrows last hlast)]
      rfl
    · have hstrict := results_strict ext rows start.toLower
      rw [Option.map_some, sortKey_entryCursor, hsplit]
      rw [hsplit] at hstrict
      exact Keyset.filter_after hstrict

theorem pageOf_last (h : rest.length ≤ n) : pageOf ext n rest = ⟨rest.map entryItem, none⟩ := by
  rw [pageOf, if_neg (Nat.not_lt.mpr h), List.take_of_length_le h]

theorem pageOf_more {init : List Entry} {last : Entry} (h : (init ++ [last]).length = n)
    (hrest : rest ≠ []) : pageOf ext n (init ++ [last] ++ rest) =
      ⟨(init ++ [last]).map entryItem, some (encodeCursor ext (entryCursor ext last))⟩ := by
  have hlt : n < (init ++ [last] ++ rest).length := by
    rw [List.length_append, h]
    exact Nat.lt_add_of_pos_right (List.length_pos_iff_ne_nil.mpr hrest)
  rw [pageOf, if_pos hlt, List.take_left' h, List.getLast?_concat]
  rfl

theorem Left.next {init : List Entry} {last : Entry}
    (h : Left ext l cursor (init ++ [last] ++ rest)) :
    Left ext l (some (encodeCursor ext (entryCursor ext last))) rest := by
  generalize hall : init ++ [last] ++ rest = all at h
  cases h with
  | start => exact .after (by rw [← hall, List.append_assoc, List.singleton_append])
  | @after done _ before hsplit =>
    have hnext : l = (done ++ before :: init) ++ last :: rest := by
      rw [hsplit, ← hall]
      simp
    exact .after hnext

theorem Left.subset (h : Left ext l cursor rest) : rest ⊆ l := by
  cases h with
  | start => exact List.Subset.refl _
  | after hsplit =>
    rw [hsplit]
    exact fun entry hmem => List.mem_append_right _ (List.mem_cons_of_mem _ hmem)

/-- A page of rows and the cursor that came with it. -/
abbrev Shown := List Entry × Option String

def Shown.response (page : Shown) : SearchResponse := ⟨page.1.map entryItem, page.2⟩

theorem follows_chunked {ask : Option String → Except SearchError SearchResponse}
    (hask : ∀ {cursor rest}, Left ext l cursor rest → ask cursor = .ok (pageOf ext n rest))
    (hn : 0 < n) (hl : ∀ entry ∈ l, Produced entry) {chunks : List (List Entry)}
    (hchunks : Keyset.Chunked n rest chunks) :
    ∀ {cursor}, Left ext l cursor rest → ∃ pages : List Shown, pages.map Prod.fst = chunks ∧
      Follows ask cursor (pages.map Shown.response) ∧
      ∀ page ∈ pages, ∀ next, page.2 = some next → ∃ last, page.1.getLast? = some last ∧
        decodeCursor ext next = .ok (entryCursor ext last) := by
  induction hchunks with
  | @last rest hlen =>
    intro cursor h
    have hpage := hask h
    rw [pageOf_last hlen] at hpage
    refine ⟨[(rest, none)], rfl, .last hpage rfl, ?_⟩
    intro page hmem next hnext
    rw [List.mem_singleton.mp hmem] at hnext
    cases hnext
  | @more shown rest chunks hlen hrest _ ih =>
    intro cursor h
    obtain ⟨init, last, rfl⟩ : ∃ init last, shown = init ++ [last] := by
      have hne : shown ≠ [] := List.length_pos_iff_ne_nil.mp (hlen ▸ hn)
      exact ⟨_, _, (List.dropLast_append_getLast hne).symm⟩
    have hpage := hask h
    rw [pageOf_more hlen hrest] at hpage
    obtain ⟨pages, hpages, hfollows, hcursors⟩ := ih h.next
    refine ⟨(init ++ [last], some (encodeCursor ext (entryCursor ext last))) :: pages,
      congrArg _ hpages, .more hpage rfl hfollows, List.forall_mem_cons.mpr ⟨?_, hcursors⟩⟩
    rintro next ⟨⟩
    have hlast : last ∈ l := h.subset (by simp)
    exact ⟨last, List.getLast?_concat, decodeCursor_encodeCursor ext (hl last hlast)⟩

end Follow

/-- Following the cursors from the first page ends; every cursor is accepted and stands for the last
    row of its page; all pages but the last are full; and together they show every row the search is
    for, once, in order. -/
theorem search_pages (rows : Rows) (hrows : ∀ entry ∈ rows.entries, Produced entry)
    (params : Params) {query : ValidatedQuery}
    (hparams : validate ext (withCursor params none) = .ok query) :
    ∃ start limit, params "prefix" = some start ∧ limitOf (params "limit") = .ok limit ∧
      ∃ pages : List Shown,
        Follows (fun cursor => search ext rows (withCursor params cursor)) none
          (pages.map Shown.response) ∧
        (∀ page ∈ pages, ∀ next, page.2 = some next → ∃ last, page.1.getLast? = some last ∧
          decodeCursor ext next = .ok (entryCursor ext last)) ∧
        (∀ page ∈ pages.dropLast, page.1.length = min limit maxLimit) ∧
        (pages.flatMap Prod.fst).Pairwise (fun x y => sortKey ext x < sortKey ext y) ∧
        ∀ entry, entry ∈ pages.flatMap Prod.fst ↔
          entry ∈ rows.entries ∧ Wanted ext start.toLower entry := by
  obtain ⟨start, limit, hnamePrefix, hlimit, hvalid⟩ := validate_withCursor ext hparams
  have hn : 0 < min limit maxLimit := lt_min (limitOf_pos hlimit) (by decide)
  obtain ⟨chunks, hchunks⟩ := Keyset.exists_chunked hn (results ext rows start.toLower)
  have hproduced : ∀ entry ∈ results ext rows start.toLower, Produced entry :=
    fun entry hmem => hrows entry ((mem_results ext).mp hmem).1
  obtain ⟨pages, hpages, hfollows, hcursors⟩ :=
    follows_chunked (fun h => search_left hrows hvalid h) hn hproduced hchunks .start
  have hflat : pages.flatMap Prod.fst = results ext rows start.toLower := by
    rw [List.flatMap_def, hpages, hchunks.flatten]
  refine ⟨start, limit, hnamePrefix, hlimit, pages, hfollows, hcursors, fun page hmem => ?_, ?_,
    fun entry => ?_⟩
  · refine hchunks.full page.1 ?_
    rw [← hpages, ← List.map_dropLast]
    exact List.mem_map_of_mem hmem
  · rw [hflat]
    exact results_strict ext rows start.toLower
  · rw [hflat, mem_results]

/-! ### Two pages -/

/-- A cursor, and what it is on the wire. -/
def firstCursor : Cursor := ⟨"alice.07", "Alice", "7", ⟨List.replicate 32 2, by simp⟩⟩

def firstJson : Bytes := utf8
  ("\x7b\"display_key\":\"alice.07\",\"lite_base\":\"Alice\",\"lite_digits\":\"7\",\"acc" ++
    "ount_id\":[2,2,2,2,2,2,2,2,2,2,2,2,2,2,2,2,2,2,2,2,2,2,2,2,2,2,2,2,2,2,2,2]\x7d")

def firstToken : String :=
  "eyJkaXNwbGF5X2tleSI6ImFsaWNlLjA3IiwibGl0ZV9iYXNlIjoiQWxpY2UiLCJsaXRlX2RpZ2l0cyI6Ijci" ++
    "LCJhY2NvdW50X2lkIjpbMiwyLDIsMiwyLDIsMiwyLDIsMiwyLDIsMiwyLDIsMiwyLDIsMiwyLDIsMiwyLDIs" ++
    "MiwyLDIsMiwyLDIsMiwyXX0"

/-- Any other text or cursor, in a form of our own: a mark before each character, and one at the
    end. -/
def spell : List Char → Bytes
  | [] => [0]
  | c :: text => 1 :: UInt8.ofNat (c.toNat / 65536) :: UInt8.ofNat (c.toNat / 256) ::
      UInt8.ofNat c.toNat :: spell text

def unspell : Bytes → Option (List Char × Bytes)
  | 0 :: rest => some ([], rest)
  | 1 :: a :: b :: c :: rest => (unspell rest).map fun out =>
      (Char.ofNat (65536 * a.toNat + 256 * b.toNat + c.toNat) :: out.1, out.2)
  | _ => none

theorem unspell_spell (text : List Char) (rest : Bytes) :
    unspell (spell text ++ rest) = some (text, rest) := by
  induction text with
  | nil => rfl
  | cons c text ih =>
    have hbound : c.toNat < 1114112 := by
      rcases c.valid with h | h <;> simp only [Char.toNat, UInt32.toNat] at * <;> omega
    have hcode : 65536 * (UInt8.ofNat (c.toNat / 65536)).toNat +
        256 * (UInt8.ofNat (c.toNat / 256)).toNat + (UInt8.ofNat c.toNat).toNat = c.toNat := by
      simp only [UInt8.toNat_ofNat']
      omega
    simp only [spell, List.cons_append, unspell, ih, Option.map_some, hcode, Char.ofNat_toNat]

def spellCursor (cursor : Cursor) : Bytes :=
  0 :: (spell cursor.displayKey.toList ++ (spell cursor.liteBase.toList ++
    (spell cursor.liteDigits.toList ++ cursor.accountId.1)))

def unspellCursor : Bytes → Option Cursor
  | 0 :: bytes => do
      let (displayKey, bytes) ← unspell bytes
      let (liteBase, bytes) ← unspell bytes
      let (liteDigits, bytes) ← unspell bytes
      if h : bytes.length = 32 then
        some ⟨String.ofList displayKey, String.ofList liteBase, String.ofList liteDigits, ⟨bytes, h⟩⟩
      else none
  | _ => none

theorem unspellCursor_spellCursor (cursor : Cursor) :
    unspellCursor (spellCursor cursor) = some cursor := by
  simp [unspellCursor, spellCursor, unspell_spell, cursor.accountId.2]

def testSearchExt : SearchExt where
  lower := String.toLower
  toVec cursor := if cursor = firstCursor then firstJson else spellCursor cursor
  fromSlice bytes := if bytes = firstJson then some firstCursor else unspellCursor bytes
  encode64 bytes := if bytes = firstJson then firstToken
    else String.ofList ('.' :: bytes.map fun b => Char.ofNat b.toNat)
  decode64 text := if text = firstToken then some firstJson
    else some (text.toList.tail.map fun c => UInt8.ofNat c.toNat)
  lower_ne text h hnil := by
    refine h (String.toList_injective ?_)
    have hlist := congrArg String.toList hnil
    rw [String.toLower, String.toList_map] at hlist
    exact List.map_eq_nil_iff.mp hlist
  fromSlice_toVec cursor := by
    split_ifs with h hjson hjson
    · rw [h]
    · exact absurd rfl hjson
    · have hhead : some 0 ≠ firstJson.head? := by decide +kernel
      exact absurd (congrArg List.head? hjson) hhead
    · exact unspellCursor_spellCursor cursor
  decode64_encode64 bytes := by
    have hbyte : ∀ b : UInt8, UInt8.ofNat (Char.ofNat b.toNat).toNat = b := by
      intro b
      have hvalid : b.toNat.isValidChar := .inl (Nat.lt_trans b.toNat_lt (by decide))
      rw [Char.ofNat, dif_pos hvalid]
      exact UInt8.ofNat_toNat
    have hdot : '.' :: bytes.map (fun b => Char.ofNat b.toNat) ≠ firstToken.toList := by
      intro heq
      have hhead : some '.' ≠ firstToken.toList.head? := by decide +kernel
      exact hhead (congrArg List.head? heq)
    split_ifs with h htoken htoken
    · rw [h]
    · exact absurd rfl htoken
    · exact absurd (by rw [← htoken, String.toList_ofList]) hdot
    · rw [String.toList_ofList, List.tail_cons, List.map_map]
      simp [comp_def, hbyte]

/-- The parameters of a search with a page size of one. -/
def oneByOne : Params := fun name =>
  if name = "prefix" then some "Al" else if name = "limit" then some "1" else none

def newKey : FixedBytes 65 := ⟨List.replicate 65 0, by simp⟩

/-- What the entry of a lite username without a full one decodes to. -/
def liteRecord (account : Account) (base digits : String) : AssignedUsername where
  accountId := account
  accountIdSs58 := address testIndexExt.toSs58Ext account ⟨42, by decide⟩
  identifierKey := newKey
  liteUsername := base ++ "." ++ digits
  liteBase := base
  liteDigits := digits
  fullUsername := none
  displayUsername := base ++ "." ++ digits
  snapshotHash := oldGenesis
  snapshotNumber := 0

def secondAccount : Account := ⟨List.replicate 32 2, by simp⟩

def firstEntry : Entry := ⟨secondAccount, (liteRecord secondAccount "Alice" "07").row 0 none 0 0⟩
def secondEntry : Entry := ⟨aliceAccount, (liteRecord aliceAccount "alice" "42").row 0 none 0 0⟩

def twoAlices : Rows := (AList.insert secondEntry.1 secondEntry.2 ∅).insert firstEntry.1 firstEntry.2

theorem twoAlices_produced : ∀ entry ∈ twoAlices.entries, Produced entry := by
  have hproduced : Produced firstEntry ∧ Produced secondEntry :=
    ⟨⟨testIndexExt.toSs58Ext, ⟨newKey, utf8 "Alice.07", none⟩, ⟨42, by decide⟩, oldGenesis, 0,
        liteRecord secondAccount "Alice" "07", by decide +kernel, rfl⟩,
      ⟨testIndexExt.toSs58Ext, ⟨newKey, utf8 "alice.42", none⟩, ⟨42, by decide⟩, oldGenesis, 0,
        liteRecord aliceAccount "alice" "42", by decide +kernel, rfl⟩⟩
  exact produced_insert (produced_insert (fun _ h => absurd h List.not_mem_nil) hproduced.2)
    hproduced.1

/-- Two rows, one to a page: the page of the first is full, and both are shown. -/
theorem two_alices_shown :
    ∃ pages : List Shown,
      Follows (fun cursor => search testSearchExt twoAlices (withCursor oneByOne cursor)) none
        (pages.map Shown.response) ∧
      (∀ page ∈ pages.dropLast, page.1.length = 1) ∧
      firstEntry ∈ pages.flatMap Prod.fst ∧ secondEntry ∈ pages.flatMap Prod.fst := by
  have hvalid : ∃ query, validate testSearchExt (withCursor oneByOne none) = .ok query := ⟨_, rfl⟩
  obtain ⟨query, hquery⟩ := hvalid
  obtain ⟨start, limit, hstart, hlimit, pages, hfollows, -, hfull, -, hmem⟩ :=
    search_pages testSearchExt twoAlices twoAlices_produced oneByOne hquery
  obtain rfl : "Al" = start := Option.some.inj hstart
  obtain rfl : 1 = limit := Except.ok.inj hlimit
  refine ⟨pages, hfollows, hfull, (hmem _).mpr ⟨?_, ?_⟩, (hmem _).mpr ⟨?_, ?_⟩⟩
  · decide +kernel
  · exact ⟨by decide +kernel, by decide +kernel⟩
  · decide +kernel
  · exact ⟨by decide +kernel, by decide +kernel⟩

end DeviceUniqueness.Indexer
