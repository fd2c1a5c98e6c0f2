import DeviceUniqueness.Intake.Request
import DeviceUniqueness.Indexer.Projection
import DeviceUniqueness.Schemes.Keyset

/-! The public search over the projection.

    A query is a prefix, a limit and, from the second page on, the cursor the page before ended
    with. The rows whose name starts with the prefix come in the order of a tuple that ends with the
    account, so that no two rows share it, and the cursor is that tuple. -/

namespace DeviceUniqueness.Indexer

open Schemes

def defaultLimit : Nat := 100
def maxLimit : Nat := 1000

def prefixRequired : String := "Prefix is required"
def prefixTooLong : String := "Prefix must be at most 64 characters"
def prefixPattern : String :=
  "Prefix must be letters/digits, optionally followed by a dot and digits " ++
    "(e.g. \"alice\", \"alice.\", \"alice.10\")"
def mustBePositive : String := "must be greater than 0"

def expected (wanted received : String) : String := s!"expected {wanted}, received {received}"

/-- The tuple the rows are ordered by, as it travels: the number as text. -/
structure Cursor where
  displayKey : String
  liteBase : String
  liteDigits : String
  accountId : Account
  deriving DecidableEq

/-- What the search takes from others: `lower` of the database, JSON, and base64 (URL-safe, without
    padding), with what is known of them. -/
structure SearchExt where
  lower : String → String
  toVec : Cursor → Bytes
  fromSlice : Bytes → Option Cursor
  encode64 : Bytes → String
  decode64 : String → Option Bytes
  lower_ne : ∀ text, text ≠ "" → lower text ≠ ""
  fromSlice_toVec : ∀ cursor, fromSlice (toVec cursor) = some cursor
  decode64_encode64 : ∀ bytes, decode64 (encode64 bytes) = some bytes

structure SearchUsername where
  accountId : String
  username : String
  status : String
  createdAt : Time
  updatedAt : Time
  deriving DecidableEq

structure SearchResponse where
  usernames : List SearchUsername
  nextCursor : Option String
  deriving DecidableEq

inductive SearchError where
  | invalidQuery (errors : List FieldError)
  | invalidCursor
  deriving DecidableEq

structure SearchRow where
  item : SearchUsername
  cursor : Cursor

variable (ext : SearchExt)

/-! ### Cursors -/

def encodeCursor (cursor : Cursor) : String := ext.encode64 (ext.toVec cursor)

def decodeCursor (encoded : String) : Except SearchError Cursor := do
  let some bytes := ext.decode64 encoded | .error .invalidCursor
  let some cursor := ext.fromSlice bytes | .error .invalidCursor
  if cursor.displayKey.isEmpty || cursor.liteBase.isEmpty || cursor.liteDigits.isEmpty ||
      !cursor.liteDigits.toList.all Char.isDigit then
    .error .invalidCursor
  else .ok cursor

/-! ### Validation -/

/-- The grammar `^[a-zA-Z0-9]+(\.\d*)?$`: what stands before the first dot, and behind it. -/
def prefixMatches (text : List Char) : Bool :=
  let head := text.takeWhile (· ≠ '.')
  !head.isEmpty && head.all Char.isAlphanum && (text.drop (head.length + 1)).all Char.isDigit

/-- `char::is_whitespace`. -/
def isWhiteSpace (c : Char) : Bool :=
  (9 ≤ c.toNat && c.toNat ≤ 13) || (0x2000 ≤ c.toNat && c.toNat ≤ 0x200a) ||
    [0x20, 0x85, 0xa0, 0x1680, 0x2028, 0x2029, 0x202f, 0x205f, 0x3000].contains c.toNat

/-- `str::trim`. -/
def trim (text : String) : String :=
  String.ofList (((text.toList.dropWhile isWhiteSpace).reverse.dropWhile isWhiteSpace).reverse)

/-- `u32::from_str`. -/
def parseU32 (text : String) : Option Nat :=
  let digits := match text.toList with
    | '+' :: rest => rest
    | chars => chars
  if digits.isEmpty || !digits.all Char.isDigit then none
  else
    let n := Nat.ofDigitChars 10 digits 0
    if n < 2 ^ 32 then some n else none

/-- Every rule the field fails is reported. -/
def prefixErrors : Option String → List FieldError
  | none => [⟨expected "string" "nothing", "prefix"⟩]
  | some text =>
      (if text.isEmpty then [⟨prefixRequired, "prefix"⟩] else []) ++
      (if 64 < text.length then [⟨prefixTooLong, "prefix"⟩] else []) ++
      (if !prefixMatches text.toList then [⟨prefixPattern, "prefix"⟩] else [])

/-- The limit asked for, or what is wrong with it. -/
def limitOf : Option String → Except FieldError Nat
  | none => .ok defaultLimit
  | some raw =>
      match parseU32 (trim raw) with
      | some 0 => .error ⟨mustBePositive, "limit"⟩
      | some limit => .ok limit
      | none => .error ⟨expected "a positive integer" raw, "limit"⟩

structure ValidatedQuery where
  namePrefix : String
  limit : Nat
  cursor : Option Cursor

/-- The query parameters, by name. -/
abbrev Params := String → Option String

/-- The cursor comes first: a bad one is all that is reported. -/
def validate (params : Params) : Except SearchError ValidatedQuery := do
  let cursor ← (params "cursor").mapM (decodeCursor ext)
  match prefixErrors (params "prefix"), limitOf (params "limit") with
  | [], .ok limit => .ok ⟨(params "prefix").getD "", min limit maxLimit, cursor⟩
  | errors, .ok _ => .error (.invalidQuery errors)
  | errors, .error e => .error (.invalidQuery (errors ++ [e]))

/-! ### The statement -/

/-- `str::replace`, of one character. -/
def replaceChar (c : Char) (by' : List Char) (text : List Char) : List Char :=
  text.flatMap fun d => if d = c then by' else [d]

def escapeLike (value : List Char) : List Char :=
  replaceChar '_' ['\\', '_'] (replaceChar '%' ['\\', '%'] (replaceChar '\\' ['\\', '\\'] value))

/-- `LIKE pattern ESCAPE '\'`. -/
def like : List Char → List Char → Bool
  | [], text => text.isEmpty
  | '%' :: pattern, [] => like pattern []
  | '%' :: pattern, c :: text => like pattern (c :: text) || like ('%' :: pattern) text
  | '\\' :: c :: pattern, d :: text => c == d && like pattern text
  | '_' :: pattern, _ :: text => like pattern text
  | c :: pattern, d :: text => c == d && like pattern text
  | _ :: _, [] => false
  termination_by pattern text => pattern.length + text.length

/-- `~ '\.[0-9]{1,2}$'`. -/
def endsInDigits (text : List Char) : Bool :=
  match text.reverse with
  | a :: '.' :: _ => a.isDigit
  | a :: b :: '.' :: _ => a.isDigit && b.isDigit
  | _ => false

abbrev Entry := (_ : Account) × Row

/-- The name that is matched and ordered by. -/
def displayKey (entry : Entry) : String := ext.lower entry.2.content.displayUsername

/-- The rows a client can make use of: a full username or one of up to two digits, and a key of the
    present format. -/
def searchable (row : Row) : Bool :=
  (row.content.fullUsername.isSome || endsInDigits row.content.displayUsername.toList) &&
    row.content.identifierKey.1.head? == some 0

/-- Text under `COLLATE "C"`, and a byte string, compare by their bytes. -/
def codes (bytes : Bytes) : List Nat := bytes.map UInt8.toNat

abbrev SortKey := List Nat ×ₗ List Nat ×ₗ Nat ×ₗ List Nat

def sortKey (entry : Entry) : SortKey :=
  toLex (codes (utf8 (displayKey ext entry)), toLex (codes (utf8 entry.2.content.liteBase),
    toLex (entry.2.content.liteDigits, codes entry.1.1)))

/-- The tuple a cursor stands for, its digits cast to a number. -/
def Cursor.sortKey (cursor : Cursor) : SortKey :=
  toLex (codes (utf8 cursor.displayKey), toLex (codes (utf8 cursor.liteBase),
    toLex (castNumeric cursor.liteDigits, codes cursor.accountId.1)))

/-- `lite_digits::text`. -/
def numericText (n : Nat) : String := String.ofList (Nat.toDigits 10 n)

def entryItem (entry : Entry) : SearchUsername :=
  ⟨entry.2.accountIdSs58, entry.2.content.displayUsername, "ASSIGNED", entry.2.createdAt,
    entry.2.updatedAt⟩

def entryCursor (entry : Entry) : Cursor :=
  ⟨displayKey ext entry, entry.2.content.liteBase, numericText entry.2.content.liteDigits, entry.1⟩

def rowFromDb (entry : Entry) : SearchRow := ⟨entryItem entry, entryCursor ext entry⟩

/-- The first `fetchLimit` rows that match the pattern and come after the cursor. -/
def selectRows (rows : Rows) (pattern : List Char) (cursor : Option Cursor) (fetchLimit : Nat) :
    List Entry :=
  (Keyset.ordered (sortKey ext) (rows.entries.filter fun entry =>
    like pattern (displayKey ext entry).toList && searchable entry.2 &&
      decide (Keyset.After (sortKey ext) (cursor.map Cursor.sortKey) entry))).take fetchLimit

/-- A row more than the page holds says that there is another page. -/
def assemblePage (rows : List SearchRow) (limit : Nat) : List SearchUsername × Option String :=
  let hasMore := decide (limit < rows.length)
  let kept := if hasMore then rows.dropLast else rows
  let nextCursor := if hasMore then kept.getLast?.map fun row => encodeCursor ext row.cursor
    else none
  (kept.map SearchRow.item, nextCursor)

def search (rows : Rows) (params : Params) : Except SearchError SearchResponse := do
  let validated ← validate ext params
  -- a prefix that was accepted is ASCII, where `to_lowercase` does what `toLower` does
  let pattern := escapeLike validated.namePrefix.toLower.toList ++ ['%']
  let found := selectRows ext rows pattern validated.cursor (validated.limit + 1)
  let (usernames, nextCursor) := assemblePage ext (found.map (rowFromDb ext)) validated.limit
  return ⟨usernames, nextCursor⟩

end DeviceUniqueness.Indexer
