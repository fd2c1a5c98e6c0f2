import DeviceUniqueness.Intake.Service

/-! What the auth handlers read out of the headers of a request.

    A header may be present and still be no text. The platform claim of a token and the choice of
    the verifier both go by the headers, but not by the same questions: one asks whether a header is
    there, the other what it says. -/

namespace DeviceUniqueness

/-- An error a handler answers with. -/
inductive AppError where
  | badRequest (message : String)
  | unauthorized
  | integrityFailed (reason : String)
  | crlUnavailable
  | internal (error : String)
  deriving DecidableEq, Repr

/-- Header values by lower-case name, in the order they came. -/
structure Headers where
  entries : List (String × Bytes)
  deriving DecidableEq

/-- `HeaderValue::to_str`. -/
def toStr (raw : Bytes) : Option String := (headerText raw).map ofAscii

namespace Headers

variable (headers : Headers) (name : String)

/-- The first value of the name. -/
def get : Option Bytes := headers.entries.lookup name

def containsKey : Bool := (headers.get name).isSome

def text : Option String := (headers.get name).bind toStr

end Headers

def decodeHeader (headers : Headers) (name : String) : Except AppError Bytes :=
  match headers.text name with
  | none => .error (.badRequest ("missing or invalid header " ++ name))
  | some raw =>
      match base64Decode (utf8 (trim raw)) with
      | some bytes => .ok bytes
      | none => .error (.badRequest ("header " ++ name ++ " is not valid base64"))

def decodeHeaderFixed (n : Nat) (headers : Headers) (name : String) :
    Except AppError (FixedBytes n) :=
  match decodeHeader headers name with
  | .error e => .error e
  | .ok bytes =>
      if h : bytes.length = n then .ok ⟨bytes, h⟩
      else .error (.badRequest ("header " ++ name ++ " must decode to " ++ toString n ++ " bytes"))

/-- The platform claim. -/
def detectPlatform (headers : Headers) : Option String :=
  if headers.containsKey "auth-ios-package" then some "ios"
  else if headers.containsKey "auth-android-package" ||
      headers.get "auth-attestation-type" = some (utf8 "key-attestation") then some "android"
  else none

/-- The text of a value is the value. -/
theorem utf8_toStr {raw : Bytes} {text : String} (h : toStr raw = some text) : utf8 text = raw := by
  obtain ⟨ascii, hascii, rfl⟩ := Option.map_eq_some_iff.mp h
  unfold headerText at hascii
  split_ifs at hascii with hall
  obtain rfl := Option.some.inj hascii
  refine utf8_ofAscii fun b hb => ?_
  have hb : (32 ≤ b ∧ b < 127) ∨ b = 9 := by simpa using List.all_eq_true.mp hall b hb
  rcases hb with ⟨-, hb⟩ | rfl
  · exact UInt8.lt_trans hb (by decide)
  · decide

theorem Headers.get_of_text {headers : Headers} {name text : String}
    (h : headers.text name = some text) : headers.get name = some (utf8 text) := by
  obtain ⟨raw, hraw, htext⟩ := Option.bind_eq_some_iff.mp h
  rw [hraw, utf8_toStr htext]

theorem Headers.containsKey_of_text {headers : Headers} {name text : String}
    (h : headers.text name = some text) : headers.containsKey name = true := by
  rw [Headers.containsKey, Headers.get_of_text h, Option.isSome_some]

theorem detectPlatform_ios {headers : Headers} (h : headers.containsKey "auth-ios-package" = true) :
    detectPlatform headers = some "ios" := by
  rw [detectPlatform, if_pos h]

/-- Without an iOS package, a token of either kind of Android evidence says `android`: key attestation
    by its type, Play Integrity by the package it cannot do without. -/
theorem detectPlatform_android {headers : Headers}
    (hios : headers.containsKey "auth-ios-package" = false)
    (h : headers.text "auth-attestation-type" = some "key-attestation" ∨
      ∃ package, headers.text "auth-android-package" = some package) :
    detectPlatform headers = some "android" := by
  rw [detectPlatform, hios, if_neg Bool.false_ne_true, if_pos]
  rcases h with htype | ⟨package, hpackage⟩
  · rw [Headers.get_of_text htype, decide_eq_true rfl, Bool.or_true]
  · rw [Headers.containsKey_of_text hpackage, Bool.true_or]

end DeviceUniqueness
