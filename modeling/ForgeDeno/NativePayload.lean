import ForgeDeno.AbiCodec
import ForgeDeno.Base64Text
import ForgeDeno.PatternWords

namespace ForgeDeno

inductive GoforgeAbiErrorCodeV1 where
  | invalidJson
  | unknownField
  | duplicateField
  | requestTooLarge
  | responseTooLarge
  | invalidAbi
  | invalidRequest
  | unknownOperation
  | capabilityUnavailable
  | executionStateRequired
  | deadlineExceeded
  | cancellationRequested
  | invalidBase64
  | invalidUtf8
  | inputTooLarge
  | invalidKey
  | invalidNonce
  | authenticationFailed
  | internal
deriving DecidableEq

def GoforgeAbiErrorCodeV1.name : GoforgeAbiErrorCodeV1 → JsString
  | invalidJson => js "invalid_json"
  | unknownField => js "unknown_field"
  | duplicateField => js "duplicate_field"
  | requestTooLarge => js "request_too_large"
  | responseTooLarge => js "response_too_large"
  | invalidAbi => js "invalid_abi"
  | invalidRequest => js "invalid_request"
  | unknownOperation => js "unknown_operation"
  | capabilityUnavailable => js "capability_unavailable"
  | executionStateRequired => js "execution_state_required"
  | deadlineExceeded => js "deadline_exceeded"
  | cancellationRequested => js "cancellation_requested"
  | invalidBase64 => js "invalid_base64"
  | invalidUtf8 => js "invalid_utf8"
  | inputTooLarge => js "input_too_large"
  | invalidKey => js "invalid_key"
  | invalidNonce => js "invalid_nonce"
  | authenticationFailed => js "authentication_failed"
  | internal => js "internal"

theorem GoforgeAbiErrorCodeV1.catalogued (code : GoforgeAbiErrorCodeV1) :
    ∃ definition ∈ GOFORGE_ABI_ERROR_CATALOG, definition.1 = code.name ∧
      catalogEntry code.name = some (some definition.2.message, some definition.2.retryable) := by
  cases code <;> exact ⟨_, by simp [GOFORGE_ABI_ERROR_CATALOG], rfl, rfl⟩

structure PayloadError where
  code : GoforgeAbiErrorCodeV1
  field : Option JsString := none
deriving DecidableEq

namespace Native

def maxBinaryBytes : Nat := 512 <<< 10

def maxStringBytes : Nat := 64 <<< 10

abbrev Members := List (JsString × JsonValue)

def absent (members : Members) (key : JsString) : Bool :=
  match lookupMember members key with
  | none => true
  | some .null => true
  | some _ => false

def object (payload : JsonValue) (required optional : List JsString) : Except PayloadError Members :=
  match payload with
  | .object members =>
    if members.any fun member => !(required ++ optional).contains member.1 then
      .error { code := .unknownField }
    else match required.find? (absent members) with
      | some key => .error ⟨.invalidRequest, some (js "payload." ++ key)⟩
      | none => .ok members
  | _ => .error ⟨.invalidJson, some (js "payload")⟩

def text (members : Members) (key : JsString) : Except PayloadError JsString :=
  match lookupMember members key with
  | some (.string s) => .ok s
  | _ => .error { code := .invalidJson }

def flag (members : Members) (key : JsString) : Except PayloadError Bool :=
  match lookupMember members key with
  | none => .ok false
  | some .null => .ok false
  | some (.bool b) => .ok b
  | some _ => .error { code := .invalidJson }

def integer (members : Members) (key : JsString) : Except PayloadError Int :=
  match lookupMember members key with
  | none => .ok 0
  | some .null => .ok 0
  | some (.number n) =>
    match n.integer? with
    | some i => .ok i
    | none => .error { code := .invalidJson }
  | some _ => .error { code := .invalidJson }

def optionalText (members : Members) (key : JsString) : Except PayloadError JsString :=
  match lookupMember members key with
  | none => .ok []
  | some .null => .ok []
  | some (.string s) => .ok s
  | some _ => .error { code := .invalidJson }

def encodedLength (byteCount : Nat) : Nat := (byteCount + 2) / 3 * 4

section patterns

open TextPattern

def base64Letter : TextPattern UInt16 := among "+/" [upper, lower, digit]

def binaryPattern : TextPattern UInt16 :=
  seq (star base64Letter) (seq (opt (TextPattern.text "=")) (opt (TextPattern.text "=")))

end patterns

section base64

variable (base64 : Base64)

def binary (encoded field : JsString) (maxBytes : Nat) : Except PayloadError Bytes :=
  if encodedLength maxBytes < encoded.length then .error ⟨.inputTooLarge, some field⟩
  else if encoded.length % 4 ≠ 0 || !binaryPattern.test encoded then
    .error ⟨.invalidBase64, some field⟩
  else match base64.decode encoded with
    | .error _ => .error ⟨.invalidBase64, some field⟩
    | .ok decoded =>
      if base64.encode decoded ≠ encoded then .error ⟨.invalidBase64, some field⟩
      else if maxBytes < decoded.length then .error ⟨.inputTooLarge, some field⟩
      else .ok decoded

end base64

/-- A high surrogate that no low one follows, or a low one behind no high one. -/
def loneSurrogate (previous : Option UInt16) : JsString → Bool
  | [] => false
  | u :: rest =>
    (JsString.isHighSurrogate u && !rest.head?.any JsString.isLowSurrogate) ||
      (JsString.isLowSurrogate u && !previous.any JsString.isHighSurrogate) ||
      loneSurrogate (some u) rest

def assertUtf8 (value field : JsString) : Except PayloadError Unit :=
  if loneSurrogate none value then .error ⟨.invalidUtf8, some field⟩ else .ok ()

def byteLength (value : JsString) : Nat := value.utf8Encode.length

end Native

end ForgeDeno
