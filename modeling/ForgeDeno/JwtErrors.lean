import ForgeDeno.JwtAuthenticity

namespace ForgeDeno

inductive BuiltinAlgorithm where
  | HS256
  | RS256
  | PS256
  | EdDSA

def BuiltinAlgorithm.name : BuiltinAlgorithm → JsString
  | .HS256 => js "HS256"
  | .RS256 => js "RS256"
  | .PS256 => js "PS256"
  | .EdDSA => js "EdDSA"

/-- A built-in strategy whose keys are imported: `crypto.subtle.verify` gives a Boolean for every signature
and every input. -/
def builtinStrategy (algorithm : BuiltinAlgorithm) (sign : Bytes → Except JwtThrown Bytes)
    (subtleVerify : (signature input : Bytes) → Bool) : Strategy where
  algorithm := algorithm.name
  sign := sign
  verify input signature := .ok (subtleVerify signature input)

namespace Service

section codec

variable (base64url : Base64Url)

/-- The token has three parts, its header names the algorithm of the strategy and the strategy accepts
its signature. -/
def ValidlySigned (strategy : Strategy) (token : JsString) : Prop :=
  ∃ headerPart claimsPart signaturePart header alg signature,
    token.split 0x2E = [headerPart, claimsPart, signaturePart] ∧
      decodeJSON base64url headerPart = .ok header ∧ algOf header = .ok alg ∧
      sameAlg alg strategy.algorithm = true ∧ base64url.decode signaturePart = some signature ∧
      strategy.verify (JsString.utf8Encode (headerPart ++ 0x2E :: claimsPart)) signature = .ok true

/-- Where the token has three parts, its header is JSON other than null, and the part that the check of
its algorithm leads to can be read: the signature, or the text of a differing algorithm. -/
def Readable (algorithm token : JsString) : Prop :=
  ∀ headerPart claimsPart signaturePart,
    token.split 0x2E = [headerPart, claimsPart, signaturePart] →
      ∃ header alg, decodeJSON base64url headerPart = .ok header ∧ algOf header = .ok alg ∧
        if sameAlg alg algorithm then (base64url.decode signaturePart).isSome = true
        else (algText alg).isSome = true

end codec

variable {base64url : Base64Url}

section parts

variable {algorithm token headerPart claimsPart signaturePart : JsString}
  (parts : token.split 0x2E = [headerPart, claimsPart, signaturePart])
include parts

theorem readable_read {header : JsonValue} {alg : Option JsonValue}
    (read : decodeJSON base64url headerPart = .ok header) (named : algOf header = .ok alg) :
    Readable base64url algorithm token ↔
      if sameAlg alg algorithm then (base64url.decode signaturePart).isSome = true
      else (algText alg).isSome = true := by
  constructor
  · intro readable
    obtain ⟨header', alg', read', named', holds⟩ := readable headerPart claimsPart signaturePart parts
    cases read.symm.trans read'
    cases named.symm.trans named'
    exact holds
  · intro holds _ _ _ parts'
    cases parts.symm.trans parts'
    exact ⟨header, alg, read, named, holds⟩

theorem not_readable
    (unread : ¬∃ header alg, decodeJSON base64url headerPart = .ok header ∧ algOf header = .ok alg) :
    ¬Readable base64url algorithm token := by
  intro readable
  obtain ⟨header, alg, read, named, -⟩ := readable headerPart claimsPart signaturePart parts
  exact unread ⟨header, alg, read, named⟩

theorem verify_refused {service : Service} {thrown : JwtThrown} (extra : List Validator)
    (refused : checkHeader base64url service.strategy.algorithm headerPart = .error thrown) :
    (verify base64url service token extra).result = .error thrown := by
  unfold verify
  rw [parts]
  dsimp only
  rw [refused]

/-- Past the check of the header, a signature that the strategy refuses gives a `JWTError` exactly when
it can be read. -/
theorem verify_unsigned {service : Service} {header : JsonValue} (extra : List Validator)
    (checked : checkHeader base64url service.strategy.algorithm headerPart = .ok header)
    (refuses : ∀ signature, base64url.decode signaturePart = some signature →
      service.strategy.verify (JsString.utf8Encode (headerPart ++ 0x2E :: claimsPart)) signature = .ok false) :
    (∃ message, (verify base64url service token extra).result = .error (.jwtError message)) ↔
      (base64url.decode signaturePart).isSome = true := by
  unfold verify readSignature
  rw [parts]
  dsimp only
  rw [checked]
  cases decoded : base64url.decode signaturePart with
  | none => exact iff_of_false nofun nofun
  | some signature =>
    refine iff_of_true ⟨js "jwt: signature verification failed", ?_⟩ rfl
    unfold verifyParts
    simp only [refuses signature decoded]

end parts

theorem decodeJSON_untyped {part : JsString} {thrown : JwtThrown}
    (h : decodeJSON base64url part = .error thrown) : ∀ message, thrown ≠ .jwtError message := by
  unfold decodeJSON at h
  split at h
  next => cases h; exact fun _ => nofun
  next =>
    split at h
    next => cases h; exact fun _ => nofun
    next => cases h

theorem algOf_untyped {header : JsonValue} {thrown : JwtThrown} (h : algOf header = .error thrown) :
    ∀ message, thrown ≠ .jwtError message := by
  cases header with
  | null => cases h; exact fun _ => nofun
  | _ => cases h

theorem checkHeader_read (algorithm : JsString) {headerPart : JsString} {header : JsonValue} {alg : Option JsonValue}
    (read : decodeJSON base64url headerPart = .ok header) (named : algOf header = .ok alg) :
    checkHeader base64url algorithm headerPart = if sameAlg alg algorithm then .ok header else rejectAlg alg := by
  show (decodeJSON base64url headerPart >>= fun header => algOf header >>= fun alg =>
    if sameAlg alg algorithm then Except.ok header else rejectAlg alg) = _
  rw [read]
  show (algOf header >>= fun alg =>
    if sameAlg alg algorithm then Except.ok header else rejectAlg alg) = _
  rw [named]
  rfl

theorem checkHeader_unread (algorithm : JsString) {headerPart : JsString}
    (unread : ¬∃ header alg, decodeJSON base64url headerPart = .ok header ∧ algOf header = .ok alg) :
    ∃ thrown, checkHeader base64url algorithm headerPart = .error thrown ∧
      ∀ message, thrown ≠ .jwtError message := by
  unfold checkHeader
  cases read : decodeJSON base64url headerPart with
  | error thrown => exact ⟨thrown, rfl, decodeJSON_untyped read⟩
  | ok header =>
    cases named : algOf header with
    | error thrown =>
      refine ⟨thrown, ?_, algOf_untyped named⟩
      show (algOf header >>= fun _ => _) = _
      rw [named]
      rfl
    | ok alg => exact absurd ⟨header, alg, read, named⟩ unread

theorem rejectAlg_typed (alg : Option JsonValue) : ∃ thrown, rejectAlg alg = .error thrown ∧
      ((∃ message, thrown = .jwtError message) ↔ (algText alg).isSome = true) := by
  unfold rejectAlg
  cases algText alg with
  | none => exact ⟨_, rfl, iff_of_false nofun nofun⟩
  | some text => exact ⟨_, rfl, iff_of_true ⟨_, rfl⟩ rfl⟩

/-- A token that is not validly signed is refused by a built-in strategy with a `JWTError` exactly when
its parts can be read as far as the check that refuses it. -/
theorem unsigned_token_jwtError (base64url : Base64Url) (algorithm : BuiltinAlgorithm)
    (sign : Bytes → Except JwtThrown Bytes) (subtleVerify : (signature input : Bytes) → Bool)
    (validators extra : List Validator) (token : JsString)
    (unsigned : ¬ValidlySigned base64url (builtinStrategy algorithm sign subtleVerify) token) :
    (∃ message, (verify base64url ⟨builtinStrategy algorithm sign subtleVerify, validators⟩ token
      extra).result = .error (.jwtError message)) ↔ Readable base64url algorithm.name token := by
  by_cases three : ∃ headerPart claimsPart signaturePart,
      token.split 0x2E = [headerPart, claimsPart, signaturePart]
  · obtain ⟨headerPart, claimsPart, signaturePart, parts⟩ := three
    by_cases read : ∃ header alg, decodeJSON base64url headerPart = .ok header ∧ algOf header = .ok alg
    · obtain ⟨header, alg, read, named⟩ := read
      have checked := checkHeader_read algorithm.name read named
      rw [readable_read parts read named]
      cases same : sameAlg alg algorithm.name with
      | false =>
        obtain ⟨thrown, rejected, typed⟩ := rejectAlg_typed alg
        rw [same, if_neg Bool.false_ne_true, rejected] at checked
        rw [verify_refused parts extra checked, if_neg Bool.false_ne_true, ← typed]
        simp only [Except.error.injEq]
      | true =>
        rw [same, if_pos rfl] at checked
        rw [if_pos rfl]
        apply verify_unsigned parts extra checked
        intro signature decoded
        cases accepted : subtleVerify signature (JsString.utf8Encode (headerPart ++ 0x2E :: claimsPart)) with
        | false => exact congrArg Except.ok accepted
        | true =>
          have signed := congrArg (Except.ok (ε := JwtThrown)) accepted
          exact absurd ⟨_, _, _, header, alg, signature, parts, read, named, same, decoded, signed⟩ unsigned
    · obtain ⟨thrown, refused, untyped⟩ := checkHeader_unread algorithm.name read
      rw [verify_refused parts extra refused]
      refine iff_of_false (fun ⟨message, same⟩ => ?_) (not_readable parts read)
      exact untyped message (Except.error.inj same)
  · have malformed : (verify base64url ⟨builtinStrategy algorithm sign subtleVerify, validators⟩ token
        extra).result = .error (.jwtError (js "jwt: malformed token")) := by
      unfold verify
      split
      next headerPart claimsPart signaturePart parts =>
        exact absurd ⟨headerPart, claimsPart, signaturePart, parts⟩ three
      next => rfl
    refine iff_of_true ⟨_, malformed⟩ fun headerPart claimsPart signaturePart parts => ?_
    exact absurd ⟨headerPart, claimsPart, signaturePart, parts⟩ three

def strictStrategy : Strategy := builtinStrategy .HS256 (fun _ => .error .foreign) fun _ _ => false

theorem strictStrategy_unsigned (token : JsString) : ¬ValidlySigned rfcBase64Url strictStrategy token := by
  rintro ⟨_, _, _, _, _, _, _, _, _, _, _, accepted⟩
  cases accepted

/-- The header of the token is `{}`. -/
theorem nameless_algorithm_jwtError : ∃ message,
    (verify rfcBase64Url ⟨strictStrategy, []⟩ (js "e30.e30.c2ln") []).result =
      .error (.jwtError message) := by
  have parts : (js "e30.e30.c2ln").split 0x2E = [js "e30", js "e30", js "c2ln"] := rfl
  have formed : (JsonValue.object []).WellFormed := ⟨.nil, trivial⟩
  have decoded : rfcBase64Url.decode (js "e30") =
      some (JsString.utf8Encode (JsonValue.object []).text) := rfl
  have read : decodeJSON rfcBase64Url (js "e30") = .ok (.object []) := decodeJSON_text decoded formed
  have named : algOf (.object []) = .ok none := rfl
  have readable : Readable rfcBase64Url (js "HS256") (js "e30.e30.c2ln") :=
    (readable_read parts read named).mpr rfl
  exact (unsigned_token_jwtError rfcBase64Url .HS256 (fun _ => .error .foreign) (fun _ _ => false) [] []
    (js "e30.e30.c2ln") (strictStrategy_unsigned _)).mpr readable

def unprintableHeader : JsonValue :=
  .object [(js "alg", .object [(js "toString", .string [])])]

theorem unprintableHeader_formed : unprintableHeader.WellFormed :=
  ⟨List.pairwise_singleton _ _, ⟨List.pairwise_singleton _ _, trivial, trivial⟩, trivial⟩

/-- The header is `null`, is no Base64 text, or has an algorithm with a `toString` of its own. -/
theorem unreadable_tokens_untyped :
    (∀ token, ¬ValidlySigned rfcBase64Url strictStrategy token) ∧
      (verify rfcBase64Url ⟨strictStrategy, []⟩ (js "bnVsbA.e30.c2ln") []).result =
        .error (.typeError (js "Cannot read properties of null (reading 'alg')")) ∧
      (verify rfcBase64Url ⟨strictStrategy, []⟩ (js "a.b.c") []).result = .error .codec ∧
      (verify rfcBase64Url ⟨strictStrategy, []⟩
        (js "eyJhbGciOnsidG9TdHJpbmciOiIifX0.e30.c2ln") []).result =
        .error (.typeError (js "Cannot convert object to primitive value")) := by
  refine ⟨strictStrategy_unsigned, ?_, ?_, ?_⟩
  · have parts : (js "bnVsbA.e30.c2ln").split 0x2E = [js "bnVsbA", js "e30", js "c2ln"] := rfl
    have read : decodeJSON rfcBase64Url (js "bnVsbA") = .ok .null := rfl
    refine verify_refused parts [] ?_
    unfold checkHeader
    rw [read]
    rfl
  · have parts : (js "a.b.c").split 0x2E = [js "a", js "b", js "c"] := rfl
    have unread : decodeJSON rfcBase64Url (js "a") = .error .codec := rfl
    refine verify_refused parts [] ?_
    unfold checkHeader
    rw [unread]
    rfl
  · have parts : (js "eyJhbGciOnsidG9TdHJpbmciOiIifX0.e30.c2ln").split 0x2E =
        [js "eyJhbGciOnsidG9TdHJpbmciOiIifX0", js "e30", js "c2ln"] := rfl
    have decoded : rfcBase64Url.decode (js "eyJhbGciOnsidG9TdHJpbmciOiIifX0") =
        some (JsString.utf8Encode unprintableHeader.text) := rfl
    have read := decodeJSON_text decoded unprintableHeader_formed
    have named : algOf unprintableHeader = .ok (some (.object [(js "toString", .string [])])) := rfl
    refine verify_refused parts [] ?_
    rw [checkHeader_read _ read named]
    rfl

end Service

end ForgeDeno
