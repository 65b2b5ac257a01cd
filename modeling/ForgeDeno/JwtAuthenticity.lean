import ForgeDeno.ConfigValues
import ForgeDeno.JwtService
import ForgeDeno.KeyUriRoundTrip
import ForgeDeno.LabelledMachine
import ForgeDeno.ListRules

namespace ForgeDeno

namespace Service

open ExceptRules ListRules

section codec

variable {base64url : Base64Url} {service : Service} {token : JsString} {extra : List Validator}

theorem sameAlg_true {alg : Option JsonValue} {algorithm : JsString} (h : sameAlg alg algorithm = true) :
    alg = some (.string algorithm) := by
  unfold sameAlg at h
  split at h
  next text => rw [eq_of_beq h]
  next => cases h

theorem algOf_some {header value : JsonValue} (h : algOf header = .ok (some value)) :
    ∃ members, header = .object members ∧ lookupMember members (js "alg") = some value := by
  cases header with
  | null => cases h
  | object members => exact ⟨members, rfl, Except.ok.inj h⟩
  | _ => cases h

theorem checkHeader_ok {algorithm headerPart : JsString} {header : JsonValue}
    (h : checkHeader base64url algorithm headerPart = .ok header) :
    decodeJSON base64url headerPart = .ok header ∧
      ∃ members, header = .object members ∧ lookupMember members (js "alg") = some (.string algorithm) := by
  obtain ⟨decoded, read, h⟩ := bind_ok.mp h
  obtain ⟨alg, named, h⟩ := bind_ok.mp h
  split at h
  next same =>
    cases h
    rw [sameAlg_true same] at named
    exact ⟨read, algOf_some named⟩
  next =>
    unfold rejectAlg at h
    split at h
    · cases h
    · cases h

theorem readSignature_ok {signaturePart : JsString} {signature : Bytes}
    (h : readSignature base64url signaturePart = .ok signature) :
    base64url.decode signaturePart = some signature := by
  unfold readSignature at h
  split at h
  next decoded => rw [decoded, Except.ok.inj h]
  next => cases h

/-- The strategy was called once, for the bytes of the first two parts of the token and the signature
that its third part decodes to, and answered `true`; the second part decodes to the claims. -/
structure Accepted (base64url : Base64Url) (service : Service) (token : JsString)
    (call : Option StrategyCall) (header : JsonValue) (signature : Bytes) (claims : JsonValue) : Prop where
  parts : ∃ headerPart claimsPart signaturePart signingInput,
    token.split 0x2E = [headerPart, claimsPart, signaturePart] ∧
      decodeJSON base64url headerPart = .ok header ∧
      base64url.decode signaturePart = some signature ∧
      signingInput = JsString.utf8Encode (headerPart ++ 0x2E :: claimsPart) ∧
      call = some ⟨signingInput, signature, .ok true⟩ ∧
      service.strategy.verify signingInput signature = .ok true ∧
      decodeJSON base64url claimsPart = .ok claims
  algorithm : ∃ members, header = .object members ∧
    lookupMember members (js "alg") = some (.string service.strategy.algorithm)

theorem verify_cases (base64url : Base64Url) (service : Service) (token : JsString) (extra : List Validator) :
    (∃ thrown, (verify base64url service token extra).validated = [] ∧
      (verify base64url service token extra).result = .error thrown) ∨ ∃ header signature claims,
        Accepted base64url service token (verify base64url service token extra).call header signature claims ∧
        (verify base64url service token extra).validated =
          (runValidators (service.validators ++ extra) claims).1 ∧ (verify base64url service token extra).result =
          (runValidators (service.validators ++ extra) claims).2.map
            fun left => ⟨token, header, left, signature⟩ := by
  unfold verify
  split
  next headerPart claimsPart signaturePart parts =>
    split
    next thrown _ => exact .inl ⟨thrown, rfl, rfl⟩
    next header checked =>
      split
      next thrown _ => exact .inl ⟨thrown, rfl, rfl⟩
      next signature read =>
        unfold verifyParts
        dsimp only
        split
        next thrown _ => exact .inl ⟨thrown, rfl, rfl⟩
        next => exact .inl ⟨_, rfl, rfl⟩
        next accepted =>
          split
          next thrown _ => exact .inl ⟨thrown, rfl, rfl⟩
          next claims decoded =>
            obtain ⟨first, algorithm⟩ := checkHeader_ok checked
            have call : (some ⟨JsString.utf8Encode (headerPart ++ 0x2E :: claimsPart), signature,
                service.strategy.verify (JsString.utf8Encode (headerPart ++ 0x2E :: claimsPart))
                  signature⟩ : Option StrategyCall) =
                some ⟨JsString.utf8Encode (headerPart ++ 0x2E :: claimsPart), signature, .ok true⟩ := by
              rw [accepted]
            exact .inr ⟨header, signature, claims, ⟨⟨headerPart, claimsPart, signaturePart, _, parts, first,
              readSignature_ok read, rfl, call, accepted, decoded⟩, algorithm⟩, rfl, rfl⟩
  next => exact .inl ⟨_, rfl, rfl⟩

theorem runValidators_untouched {validators : List Validator} {claims left : JsonValue}
    (untouched : ∀ validate ∈ validators, ∀ before after, validate before = .ok after → after = before)
    (h : (runValidators validators claims).2 = .ok left) : left = claims := by
  induction validators generalizing claims with
  | nil => exact (Except.ok.inj h).symm
  | cons validate rest ih =>
    obtain ⟨here, later⟩ := List.forall_mem_cons.mp untouched
    unfold runValidators at h
    split at h
    next => cases h
    next after done =>
      have kept := here claims after done
      subst kept
      exact ih later h

structure Authentic (base64url : Base64Url) (service : Service) (token : JsString)
    (extra : List Validator) : Prop where
  resolved : ∀ verified, (verify base64url service token extra).result = .ok verified →
    ∃ claims, Accepted base64url service token (verify base64url service token extra).call
        verified.header verified.signature claims ∧
      verified.raw = token ∧
      (runValidators (service.validators ++ extra) claims).2 = .ok verified.claims ∧
      ((∀ validate ∈ service.validators ++ extra, ∀ before after,
        validate before = .ok after → after = before) → verified.claims = claims)
  validated : (verify base64url service token extra).validated ≠ [] →
    ∃ header signature claims,
      Accepted base64url service token (verify base64url service token extra).call header signature claims ∧
      (verify base64url service token extra).validated = (runValidators (service.validators ++ extra) claims).1

theorem authentic (base64url : Base64Url) (service : Service) (token : JsString)
    (extra : List Validator) : Authentic base64url service token extra := by
  rcases verify_cases base64url service token extra with
    ⟨thrown, quiet, failed⟩ | ⟨header, signature, claims, accepted, validated, result⟩
  · refine ⟨fun verified resolved => ?_, fun ran => absurd quiet ran⟩
    cases failed.symm.trans resolved
  · refine ⟨fun verified resolved => ?_, fun _ => ⟨header, signature, claims, accepted, validated⟩⟩
    rw [result] at resolved
    obtain ⟨left, run, same⟩ := map_ok resolved
    subst same
    exact ⟨claims, accepted, rfl, run, fun untouched => runValidators_untouched untouched run⟩

theorem decodeJSON_text {part : JsString} {v : JsonValue}
    (decoded : base64url.decode part = some (JsString.utf8Encode v.text)) (wf : v.WellFormed) :
    decodeJSON base64url part = .ok v.plusZero := by
  unfold decodeJSON
  rw [decoded]
  dsimp only
  rw [JsonText.parse_utf8 wf]

theorem decodeJSON_b64 (lawful : base64url.Lawful) {v : JsonValue} (wf : v.WellFormed) :
    decodeJSON base64url (b64 base64url (some v.text)) = .ok v.plusZero :=
  decodeJSON_text (lawful.round_trip _) wf

theorem header_wellFormed (algorithm : JsString) : (header algorithm).WellFormed := by
  have ordered : [js "typ", js "alg"].Pairwise fun a b => precedes a b = true := by decide
  exact ⟨ordered, trivial, trivial, trivial⟩

theorem checkHeader_header (lawful : base64url.Lawful) (algorithm : JsString) :
    checkHeader base64url algorithm (b64 base64url (some (header algorithm).text)) = .ok (header algorithm) := by
  have found : algOf (header algorithm) = .ok (some (.string algorithm)) := rfl
  unfold checkHeader
  rw [decodeJSON_b64 lawful (header_wellFormed algorithm)]
  show (do
    let alg ← algOf (header algorithm)
    if sameAlg alg algorithm then return header algorithm else rejectAlg alg) = _
  rw [found]
  simp [sameAlg, pure, Except.pure, bind, Except.bind]

def Correct (strategy : Strategy) : Prop :=
  ∀ signingInput signature, strategy.sign signingInput = .ok signature →
    strategy.verify signingInput signature = .ok true

theorem split_token {headerPart claimsPart signaturePart : JsString} (first : 0x2E ∉ headerPart)
    (second : 0x2E ∉ claimsPart) (third : 0x2E ∉ signaturePart) :
    JsString.split 0x2E ((headerPart ++ 0x2E :: claimsPart) ++ 0x2E :: signaturePart) =
      [headerPart, claimsPart, signaturePart] := by
  have whole : (headerPart ++ 0x2E :: claimsPart) ++ 0x2E :: signaturePart =
      headerPart ++ 0x2E :: (claimsPart ++ 0x2E :: signaturePart) := by simp
  rw [whole, split_append first, split_append second, split_of_not_mem third]

theorem verify_sign (lawful : base64url.Lawful) (correct : Correct service.strategy) {claims : Claims}
    {v : JsonValue} (extra : List Validator) (serialized : claims.value.serialize = .ok (some v))
    (signed : sign base64url service claims = .ok token) :
    ∃ signature, (verify base64url service token extra).result =
      (runValidators (service.validators ++ extra) v.plusZero).2.map
        fun left => ⟨token, header service.strategy.algorithm, left, signature⟩ := by
  have wf := claims.value.serialize_wellFormed v claims.ordered serialized
  obtain ⟨written, done, signed⟩ := bind_ok.mp signed
  cases serialized.symm.trans done
  obtain ⟨signature, given, same⟩ := bind_ok.mp signed
  cases same
  refine ⟨signature, ?_⟩
  unfold verify
  have undotted (text : Option JsString) : 0x2E ∉ b64 base64url text := lawful.undotted _
  rw [split_token (undotted _) (undotted _) (lawful.undotted _)]
  dsimp only
  rw [checkHeader_header lawful]
  dsimp only
  have read : readSignature base64url (base64url.encode signature) = .ok signature := by
    unfold readSignature
    rw [lawful.round_trip]
  rw [read]
  have accepted := correct _ _ given
  have decoded := decodeJSON_b64 lawful wf
  unfold verifyParts
  dsimp only
  split
  next thrown refused => cases accepted.symm.trans refused
  next refused => cases accepted.symm.trans refused
  next =>
    have claimed : decodeJSON base64url (b64 base64url (Option.map JsonValue.text (some v))) =
        .ok v.plusZero := decoded
    rw [claimed]

end codec

end Service

/-- The options of `jwtMiddleware` and of `grpcJwtInterceptor`; `key` is `header` or `metadataKey`. -/
structure GuardOptions where
  key : Option JsString
  scheme : Option JsString
  validators : Option (List Validator)

/-- A middleware or an interceptor that lets only verified calls through. -/
structure Guard where
  service : Service
  validators : List Validator
  key : JsString
  scheme : JsString
  missing : JsString

inductive Incoming where
  | request (get : JsString → Option JsString)
  | rpc (get : JsString → List JsString)

def Incoming.raw (key : JsString) : Incoming → JsString
  | .request get => (get key).getD []
  | .rpc get => (get key).head?.getD []

section guards

variable (casing : Casing) (base64url : Base64Url)

def guardOf (service : Service) (options : GuardOptions) (key missing : JsString) : Guard where
  service := service
  validators := options.validators.getD []
  key := options.key.getD key
  scheme := casing.toLowerCase (options.scheme.getD (js "Bearer"))
  missing := missing

def jwtMiddleware (service : Service) (options : GuardOptions) : Guard :=
  guardOf casing service options (js "Authorization") (js "authorization header is required")

def grpcJwtInterceptor (service : Service) (options : GuardOptions) : Guard :=
  guardOf casing service options (js "authorization") (js "authorization metadata is required")

def authenticate (guard : Guard) (raw : JsString) : Except JsString Token :=
  if raw = [] then .error guard.missing
  else
    match raw.split 0x20 with
    | scheme :: token :: _ =>
      if token = [] ∨ casing.toLowerCase scheme ≠ guard.scheme then
        .error (js "invalid authorization scheme")
      else
        match (Service.verify base64url guard.service token guard.validators).result with
        | .ok verified => .ok verified
        | .error _ => .error (js "invalid or expired token")
    | _ => .error (js "invalid authorization scheme")

/-- A call on its way through a guard; `request` is the identity of its `Request` or of its context. -/
structure GuardCall where
  guard : Guard
  request : Nat
  incoming : Incoming
  finished : Bool

def GuardCall.raw (call : GuardCall) : JsString := call.incoming.raw call.guard.key

/-- The claims stored for each request, the calls, and for each call whose handler ran what `getClaims`
or `grpcClaims` gave there. -/
structure GuardState where
  claims : Nat → Option JsonValue
  calls : List GuardCall
  handled : List (Nat × Option JsonValue)

inductive GuardEvent where
  | call (guard : Guard) (request : Nat) (incoming : Incoming)
  | settle (i : Nat)
  /-- other code stores claims for a request -/
  | setClaims (request : Nat) (claims : JsonValue)

namespace GuardState

def new : GuardState := ⟨fun _ => none, [], []⟩

def setClaims (s : GuardState) (request : Nat) (claims : JsonValue) : GuardState :=
  { s with claims := fun r => if r = request then some claims else s.claims r }

def getClaims (s : GuardState) (request : Nat) : Option JsonValue := s.claims request

/-- The verification of a call settles: its claims are stored and the handler runs, or it is refused. -/
def settle (s : GuardState) (i : Nat) (call : GuardCall) : GuardState :=
  let t := { s with calls := s.calls.set i { call with finished := true } }
  match authenticate casing base64url call.guard call.raw with
  | .error _ => t
  | .ok verified =>
    let t := t.setClaims call.request verified.claims
    { t with handled := t.handled ++ [(i, t.getClaims call.request)] }

def step (s : GuardState) : GuardEvent → Option GuardState
  | .call guard request incoming =>
    some { s with calls := s.calls ++ [⟨guard, request, incoming, false⟩] }
  | .settle i =>
    match s.calls[i]? with
    | some call => if call.finished then none else some (settle casing base64url s i call)
    | none => none
  | .setClaims request claims => some (s.setClaims request claims)

end GuardState

def guardMachine : LabelledMachine GuardState GuardEvent where
  start s := s = .new
  step := GuardState.step casing base64url

/-- The claims are those of a token that the call itself carries and that its guard's service has
verified. -/
def Vouched (call : GuardCall) (seen : Option JsonValue) : Prop :=
  ∃ scheme token rest verified, call.raw.split 0x20 = scheme :: token :: rest ∧
    casing.toLowerCase scheme = call.guard.scheme ∧
    (Service.verify base64url call.guard.service token call.guard.validators).result = .ok verified ∧
    seen = some verified.claims

end guards

section runs

variable {casing : Casing} {base64url : Base64Url} {s t : GuardState}

theorem authenticate_ok {guard : Guard} {raw : JsString} {verified : Token}
    (h : authenticate casing base64url guard raw = .ok verified) :
    ∃ scheme token rest, raw.split 0x20 = scheme :: token :: rest ∧ casing.toLowerCase scheme = guard.scheme ∧
      (Service.verify base64url guard.service token guard.validators).result = .ok verified := by
  unfold authenticate at h
  split at h
  next => cases h
  next =>
    split at h
    next scheme token rest parts =>
      split at h
      next => cases h
      next proper =>
        split at h
        next result =>
          cases h
          exact ⟨scheme, token, rest, parts, by_contra fun differs => proper (.inr differs), result⟩
        next => cases h
    next => cases h

def Vouching (casing : Casing) (base64url : Base64Url) (s : GuardState) : Prop :=
  ∀ (i : Nat) (seen : Option JsonValue), (i, seen) ∈ s.handled →
    ∃ call, s.calls[i]? = some call ∧ Vouched casing base64url call seen

theorem Vouching.kept (h : Vouching casing base64url s) (handled : t.handled = s.handled)
    (calls : ∀ (i : Nat) (call : GuardCall), s.calls[i]? = some call →
      ∃ finished, t.calls[i]? = some { call with finished }) : Vouching casing base64url t := by
  intro i seen mem
  rw [handled] at mem
  obtain ⟨call, here, vouched⟩ := h i seen mem
  obtain ⟨finished, there⟩ := calls i call here
  exact ⟨_, there, vouched⟩

theorem finish_calls {i : Nat} {call : GuardCall} (here : s.calls[i]? = some call) (j : Nat)
    (other : GuardCall) (there : s.calls[j]? = some other) :
    ∃ finished, (s.calls.set i { call with finished := true })[j]? = some { other with finished } := by
  by_cases same : j = i
  · subst same
    cases here.symm.trans there
    exact ⟨true, (ListRules.getElem?_set_iff here).mpr (.inl ⟨rfl, rfl⟩)⟩
  · exact ⟨other.finished, (ListRules.getElem?_set_iff here).mpr (.inr ⟨same, there⟩)⟩

theorem vouching_settle {i : Nat} {call : GuardCall} (h : Vouching casing base64url s)
    (here : s.calls[i]? = some call) : Vouching casing base64url (s.settle casing base64url i call) := by
  unfold GuardState.settle
  dsimp only
  split
  next => exact h.kept rfl (finish_calls here)
  next verified authenticated =>
    intro j seen mem
    rcases List.mem_append.mp mem with old | new
    · exact h.kept (t := { s with calls := s.calls.set i { call with finished := true } }) rfl
        (finish_calls here) j seen old
    · cases List.mem_singleton.mp new
      obtain ⟨scheme, token, rest, parts, proper, result⟩ := authenticate_ok authenticated
      refine ⟨{ call with finished := true }, (ListRules.getElem?_set_iff here).mpr (.inl ⟨rfl, rfl⟩),
        scheme, token, rest, verified, parts, proper, result, ?_⟩
      simp [GuardState.getClaims, GuardState.setClaims]

theorem step_vouching {e : GuardEvent} (h : Vouching casing base64url s)
    (hs : s.step casing base64url e = some t) : Vouching casing base64url t := by
  cases e with
  | call guard request incoming =>
    cases hs
    exact h.kept rfl fun i call here =>
      ⟨call.finished, ListRules.getElem?_concat_iff.mpr (.inl here)⟩
  | settle i =>
    unfold GuardState.step at hs
    dsimp only at hs
    split at hs
    next call here =>
      split at hs
      next => cases hs
      next => cases hs; exact vouching_settle h here
    next => cases hs
  | setClaims request claims =>
    cases hs
    exact h.kept rfl fun i call here => ⟨call.finished, here⟩

theorem run_vouching {es : List GuardEvent}
    (reached : (guardMachine casing base64url).run .new es = some t) : Vouching casing base64url t :=
  LabelledMachine.run_invariant (I := Vouching casing base64url) (fun _ _ _ h hs => step_vouching h hs)
    (fun _ _ mem => absurd mem List.not_mem_nil) reached

end runs

/-- A token is verified by its strategy before its claims reach a validator or a caller, a handler behind
a guard sees the verified claims of its own call, and a service verifies what it signs. -/
theorem jwt_authenticity {base64url : Base64Url} (lawful : base64url.Lawful) :
    (∀ service token extra, Service.Authentic base64url service token extra) ∧
    (∀ casing es t i seen, (guardMachine casing base64url).run .new es = some t → (i, seen) ∈ t.handled →
      ∃ call, t.calls[i]? = some call ∧ Vouched casing base64url call seen) ∧
    ∀ service (claims : Claims) v token extra, Service.Correct service.strategy →
      claims.value.serialize = .ok (some v) → Service.sign base64url service claims = .ok token →
        JsonText.parse v.text = some v.plusZero ∧
          ∃ signature, (Service.verify base64url service token extra).result =
            (Service.runValidators (service.validators ++ extra) v.plusZero).2.map
              fun left => ⟨token, Service.header service.strategy.algorithm, left, signature⟩ := by
  refine ⟨Service.authentic base64url, ?_, ?_⟩
  · intro casing es t i seen reached mem
    exact run_vouching reached i seen mem
  · intro service claims v token extra correct serialized signed
    have wf := claims.value.serialize_wellFormed v claims.ordered serialized
    exact ⟨JsonText.parse_text wf, Service.verify_sign lawful correct extra serialized signed⟩

def echoStrategy : Strategy where
  algorithm := js "echo"
  sign signingInput := .ok signingInput
  verify signingInput signature := .ok (signature == signingInput)

theorem echoStrategy_correct : Service.Correct echoStrategy := by
  intro signingInput signature signed
  cases signed
  simp [echoStrategy]

def someClaims : Claims where
  value := .object [(js "sub", .string (js "u1")), (js "exp", .omitted)]
  ordered := by
    have ordered : [js "sub", js "exp"].Pairwise fun a b => precedes a b = true := by decide
    exact ⟨ordered, trivial, trivial, trivial⟩

theorem echo_verifies : ∃ token signature,
    Service.sign rfcBase64Url ⟨echoStrategy, []⟩ someClaims = .ok token ∧
      (Service.verify rfcBase64Url ⟨echoStrategy, []⟩ token []).result =
        .ok ⟨token, Service.header (js "echo"), .object [(js "sub", .string (js "u1"))], signature⟩ := by
  obtain ⟨_, _, signs⟩ := jwt_authenticity rfcBase64Url_lawful
  obtain ⟨_, signature, verified⟩ := signs ⟨echoStrategy, []⟩ someClaims _ _ [] echoStrategy_correct rfl rfl
  exact ⟨_, signature, rfl, verified⟩

def appoint : Validator
  | .object members => .ok (.object (setMember members (js "role") (.string (js "admin"))))
  | value => .ok value

/-- What a service returns is what its validators leave of the decoded claims. -/
theorem appointed_claims_returned : ∃ token signature,
    someClaims.value.serialize = .ok (some (.object [(js "sub", .string (js "u1"))])) ∧
      Service.sign rfcBase64Url ⟨echoStrategy, [appoint]⟩ someClaims = .ok token ∧
      (Service.verify rfcBase64Url ⟨echoStrategy, [appoint]⟩ token []).result =
        .ok ⟨token, Service.header (js "echo"),
          .object [(js "sub", .string (js "u1")), (js "role", .string (js "admin"))], signature⟩ := by
  have signed : Service.sign rfcBase64Url ⟨echoStrategy, [appoint]⟩ someClaims = .ok _ := rfl
  obtain ⟨signature, verified⟩ :=
    Service.verify_sign rfcBase64Url_lawful echoStrategy_correct [] rfl signed
  exact ⟨_, signature, rfl, signed, verified⟩

end ForgeDeno
