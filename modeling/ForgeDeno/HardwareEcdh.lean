import ForgeDeno.KeyConfinement

namespace ForgeDeno

open CallProgram Mechanism Pkcs11Provider

abbrev ProviderAnswers := Answers ProviderCall ProviderCall.Reply TokenFailure

def extracts (exchange : ProviderExchange) : Bool :=
  match exchange with
  | ⟨.token (.deriveKey _ _ _ template), reply⟩ =>
    reply.isOk && template.contains (boolAttribute AttributeType.Extractable true)
  | ⟨.token (.getAttributes _ types), _⟩ => types.contains AttributeType.Value
  | _ => false

def ProviderCall.discreet : ProviderCall → Bool
  | .token (.deriveKey _ _ _ template) =>
    !template.contains (boolAttribute AttributeType.Extractable true)
  | .token (.getAttributes _ types) => !types.contains AttributeType.Value
  | _ => true

theorem not_extracts_of_discreet {exchange : ProviderExchange} (h : exchange.call.discreet = true) :
    extracts exchange = false := by
  obtain ⟨c, reply⟩ := exchange
  cases c with
  | openToken => rfl
  | software c => rfl
  | token c =>
    cases c with
    | deriveKey mechanism params base template =>
      have absent := (Bool.not_eq_true' _).mp h
      show (reply.isOk && template.contains _) = false
      rw [absent, Bool.and_false]
    | getAttributes object types => exact (Bool.not_eq_true' _).mp h
    | _ => rfl

/-- Whether a call of `destroyObject` throws, so that no `catch` of a promise takes the failure. -/
def thrown : Except TokenFailure Unit → Bool
  | .ok _ => false
  | .error failure => !failure.rejected

def ProviderCall.removes : ProviderCall → Bool
  | .token (.destroyObject _) => true
  | _ => false

def removals (exchanges : List ProviderExchange) : Nat := exchanges.countP fun exchange => exchange.call.removes

/-- A token that advertises and implements the three mechanisms of an in-hardware decrypt: `agree` is the
agreement of a private key with a point, `decipher` opens what AES-GCM sealed, `value` is the secret an
object holds, `exportable` tells of which keys the token lets an agreed secret be extractable, and `fails`
which `C_DestroyObject`, counted from the first, throws. -/
structure EcdhToken where
  answer : ProviderAnswers
  agree : Nat → Bytes → Option Bytes
  hkdf : Bytes → Bytes → Bytes
  decipher : Bytes → Bytes → Bytes → Option Bytes
  value : List ProviderExchange → Nat → Option Bytes
  exportable : Nat → Bool
  fails : Nat → Bool
  advertises : ∀ past mechanisms, answer past .openToken = .ok mechanisms →
    supportsInHardwareEcdh mechanisms = true
  derives : ∀ past key point secret, agree key point = some secret → ∃ handle : Nat,
    answer past (.token (.deriveKey Mechanism.Ecdh1Derive (some (ecdhParams point)) key
      sharedSecretTemplate)) = .ok handle ∧
    value (past ++ [⟨.token (.deriveKey Mechanism.Ecdh1Derive (some (ecdhParams point)) key
      sharedSecretTemplate), .ok handle⟩]) handle = some secret
  refuses : ∀ past key point, agree key point = none → ∃ failure,
    answer past (.token (.deriveKey Mechanism.Ecdh1Derive (some (ecdhParams point)) key
      sharedSecretTemplate)) = .error failure
  expands : ∀ past base secret info, value past base = some secret → ∃ handle : Nat,
    answer past (.token (.deriveKey Mechanism.HkdfDerive (some (hkdfParams info)) base
      derivedAesTemplate)) = .ok handle ∧
    value (past ++ [⟨.token (.deriveKey Mechanism.HkdfDerive (some (hkdfParams info)) base
      derivedAesTemplate), .ok handle⟩]) handle = some (hkdf secret info)
  opens : ∀ past key secret nonce ciphertext, value past key = some secret →
    (answer past (.token (.decrypt Mechanism.AesGcm (some (gcm nonce none)) key ciphertext))).toOption =
      decipher secret nonce ciphertext
  exports : ∀ past key point,
    (answer past (.token (.deriveKey Mechanism.Ecdh1Derive (some (ecdhParams point)) key
      extractableTemplate))).isOk = ((agree key point).isSome && exportable key)
  destroys : ∀ past object, thrown (answer past (.token (.destroyObject object))) = fails (removals past)

/-- What `ecdhDecode` asks of the token: the key that the reference names and the parts of the
envelope. -/
structure EcdhRequest where
  mechanisms : List Nat
  key : Nat
  peerPoint : Bytes
  curve : JsString
  info : Bytes
  nonce : Bytes
  ciphertext : Bytes

/-- `ecdhDecode` on the token up to the decryption. -/
def ecdhRequest (base64 : Base64) (options : ResolvedOptions) (privateKey cipherText : JsString) :
    ProviderProgram EcdhRequest := do
  let uri ← Pkcs11Provider.lift (resolveKeyUri options privateKey)
  let payload ← Pkcs11Provider.lift (Pkcs11Provider.decodeECCCipherPayload base64 cipherText)
  let encodedKey ← Pkcs11Provider.lift (fieldText payload.ephemeralPublicKey)
  let spki ← Pkcs11Provider.lift (base64.decode encodedKey)
  let curve ← Pkcs11Provider.lift (fieldText payload.curve)
  let peerPoint ← Pkcs11Provider.software (.peerPoint spki curve)
  let encodedNonce ← Pkcs11Provider.lift (fieldText payload.nonce)
  let nonce ← Pkcs11Provider.lift (base64.decode encodedNonce)
  let encodedText ← Pkcs11Provider.lift (fieldText payload.cipherText)
  let ciphertext ← Pkcs11Provider.lift (base64.decode encodedText)
  let info := JsString.utf8Encode (ECDH_HKDF_INFO_PREFIX ++ curve)
  Pkcs11Provider.lift (validateOptions options)
  let mechanisms ← Pkcs11Provider.openToken
  let _ ← onSession (requireMechanism mechanisms Mechanism.Ecdh1Derive)
  let key ← onSession (resolveObject uri .privateKey)
  return { mechanisms, key, peerPoint, curve, info, nonce, ciphertext }

def EcdhRequest.extracted (request : EcdhRequest) : TokenProgram EcdhOutcome := do
  let secret ← deriveExtractableSecret request.key request.peerPoint
  return .shared secret

def EcdhRequest.inHardware (request : EcdhRequest) : TokenProgram EcdhOutcome := do
  let plaintext ← decryptEcdhInHardware request.key request.peerPoint request.info request.nonce
    request.ciphertext
  return .plaintext plaintext

def EcdhRequest.decrypt (request : EcdhRequest) (options : ResolvedOptions) : TokenProgram EcdhOutcome :=
  if supportsInHardwareEcdh request.mechanisms then
    request.inHardware.handle fun _ => if options.allowSecretExtraction then some request.extracted else none
  else if options.allowSecretExtraction then request.extracted
  else .fail secretNotExtractable

def EcdhRequest.finish (request : EcdhRequest) : EcdhOutcome → ProviderProgram JsString
  | .plaintext bytes => pure (JsString.utf8Decode bytes)
  | .shared secret => do
    let plaintext ← Pkcs11Provider.software
      (.finishEcdh secret request.curve request.info request.nonce request.ciphertext)
    pure (JsString.utf8Decode plaintext)

theorem ecdhDecodeOnToken_eq (base64 : Base64) (options : ResolvedOptions)
    (privateKey cipherText : JsString) :
    Pkcs11Provider.ecdhDecodeOnToken base64 options privateKey cipherText = (do
      let request ← ecdhRequest base64 options privateKey cipherText
      let outcome ← onSession (request.decrypt options)
      request.finish outcome) := by
  simp only [ecdhDecodeOnToken, ecdhRequest, onToken, ecdhDecode,
    bind_assoc, pure_bind, onSession_bind]
  iterate 15 apply bind_congr; intro _
  rename_i outcome
  cases outcome <;> rfl

section requests

variable {base64 : Base64} {options : ResolvedOptions} {privateKey cipherText : JsString}

theorem discreet_of_plain {c : TokenCall} (h : c.plain = true) : (ProviderCall.token c).discreet = true := by
  simp only [TokenCall.plain, Bool.and_eq_true, Option.isNone_iff_eq_none] at h
  cases c with
  | deriveKey mechanism params base template => exact absurd h.1 (Option.some_ne_none _)
  | getAttributes object types =>
    have unread : AttributeType.Value ∉ types := by
      intro mem
      have none := h.2
      rw [TokenCall.valueOf?, if_pos mem] at none
      cases none
    show (!types.contains AttributeType.Value) = true
    rw [Bool.not_eq_true', List.contains_eq_mem]
    exact decide_eq_false unread
  | _ => rfl

theorem discreet_session {α : Type} {p : TokenProgram α}
    (h : Keeps (fun _ c => c.plain = true) p) : Keeps (fun _ c => c.discreet = true) (onSession p) :=
  keeps_onSession fun _ => h.imp fun _ _ plain => discreet_of_plain plain

theorem keeps_ecdhRequest {P : ProviderCall → Prop} (computes : ∀ c, P (.software c)) (opens : P .openToken)
    (finds : ∀ template, P (.token (.findObjects template))) :
    Keeps (fun _ c => P c) (ecdhRequest base64 options privateKey cipherText) := by
  unfold ecdhRequest
  iterate 5
    apply Keeps.bind (Keeps.done _)
    intro _
  apply Keeps.bind (Keeps.ask fun _ => computes _)
  intro point
  iterate 5
    apply Keeps.bind (Keeps.done _)
    intro _
  apply Keeps.bind (Keeps.ask fun _ => opens)
  intro mechanisms
  apply Keeps.bind (keeps_onSession fun _ => Keeps.requireMechanism _ _)
  intro _
  apply Keeps.bind (keeps_onSession fun _ => Keeps.resolveObject (fun _ => finds) _ _)
  intro key
  exact Keeps.pure _

theorem discreet_request :
    Keeps (fun _ c => c.discreet = true) (ecdhRequest base64 options privateKey cipherText) :=
  keeps_ecdhRequest (fun _ => rfl) rfl fun _ => rfl

theorem supports_request {token : EcdhToken} {past : List ProviderExchange} {request : EcdhRequest}
    (h : outcome token.answer past (ecdhRequest base64 options privateKey cipherText) = .ok request) :
    supportsInHardwareEcdh request.mechanisms = true := by
  unfold ecdhRequest at h
  iterate 11
    obtain ⟨_, _, next⟩ := outcome_bind_ok.mp h
    clear h
    rename' next => h
  obtain ⟨mechanisms, opened, h⟩ := outcome_bind_ok.mp h
  obtain ⟨_, _, h⟩ := outcome_bind_ok.mp h
  obtain ⟨key, _, h⟩ := outcome_bind_ok.mp h
  cases h
  exact token.advertises _ _ opened

end requests

section calls

variable {answer : ProviderAnswers} {past : List ProviderExchange}

theorem outcome_deriveKey (mechanism : Nat) (params : MechanismParams) (base : Nat) (template : List Attribute) :
    outcome answer past (onSession (Token.deriveKey mechanism params base template)) =
      answer past (.token (.deriveKey mechanism (some params) base template)) := rfl

theorem history_deriveKey (mechanism : Nat) (params : MechanismParams) (base : Nat) (template : List Attribute) :
    history answer past (onSession (Token.deriveKey mechanism params base template)) =
      past ++ [⟨.token (.deriveKey mechanism (some params) base template),
        answer past (.token (.deriveKey mechanism (some params) base template))⟩] := rfl

theorem outcome_cleanup {α : Type} (p : TokenProgram α) (handle : Nat) :
    outcome answer past (onSession (p.andFinally (destroyQuietly handle))) =
      destroyed (outcome answer past (onSession p))
        (answer (history answer past (onSession p)) (.token (.destroyObject handle))) := by
  induction p generalizing past with
  | done x =>
    rw [CallProgram.andFinally, destroyQuietly_bind]
    rfl
  | call c replaced next ih => exact ih _

theorem history_cleanup {α : Type} (p : TokenProgram α) (handle : Nat) :
    history answer past (onSession (p.andFinally (destroyQuietly handle))) =
      history answer past (onSession p) ++ [⟨.token (.destroyObject handle),
        answer (history answer past (onSession p)) (.token (.destroyObject handle))⟩] := by
  induction p generalizing past with
  | done x =>
    rw [CallProgram.andFinally, destroyQuietly_bind]
    rfl
  | call c replaced next ih => exact ih _

theorem outcome_request_inHardware (request : EcdhRequest) : outcome answer past (onSession request.inHardware) =
      (outcome answer past (onSession (decryptEcdhInHardware request.key request.peerPoint
        request.info request.nonce request.ciphertext))).map EcdhOutcome.plaintext := by
  rw [EcdhRequest.inHardware, onSession_bind, outcome_bind]
  cases outcome answer past (onSession (decryptEcdhInHardware request.key request.peerPoint
    request.info request.nonce request.ciphertext)) <;> rfl

end calls

section hardware

variable {token : EcdhToken} {past : List ProviderExchange}

def Undisclosed (exchanged : List ProviderExchange) : Prop :=
  ∀ exchange ∈ exchanged, extracts exchange = false

theorem undisclosed_append {first second : List ProviderExchange} :
    Undisclosed (first ++ second) ↔ Undisclosed first ∧ Undisclosed second := by
  simp only [Undisclosed, List.mem_append, or_imp, forall_and]

theorem undisclosed_singleton {exchange : ProviderExchange} :
    Undisclosed [exchange] ↔ extracts exchange = false := by
  simp only [Undisclosed, List.mem_singleton, forall_eq]

theorem undisclosed_history {α : Type} {p : ProviderProgram α} (h : Keeps (fun _ c => c.discreet = true) p) :
    Undisclosed (history token.answer past p) ↔ Undisclosed past := by
  constructor
  · exact fun whole exchange mem => whole exchange ((history_extends p).subset mem)
  · intro earlier exchange mem
    rcases Keeps.exchanges h mem with old | discreet
    · exact earlier exchange old
    · exact not_extracts_of_discreet discreet

theorem discreet_deriveKey {mechanism base : Nat} {params : MechanismParams} {template : List Attribute}
    (h : template.contains (boolAttribute AttributeType.Extractable true) = false) :
    Keeps (fun _ c => c.discreet = true) (onSession (Token.deriveKey mechanism params base template)) :=
  Keeps.ask fun _ => (Bool.not_eq_true' _).mpr h

theorem discreet_decrypt {mechanism key : Nat} {params : MechanismParams} {ciphertext : Bytes} :
    Keeps (fun _ c => c.discreet = true) (onSession (Token.decrypt mechanism params key ciphertext)) :=
  discreet_session (plain_request rfl)

theorem discreet_destroyQuietly (handle : Nat) :
    Keeps (fun _ c => c.discreet = true) (onSession (destroyQuietly handle)) :=
  discreet_session (Keeps.destroyQuietly (plain_request rfl))

theorem removals_concat (past : List ProviderExchange) (exchange : ProviderExchange) :
    removals (past ++ [exchange]) = removals past + exchange.call.removes.toNat := by
  unfold removals
  rw [List.countP_append, List.countP_singleton]
  cases exchange.call.removes <;> rfl

theorem removals_kept {α : Type} {p : ProviderProgram α} (h : Keeps (fun _ c => c.removes = false) p)
    (none : removals past = 0) : removals (history token.answer past p) = 0 := by
  apply List.countP_eq_zero.mpr
  intro exchange mem
  rcases Keeps.exchanges h mem with old | kept
  · exact List.countP_eq_zero.mp none exchange old
  · exact Bool.eq_false_iff.mp kept

theorem toOption_destroyed {α : Type} (outcome : Except TokenFailure α) (reply : Except TokenFailure Unit) :
    (destroyed outcome reply).toOption = if thrown reply then none else outcome.toOption := by
  cases reply with
  | ok done => rfl
  | error failure =>
    cases passes : failure.rejected with
    | true => rw [destroyed_rejected passes, thrown, passes]; rfl
    | false => rw [destroyed_thrown passes, thrown, passes]; rfl

theorem toOption_cleanup {α : Type} (p : TokenProgram α) (handle : Nat) :
    (outcome token.answer past (onSession (p.andFinally (destroyQuietly handle)))).toOption =
      if token.fails (removals (history token.answer past (onSession p))) then none
      else (outcome token.answer past (onSession p)).toOption := by
  rw [outcome_cleanup, ← token.destroys _ handle]
  exact toOption_destroyed _ _

/-- The decryption under the derived key, whose object is destroyed as the first one of the past or as
the next one. -/
theorem outcome_decryptWithDerived {handle : Nat} {secret : Bytes} (info nonce ciphertext : Bytes)
    (held : token.value past handle = some secret) :
    (outcome token.answer past (onSession (decryptWithDerived handle info nonce ciphertext))).toOption =
      (if token.fails (removals past) then none else token.decipher (token.hkdf secret info) nonce ciphertext) ∧
    removals (history token.answer past (onSession (decryptWithDerived handle info nonce ciphertext))) =
      removals past + 1 := by
  obtain ⟨aesHandle, derived, holds⟩ := token.expands past handle secret info held
  have opened := token.opens _ aesHandle _ nonce ciphertext holds
  unfold decryptWithDerived
  rw [onSession_bind, outcome_bind, history_bind, outcome_deriveKey, history_deriveKey, derived]
  dsimp only
  have asked (before : List ProviderExchange) : history token.answer before
      (onSession (Token.decrypt Mechanism.AesGcm (gcm nonce none) aesHandle ciphertext)) =
        before ++ [⟨.token (.decrypt Mechanism.AesGcm (some (gcm nonce none)) aesHandle ciphertext),
          token.answer before (.token (.decrypt Mechanism.AesGcm (some (gcm nonce none)) aesHandle
            ciphertext))⟩] := rfl
  constructor
  · rw [toOption_cleanup, asked, removals_concat, removals_concat]
    exact congrArg (fun opened => if token.fails (removals past) then none else opened) opened
  · rw [history_cleanup, asked, removals_concat, removals_concat, removals_concat]
    rfl

theorem discreet_decryptWithDerived (handle : Nat) (info nonce ciphertext : Bytes) :
    Keeps (fun _ c => c.discreet = true) (onSession (decryptWithDerived handle info nonce ciphertext)) := by
  unfold decryptWithDerived
  rw [onSession_bind]
  apply Keeps.bind (discreet_deriveKey rfl)
  intro aesHandle
  rw [onSession_andFinally]
  exact Keeps.andFinally discreet_decrypt (discreet_destroyQuietly aesHandle)

theorem discreet_inHardware (key : Nat) (point info nonce ciphertext : Bytes) :
    Keeps (fun _ c => c.discreet = true) (onSession (decryptEcdhInHardware key point info nonce ciphertext)) := by
  unfold decryptEcdhInHardware
  rw [onSession_bind]
  apply Keeps.bind (discreet_deriveKey rfl)
  intro secretHandle
  rw [onSession_andFinally]
  exact Keeps.andFinally (discreet_decryptWithDerived _ _ _ _) (discreet_destroyQuietly secretHandle)

/-- The objects of the agreed secret and of the key derived from it are destroyed in turn, whether or
not the payload opens. -/
def EcdhToken.decrypts (token : EcdhToken) (before : Nat) (secret info nonce ciphertext : Bytes) : Option Bytes :=
  if token.fails before || token.fails (before + 1) then none
  else token.decipher (token.hkdf secret info) nonce ciphertext

theorem outcome_inHardware (token : EcdhToken) (past : List ProviderExchange) (key : Nat)
    (point info nonce ciphertext : Bytes) : (outcome token.answer past
      (onSession (decryptEcdhInHardware key point info nonce ciphertext))).toOption =
      (token.agree key point).bind fun secret =>
        token.decrypts (removals past) secret info nonce ciphertext := by
  unfold decryptEcdhInHardware
  rw [onSession_bind, outcome_bind, outcome_deriveKey, history_deriveKey]
  cases agreed : token.agree key point with
  | none =>
    obtain ⟨failure, refused⟩ := token.refuses past key point agreed
    rw [refused]
    rfl
  | some secret =>
    obtain ⟨handle, derived, holds⟩ := token.derives past key point secret agreed
    obtain ⟨opened, removed⟩ := outcome_decryptWithDerived info nonce ciphertext holds
    rw [removals_concat] at opened removed
    rw [derived]
    dsimp only
    rw [toOption_cleanup, removed, opened, Option.bind_some, EcdhToken.decrypts]
    show (if token.fails (removals past + 1) then none else if token.fails (removals past) then none else _) = _
    cases token.fails (removals past) <;> cases token.fails (removals past + 1) <;> rfl

theorem discreet_bind_pure {α β : Type} {p : TokenProgram α} (f : α → β)
    (h : Keeps (fun _ c => c.discreet = true) (onSession p)) :
    Keeps (fun _ c => c.discreet = true) (onSession (p >>= fun a => pure (f a))) := by
  rw [onSession_bind]
  exact Keeps.bind h fun a => Keeps.pure (f a)

theorem undisclosed_extracted (request : EcdhRequest) :
    Undisclosed (history token.answer past (onSession request.extracted)) ↔ Undisclosed past ∧
        ((token.agree request.key request.peerPoint).isSome && token.exportable request.key) = false := by
  have exported := token.exports past request.key request.peerPoint
  have split : onSession request.extracted =
      onSession (Token.deriveKey Ecdh1Derive (ecdhParams request.peerPoint) request.key
        extractableTemplate) >>= fun handle =>
      onSession ((readSecret handle).andFinally (destroyQuietly handle)) >>= fun secret =>
        pure (EcdhOutcome.shared secret) := by
    simp only [EcdhRequest.extracted, deriveExtractableSecret, onSession_bind, bind_assoc, onSession_pure]
  have step : extracts ⟨.token (.deriveKey Ecdh1Derive (some (ecdhParams request.peerPoint))
      request.key extractableTemplate), token.answer past (.token (.deriveKey Ecdh1Derive
        (some (ecdhParams request.peerPoint)) request.key extractableTemplate))⟩ =
      ((token.agree request.key request.peerPoint).isSome && token.exportable request.key) := by
    rw [← exported]
    exact Bool.and_true _
  rw [split, history_bind, outcome_deriveKey, history_deriveKey]
  cases answered : token.answer past (.token (.deriveKey Ecdh1Derive
      (some (ecdhParams request.peerPoint)) request.key extractableTemplate)) with
  | error failure =>
    rw [answered] at step
    dsimp only
    rw [undisclosed_append, undisclosed_singleton, step]
  | ok handle =>
    rw [answered] at step exported
    have exposed : ((token.agree request.key request.peerPoint).isSome &&
        token.exportable request.key) = true := exported.symm
    rw [exposed] at step
    constructor
    · intro whole
      have last := whole _ ((history_extends _).subset (List.mem_append_right _ (List.mem_singleton_self _)))
      cases step.symm.trans last
    · rintro ⟨_, hidden⟩
      cases exposed.symm.trans hidden

/-- The payload is led to the token's decryption, which fails, and the token and the options let the
agreed secret out. -/
def EcdhRequest.rejected (request : EcdhRequest) (token : EcdhToken) (options : ResolvedOptions) : Bool :=
  options.allowSecretExtraction && token.exportable request.key &&
    match token.agree request.key request.peerPoint with
    | some secret => (token.decrypts 0 secret request.info request.nonce request.ciphertext).isNone
    | none => false

theorem undisclosed_decrypt {request : EcdhRequest} {options : ResolvedOptions}
    (supported : supportsInHardwareEcdh request.mechanisms = true) (first : removals past = 0) :
    Undisclosed (history token.answer past (onSession (request.decrypt options))) ↔
      Undisclosed past ∧ request.rejected token options = false := by
  have discreet : Keeps (fun _ c => c.discreet = true) (onSession request.inHardware) :=
    discreet_bind_pure _ (discreet_inHardware _ _ _ _ _)
  have opened := outcome_inHardware token past request.key request.peerPoint request.info request.nonce
    request.ciphertext
  rw [first] at opened
  have kept : Undisclosed (history token.answer past (onSession request.inHardware)) ↔
      Undisclosed past := undisclosed_history discreet
  rw [EcdhRequest.decrypt, if_pos supported, onSession_handle, history_handle, outcome_request_inHardware]
  cases ran : outcome token.answer past (onSession (decryptEcdhInHardware request.key request.peerPoint
      request.info request.nonce request.ciphertext)) with
  | ok bytes =>
    rw [ran] at opened
    have unrejected : request.rejected token options = false := by
      obtain ⟨secret, agreed, deciphered⟩ := Option.bind_eq_some_iff.mp opened.symm
      rw [EcdhRequest.rejected, agreed]
      dsimp only
      rw [deciphered]
      exact Bool.and_false _
    dsimp only [Except.map]
    rw [kept, unrejected, and_iff_left rfl]
  | error failure =>
    rw [ran] at opened
    dsimp only [Except.map]
    by_cases allowed : options.allowSecretExtraction = true
    · rw [if_pos allowed, Option.map_some, Option.getD_some, undisclosed_extracted, kept]
      have same : request.rejected token options =
          ((token.agree request.key request.peerPoint).isSome && token.exportable request.key) := by
        rw [EcdhRequest.rejected, allowed]
        cases agreed : token.agree request.key request.peerPoint with
        | none => exact Bool.and_false _
        | some secret =>
          rw [agreed] at opened
          have closed : token.decrypts 0 secret request.info request.nonce request.ciphertext = none :=
            opened.symm
          dsimp only
          rw [closed]
          exact Bool.and_true _
      rw [same]
    · have unrejected : request.rejected token options = false := by
        rw [EcdhRequest.rejected, Bool.eq_false_of_not_eq_true allowed]
        rfl
      rw [if_neg allowed, Option.map_none, Option.getD_none, history_done, kept, unrejected, and_iff_left rfl]

theorem discreet_finish (request : EcdhRequest) (outcome : EcdhOutcome) :
    Keeps (fun _ c => c.discreet = true) (request.finish outcome) := by
  cases outcome with
  | plaintext bytes => exact Keeps.pure _
  | shared secret =>
    have software : Keeps (fun _ c => c.discreet = true) (software
        (.finishEcdh secret request.curve request.info request.nonce request.ciphertext)) :=
      Keeps.ask fun _ => rfl
    exact Keeps.bind software fun plaintext => Keeps.pure _

end hardware

/-- The call leads the token to an envelope whose decryption fails there, and its secret may be let out. -/
def Rejects (token : EcdhToken) (base64 : Base64) (options : ResolvedOptions)
    (privateKey cipherText : JsString) : Prop :=
  Pkcs11Provider.routesToToken options privateKey = true ∧
    ∃ request, outcome token.answer [] (ecdhRequest base64 options privateKey cipherText) = .ok request ∧
      request.rejected token options = true

/-- A decrypt on the token extracts nothing exactly where the decryption does not fail there. -/
theorem hardware_ecdh_extraction (token : EcdhToken) (base64 : Base64) (options : ResolvedOptions)
    (privateKey cipherText : JsString) : Undisclosed (history token.answer []
      (Pkcs11Provider.ecdhDecode base64 options privateKey cipherText)) ↔
      ¬Rejects token base64 options privateKey cipherText := by
  have none : Undisclosed [] := fun exchange mem => absurd mem List.not_mem_nil
  have requested : Undisclosed (history token.answer []
      (ecdhRequest base64 options privateKey cipherText)) := (undisclosed_history discreet_request).mpr none
  by_cases routed : Pkcs11Provider.routesToToken options privateKey = true
  · have onToken : Pkcs11Provider.ecdhDecode base64 options privateKey cipherText =
        Pkcs11Provider.ecdhDecodeOnToken base64 options privateKey cipherText := if_pos routed
    rw [onToken, ecdhDecodeOnToken_eq, history_bind]
    cases asked : outcome token.answer [] (ecdhRequest base64 options privateKey cipherText) with
    | error failure =>
      apply iff_of_true requested
      rintro ⟨_, request, same, _⟩
      rw [asked] at same
      cases same
    | ok request =>
      have decided : Undisclosed (history token.answer (history token.answer []
          (ecdhRequest base64 options privateKey cipherText)) (onSession (request.decrypt options))) ↔
          request.rejected token options = false := by
        rw [undisclosed_decrypt (supports_request asked) (removals_kept (keeps_ecdhRequest
          (fun _ => rfl) rfl fun _ => rfl) rfl), and_iff_right requested]
      have whole : Undisclosed (history token.answer (history token.answer []
          (ecdhRequest base64 options privateKey cipherText))
          (onSession (request.decrypt options) >>= request.finish)) ↔
          request.rejected token options = false := by
        rw [history_bind]
        split
        · rw [undisclosed_history (discreet_finish _ _), decided]
        · exact decided
      apply whole.trans
      constructor
      · rintro accepted ⟨_, other, same, rejected⟩
        rw [asked] at same
        cases same
        rw [accepted] at rejected
        cases rejected
      · intro kept
        apply Bool.eq_false_of_not_eq_true
        intro rejected
        exact kept ⟨routed, request, asked, rejected⟩
  · have locally : Pkcs11Provider.ecdhDecode base64 options privateKey cipherText =
        Pkcs11Provider.software (.ecdhDecode privateKey cipherText) := if_neg routed
    rw [locally]
    apply iff_of_true
    · have software : Keeps (fun _ c => c.discreet = true)
          (Pkcs11Provider.software (.ecdhDecode privateKey cipherText)) := Keeps.ask fun _ => rfl
      exact (undisclosed_history software).mpr none
    · exact fun rejects => routed rejects.1

def deriveOfOne (mechanism base : Nat) : Except TokenFailure Nat :=
  if mechanism = Mechanism.HkdfDerive then .ok 3
  else if base = 1 then .ok 2
  else .error (pkcs11Error (js "CKR_KEY_HANDLE_INVALID"))

def openOne (ciphertext : Bytes) : Except TokenFailure Bytes :=
  if ciphertext = [9] then .ok [] else .error (pkcs11Error (js "CKR_ENCRYPTED_DATA_INVALID"))

def oneKeyAnswer (_ : List ProviderExchange) : (c : ProviderCall) → Except TokenFailure c.Reply
  | .openToken => .ok [Mechanism.Ecdh1Derive, Mechanism.HkdfDerive, Mechanism.AesGcm]
  | .token (.findObjects _) => .ok [1]
  | .token (.getAttributes _ types) => .ok (types.map fun type => bytesAttribute type [7])
  | .token (.deriveKey mechanism _ base _) => deriveOfOne mechanism base
  | .token (.decrypt _ _ _ ciphertext) => openOne ciphertext
  | .token (.destroyObject _) => .ok ()
  | .software (.peerPoint spki _) => .ok spki
  | _ => .error (pkcs11Error (js "CKR_FUNCTION_NOT_SUPPORTED"))

theorem derive_from_key : deriveOfOne Mechanism.Ecdh1Derive 1 = .ok 2 := rfl

theorem derive_from_other {key : Nat} (h : key ≠ 1) :
    deriveOfOne Mechanism.Ecdh1Derive key =
      .error (pkcs11Error (js "CKR_KEY_HANDLE_INVALID")) := if_neg h

def oneKeyToken : EcdhToken where
  answer := oneKeyAnswer
  agree key _ := if key = 1 then some [7] else none
  hkdf _ _ := [7]
  decipher _ _ ciphertext := (openOne ciphertext).toOption
  value _ _ := some [7]
  exportable _ := true
  fails _ := false
  advertises past mechanisms opened := by
    cases opened
    rfl
  derives past key point secret agreed := by
    by_cases one : key = 1
    · subst one
      cases agreed
      exact ⟨2, derive_from_key, rfl⟩
    · rw [if_neg one] at agreed
      cases agreed
  refuses past key point alone := by
    by_cases one : key = 1
    · rw [if_pos one] at alone
      cases alone
    · exact ⟨_, derive_from_other one⟩
  expands past base secret info held := ⟨3, rfl, rfl⟩
  opens past key secret nonce ciphertext held := rfl
  exports past key point := by
    show (deriveOfOne Mechanism.Ecdh1Derive key).isOk = _
    by_cases one : key = 1
    · rw [one, derive_from_key]
      rfl
    · rw [derive_from_other one, if_neg one]
      rfl
  destroys past object := rfl

/-- A caller that lets the token's secrets be extracted where it has no other way. -/
def lenientOptions : ResolvedOptions := { sealedOptions with allowSecretExtraction := true }

def tamperedEnvelope : JsString :=
  js "\x7b\"curve\":\"P-256\",\"ephemeralPublicKey\":\"A\",\"nonce\":\"B\",\"cipherText\":\"C\"\x7d"

theorem tampered_envelope_extracts : ¬∀ (token : EcdhToken) (base64 : Base64)
    (options : ResolvedOptions) (privateKey cipherText : JsString), Undisclosed (history token.answer []
      (Pkcs11Provider.ecdhDecode base64 options privateKey cipherText)) := by
  intro always
  have whole := always oneKeyToken plainBase64 lenientOptions (js "pkcs11:object=k") tamperedEnvelope
  have any : ((history oneKeyToken.answer [] (Pkcs11Provider.ecdhDecode plainBase64 lenientOptions
      (js "pkcs11:object=k") tamperedEnvelope)).any extracts) = true := by decide +kernel
  obtain ⟨exchange, mem, extracted⟩ := List.any_eq_true.mp any
  rw [whole exchange mem] at extracted
  cases extracted

end ForgeDeno
