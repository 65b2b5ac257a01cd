import ForgeDeno.Pkcs11Provider

namespace ForgeDeno

open CallProgram List AttributeType

/-- The attribute stands in the template with this value, and with no other. -/
def Carries (template : List Attribute) (type : Nat) (value : Bool) : Prop :=
  boolAttribute type value ∈ template ∧ ∀ other ∈ template, other.type = type → other = boolAttribute type value

instance (template : List Attribute) (type : Nat) (value : Bool) :
    Decidable (Carries template type value) := inferInstanceAs (Decidable (_ ∧ _))

def Sealed (template : List Attribute) : Prop :=
  Carries template AttributeType.Sensitive true ∧ Carries template AttributeType.Extractable false

instance (template : List Attribute) : Decidable (Sealed template) :=
  inferInstanceAs (Decidable (_ ∧ _))

def TokenCall.keyTemplate? : TokenCall → Option (List Attribute)
  | .generateKey _ template => some template
  | .generateKeyPair _ _ privateTemplate => some privateTemplate
  | .deriveKey _ _ _ template => some template
  | _ => none

/-- The object whose `CKA_VALUE` a call requests. -/
def TokenCall.valueOf? : TokenCall → Option Nat
  | .getAttributes object types => if AttributeType.Value ∈ types then some object else none
  | _ => none

abbrev TokenExchange := Exchange TokenCall TokenCall.Reply TokenFailure

abbrev ProviderExchange := Exchange ProviderCall ProviderCall.Reply TokenFailure

def onSessionExchange (exchange : TokenExchange) : ProviderExchange :=
  ⟨.token exchange.call, exchange.reply⟩

def FoundCertificate (past : List ProviderExchange) (object : Nat) : Prop :=
  ∃ template, ∃ handles : List Nat, ⟨.token (.findObjects template), .ok handles⟩ ∈ past ∧
    ulongAttribute AttributeType.Class 0x00000001 ∈ template ∧ object ∈ handles

/-- A call that makes only sealed keys and requests `CKA_VALUE` of certificates only. -/
def KeysConfined (past : List ProviderExchange) : ProviderCall → Prop
  | .token c =>
    (∀ template, c.keyTemplate? = some template → Sealed template) ∧
      ∀ object, c.valueOf? = some object → FoundCertificate past object
  | _ => True

def ConfinedAfter (before : List ProviderExchange) (past : List TokenExchange) (c : TokenCall) : Prop :=
  KeysConfined (before ++ past.map onSessionExchange) (.token c)

section sessions

variable {α β : Type} {P : List ProviderExchange → ProviderCall → Prop}
  {Q : List ProviderExchange → Except TokenFailure α → Prop} {before : List ProviderExchange}

theorem meets_onSession {p : TokenProgram α} {past : List TokenExchange}
    (h : Meets (fun past c => P (before ++ past.map onSessionExchange) (.token c))
      (fun past outcome => Q (before ++ past.map onSessionExchange) outcome) past p) :
    Meets P Q (before ++ past.map onSessionExchange) (onSession p) := by
  induction p generalizing past with
  | done outcome => exact h
  | call c replaced next ih =>
    obtain ⟨now, rest⟩ := h
    refine ⟨now, fun r => ?_⟩
    have next := ih r (rest r)
    rw [map_append, ← append_assoc] at next
    exact next

theorem keeps_onSession {p : TokenProgram α}
    (h : ∀ before, Keeps (fun past c => P (before ++ past.map onSessionExchange) (.token c)) p) :
    Keeps P (onSession p) := by
  intro past
  have whole : Meets P (fun _ _ => True) (past ++ map onSessionExchange []) (onSession p) :=
    meets_onSession (h past [])
  rwa [map_nil, append_nil] at whole

end sessions

/-- A call that makes no key and requests no `CKA_VALUE`. -/
def TokenCall.plain (c : TokenCall) : Bool := c.keyTemplate?.isNone && c.valueOf?.isNone

section bodies

variable {before : List ProviderExchange}

variable {past : List TokenExchange}

theorem confined_plain {c : TokenCall} (h : c.plain = true) :
    ConfinedAfter before past c := by
  simp only [TokenCall.plain, Bool.and_eq_true, Option.isNone_iff_eq_none] at h
  refine ⟨fun template found => ?_, fun object found => ?_⟩
  · rw [h.1] at found
    cases found
  · rw [h.2] at found
    cases found

variable {template publicTemplate privateTemplate : List Attribute}

theorem confined_sealed {c : TokenCall}
    (made : c.keyTemplate? = some template) (noValue : c.valueOf? = none) (h : Sealed template) :
    ConfinedAfter before past c := by
  refine ⟨fun other found => ?_, fun object found => ?_⟩
  · cases made.symm.trans found
    exact h
  · cases noValue.symm.trans found

theorem keeps_lift {α : Type} (x : Except TokenFailure α) :
    Keeps (ConfinedAfter before) (Token.lift x) := Keeps.done x

theorem keeps_request {c : TokenCall} (h : c.plain = true) :
    Keeps (ConfinedAfter before) (Token.request c) := Keeps.ask fun _ => confined_plain h

theorem plain_request {c : TokenCall} (h : c.plain = true) :
    Keeps (fun _ c => c.plain = true) (Token.request c) := Keeps.ask fun _ => h

section searches

variable {P : List TokenExchange → TokenCall → Prop}

theorem Keeps.requireMechanism (mechanisms : List Nat) (mechanism : Nat) :
    Keeps P (requireMechanism mechanisms mechanism) := by
  unfold ForgeDeno.requireMechanism
  split
  · exact Keeps.pure ()
  · exact Keeps.done _

variable (finds : ∀ past template, P past (.findObjects template))

include finds

theorem Keeps.findObject (uri : KeyUri) (objectClass : Option ObjectClass) :
    Keeps P (findObject uri objectClass) := by
  unfold ForgeDeno.findObject
  apply Keeps.bind (Keeps.done _)
  intro template
  apply Keeps.bind (Keeps.ask fun past => finds past template)
  intro handles
  exact Keeps.done _

theorem Keeps.resolveObject (uri : KeyUri) (fallback : ObjectClass) : Keeps P (resolveObject uri fallback) := by
  unfold ForgeDeno.resolveObject
  split
  · exact Keeps.findObject finds _ _
  · apply Keeps.handle (Keeps.findObject finds _ _)
    intro failure next taken
    cases taken
    exact Keeps.findObject finds _ _

theorem Keeps.attemptObject (candidate : KeyUri) (objectClass : ObjectClass) :
    Keeps P (attemptObject candidate objectClass) := by
  unfold ForgeDeno.attemptObject
  apply Keeps.handle
  · apply Keeps.bind (Keeps.findObject finds _ _)
    intro handle
    exact Keeps.pure _
  · intro failure next taken
    cases taken
    exact Keeps.pure none

end searches

theorem plain_resolveObject (uri : KeyUri) (fallback : ObjectClass) :
    Keeps (fun _ c => c.plain = true) (resolveObject uri fallback) :=
  Keeps.resolveObject (fun _ _ => rfl) uri fallback

theorem confined_findObjects (past : List TokenExchange) (template : List Attribute) :
    ConfinedAfter before past (.findObjects template) := confined_plain rfl

theorem keeps_resolveObject (uri : KeyUri) (fallback : ObjectClass) :
    Keeps (ConfinedAfter before) (resolveObject uri fallback) :=
  Keeps.resolveObject confined_findObjects uri fallback

def Attribute.neutral (entry : Attribute) : Bool :=
  entry.type ≠ AttributeType.Sensitive && entry.type ≠ AttributeType.Extractable

theorem sealed_tokenKey {label : JsString} {id : Bytes} {more : List Attribute}
    (others : more.all Attribute.neutral = true) : Sealed (tokenKeyTemplate label id ++ more) := by
  have only : ∀ entry ∈ tokenKeyTemplate label id ++ more,
      (entry.type = Sensitive → entry = boolAttribute Sensitive true) ∧
      (entry.type = Extractable → entry = boolAttribute Extractable false) := by
    intro entry mem
    rcases mem_append.mp mem with base | mem
    · simp only [tokenKeyTemplate, mem_cons, not_mem_nil, or_false] at base
      rcases base with rfl | rfl | rfl | rfl | rfl | rfl
      · exact ⟨nofun, nofun⟩
      · exact ⟨nofun, nofun⟩
      · exact ⟨fun _ => rfl, nofun⟩
      · exact ⟨nofun, fun _ => rfl⟩
      · exact ⟨nofun, nofun⟩
      · exact ⟨nofun, nofun⟩
    · have other := all_eq_true.mp others entry mem
      simp only [Attribute.neutral, Bool.and_eq_true, decide_eq_true_eq] at other
      exact ⟨fun same => absurd same other.1, fun same => absurd same other.2⟩
  refine ⟨⟨?_, fun entry mem => (only entry mem).1⟩, ⟨?_, fun entry mem => (only entry mem).2⟩⟩
  · exact mem_append_left _ (by simp [tokenKeyTemplate])
  · exact mem_append_left _ (by simp [tokenKeyTemplate])

theorem keeps_generateKey {mechanism : Nat} (h : Sealed template) :
    Keeps (ConfinedAfter before) (Token.generateKey mechanism template) :=
  Keeps.ask fun _ => confined_sealed rfl rfl h

theorem keeps_generateKeyPair {mechanism : Nat} (h : Sealed privateTemplate) :
    Keeps (ConfinedAfter before) (Token.generateKeyPair mechanism publicTemplate privateTemplate) :=
  Keeps.ask fun _ => confined_sealed rfl rfl h

theorem keeps_deriveKey {mechanism base : Nat} {params : MechanismParams}
    (h : Sealed template) : Keeps (ConfinedAfter before) (Token.deriveKey mechanism params base template) :=
  Keeps.ask fun _ => confined_sealed rfl rfl h

theorem keeps_getAttributes {object : Nat} {types : List Nat} (h : AttributeType.Value ∉ types) :
    Keeps (ConfinedAfter before) (Token.getAttributes object types) := by
  apply keeps_request
  simp only [TokenCall.plain, TokenCall.keyTemplate?, TokenCall.valueOf?, if_neg h]
  rfl

theorem Keeps.destroyQuietly {P : List TokenExchange → TokenCall → Prop} {handle : Nat}
    (h : Keeps P (Token.destroyObject handle)) : Keeps P (destroyQuietly handle) := by
  apply h.handle
  intro failure next taken
  split at taken
  · cases taken
    exact Keeps.pure ()
  · cases taken

theorem keeps_destroyQuietly (handle : Nat) : Keeps (ConfinedAfter before) (destroyQuietly handle) :=
  Keeps.destroyQuietly (keeps_request rfl)

theorem keeps_describePair {label : JsString} {id : Bytes} {publicHandle : Nat} {types : List Nat}
    {publicKeyFrom : List Attribute → Except TokenFailure JsString} (h : AttributeType.Value ∉ types) :
    Keeps (ConfinedAfter before) (describePair label id publicHandle types publicKeyFrom) := by
  unfold describePair
  apply Keeps.bind (keeps_getAttributes h)
  intro attributes
  apply Keeps.bind (keeps_lift _)
  intro publicKey
  exact keeps_lift _

variable (base64 : Base64) (sha256 : Bytes → Bytes) (options : ResolvedOptions)
  (mechanisms : List Nat)

theorem keeps_generateSymmetricKeys (id : Bytes) (label : JsString) (size : Nat) :
    Keeps (ConfinedAfter before) (generateSymmetricKeys mechanisms id label size) := by
  unfold generateSymmetricKeys
  apply Keeps.bind (keeps_lift _)
  intro valueLen
  apply Keeps.bind (Keeps.requireMechanism _ _)
  intro _
  apply Keeps.bind (keeps_generateKey (sealed_tokenKey rfl))
  intro _
  exact keeps_lift _

theorem keeps_newPair {mechanism : Nat} {label : JsString}
    {id : Bytes} {types : List Nat} {publicKeyFrom : List Attribute → Except TokenFailure JsString}
    (hidden : Sealed privateTemplate) (h : AttributeType.Value ∉ types) :
    Keeps (ConfinedAfter before) (requireMechanism mechanisms mechanism >>= fun _ =>
      Token.generateKeyPair mechanism publicTemplate privateTemplate >>= fun pair =>
        describePair label id pair.1 types publicKeyFrom) := by
  apply Keeps.bind (Keeps.requireMechanism _ _)
  intro _
  apply Keeps.bind (keeps_generateKeyPair hidden)
  intro pair
  exact keeps_describePair h

theorem keeps_generateRSAKeys (id : Bytes) (label : JsString) (size : Nat) :
    Keeps (ConfinedAfter before) (generateRSAKeys base64 mechanisms id label size) := by
  unfold generateRSAKeys
  apply Keeps.bind (keeps_lift _)
  intro modulusBits
  exact keeps_newPair mechanisms (sealed_tokenKey rfl) (by decide)

theorem keeps_generateECDHCurveKeys (id : Bytes) (label : JsString) (curve : Nat) :
    Keeps (ConfinedAfter before) (generateECDHCurveKeys base64 mechanisms id label curve) := by
  unfold generateECDHCurveKeys
  apply Keeps.bind (keeps_lift _)
  intro ecParams
  exact keeps_newPair mechanisms (sealed_tokenKey rfl) (by decide)

theorem keeps_generateEd25519Keys (id : Bytes) (label : JsString) :
    Keeps (ConfinedAfter before) (generateEd25519Keys base64 mechanisms id label) := by
  unfold generateEd25519Keys
  exact keeps_newPair mechanisms (sealed_tokenKey rfl) (by decide)

theorem keeps_generateReplacement (attributes : List Attribute) (label : JsString) (id : Bytes) :
    Keeps (ConfinedAfter before) (generateReplacement base64 mechanisms attributes label id) := by
  unfold generateReplacement
  apply Keeps.bind (keeps_lift _)
  intro rawType
  split
  · exact Keeps.done _
  · split
    · unfold replaceAes
      apply Keeps.bind (Keeps.requireMechanism _ _)
      intro _
      apply Keeps.bind (keeps_generateKey (sealed_tokenKey rfl))
      intro _
      exact keeps_lift _
    · split
      · unfold replaceRsa
        exact keeps_newPair mechanisms (sealed_tokenKey rfl) (by decide)
      · split
        · unfold replaceEc
          apply Keeps.bind (keeps_lift _)
          intro ecParams
          exact keeps_newPair mechanisms (sealed_tokenKey rfl) (by decide)
        · exact Keeps.done _

theorem keeps_disableObject (handle : Nat) : Keeps (ConfinedAfter before) (disableObject handle) := by
  unfold disableObject
  apply Keeps.bind (keeps_getAttributes (by decide))
  intro present
  dsimp only
  split
  · exact Keeps.done _
  · exact keeps_request rfl

theorem keeps_rotateKey (id : Bytes) (now : Nat) (keyId : JsString) (uid : Option JsString) :
    Keeps (ConfinedAfter before) (rotateKey base64 options mechanisms id now keyId uid) := by
  unfold rotateKey
  apply Keeps.bind (keeps_lift _)
  intro uri
  apply Keeps.bind (keeps_resolveObject _ _)
  intro handle
  apply Keeps.bind (keeps_getAttributes (by decide))
  intro attributes
  apply Keeps.bind (keeps_generateReplacement _ _ _ _ _)
  intro rotated
  split
  · apply Keeps.bind (keeps_disableObject handle)
    intro _
    exact Keeps.pure rotated
  · exact Keeps.pure rotated

theorem keeps_describeKey (keyId : JsString) : Keeps (ConfinedAfter before) (describeKey options keyId) := by
  unfold describeKey
  apply Keeps.bind (keeps_lift _)
  intro uri
  apply Keeps.bind (keeps_resolveObject _ _)
  intro handle
  apply Keeps.bind (keeps_getAttributes (by decide))
  intro attributes
  exact Keeps.pure _

theorem keeps_deactivateKey (keyId : JsString) : Keeps (ConfinedAfter before) (deactivateKey options keyId) := by
  unfold deactivateKey
  apply Keeps.bind (keeps_lift _)
  intro uri
  apply Keeps.bind (keeps_resolveObject _ _)
  intro handle
  apply Keeps.handle (keeps_disableObject handle)
  intro failure next taken
  split at taken
  · cases taken
    exact keeps_request rfl
  · cases taken

theorem keeps_encryptAES (reference : JsString) (nonce : Bytes) (additional : Option JsString)
    (value : JsString) : Keeps (ConfinedAfter before)
      (encryptAES base64 options mechanisms reference nonce additional value) := by
  unfold encryptAES
  apply Keeps.bind (keeps_lift _)
  intro uri
  apply Keeps.bind (Keeps.requireMechanism _ _)
  intro _
  apply Keeps.bind (keeps_resolveObject _ _)
  intro handle
  apply Keeps.bind (keeps_request rfl)
  intro ciphertext
  exact Keeps.pure _

theorem keeps_decryptAES (reference cipherValue : JsString) (additional : Option JsString) :
    Keeps (ConfinedAfter before) (decryptAES base64 options mechanisms reference cipherValue additional) := by
  unfold decryptAES
  apply Keeps.bind (keeps_lift _)
  intro uri
  apply Keeps.bind (Keeps.requireMechanism _ _)
  intro _
  apply Keeps.bind (keeps_lift _)
  intro raw
  split
  · exact Keeps.done _
  · apply Keeps.bind (keeps_resolveObject _ _)
    intro handle
    apply Keeps.bind (keeps_request rfl)
    intro plaintext
    exact Keeps.pure _

theorem keeps_rsaOaepDecode (reference cipherText : JsString) : Keeps (ConfinedAfter before)
    (rsaOaepDecode base64 options mechanisms reference cipherText) := by
  unfold rsaOaepDecode
  apply Keeps.bind (keeps_lift _)
  intro uri
  apply Keeps.bind (Keeps.requireMechanism _ _)
  intro _
  apply Keeps.bind (keeps_resolveObject _ _)
  intro handle
  apply Keeps.handle
  · apply Keeps.bind (keeps_lift _)
    intro ciphertext
    apply Keeps.bind (keeps_request rfl)
    intro plaintext
    exact Keeps.pure _
  · intro cause next taken
    split at taken
    · cases taken
      exact Keeps.done _
    · cases taken

theorem keeps_hmac (secretKey message : JsString) :
    Keeps (ConfinedAfter before) (hmac base64 options mechanisms secretKey message) := by
  unfold hmac
  apply Keeps.bind (keeps_lift _)
  intro uri
  apply Keeps.bind (Keeps.requireMechanism _ _)
  intro _
  apply Keeps.bind (keeps_resolveObject _ _)
  intro handle
  apply Keeps.bind (keeps_request rfl)
  intro mac
  exact Keeps.pure _

theorem keeps_signWithToken (reference message : JsString) (plan : Except TokenFailure SignPlan) :
    Keeps (ConfinedAfter before) (signWithToken base64 options reference message plan) := by
  unfold signWithToken
  apply Keeps.bind (keeps_lift _)
  intro uri
  apply Keeps.bind (keeps_lift _)
  intro chosen
  apply Keeps.bind (keeps_resolveObject _ _)
  intro handle
  have signed : ∀ params : Option MechanismParams, Keeps (ConfinedAfter before)
      (do
        let signature ← Token.sign chosen.mechanism params handle (chosen.prepare message)
        return base64.encode signature : TokenProgram JsString) := by
    intro params
    apply Keeps.bind (keeps_request rfl)
    intro signature
    exact Keeps.pure _
  apply Keeps.handle (signed chosen.params)
  intro failure next taken
  split at taken
  · cases taken
  · split at taken
    · cases taken
      exact signed _
    · cases taken

theorem keeps_ecdhDecode (kept : options.allowSecretExtraction = false) (uri : KeyUri)
    (peerPoint info nonce ciphertext : Bytes) : Keeps (ConfinedAfter before)
      (ecdhDecode options mechanisms uri peerPoint info nonce ciphertext) := by
  unfold ecdhDecode
  apply Keeps.bind (Keeps.requireMechanism _ _)
  intro _
  apply Keeps.bind (keeps_resolveObject _ _)
  intro privateKey
  rw [kept]
  dsimp only
  split
  · apply Keeps.handle
    · apply Keeps.bind
      · unfold decryptEcdhInHardware
        apply Keeps.bind (keeps_deriveKey (by decide))
        intro secretHandle
        apply Keeps.andFinally _ (keeps_destroyQuietly secretHandle)
        unfold decryptWithDerived
        apply Keeps.bind (keeps_deriveKey (by decide))
        intro aesHandle
        exact Keeps.andFinally (keeps_request rfl) (keeps_destroyQuietly aesHandle)
      · intro plaintext
        exact Keeps.pure _
    · intro failure next taken
      cases taken
  · exact Keeps.done _

theorem meets_findCertificate (uri : KeyUri) :
    Meets (ConfinedAfter before) (fun later outcome => ∀ handle, outcome = .ok handle →
      FoundCertificate (before ++ later.map onSessionExchange) handle) past
      (findObject uri (some .certificate)) := by
  unfold findObject
  apply Meets.bind
  unfold Token.lift
  cases made : searchTemplate uri (some .certificate) with
  | error failure => exact nofun
  | ok template =>
    have searched : ulongAttribute AttributeType.Class 0x00000001 ∈ template := by
      cases made
      exact mem_append_left _ (mem_append_left _ mem_cons_self)
    apply Meets.bind
    apply Meets.ask (confined_plain rfl)
    intro reply
    cases reply with
    | error failure => exact nofun
    | ok handles =>
      intro handle first
      refine ⟨template, handles, ?_, searched, ?_⟩
      · rw [map_append]
        exact mem_append_right _ (mem_append_right _ mem_cons_self)
      · unfold firstHandle at first
        split at first
        · cases first
        · cases first
          exact mem_cons_self

theorem keeps_attemptObject (candidate : KeyUri) (objectClass : ObjectClass) :
    Keeps (ConfinedAfter before) (attemptObject candidate objectClass) :=
  Keeps.attemptObject confined_findObjects candidate objectClass

theorem meets_attemptCertificate (candidate : KeyUri) :
    Meets (ConfinedAfter before) (fun later outcome => ∀ handle, outcome = .ok (some handle) →
      FoundCertificate (before ++ later.map onSessionExchange) handle) past
      (attemptObject candidate .certificate) := by
  unfold attemptObject
  apply Meets.handle
  apply Meets.bind
  apply (meets_findCertificate candidate).weaken
  intro later outcome _ found
  cases outcome with
  | error failure => exact nofun
  | ok handle =>
    intro other same
    cases same
    exact found handle rfl

/-- What `publicObjectFor` gives as a certificate was found as one. -/
def CertificateFound (before : List ProviderExchange) (later : List TokenExchange)
    (outcome : Except TokenFailure (Nat × ObjectClass)) : Prop :=
  ∀ handle, outcome = .ok (handle, .certificate) → FoundCertificate (before ++ later.map onSessionExchange) handle

theorem meets_certificateFor (uri : KeyUri) :
    Meets (ConfinedAfter before) (CertificateFound before) past (certificateFor uri) := by
  unfold certificateFor
  apply Meets.bind
  apply (meets_attemptCertificate uri).weaken
  intro later outcome _ found
  cases outcome with
  | error failure => exact nofun
  | ok result =>
    cases result with
    | none => exact nofun
    | some handle =>
      intro other same
      cases same
      exact found handle rfl

theorem meets_publicObjectFor (uri : KeyUri) :
    Meets (ConfinedAfter before) (CertificateFound before) past (publicObjectFor uri) := by
  -- an object found as a public key is no certificate
  have other : ∀ (later : List TokenExchange) (handle : Nat),
      CertificateFound before later (.ok (handle, .publicKey)) := by
    intro later handle found same
    cases same
  have failed : ∀ (later : List TokenExchange) (failure : TokenFailure),
      CertificateFound before later (.error failure) := by
    intro later failure found same
    cases same
  unfold publicObjectFor
  apply Meets.bind
  apply (keeps_attemptObject uri .publicKey past).weaken
  intro later outcome _ _
  cases outcome with
  | error failure => exact failed later failure
  | ok direct =>
    cases direct with
    | some handle => exact other later handle
    | none =>
      dsimp only
      split
      next => exact meets_certificateFor uri
      next id =>
        apply Meets.bind
        apply (keeps_attemptObject _ .publicKey later).weaken
        intro later outcome _ _
        cases outcome with
        | error failure => exact failed later failure
        | ok byId =>
          cases byId with
          | some handle => exact other later handle
          | none =>
            dsimp only
            apply Meets.bind
            apply (meets_attemptCertificate _).weaken
            intro later outcome _ found
            cases outcome with
            | error failure => exact failed later failure
            | ok certificateById =>
              cases certificateById with
              | none => exact meets_certificateFor uri
              | some handle =>
                intro other same
                cases same
                exact found handle rfl

theorem keeps_fetchPublicKey (uri : KeyUri) : Keeps (ConfinedAfter before) (fetchPublicKey base64 uri) := by
  intro past
  unfold fetchPublicKey
  apply Meets.bind
  apply (meets_publicObjectFor uri).weaken
  intro later outcome _ found
  cases outcome with
  | error failure => exact trivial
  | ok result =>
    obtain ⟨handle, objectClass⟩ := result
    dsimp only
    split
    next certificate =>
      cases certificate
      apply Meets.bind
      apply Meets.ask
      · refine ⟨nofun, fun object asked => ?_⟩
        cases asked
        exact found handle rfl
      · intro reply
        cases reply <;> exact trivial
    next =>
      apply Keeps.bind (keeps_getAttributes (by decide))
      intro attributes
      exact keeps_lift _

end bodies

section provider

open Pkcs11Provider

variable (base64 : Base64) (sha256 : Bytes → Bytes) (options : ResolvedOptions)

theorem keeps_software (c : SoftwareCall) : Keeps KeysConfined (software c) :=
  Keeps.ask fun _ => trivial

theorem keeps_onToken {α : Type} {P : List ProviderExchange → ProviderCall → Prop}
    {operation : List Nat → TokenProgram α} (opens : ∀ past, P past .openToken)
    (h : ∀ before mechanisms, Keeps (fun past c => P (before ++ past.map onSessionExchange) (.token c))
      (operation mechanisms)) : Keeps P (onToken options operation) := by
  unfold onToken
  apply Keeps.bind (Keeps.done _)
  intro _
  apply Keeps.bind (Keeps.ask opens)
  intro mechanisms
  exact keeps_onSession fun before => h before mechanisms

theorem confined_onToken {α : Type} {operation : List Nat → TokenProgram α}
    (h : ∀ before mechanisms, Keeps (ConfinedAfter before) (operation mechanisms)) :
    Keeps KeysConfined (onToken options operation) :=
  keeps_onToken options (fun _ => trivial) h

theorem keeps_fetch (uri : KeyUri) : Keeps KeysConfined (Pkcs11Provider.fetchPublicKey base64 options uri) :=
  confined_onToken options fun _ _ => keeps_fetchPublicKey base64 uri

theorem keeps_fetchVerificationKey (reference : JsString) :
    Keeps KeysConfined (fetchVerificationKey base64 options reference) := by
  unfold fetchVerificationKey
  apply Keeps.bind (Keeps.done _)
  intro uri
  exact keeps_fetch base64 options uri

theorem keeps_routed {α : Type} {reference : JsString} {onHardware inSoftware : ProviderProgram α}
    (first : Keeps KeysConfined onHardware) (second : Keeps KeysConfined inSoftware) :
    Keeps KeysConfined (if routesToToken options reference then onHardware else inSoftware) := by
  split
  · exact first
  · exact second

theorem keeps_signed (reference message : JsString) (plan : List Nat → Except TokenFailure SignPlan) :
    Keeps KeysConfined (Pkcs11Provider.signWithToken base64 options reference message plan) :=
  confined_onToken options fun _ mechanisms =>
    keeps_signWithToken base64 options reference message (plan mechanisms)

theorem keeps_ecdhDecodeOnToken (kept : options.allowSecretExtraction = false)
    (privateKey cipherText : JsString) :
    Keeps KeysConfined (ecdhDecodeOnToken base64 options privateKey cipherText) := by
  unfold ecdhDecodeOnToken
  apply Keeps.bind (Keeps.done _)
  intro uri
  apply Keeps.bind (Keeps.done _)
  intro payload
  apply Keeps.bind (Keeps.done _)
  intro encodedKey
  apply Keeps.bind (Keeps.done _)
  intro spki
  apply Keeps.bind (Keeps.done _)
  intro curve
  apply Keeps.bind (keeps_software _)
  intro peerPoint
  apply Keeps.bind (Keeps.done _)
  intro encodedNonce
  apply Keeps.bind (Keeps.done _)
  intro nonce
  apply Keeps.bind (Keeps.done _)
  intro encodedText
  apply Keeps.bind (Keeps.done _)
  intro ciphertext
  apply Keeps.bind
  · exact confined_onToken options fun _ mechanisms => keeps_ecdhDecode options mechanisms kept _ _ _ _ _
  · intro outcome
    cases outcome with
    | plaintext bytes => exact Keeps.pure _
    | shared secret =>
      apply Keeps.bind (keeps_software _)
      intro plaintext
      exact Keeps.pure _

theorem keeps_getKey (keyId : JsString) : Keeps KeysConfined (Pkcs11Provider.getKey base64 options keyId) := by
  unfold Pkcs11Provider.getKey
  apply Keeps.bind
  · exact confined_onToken options fun _ _ => keeps_describeKey options keyId
  · intro resolved
    apply Keeps.bind
    · apply Keeps.handle (keeps_fetch base64 options resolved)
      intro failure next taken
      cases taken
      exact Keeps.pure []
    · intro publicKey
      exact Keeps.done _

theorem keeps_operation (kept : options.allowSecretExtraction = false) (operation : ProviderOperation) :
    Keeps KeysConfined (operation.program base64 sha256 options) := by
  cases operation with
  | generateSymmetricKeys id now uid size =>
    exact confined_onToken options fun _ mechanisms => keeps_generateSymmetricKeys mechanisms id _ size
  | encryptAES nonce secretKey additional value =>
    exact keeps_routed options (confined_onToken options fun _ mechanisms =>
      keeps_encryptAES base64 options mechanisms secretKey nonce additional value) (keeps_software _)
  | decryptAES secretKey cipherValue additional =>
    exact keeps_routed options (confined_onToken options fun _ mechanisms =>
      keeps_decryptAES base64 options mechanisms secretKey cipherValue additional) (keeps_software _)
  | generateRSAKeys id now uid size =>
    exact confined_onToken options fun _ mechanisms => keeps_generateRSAKeys base64 mechanisms id _ size
  | generateECDHCurveKeys id now uid curve =>
    exact confined_onToken options fun _ mechanisms =>
      keeps_generateECDHCurveKeys base64 mechanisms id _ curve
  | rsaOaepEncode publicKey text =>
    exact keeps_routed options (Keeps.bind (keeps_fetchVerificationKey base64 options publicKey)
      fun _ => keeps_software _) (keeps_software _)
  | rsaOaepDecode privateKey cipherText =>
    exact keeps_routed options (confined_onToken options fun _ mechanisms =>
      keeps_rsaOaepDecode base64 options mechanisms privateKey cipherText) (keeps_software _)
  | ecdhEncode publicKey text =>
    exact keeps_routed options (Keeps.bind (keeps_fetchVerificationKey base64 options publicKey)
      fun _ => keeps_software _) (keeps_software _)
  | ecdhDecode privateKey cipherText =>
    exact keeps_routed options (keeps_ecdhDecodeOnToken base64 options kept privateKey cipherText)
      (keeps_software _)
  | rotateKey id now keyId uid =>
    exact confined_onToken options fun _ mechanisms =>
      keeps_rotateKey base64 options mechanisms id now keyId uid
  | getKey keyId => exact keeps_getKey base64 options keyId
  | deactivateKey keyId => exact confined_onToken options fun _ _ => keeps_deactivateKey options keyId
  | hmac secretKey message =>
    exact keeps_routed options (confined_onToken options fun _ mechanisms =>
      keeps_hmac base64 options mechanisms secretKey message) (keeps_software _)
  | sha256Hex message => exact keeps_software _
  | blake3 message => exact keeps_software _
  | generateEd25519Keys id now =>
    exact confined_onToken options fun _ mechanisms => keeps_generateEd25519Keys base64 mechanisms id _
  | signEd25519 privateKey text =>
    exact keeps_routed options (keeps_signed base64 options privateKey text _) (keeps_software _)
  | verifyEd25519 publicKey text signature =>
    exact keeps_routed options (Keeps.bind (keeps_fetchVerificationKey base64 options publicKey)
      fun _ => keeps_software _) (keeps_software _)
  | signRSAPSS privateKey text =>
    exact keeps_routed options (keeps_signed base64 options privateKey text _) (keeps_software _)
  | verifyRSAPSS publicKey text signature =>
    exact keeps_routed options (Keeps.bind (keeps_fetchVerificationKey base64 options publicKey)
      fun _ => keeps_software _) (keeps_software _)
  | signRSAPKCS1v15SHA256 privateKey data =>
    exact keeps_routed options (keeps_signed base64 options privateKey data _) (keeps_software _)
  | verifyRSAPKCS1v15SHA256 data publicKey signature =>
    exact keeps_routed options (Keeps.bind (keeps_fetchVerificationKey base64 options publicKey)
      fun _ => keeps_software _) (keeps_software _)

/-- Operations one after another; the next follows whether one succeeds or not. -/
def inTurn : List ProviderOperation → ProviderProgram Unit
  | [] => pure ()
  | operation :: operations => do
    (do let _ ← operation.program base64 sha256 options : ProviderProgram Unit).quietly
    inTurn operations

theorem keeps_inTurn (kept : options.allowSecretExtraction = false) (operations : List ProviderOperation) :
    Keeps KeysConfined (inTurn base64 sha256 options operations) := by
  induction operations with
  | nil => exact Keeps.pure ()
  | cons operation operations ih =>
    apply Keeps.bind
    · apply Keeps.quietly
      apply Keeps.bind (keeps_operation base64 sha256 options kept operation)
      intro _
      exact Keeps.pure ()
    · intro _
      exact ih

/-- However the token answers, a provider that may not extract secrets makes only sealed keys and
reads `CKA_VALUE` of certificates only. -/
theorem key_confinement {options : ResolvedOptions} (kept : options.allowSecretExtraction = false)
    {operations : List ProviderOperation} {trace : List ProviderExchange} {rest : ProviderProgram Unit}
    (run : Runs (inTurn base64 sha256 options operations) trace rest)
    {earlier later : List ProviderExchange} {exchange : ProviderExchange}
    (parts : trace = earlier ++ exchange :: later) : KeysConfined earlier exchange.call :=
  run.meets (keeps_inTurn base64 sha256 options kept operations []) parts

end provider

def sealedOptions : ResolvedOptions where
  modulePath := []
  tokenLabel := js "hsm"
  slotId := none
  keyUri := []
  pin := true
  allowSecretExtraction := false
  deactivateDestroys := false
  rotateDisablesPrevious := false
  injected := true

def plainBase64 : Base64 where
  encode bytes := bytes.map fun byte => byte.toNat.toUInt16
  decode text := .ok (text.map fun unit => unit.toNat.toUInt8)

def generateKeyTrace : List ProviderExchange :=
  [⟨.openToken, .ok [Mechanism.AesKeyGen]⟩,
    ⟨.token (.generateKey Mechanism.AesKeyGen (aesKeyTemplate (js "GoForge-symmetric-a") [1] 16)),
      .ok (7 : Nat)⟩]

theorem generated_key_confined :
    KeysConfined (generateKeyTrace.take 1)
      (.token (.generateKey Mechanism.AesKeyGen
        (aesKeyTemplate (js "GoForge-symmetric-a") [1] 16))) := by
  have run : ∃ rest, Runs (inTurn plainBase64 id sealedOptions
      [.generateSymmetricKeys [1] 0 (some (js "a")) 16]) generateKeyTrace rest :=
    ⟨_, .cons _ (.cons _ (.nil _))⟩
  obtain ⟨rest, run⟩ := run
  have parts : generateKeyTrace = generateKeyTrace.take 1 ++
      ⟨.token (.generateKey Mechanism.AesKeyGen (aesKeyTemplate (js "GoForge-symmetric-a") [1] 16)),
        .ok (7 : Nat)⟩ :: [] := rfl
  exact key_confinement plainBase64 id rfl run parts

end ForgeDeno
