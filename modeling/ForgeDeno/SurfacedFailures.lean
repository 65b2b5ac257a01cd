import ForgeDeno.TokenOperations

namespace ForgeDeno

open CallProgram

/-- What an operation of the provider does with its session: the function that it gives to
`withSession`. -/
inductive TokenOperation where
  | fetchPublicKey (uri : KeyUri)
  | generateSymmetricKeys (id : Bytes) (label : JsString) (size : Nat)
  | encryptAES (reference : JsString) (nonce : Bytes) (additional : Option JsString) (value : JsString)
  | decryptAES (reference cipherValue : JsString) (additional : Option JsString)
  | generateRSAKeys (id : Bytes) (label : JsString) (size : Nat)
  | generateECDHCurveKeys (id : Bytes) (label : JsString) (curve : Nat)
  | generateEd25519Keys (id : Bytes) (label : JsString)
  | rsaOaepDecode (reference cipherText : JsString)
  | ecdhDecode (uri : KeyUri) (peerPoint info nonce ciphertext : Bytes)
  | rotateKey (id : Bytes) (now : Nat) (keyId : JsString) (uid : Option JsString)
  | describeKey (keyId : JsString)
  | deactivateKey (keyId : JsString)
  | hmac (secretKey message : JsString)
  | signWithToken (reference message : JsString) (plan : Except TokenFailure SignPlan)

def TokenOperation.program (base64 : Base64) (options : ResolvedOptions) (mechanisms : List Nat) :
    TokenOperation → TokenProgram Unit
  | .fetchPublicKey uri => do let _ ← ForgeDeno.fetchPublicKey base64 uri
  | .generateSymmetricKeys id label size => do
    let _ ← ForgeDeno.generateSymmetricKeys mechanisms id label size
  | .encryptAES reference nonce additional value => do
    let _ ← ForgeDeno.encryptAES base64 options mechanisms reference nonce additional value
  | .decryptAES reference cipherValue additional => do
    let _ ← ForgeDeno.decryptAES base64 options mechanisms reference cipherValue additional
  | .generateRSAKeys id label size => do
    let _ ← ForgeDeno.generateRSAKeys base64 mechanisms id label size
  | .generateECDHCurveKeys id label curve => do
    let _ ← ForgeDeno.generateECDHCurveKeys base64 mechanisms id label curve
  | .generateEd25519Keys id label => do
    let _ ← ForgeDeno.generateEd25519Keys base64 mechanisms id label
  | .rsaOaepDecode reference cipherText => do
    let _ ← ForgeDeno.rsaOaepDecode base64 options mechanisms reference cipherText
  | .ecdhDecode uri peerPoint info nonce ciphertext => do
    let _ ← ForgeDeno.ecdhDecode options mechanisms uri peerPoint info nonce ciphertext
  | .rotateKey id now keyId uid => do
    let _ ← ForgeDeno.rotateKey base64 options mechanisms id now keyId uid
  | .describeKey keyId => do let _ ← ForgeDeno.describeKey options keyId
  | .deactivateKey keyId => ForgeDeno.deactivateKey options keyId
  | .hmac secretKey message => do let _ ← ForgeDeno.hmac base64 options mechanisms secretKey message
  | .signWithToken reference message plan => do
    let _ ← ForgeDeno.signWithToken base64 options reference message plan

section surfaces

theorem surfaces_lift {α : Type} (x : Except TokenFailure α) : (Token.lift x).Surfaces := trivial

theorem surfaces_request (c : TokenCall) : (Token.request c).Surfaces := Surfaces.ask c

theorem surfaces_requireMechanism (mechanisms : List Nat) (mechanism : Nat) :
    (requireMechanism mechanisms mechanism).Surfaces := by
  unfold requireMechanism
  split
  · exact Surfaces.pure ()
  · exact trivial

theorem surfaces_findObject (uri : KeyUri) (objectClass : Option ObjectClass) :
    (findObject uri objectClass).Surfaces := by
  unfold findObject
  apply Surfaces.bind (surfaces_lift _)
  intro template
  apply Surfaces.bind (surfaces_request _)
  intro handles
  exact surfaces_lift _

theorem surfaces_resolveObject (uri : KeyUri) (fallback : ObjectClass) :
    (resolveObject uri fallback).Surfaces := by
  unfold resolveObject
  split
  · exact surfaces_findObject _ _
  · apply (surfaces_findObject _ _).handle
    intro failure next taken
    cases taken
    exact surfaces_findObject _ _

theorem surfaces_attemptObject (candidate : KeyUri) (objectClass : ObjectClass) :
    (attemptObject candidate objectClass).Surfaces := by
  unfold attemptObject
  apply Surfaces.handle
  · apply Surfaces.bind (surfaces_findObject _ _)
    intro handle
    exact Surfaces.pure _
  · intro failure next taken
    cases taken
    exact Surfaces.pure _

theorem surfaces_certificateFor (uri : KeyUri) : (certificateFor uri).Surfaces := by
  unfold certificateFor
  apply Surfaces.bind (surfaces_attemptObject _ _)
  intro found
  cases found with
  | some handle => exact Surfaces.pure _
  | none => exact trivial

theorem surfaces_publicObjectFor (uri : KeyUri) : (publicObjectFor uri).Surfaces := by
  unfold publicObjectFor
  apply Surfaces.bind (surfaces_attemptObject _ _)
  intro direct
  cases direct with
  | some handle => exact Surfaces.pure _
  | none =>
    dsimp only
    split
    · exact surfaces_certificateFor uri
    · apply Surfaces.bind (surfaces_attemptObject _ _)
      intro publicById
      cases publicById with
      | some handle => exact Surfaces.pure _
      | none =>
        apply Surfaces.bind (surfaces_attemptObject _ _)
        intro certificateById
        cases certificateById with
        | some handle => exact Surfaces.pure _
        | none => exact surfaces_certificateFor uri

theorem surfaces_describePair (label : JsString) (id : Bytes) (publicHandle : Nat) (types : List Nat)
    (publicKeyFrom : List Attribute → Except TokenFailure JsString) :
    (describePair label id publicHandle types publicKeyFrom).Surfaces := by
  unfold describePair
  apply Surfaces.bind (surfaces_request _)
  intro attributes
  apply Surfaces.bind (surfaces_lift _)
  intro publicKey
  exact surfaces_lift _

theorem Carries.thenDestroy {α : Type} {pending : Option TokenFailure} {p : TokenProgram α}
    (first : p.Carries pending) (handle : Nat) : (p.andFinally (destroyQuietly handle)).Carries pending := by
  induction p generalizing pending with
  | done outcome =>
    rw [CallProgram.andFinally, destroyQuietly_bind]
    refine ⟨fun _ => first, fun failure => ?_⟩
    change (CallProgram.done (destroyed outcome (.error failure))).Carries _
    cases thrown : failure.rejected with
    | true =>
      rw [destroyed_rejected thrown, if_pos rfl]
      exact first
    | false =>
      rw [destroyed_thrown thrown, if_neg Bool.false_ne_true]
      rintro _ ⟨⟩
      rfl
  | call c replaced next ih =>
    obtain ⟨goes, throws⟩ := first
    exact ⟨fun a => ih _ (goes a), fun failure => ih _ (throws failure)⟩

theorem carries_request (c : TokenCall) : (Token.request c).Carries none := (surfaces_request c).carries

theorem carries_decryptEcdhInHardware (privateKey : Nat) (peerPoint info nonce ciphertext : Bytes) :
    (decryptEcdhInHardware privateKey peerPoint info nonce ciphertext).Carries none := by
  unfold decryptEcdhInHardware
  apply (carries_request _).bind
  intro secretHandle
  apply Carries.thenDestroy
  unfold decryptWithDerived
  apply (carries_request _).bind
  intro aesHandle
  exact Carries.thenDestroy (carries_request _) aesHandle

theorem carries_deriveExtractableSecret (privateKey : Nat) (peerPoint : Bytes) :
    (deriveExtractableSecret privateKey peerPoint).Carries none := by
  unfold deriveExtractableSecret
  apply (carries_request _).bind
  intro handle
  apply Carries.thenDestroy
  unfold readSecret
  apply (carries_request _).bind
  intro attributes
  split
  · exact nofun
  · exact nofun

theorem surfaces_disableObject (handle : Nat) : (disableObject handle).Surfaces := by
  unfold disableObject
  apply Surfaces.bind (surfaces_request _)
  intro present
  dsimp only
  split
  · exact trivial
  · exact surfaces_request _

end surfaces

section operations

variable (base64 : Base64) (options : ResolvedOptions) (mechanisms : List Nat)

theorem surfaces_fetchPublicKey (uri : KeyUri) : (fetchPublicKey base64 uri).Surfaces := by
  unfold fetchPublicKey
  apply Surfaces.bind (surfaces_publicObjectFor uri)
  intro found
  dsimp only
  split
  · apply Surfaces.bind (surfaces_request _)
    intro attributes
    exact surfaces_lift _
  · apply Surfaces.bind (surfaces_request _)
    intro attributes
    exact surfaces_lift _

theorem surfaces_generateSymmetricKeys (id : Bytes) (label : JsString) (size : Nat) :
    (generateSymmetricKeys mechanisms id label size).Surfaces := by
  unfold generateSymmetricKeys
  apply Surfaces.bind (surfaces_lift _)
  intro valueLen
  apply Surfaces.bind (surfaces_requireMechanism _ _)
  intro _
  apply Surfaces.bind (surfaces_request _)
  intro _
  exact surfaces_lift _

theorem surfaces_encryptAES (reference : JsString) (nonce : Bytes) (additional : Option JsString)
    (value : JsString) : (encryptAES base64 options mechanisms reference nonce additional value).Surfaces := by
  unfold encryptAES
  apply Surfaces.bind (surfaces_lift _)
  intro uri
  apply Surfaces.bind (surfaces_requireMechanism _ _)
  intro _
  apply Surfaces.bind (surfaces_resolveObject _ _)
  intro handle
  apply Surfaces.bind (surfaces_request _)
  intro ciphertext
  exact Surfaces.pure _

theorem surfaces_decryptAES (reference cipherValue : JsString) (additional : Option JsString) :
    (decryptAES base64 options mechanisms reference cipherValue additional).Surfaces := by
  unfold decryptAES
  apply Surfaces.bind (surfaces_lift _)
  intro uri
  apply Surfaces.bind (surfaces_requireMechanism _ _)
  intro _
  apply Surfaces.bind (surfaces_lift _)
  intro raw
  split
  · exact trivial
  · apply Surfaces.bind (surfaces_resolveObject _ _)
    intro handle
    apply Surfaces.bind (surfaces_request _)
    intro plaintext
    exact Surfaces.pure _

theorem surfaces_newPair {mechanism : Nat} {publicTemplate privateTemplate : List Attribute} {label : JsString}
    {id : Bytes} {types : List Nat} {publicKeyFrom : List Attribute → Except TokenFailure JsString} :
    (requireMechanism mechanisms mechanism >>= fun _ =>
      Token.generateKeyPair mechanism publicTemplate privateTemplate >>= fun pair =>
        describePair label id pair.1 types publicKeyFrom).Surfaces := by
  apply Surfaces.bind (surfaces_requireMechanism _ _)
  intro _
  apply Surfaces.bind (surfaces_request _)
  intro pair
  exact surfaces_describePair _ _ _ _ _

theorem surfaces_generateRSAKeys (id : Bytes) (label : JsString) (size : Nat) :
    (generateRSAKeys base64 mechanisms id label size).Surfaces := by
  unfold generateRSAKeys
  apply Surfaces.bind (surfaces_lift _)
  intro modulusBits
  exact surfaces_newPair mechanisms

theorem surfaces_generateECDHCurveKeys (id : Bytes) (label : JsString) (curve : Nat) :
    (generateECDHCurveKeys base64 mechanisms id label curve).Surfaces := by
  unfold generateECDHCurveKeys
  apply Surfaces.bind (surfaces_lift _)
  intro ecParams
  exact surfaces_newPair mechanisms

theorem surfaces_generateEd25519Keys (id : Bytes) (label : JsString) :
    (generateEd25519Keys base64 mechanisms id label).Surfaces := by
  unfold generateEd25519Keys
  exact surfaces_newPair mechanisms

theorem surfaces_rsaOaepDecode (reference cipherText : JsString) :
    (rsaOaepDecode base64 options mechanisms reference cipherText).Surfaces := by
  unfold rsaOaepDecode
  apply Surfaces.bind (surfaces_lift _)
  intro uri
  apply Surfaces.bind (surfaces_requireMechanism _ _)
  intro _
  apply Surfaces.bind (surfaces_resolveObject _ _)
  intro handle
  apply Surfaces.handle
  · apply Surfaces.bind (surfaces_lift _)
    intro ciphertext
    apply Surfaces.bind (surfaces_request _)
    intro plaintext
    exact Surfaces.pure _
  · intro cause next taken
    split at taken
    · cases taken
      exact trivial
    · cases taken

theorem carries_ecdhDecode (uri : KeyUri) (peerPoint info nonce ciphertext : Bytes) :
    (ecdhDecode options mechanisms uri peerPoint info nonce ciphertext).Carries none := by
  unfold ecdhDecode
  apply (surfaces_requireMechanism _ _).carries.bind
  intro _
  apply (surfaces_resolveObject _ _).carries.bind
  intro privateKey
  have extracted : ((do
      let secret ← deriveExtractableSecret privateKey peerPoint
      return .shared secret) : TokenProgram EcdhOutcome).Carries none :=
    (carries_deriveExtractableSecret privateKey peerPoint).bind fun _ => nofun
  have decrypted : ((do
      let plaintext ← decryptEcdhInHardware privateKey peerPoint info nonce ciphertext
      return .plaintext plaintext) : TokenProgram EcdhOutcome).Carries none :=
    (carries_decryptEcdhInHardware privateKey peerPoint info nonce ciphertext).bind fun _ => nofun
  dsimp only
  cases options.allowSecretExtraction with
  | true =>
    split
    · exact Carries.handle fun _ => ⟨_, if_pos rfl, extracted⟩
    · exact extracted
  | false =>
    split
    · exact (handle_none _).symm ▸ decrypted
    · exact nofun

theorem surfaces_generateReplacement (attributes : List Attribute) (label : JsString) (id : Bytes) :
    (generateReplacement base64 mechanisms attributes label id).Surfaces := by
  unfold generateReplacement
  apply Surfaces.bind (surfaces_lift _)
  intro rawType
  split
  · exact trivial
  · split
    · unfold replaceAes
      apply Surfaces.bind (surfaces_requireMechanism _ _)
      intro _
      apply Surfaces.bind (surfaces_request _)
      intro _
      exact surfaces_lift _
    · split
      · unfold replaceRsa
        exact surfaces_newPair mechanisms
      · split
        · unfold replaceEc
          apply Surfaces.bind (surfaces_lift _)
          intro ecParams
          exact surfaces_newPair mechanisms
        · exact trivial

theorem surfaces_rotateKey (id : Bytes) (now : Nat) (keyId : JsString) (uid : Option JsString) :
    (rotateKey base64 options mechanisms id now keyId uid).Surfaces := by
  unfold rotateKey
  apply Surfaces.bind (surfaces_lift _)
  intro uri
  apply Surfaces.bind (surfaces_resolveObject _ _)
  intro handle
  apply Surfaces.bind (surfaces_request _)
  intro attributes
  apply Surfaces.bind (surfaces_generateReplacement _ _ _ _ _)
  intro rotated
  split
  · apply Surfaces.bind (surfaces_disableObject handle)
    intro _
    exact Surfaces.pure rotated
  · exact Surfaces.pure rotated

theorem surfaces_describeKey (keyId : JsString) : (describeKey options keyId).Surfaces := by
  unfold describeKey
  apply Surfaces.bind (surfaces_lift _)
  intro uri
  apply Surfaces.bind (surfaces_resolveObject _ _)
  intro handle
  apply Surfaces.bind (surfaces_request _)
  intro attributes
  exact Surfaces.pure _

theorem surfaces_deactivateKey (keyId : JsString) : (deactivateKey options keyId).Surfaces := by
  unfold deactivateKey
  apply Surfaces.bind (surfaces_lift _)
  intro uri
  apply Surfaces.bind (surfaces_resolveObject _ _)
  intro handle
  apply (surfaces_disableObject handle).handle
  intro failure next taken
  split at taken
  · cases taken
    exact surfaces_request _
  · cases taken

theorem surfaces_hmac (secretKey message : JsString) :
    (hmac base64 options mechanisms secretKey message).Surfaces := by
  unfold hmac
  apply Surfaces.bind (surfaces_lift _)
  intro uri
  apply Surfaces.bind (surfaces_requireMechanism _ _)
  intro _
  apply Surfaces.bind (surfaces_resolveObject _ _)
  intro handle
  apply Surfaces.bind (surfaces_request _)
  intro mac
  exact Surfaces.pure _

theorem surfaces_signWithToken (reference message : JsString) (plan : Except TokenFailure SignPlan) :
    (signWithToken base64 options reference message plan).Surfaces := by
  unfold signWithToken
  apply Surfaces.bind (surfaces_lift _)
  intro uri
  apply Surfaces.bind (surfaces_lift _)
  intro chosen
  apply Surfaces.bind (surfaces_resolveObject _ _)
  intro handle
  have signed (params : Option MechanismParams) : ((do
      let signature ← Token.sign chosen.mechanism params handle (chosen.prepare message)
      return base64.encode signature) : TokenProgram JsString).Surfaces := by
    apply Surfaces.bind (surfaces_request _)
    intro signature
    exact Surfaces.pure _
  apply (signed _).handle
  intro failure next taken
  split at taken
  · cases taken
  · split at taken
    · cases taken
      exact signed _
    · cases taken

theorem TokenOperation.carries (operation : TokenOperation) :
    (operation.program base64 options mechanisms).Carries none := by
  have forgets {α : Type} {p : TokenProgram α} (h : p.Surfaces) :
      ((do let _ ← p) : TokenProgram Unit).Carries none := h.carries.bind fun _ => nofun
  cases operation with
  | fetchPublicKey uri => exact forgets (surfaces_fetchPublicKey _ _)
  | generateSymmetricKeys id label size => exact forgets (surfaces_generateSymmetricKeys _ _ _ _)
  | encryptAES reference nonce additional value => exact forgets (surfaces_encryptAES _ _ _ _ _ _ _)
  | decryptAES reference cipherValue additional => exact forgets (surfaces_decryptAES _ _ _ _ _ _)
  | generateRSAKeys id label size => exact forgets (surfaces_generateRSAKeys _ _ _ _ _)
  | generateECDHCurveKeys id label curve => exact forgets (surfaces_generateECDHCurveKeys _ _ _ _ _)
  | generateEd25519Keys id label => exact forgets (surfaces_generateEd25519Keys _ _ _ _)
  | rsaOaepDecode reference cipherText => exact forgets (surfaces_rsaOaepDecode _ _ _ _ _)
  | ecdhDecode uri peerPoint info nonce ciphertext =>
    exact (carries_ecdhDecode _ _ _ _ _ _ _).bind fun _ => nofun
  | rotateKey id now keyId uid => exact forgets (surfaces_rotateKey _ _ _ _ _ _ _)
  | describeKey keyId => exact forgets (surfaces_describeKey _ _)
  | deactivateKey keyId => exact (surfaces_deactivateKey _ _).carries
  | hmac secretKey message => exact forgets (surfaces_hmac _ _ _ _ _)
  | signWithToken reference message plan => exact forgets (surfaces_signWithToken _ _ _ _ _)

end operations

end ForgeDeno
