import ForgeDeno.KeyConfinement

namespace ForgeDeno

open CallProgram Pkcs11Provider List Token

def ProviderOperation.reference? : ProviderOperation → Option JsString
  | .encryptAES _ secretKey _ _ => some secretKey
  | .decryptAES secretKey _ _ => some secretKey
  | .rsaOaepEncode publicKey _ => some publicKey
  | .rsaOaepDecode privateKey _ => some privateKey
  | .ecdhEncode publicKey _ => some publicKey
  | .ecdhDecode privateKey _ => some privateKey
  | .rotateKey _ _ keyId _ => some keyId
  | .getKey keyId => some keyId
  | .deactivateKey keyId => some keyId
  | .hmac secretKey _ => some secretKey
  | .signEd25519 privateKey _ => some privateKey
  | .verifyEd25519 publicKey _ _ => some publicKey
  | .signRSAPSS privateKey _ => some privateKey
  | .verifyRSAPSS publicKey _ _ => some publicKey
  | .signRSAPKCS1v15SHA256 privateKey _ => some privateKey
  | .verifyRSAPKCS1v15SHA256 _ publicKey _ => some publicKey
  | _ => none

def ProviderOperation.managesKey : ProviderOperation → Bool
  | .rotateKey _ _ _ _ | .getKey _ | .deactivateKey _ => true
  | _ => false

def unsupportedOperation (operation : JsString) : TokenFailure :=
  { name := js "UnsupportedOperationError",
    message := js "encrypt: operation not supported by this provider: " ++ operation }

def ProviderOperation.local? : (operation : ProviderOperation) → Option (ProviderProgram operation.Result)
  | .encryptAES _ secretKey additional value => some (software (.encryptAES secretKey additional value))
  | .decryptAES secretKey cipherValue additional =>
    some (software (.decryptAES secretKey cipherValue additional))
  | .rsaOaepEncode publicKey text => some (software (.rsaOaepEncode publicKey text))
  | .rsaOaepDecode privateKey cipherText => some (software (.rsaOaepDecode privateKey cipherText))
  | .ecdhEncode publicKey text => some (software (.ecdhEncode publicKey text))
  | .ecdhDecode privateKey cipherText => some (software (.ecdhDecode privateKey cipherText))
  | .rotateKey _ _ _ _ => some (.fail (unsupportedOperation (js "rotateKey")))
  | .getKey _ => some (.fail (unsupportedOperation (js "getKey")))
  | .deactivateKey _ => some (.fail (unsupportedOperation (js "deactivateKey")))
  | .hmac secretKey message => some (software (.hmac secretKey message))
  | .signEd25519 privateKey text => some (software (.signEd25519 privateKey text))
  | .verifyEd25519 publicKey text signature => some (software (.verifyEd25519 publicKey text signature))
  | .signRSAPSS privateKey text => some (software (.signRSAPSS privateKey text))
  | .verifyRSAPSS publicKey text signature => some (software (.verifyRSAPSS publicKey text signature))
  | .signRSAPKCS1v15SHA256 privateKey data => some (software (.signRSAPKCS1v15SHA256 privateKey data))
  | .verifyRSAPKCS1v15SHA256 data publicKey signature =>
    some (software (.verifyRSAPKCS1v15SHA256 data publicKey signature))
  | _ => none

def TokenCall.keyOf? : TokenCall → Option Nat
  | .encrypt _ _ key _ | .decrypt _ _ key _ | .sign _ _ key _ => some key
  | .deriveKey _ _ base _ => some base
  | _ => none

def Names (options : ResolvedOptions) (reference : JsString) (template : List Attribute) : Prop :=
  ∃ uri objectClass, resolveKeyUri options reference = .ok uri ∧ searchTemplate uri objectClass = .ok template

inductive ResolvedFrom (search : List Attribute → Prop) (past : List ProviderExchange) : Nat → Prop
  | found {template : List Attribute} {handles : List Nat} {handle : Nat}
      (asked : ⟨.token (.findObjects template), .ok handles⟩ ∈ past) (names : search template)
      (given : handle ∈ handles) : ResolvedFrom search past handle
  | derived {mechanism base : Nat} {params : Option MechanismParams} {template : List Attribute}
      {handle : Nat}
      (asked : ⟨.token (.deriveKey mechanism params base template), .ok handle⟩ ∈ past)
      (source : ResolvedFrom search past base) : ResolvedFrom search past handle

def Extracted (search : List Attribute → Prop) (past : List ProviderExchange) (secret : Bytes) : Prop :=
  ∃ object types, ∃ attributes : List Attribute,
    ⟨.token (.getAttributes object types), .ok attributes⟩ ∈ past ∧
      findAttribute attributes AttributeType.Value = some secret ∧ ResolvedFrom search past object

def SoftwareCall.isPublic : SoftwareCall → Bool
  | .rsaOaepEncode _ _ | .ecdhEncode _ _ | .verifyEd25519 _ _ _ | .verifyRSAPSS _ _ _
  | .verifyRSAPKCS1v15SHA256 _ _ _ | .peerPoint _ _ => true
  | _ => false

/-- The token computes with keys that the reference resolves to. Software computes with public keys, or
finishes with a secret that may be extracted. -/
def StaysOnToken (options : ResolvedOptions) (reference : JsString) (past : List ProviderExchange) :
    ProviderCall → Prop
  | .openToken => True
  | .token c => ∀ key, c.keyOf? = some key → ResolvedFrom (Names options reference) past key
  | .software (.finishEcdh secret _ _ _ _) =>
    options.allowSecretExtraction = true ∧ Extracted (Names options reference) past secret
  | .software c => c.isPublic = true

def StaysAfter (options : ResolvedOptions) (reference : JsString) (before : List ProviderExchange)
    (past : List TokenExchange) (c : TokenCall) : Prop :=
  StaysOnToken options reference (before ++ past.map onSessionExchange) (.token c)

section keyless

variable {options : ResolvedOptions} {base64 : Base64}

abbrev Keyless {α : Type} (p : TokenProgram α) : Prop := Keeps (fun _ c => c.keyOf? = none) p

theorem keyless_request {c : TokenCall} (h : c.keyOf? = none) : Keyless (Token.request c) :=
  Keeps.ask fun _ => h

theorem keyless_resolveObject (uri : KeyUri) (fallback : ObjectClass) : Keyless (resolveObject uri fallback) :=
  Keeps.resolveObject (fun _ _ => rfl) uri fallback

theorem keyless_attemptObject (candidate : KeyUri) (objectClass : ObjectClass) :
    Keyless (attemptObject candidate objectClass) :=
  Keeps.attemptObject (fun _ _ => rfl) candidate objectClass

theorem keyless_certificateFor (uri : KeyUri) : Keyless (certificateFor uri) := by
  unfold certificateFor
  apply Keeps.bind (keyless_attemptObject _ _)
  intro certificate
  split
  · exact Keeps.pure _
  · exact Keeps.done _

theorem keyless_publicObjectFor (uri : KeyUri) : Keyless (publicObjectFor uri) := by
  unfold publicObjectFor
  apply Keeps.bind (keyless_attemptObject _ _)
  intro direct
  split
  · exact Keeps.pure _
  · split
    · exact keyless_certificateFor uri
    · apply Keeps.bind (keyless_attemptObject _ _)
      intro publicById
      split
      · exact Keeps.pure _
      · apply Keeps.bind (keyless_attemptObject _ _)
        intro certificateById
        split
        · exact Keeps.pure _
        · exact keyless_certificateFor uri

theorem keyless_fetchPublicKey (uri : KeyUri) : Keyless (fetchPublicKey base64 uri) := by
  unfold fetchPublicKey
  apply Keeps.bind (keyless_publicObjectFor uri)
  intro result
  dsimp only
  split
  · apply Keeps.bind (keyless_request rfl)
    intro attributes
    exact Keeps.done _
  · apply Keeps.bind (keyless_request rfl)
    intro attributes
    exact Keeps.done _

theorem keyless_describePair {label : JsString} {id : Bytes} {publicHandle : Nat} {types : List Nat}
    {publicKeyFrom : List Attribute → Except TokenFailure JsString} :
    Keyless (describePair label id publicHandle types publicKeyFrom) := by
  unfold describePair
  apply Keeps.bind (keyless_request rfl)
  intro attributes
  apply Keeps.bind (Keeps.done _)
  intro publicKey
  exact Keeps.done _

theorem keyless_generateReplacement (mechanisms : List Nat) (attributes : List Attribute)
    (label : JsString) (id : Bytes) : Keyless (generateReplacement base64 mechanisms attributes label id) := by
  unfold generateReplacement
  apply Keeps.bind (Keeps.done _)
  intro rawType
  split
  · exact Keeps.done _
  · split
    · apply Keeps.bind (Keeps.requireMechanism _ _)
      intro _
      apply Keeps.bind (keyless_request rfl)
      intro _
      exact Keeps.done _
    · split
      · apply Keeps.bind (Keeps.requireMechanism _ _)
        intro _
        apply Keeps.bind (keyless_request rfl)
        intro pair
        exact keyless_describePair
      · split
        · apply Keeps.bind (Keeps.done _)
          intro ecParams
          apply Keeps.bind (Keeps.requireMechanism _ _)
          intro _
          apply Keeps.bind (keyless_request rfl)
          intro pair
          exact keyless_describePair
        · exact Keeps.done _

theorem keyless_disableObject (handle : Nat) : Keyless (disableObject handle) := by
  unfold disableObject
  apply Keeps.bind (keyless_request rfl)
  intro present
  dsimp only
  split
  · exact Keeps.done _
  · exact keyless_request rfl

theorem keyless_rotateKey (mechanisms : List Nat) (id : Bytes) (now : Nat) (keyId : JsString)
    (uid : Option JsString) : Keyless (rotateKey base64 options mechanisms id now keyId uid) := by
  unfold rotateKey
  apply Keeps.bind (Keeps.done _)
  intro uri
  apply Keeps.bind (keyless_resolveObject _ _)
  intro handle
  apply Keeps.bind (keyless_request rfl)
  intro attributes
  apply Keeps.bind (keyless_generateReplacement _ _ _ _)
  intro rotated
  split
  · apply Keeps.bind (keyless_disableObject handle)
    intro _
    exact Keeps.pure rotated
  · exact Keeps.pure rotated

theorem keyless_describeKey (keyId : JsString) : Keyless (describeKey options keyId) := by
  unfold describeKey
  apply Keeps.bind (Keeps.done _)
  intro uri
  apply Keeps.bind (keyless_resolveObject _ _)
  intro handle
  apply Keeps.bind (keyless_request rfl)
  intro attributes
  exact Keeps.pure _

theorem keyless_deactivateKey (keyId : JsString) : Keyless (deactivateKey options keyId) := by
  unfold deactivateKey
  apply Keeps.bind (Keeps.done _)
  intro uri
  apply Keeps.bind (keyless_resolveObject _ _)
  intro handle
  apply Keeps.handle (keyless_disableObject handle)
  intro failure next taken
  split at taken
  · cases taken
    exact keyless_request rfl
  · cases taken

end keyless

section resolving

variable {options : ResolvedOptions} {reference : JsString} {before : List ProviderExchange}
  {search : List Attribute → Prop} {past later : List ProviderExchange}

theorem ResolvedFrom.mono {handle : Nat} (h : ResolvedFrom search past handle)
    (more : ∀ exchange ∈ past, exchange ∈ later) : ResolvedFrom search later handle := by
  induction h with
  | found asked names given => exact .found (more _ asked) names given
  | derived asked _ ih => exact .derived (more _ asked) ih

theorem Extracted.mono {secret : Bytes} (h : Extracted search past secret)
    (more : ∀ exchange ∈ past, exchange ∈ later) : Extracted search later secret := by
  obtain ⟨object, types, attributes, asked, found, source⟩ := h
  exact ⟨object, types, attributes, more _ asked, found, source.mono more⟩

theorem history_mono {past later : List TokenExchange} (longer : past <+: later) :
    ∀ exchange ∈ before ++ past.map onSessionExchange, exchange ∈ before ++ later.map onSessionExchange := by
  intro exchange mem
  rcases mem_append.mp mem with old | new
  · exact mem_append_left _ old
  · exact mem_append_right _ ((longer.map onSessionExchange).subset new)

theorem last_exchange {past : List TokenExchange} {exchange : TokenExchange} :
    onSessionExchange exchange ∈ before ++ (past ++ [exchange]).map onSessionExchange := by
  apply mem_append_right
  rw [map_append]
  exact mem_append_right _ mem_cons_self

abbrev Resolved (options : ResolvedOptions) (reference : JsString) (before : List ProviderExchange)
    (past : List TokenExchange) (handle : Nat) : Prop :=
  ResolvedFrom (Names options reference) (before ++ past.map onSessionExchange) handle

theorem stays_keyless {α : Type} {p : TokenProgram α} (h : Keyless p) :
    Keeps (StaysAfter options reference before) p := by
  apply Keeps.imp h
  intro past c none key same
  cases none.symm.trans same

theorem stays_key {past : List TokenExchange} {c : TokenCall} {key : Nat} (uses : c.keyOf? = some key)
    (resolved : Resolved options reference before past key) : StaysAfter options reference before past c := by
  intro other same
  cases uses.symm.trans same
  exact resolved

theorem meets_key {past : List TokenExchange} {c : TokenCall} {key : Nat} {α : Type}
    {f : c.Reply → TokenProgram α} (uses : c.keyOf? = some key)
    (resolved : Resolved options reference before past key) (rest : ∀ reply, Keyless (f reply)) :
    Meets (StaysAfter options reference before) (fun _ _ => True) past (Token.request c >>= f) := by
  apply Meets.bind
  apply Meets.ask (stays_key uses resolved)
  intro reply
  cases reply with
  | error failure => exact trivial
  | ok reply => exact stays_keyless (rest reply) _

variable {uri : KeyUri}

theorem meets_findObject (named : resolveKeyUri options reference = .ok uri)
    (objectClass : Option ObjectClass) (past : List TokenExchange) :
    Meets (StaysAfter options reference before) (fun later outcome => ∀ handle, outcome = .ok handle →
      Resolved options reference before later handle) past (findObject uri objectClass) := by
  unfold findObject
  apply Meets.bind
  unfold Token.lift
  cases made : searchTemplate uri objectClass with
  | error failure => exact nofun
  | ok template =>
    apply Meets.bind
    apply Meets.ask
    · exact nofun
    · intro reply
      cases reply with
      | error failure => exact nofun
      | ok handles =>
        intro handle first
        apply ResolvedFrom.found last_exchange ⟨uri, objectClass, named, made⟩
        unfold firstHandle at first
        split at first
        · cases first
        · cases first
          exact List.mem_cons_self

theorem meets_resolveObject (named : resolveKeyUri options reference = .ok uri)
    (fallback : ObjectClass) (past : List TokenExchange) :
    Meets (StaysAfter options reference before) (fun later outcome => ∀ handle, outcome = .ok handle →
      Resolved options reference before later handle) past (resolveObject uri fallback) := by
  unfold resolveObject
  split
  · exact meets_findObject named _ past
  · apply Meets.handle
    apply (meets_findObject named (some fallback) past).weaken
    intro later outcome _ found
    cases outcome with
    | ok handle => exact found
    | error failure => exact meets_findObject named none later

theorem stays_resolving {α : Type} {mechanisms : List Nat} {mechanism : Nat} {fallback : ObjectClass}
    {f : Nat → TokenProgram α}
    (rest : ∀ past handle, Resolved options reference before past handle →
      Meets (StaysAfter options reference before) (fun _ _ => True) past (f handle)) :
    Keeps (StaysAfter options reference before) (do
      let uri ← Token.lift (resolveKeyUri options reference)
      requireMechanism mechanisms mechanism
      let handle ← resolveObject uri fallback
      f handle) := by
  intro past
  apply Meets.bind
  unfold Token.lift
  cases named : resolveKeyUri options reference with
  | error failure => exact trivial
  | ok uri =>
    apply Meets.bind
    apply (stays_keyless (Keeps.requireMechanism mechanisms mechanism) past).weaken
    intro later outcome _ _
    cases outcome with
    | error failure => exact trivial
    | ok _ =>
      apply Meets.andThen (meets_resolveObject named fallback later) (fun _ _ => trivial)
      intro later handle _ resolved
      exact rest later handle resolved

end resolving

section bodies

variable (base64 : Base64) (options : ResolvedOptions) (mechanisms : List Nat)
  {before : List ProviderExchange} (reference : JsString)

theorem stays_encryptAES (nonce : Bytes) (additional : Option JsString) (value : JsString) :
    Keeps (StaysAfter options reference before)
      (encryptAES base64 options mechanisms reference nonce additional value) := by
  apply stays_resolving
  intro past handle resolved
  apply meets_key rfl resolved
  intro ciphertext
  exact Keeps.pure _

theorem stays_decryptAES (cipherValue : JsString) (additional : Option JsString) :
    Keeps (StaysAfter options reference before)
      (decryptAES base64 options mechanisms reference cipherValue additional) := by
  intro past
  unfold decryptAES
  apply Meets.bind
  unfold Token.lift
  cases named : resolveKeyUri options reference with
  | error failure => exact trivial
  | ok uri =>
    apply Meets.bind
    apply (stays_keyless (Keeps.requireMechanism mechanisms Mechanism.AesGcm) past).weaken
    intro later outcome _ _
    cases outcome with
    | error failure => exact trivial
    | ok _ =>
      apply Meets.bind
      cases base64.decode cipherValue with
      | error failure => exact trivial
      | ok raw =>
        show Meets _ _ later (if raw.length ≤ GCM_NONCE_BYTES then _ else _)
        split
        · exact trivial
        · apply Meets.andThen (meets_resolveObject named .secretKey later) (fun _ _ => trivial)
          intro later handle _ resolved
          apply meets_key rfl resolved
          intro plaintext
          exact Keeps.pure _

theorem stays_hmac (message : JsString) : Keeps (StaysAfter options reference before)
    (hmac base64 options mechanisms reference message) := by
  apply stays_resolving
  intro past handle resolved
  apply meets_key rfl resolved
  intro mac
  exact Keeps.pure _

theorem stays_rsaOaepDecode (cipherText : JsString) : Keeps (StaysAfter options reference before)
    (rsaOaepDecode base64 options mechanisms reference cipherText) := by
  apply stays_resolving
  intro past handle resolved
  apply Meets.handle
  apply Meets.bind
  unfold Token.lift
  cases base64.decode cipherText with
  | error cause =>
    dsimp only [Meets]
    split <;> exact trivial
  | ok ciphertext =>
    apply Meets.bind
    apply Meets.ask (stays_key rfl resolved)
    intro reply
    cases reply with
    | ok plaintext => exact trivial
    | error cause =>
      dsimp only [Meets]
      split <;> exact trivial

theorem stays_signWithToken (message : JsString) (plan : Except TokenFailure SignPlan) :
    Keeps (StaysAfter options reference before) (signWithToken base64 options reference message plan) := by
  intro past
  unfold signWithToken
  apply Meets.bind
  unfold Token.lift
  cases named : resolveKeyUri options reference with
  | error failure => exact trivial
  | ok uri =>
    apply Meets.bind
    cases plan with
    | error failure => exact trivial
    | ok chosen =>
      apply Meets.andThen (meets_resolveObject named .privateKey past) (fun _ _ => trivial)
      intro later handle _ resolved
      have signed : ∀ (params : Option MechanismParams) (longer : List TokenExchange), later <+: longer →
          Meets (StaysAfter options reference before) (fun _ _ => True) longer
            (do
              let signature ← Token.sign chosen.mechanism params handle (chosen.prepare message)
              return base64.encode signature : TokenProgram JsString) := by
        intro params longer more
        apply meets_key rfl (resolved.mono (history_mono more))
        intro signature
        exact Keeps.pure _
      apply Meets.handle
      apply (signed chosen.params later List.prefix_rfl).weaken
      intro longer outcome more _
      cases outcome with
      | ok signature => exact trivial
      | error failure =>
        dsimp only
        split
        · exact trivial
        · split
          · exact signed _ longer more
          · exact trivial

def SecretAllowed (options : ResolvedOptions) (reference : JsString) (past : List ProviderExchange)
    (outcome : Except TokenFailure EcdhOutcome) : Prop :=
  ∀ secret, outcome = .ok (.shared secret) → options.allowSecretExtraction = true ∧
    Extracted (Names options reference) past secret

variable {past : List TokenExchange}

theorem meets_deriveKey {mechanism base : Nat} {params : MechanismParams}
    {template : List Attribute} (resolved : Resolved options reference before past base) :
    Meets (StaysAfter options reference before) (fun later outcome => ∀ handle, outcome = .ok handle →
      Resolved options reference before later handle) past (Token.deriveKey mechanism params base template) := by
  apply Meets.ask (stays_key rfl resolved)
  intro reply handle same
  cases same
  exact .derived last_exchange (resolved.mono (history_mono (prefix_append past _)))

theorem meets_cleanup {α : Type} {p : TokenProgram α} {handle : Nat}
    {Q : List TokenExchange → Except TokenFailure α → Prop}
    (stable : ∀ later longer outcome, later <+: longer → Q later outcome → Q longer outcome)
    (failed : ∀ later failure, Q later (.error failure))
    (h : Meets (StaysAfter options reference before) Q past p) :
    Meets (StaysAfter options reference before) Q past (p.andFinally (destroyQuietly handle)) := by
  apply Meets.andFinally
  apply h.weaken
  intro later outcome _ known
  rw [destroyQuietly_bind]
  refine ⟨nofun, fun reply => ?_⟩
  have kept := stable _ _ _ (prefix_append later [⟨.destroyObject handle, reply⟩]) known
  cases reply with
  | ok _ => exact kept
  | error failure =>
    show Q _ (destroyed outcome (.error failure))
    cases thrown : failure.rejected with
    | true =>
      rw [destroyed_rejected thrown]
      exact kept
    | false =>
      rw [destroyed_thrown thrown]
      exact failed _ failure

theorem stays_decryptEcdhInHardware {privateKey : Nat}
    (resolved : Resolved options reference before past privateKey) (peerPoint info nonce ciphertext : Bytes) :
    Meets (StaysAfter options reference before) (fun _ _ => True) past
      (decryptEcdhInHardware privateKey peerPoint info nonce ciphertext) := by
  unfold decryptEcdhInHardware
  apply Meets.andThen (meets_deriveKey options reference resolved) (fun _ _ => trivial)
  intro later secretHandle _ derived
  apply meets_cleanup options reference (fun _ _ _ _ _ => trivial) (fun _ _ => trivial)
  unfold decryptWithDerived
  apply Meets.andThen (meets_deriveKey options reference derived) (fun _ _ => trivial)
  intro later aesHandle _ derived
  apply meets_cleanup options reference (fun _ _ _ _ _ => trivial) (fun _ _ => trivial)
  exact Meets.ask (stays_key rfl derived) fun _ => trivial

theorem stays_deriveExtractableSecret {privateKey : Nat}
    (resolved : Resolved options reference before past privateKey) (peerPoint : Bytes) :
    Meets (StaysAfter options reference before) (fun later outcome => ∀ secret, outcome = .ok secret →
      Extracted (Names options reference) (before ++ later.map onSessionExchange) secret) past
      (deriveExtractableSecret privateKey peerPoint) := by
  unfold deriveExtractableSecret
  apply Meets.andThen (meets_deriveKey options reference resolved)
  · exact nofun
  · intro later handle _ derived
    apply meets_cleanup options reference
    · intro later longer outcome more known secret same
      exact (known secret same).mono (history_mono more)
    · exact nofun
    · unfold readSecret
      apply Meets.bind
      apply Meets.ask
      · exact nofun
      · intro reply
        cases reply with
        | error failure => exact nofun
        | ok attributes =>
          dsimp only
          split
          · exact nofun
          · rename_i secret read
            intro other same
            cases same
            obtain ⟨value, _⟩ := Option.filter_eq_some_iff.mp read
            exact ⟨handle, _, attributes, last_exchange, value,
              derived.mono (history_mono (prefix_append later _))⟩

theorem stays_ecdhDecode {uri : KeyUri} (named : resolveKeyUri options reference = .ok uri)
    (peerPoint info nonce ciphertext : Bytes) (past : List TokenExchange) :
    Meets (StaysAfter options reference before)
      (fun later => SecretAllowed options reference (before ++ later.map onSessionExchange)) past
      (ecdhDecode options mechanisms uri peerPoint info nonce ciphertext) := by
  have failed : ∀ (later : List TokenExchange) (failure : TokenFailure),
      SecretAllowed options reference (before ++ later.map onSessionExchange) (.error failure) := by
    intro later failure secret same
    cases same
  unfold ecdhDecode
  apply Meets.bind
  apply (stays_keyless (Keeps.requireMechanism mechanisms Mechanism.Ecdh1Derive) past).weaken
  intro later outcome _ _
  cases outcome with
  | error failure => exact failed later failure
  | ok _ =>
    apply Meets.andThen (meets_resolveObject named .privateKey later) failed
    intro later privateKey _ resolved
    have extracted : ∀ longer : List TokenExchange, later <+: longer →
        options.allowSecretExtraction = true →
        Meets (StaysAfter options reference before)
          (fun later => SecretAllowed options reference (before ++ later.map onSessionExchange)) longer
          (do
            let secret ← deriveExtractableSecret privateKey peerPoint
            return .shared secret : TokenProgram EcdhOutcome) := by
      intro longer more allowed
      apply Meets.andThen (stays_deriveExtractableSecret options reference
        (resolved.mono (history_mono more)) peerPoint) failed
      intro last secret _ known other same
      cases same
      exact ⟨allowed, known⟩
    dsimp only
    split
    · apply Meets.handle
      apply Meets.bind
      apply (stays_decryptEcdhInHardware options reference resolved peerPoint info nonce ciphertext).weaken
      intro longer outcome more _
      cases outcome with
      | ok plaintext => exact nofun
      | error failure =>
        dsimp only
        split
        next allowed => exact extracted longer more allowed
        next => exact failed longer failure
    · split
      next allowed => exact extracted later prefix_rfl allowed
      next => exact failed later _

end bodies

section provider

variable (base64 : Base64) (sha256 : Bytes → Bytes) (options : ResolvedOptions)
  (reference : JsString)

theorem stays_public {c : SoftwareCall} (h : c.isPublic = true) :
    Keeps (StaysOnToken options reference) (software c) := by
  apply Keeps.ask
  intro past
  cases c <;> first | exact h | cases h

theorem stays_onToken {α : Type} {operation : List Nat → TokenProgram α}
    (h : ∀ before mechanisms, Keeps (StaysAfter options reference before) (operation mechanisms)) :
    Keeps (StaysOnToken options reference) (onToken options operation) :=
  keeps_onToken options (fun _ => trivial) h

theorem stays_fetch (uri : KeyUri) :
    Keeps (StaysOnToken options reference) (Pkcs11Provider.fetchPublicKey base64 options uri) :=
  stays_onToken options reference fun _ _ => stays_keyless (keyless_fetchPublicKey uri)

theorem stays_fetching {α : Type} {publicKey : JsString} {f : JsString → ProviderProgram α}
    (rest : ∀ fetched, Keeps (StaysOnToken options reference) (f fetched)) :
    Keeps (StaysOnToken options reference) (do
      let fetched ← fetchVerificationKey base64 options publicKey
      f fetched) := by
  unfold fetchVerificationKey
  apply Keeps.bind
  · apply Keeps.bind (Keeps.done _)
    intro uri
    exact stays_fetch base64 options reference uri
  · exact rest

theorem stays_ecdhDecodeOnToken (cipherText : JsString) :
    Keeps (StaysOnToken options reference) (ecdhDecodeOnToken base64 options reference cipherText) := by
  unfold ecdhDecodeOnToken
  apply Keeps.given
  intro uri named
  apply Keeps.given
  intro payload _
  apply Keeps.given
  intro encodedKey _
  apply Keeps.given
  intro spki _
  apply Keeps.given
  intro curve _
  apply Keeps.bind (stays_public options reference rfl)
  intro peerPoint
  apply Keeps.given
  intro encodedNonce _
  apply Keeps.given
  intro nonce _
  apply Keeps.given
  intro encodedText _
  apply Keeps.given
  intro ciphertext _ past
  have decoded : Meets (StaysOnToken options reference) (SecretAllowed options reference) past
      (onToken options fun mechanisms => ForgeDeno.ecdhDecode options mechanisms uri peerPoint
        (JsString.utf8Encode (ECDH_HKDF_INFO_PREFIX ++ curve)) nonce ciphertext) := by
    unfold onToken
    apply Meets.given
    · exact nofun
    · intro _ _
      apply Meets.bind
      apply Meets.ask trivial
      intro reply
      cases reply with
      | error failure => exact nofun
      | ok mechanisms =>
        have session : Meets (StaysOnToken options reference) (SecretAllowed options reference)
            ((past ++ [⟨.openToken, .ok mechanisms⟩]) ++ map onSessionExchange []) (onSession _) :=
          meets_onSession (stays_ecdhDecode options mechanisms reference named peerPoint
            (JsString.utf8Encode (ECDH_HKDF_INFO_PREFIX ++ curve)) nonce ciphertext [])
        rwa [map_nil, append_nil] at session
  apply Meets.bind
  apply decoded.weaken
  intro later outcome _ known
  cases outcome with
  | error failure => exact trivial
  | ok result =>
    cases result with
    | plaintext bytes => exact trivial
    | shared secret =>
      apply Meets.bind
      apply Meets.ask (known secret rfl)
      intro reply
      cases reply <;> exact trivial

variable {options reference}

theorem stays_routed {α : Type} {onHardware inSoftware : ProviderProgram α}
    (routed : routesToToken options reference = true) (h : Keeps (StaysOnToken options reference) onHardware) :
    Keeps (StaysOnToken options reference)
      (if routesToToken options reference then onHardware else inSoftware) := by
  rw [if_pos routed]
  exact h

variable {operation : ProviderOperation}

theorem stays_operation (keyed : operation.reference? = some reference)
    (routed : routesToToken options reference = true) :
    Keeps (StaysOnToken options reference) (operation.program base64 sha256 options) := by
  cases operation with
  | encryptAES nonce secretKey additional value =>
    cases keyed
    exact stays_routed routed (stays_onToken options _ fun _ mechanisms =>
      stays_encryptAES base64 options mechanisms _ nonce additional value)
  | decryptAES secretKey cipherValue additional =>
    cases keyed
    exact stays_routed routed (stays_onToken options _ fun _ mechanisms =>
      stays_decryptAES base64 options mechanisms _ cipherValue additional)
  | rsaOaepEncode publicKey text =>
    cases keyed
    exact stays_routed routed (stays_fetching base64 options _ fun _ => stays_public options _ rfl)
  | rsaOaepDecode privateKey cipherText =>
    cases keyed
    exact stays_routed routed (stays_onToken options _ fun _ mechanisms =>
      stays_rsaOaepDecode base64 options mechanisms _ cipherText)
  | ecdhEncode publicKey text =>
    cases keyed
    exact stays_routed routed (stays_fetching base64 options _ fun _ => stays_public options _ rfl)
  | ecdhDecode privateKey cipherText =>
    cases keyed
    exact stays_routed routed (stays_ecdhDecodeOnToken base64 options _ cipherText)
  | rotateKey id now keyId uid =>
    exact stays_onToken options reference fun _ mechanisms =>
      stays_keyless (keyless_rotateKey mechanisms id now keyId uid)
  | getKey keyId =>
    apply Keeps.bind
    · exact stays_onToken options reference fun _ _ => stays_keyless (keyless_describeKey keyId)
    · intro resolved
      apply Keeps.bind
      · apply Keeps.handle (stays_fetch base64 options reference resolved)
        intro failure next taken
        cases taken
        exact Keeps.pure []
      · intro publicKey
        exact Keeps.done _
  | deactivateKey keyId =>
    exact stays_onToken options reference fun _ _ => stays_keyless (keyless_deactivateKey keyId)
  | hmac secretKey message =>
    cases keyed
    exact stays_routed routed (stays_onToken options _ fun _ mechanisms =>
      stays_hmac base64 options mechanisms _ message)
  | signEd25519 privateKey text =>
    cases keyed
    exact stays_routed routed (stays_onToken options _ fun _ mechanisms =>
      stays_signWithToken base64 options _ text (planEd25519 mechanisms))
  | verifyEd25519 publicKey text signature =>
    cases keyed
    exact stays_routed routed (stays_fetching base64 options _ fun _ => stays_public options _ rfl)
  | signRSAPSS privateKey text =>
    cases keyed
    exact stays_routed routed (stays_onToken options _ fun _ mechanisms =>
      stays_signWithToken base64 options _ text (planRsaPss sha256 mechanisms))
  | verifyRSAPSS publicKey text signature =>
    cases keyed
    exact stays_routed routed (stays_fetching base64 options _ fun _ => stays_public options _ rfl)
  | signRSAPKCS1v15SHA256 privateKey data =>
    cases keyed
    exact stays_routed routed (stays_onToken options _ fun _ mechanisms =>
      stays_signWithToken base64 options _ data (planRsaPkcs1v15 sha256 mechanisms))
  | verifyRSAPKCS1v15SHA256 data publicKey signature =>
    cases keyed
    exact stays_routed routed (stays_fetching base64 options _ fun _ => stays_public options _ rfl)
  | generateSymmetricKeys id now uid size => cases keyed
  | generateRSAKeys id now uid size => cases keyed
  | generateECDHCurveKeys id now uid curve => cases keyed
  | sha256Hex message => cases keyed
  | blake3 message => cases keyed
  | generateEd25519Keys id now => cases keyed

/-- An operation that encrypts, decrypts, signs or verifies is the local provider's when its reference
does not route to the token. -/
theorem local_of_unrouted
    (keyed : operation.reference? = some reference) (manages : operation.managesKey = false)
    (unrouted : routesToToken options reference = false) :
    operation.local? = some (operation.program base64 sha256 options) := by
  have away : ∀ {α : Type} (onHardware inSoftware : ProviderProgram α), some inSoftware =
      some (if routesToToken options reference then onHardware else inSoftware) := by
    intro α onHardware inSoftware
    rw [unrouted]
    rfl
  cases operation with
  | rotateKey | getKey | deactivateKey => cases manages
  | generateSymmetricKeys | generateRSAKeys | generateECDHCurveKeys | generateEd25519Keys => cases keyed
  | sha256Hex | blake3 => cases keyed
  | _ =>
    cases keyed
    exact away _ _

theorem resolveKeyUri_of_unrouted (unrouted : routesToToken options reference = false) :
    ∃ failure, resolveKeyUri options reference = .error failure := by
  simp only [routesToToken, Bool.or_eq_false_iff, Bool.and_eq_false_iff, decide_eq_false_iff_not] at unrouted
  obtain ⟨plain, noDefault⟩ := unrouted
  unfold resolveKeyUri
  dsimp only
  by_cases blank : reference.trim = []
  · rw [if_neg (not_not_intro blank), if_neg]
    · exact ⟨_, rfl⟩
    · rcases noDefault with other | none
      · exact absurd blank other
      · exact none
  · have other : isKeyUri reference.trim.trim = false := by
      unfold isKeyUri at plain ⊢
      rw [JsString.trim_trim, JsString.trim_trim]
      exact plain
    rw [if_pos blank]
    unfold parseKeyUri
    dsimp only
    rw [other]
    exact ⟨_, rfl⟩

theorem rejects_onToken {α : Type} {operation : List Nat → TokenProgram α} {failure : TokenFailure}
    (h : ∀ mechanisms, operation mechanisms = .done (.error failure)) (past : List ProviderExchange) :
    Meets (fun _ c => c = .openToken) (fun _ outcome => ∃ failure, outcome = .error failure) past
      (onToken options operation) := by
  unfold onToken
  apply Meets.given
  · exact fun other => ⟨other, rfl⟩
  · intro _ _
    refine ⟨rfl, fun reply => ?_⟩
    cases reply with
    | error other => exact ⟨other, rfl⟩
    | ok mechanisms =>
      show Meets _ _ _ (onSession (operation mechanisms))
      rw [h mechanisms]
      exact ⟨failure, rfl⟩

theorem managing_rejects
    (keyed : operation.reference? = some reference) (manages : operation.managesKey = true)
    (unrouted : routesToToken options reference = false) :
    Meets (fun _ c => c = .openToken) (fun _ outcome => ∃ failure, outcome = .error failure) []
      (operation.program base64 sha256 options) := by
  obtain ⟨failure, failed⟩ := resolveKeyUri_of_unrouted unrouted
  cases operation with
  | rotateKey id now keyId uid =>
    cases keyed
    apply rejects_onToken
    intro mechanisms
    unfold rotateKey
    rw [failed]
    rfl
  | getKey keyId =>
    cases keyed
    apply Meets.bind
    have described : ∀ mechanisms : List Nat, describeKey options reference = .done (.error failure) := by
      intro mechanisms
      unfold describeKey
      rw [failed]
      rfl
    apply (rejects_onToken described []).weaken
    intro later outcome _ rejected
    obtain ⟨other, rfl⟩ := rejected
    exact ⟨other, rfl⟩
  | deactivateKey keyId =>
    cases keyed
    apply rejects_onToken
    intro mechanisms
    unfold deactivateKey
    rw [failed]
    rfl
  | _ => cases manages

/-- Where the operations on a key reference are computed. -/
theorem token_routing (options : ResolvedOptions) {operation : ProviderOperation}
    (keyed : operation.reference? = some reference) : if routesToToken options reference then
      Keeps (StaysOnToken options reference) (operation.program base64 sha256 options)
    else if operation.managesKey then
      Meets (fun _ c => c = .openToken) (fun _ outcome => ∃ failure, outcome = .error failure) []
        (operation.program base64 sha256 options)
    else operation.local? = some (operation.program base64 sha256 options) := by
  cases routed : routesToToken options reference with
  | true => exact stays_operation base64 sha256 keyed routed
  | false =>
    cases manages : operation.managesKey with
    | true => exact managing_rejects base64 sha256 keyed manages routed
    | false => exact local_of_unrouted base64 sha256 keyed manages routed

end provider

theorem hmac_on_token : Keeps (StaysOnToken sealedOptions (js "pkcs11:object=k"))
    (ProviderOperation.program plainBase64 id sealedOptions (.hmac (js "pkcs11:object=k") (js "m"))) := by
  have routing := token_routing plainBase64 id sealedOptions
    (show ProviderOperation.reference? (.hmac (js "pkcs11:object=k") (js "m")) = some _ from rfl)
  rwa [if_pos (by decide)] at routing

/-- The description of a key opens a session for a reference that names no object of the token, which
the local provider rejects by itself. -/
theorem getKey_opens_token :
    ProviderOperation.reference? (.getKey (js "a")) = some (js "a") ∧
      routesToToken sealedOptions (js "a") = false ∧
      ProviderOperation.local? (.getKey (js "a")) = some (.fail (unsupportedOperation (js "getKey"))) ∧
      ∃ rest, Runs (ProviderOperation.program plainBase64 id sealedOptions (.getKey (js "a")))
        [⟨.openToken, .ok []⟩] rest :=
  ⟨rfl, by decide, rfl, _, .cons _ (.nil _)⟩

end ForgeDeno
