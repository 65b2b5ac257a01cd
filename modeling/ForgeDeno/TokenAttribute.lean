import ForgeDeno.TokenSelection

namespace ForgeDeno

open CallProgram Pkcs11Provider

/-- The type of a reference is a class, and no name that every object inherits. -/
def KeyUri.searchable (uri : KeyUri) : Bool :=
  match uri.objectClass with
  | some (.inherited _) => false
  | _ => true

/-- The envelope of `ecdhDecode` decodes. -/
def ReadableEnvelope (base64 : Base64) (cipherText : JsString) : Prop :=
  ∃ payload encodedKey spki curve encodedNonce nonce encodedText ciphertext,
    decodeECCCipherPayload base64 cipherText = .ok payload ∧
      fieldText payload.ephemeralPublicKey = .ok encodedKey ∧ base64.decode encodedKey = .ok spki ∧
      fieldText payload.curve = .ok curve ∧ fieldText payload.nonce = .ok encodedNonce ∧
      base64.decode encodedNonce = .ok nonce ∧ fieldText payload.cipherText = .ok encodedText ∧
      base64.decode encodedText = .ok ciphertext

/-- The operation with this reference gets to search for its object on a token with these mechanisms. -/
def ProviderOperation.Searches (base64 : Base64) (uri : KeyUri) (mechanisms : List Nat) : ProviderOperation → Prop
  | .encryptAES _ _ _ _ => Mechanism.AesGcm ∈ mechanisms ∧ uri.searchable = true
  | .decryptAES _ cipherValue _ => Mechanism.AesGcm ∈ mechanisms ∧
    ∃ raw, base64.decode cipherValue = .ok raw ∧ GCM_NONCE_BYTES < raw.length ∧ uri.searchable = true
  | .rsaOaepDecode _ _ => Mechanism.RsaPkcsOaep ∈ mechanisms ∧ uri.searchable = true
  | .ecdhDecode _ cipherText => ReadableEnvelope base64 cipherText ∧ Mechanism.Ecdh1Derive ∈ mechanisms ∧
    uri.searchable = true
  | .rotateKey _ _ _ _ | .getKey _ | .deactivateKey _ => uri.searchable = true
  | .hmac _ _ => Mechanism.Sha256Hmac ∈ mechanisms ∧ uri.searchable = true
  | .signEd25519 _ _ => Mechanism.EdDsa ∈ mechanisms ∧ uri.searchable = true
  | .signRSAPSS _ _ => (Mechanism.Sha256RsaPkcsPss ∈ mechanisms ∨ Mechanism.RsaPkcsPss ∈ mechanisms) ∧
    uri.searchable = true
  | .signRSAPKCS1v15SHA256 _ _ =>
    (Mechanism.Sha256RsaPkcs ∈ mechanisms ∨ Mechanism.RsaPkcs ∈ mechanisms) ∧ uri.searchable = true
  | _ => True

section bodies

variable {base64 : Base64} {sha256 : Bytes → Bytes} {options : ResolvedOptions} {mechanisms : List Nat}
  {uri : KeyUri} {reference : JsString} {α β : Type}

theorem starts_requireMechanism {mechanism : Nat} {f : Unit → TokenProgram α} {needs : Prop}
    (h : Starts needs (f ())) :
    Starts (mechanism ∈ mechanisms ∧ needs) (requireMechanism mechanisms mechanism >>= f) := by
  unfold requireMechanism
  split
  next supported => exact h.congr (and_iff_right supported).symm
  next missing =>
    apply (Starts.fail (unsupportedMechanism (mechanismName mechanism))).congr
    exact ⟨False.elim, fun both => missing both.1⟩

theorem starts_findObject {objectClass : Option ObjectClass}
    (h : ∀ name, objectClass ≠ some (.inherited name)) : Starts True (findObject uri objectClass) := by
  unfold findObject
  have made : ∃ template, searchTemplate uri objectClass = .ok template := by
    unfold searchTemplate
    cases objectClass with
    | none => exact ⟨_, rfl⟩
    | some found =>
      cases found with
      | inherited name => exact absurd rfl (h name)
      | _ => exact ⟨_, rfl⟩
  obtain ⟨template, made⟩ := made
  rw [made]
  exact Starts.bind (p := Token.findObjects template) (Starts.call _ _ _)

theorem starts_resolveObject {fallback : ObjectClass} (h : ∀ name, fallback ≠ .inherited name) :
    Starts (uri.searchable = true) (resolveObject uri fallback) := by
  unfold resolveObject KeyUri.searchable
  cases uri.objectClass with
  | none =>
    apply (Starts.handle (starts_findObject _)).congr (iff_of_true trivial rfl)
    intro name same
    exact h name (Option.some.inj same)
  | some found =>
    cases named : found with
    | inherited name =>
      exact (Starts.fail _).congr ⟨False.elim, nofun⟩
    | _ =>
      apply (starts_findObject _).congr (iff_of_true trivial rfl)
      intro name same
      cases same

theorem starts_reference (named : resolveKeyUri options reference = .ok uri) {needs : Prop}
    {f : KeyUri → TokenProgram α} (h : Starts needs (f uri)) :
    Starts needs (Token.lift (resolveKeyUri options reference) >>= f) := by
  rw [named]
  exact h

theorem starts_fetchPublicKey : Starts True (fetchPublicKey base64 uri) := by
  unfold fetchPublicKey publicObjectFor attemptObject
  apply Starts.bind
  apply Starts.bind
  apply Starts.handle
  apply Starts.bind
  apply starts_findObject
  intro name same
  cases same

theorem starts_resolving (named : resolveKeyUri options reference = .ok uri) {mechanism : Nat}
    {fallback : ObjectClass} (plain : ∀ name, fallback ≠ .inherited name) {f : Nat → TokenProgram α} :
    Starts (mechanism ∈ mechanisms ∧ uri.searchable = true) (do
      let uri ← Token.lift (resolveKeyUri options reference)
      requireMechanism mechanisms mechanism
      let handle ← resolveObject uri fallback
      f handle) :=
  starts_reference named (starts_requireMechanism (Starts.bind (starts_resolveObject plain)))

theorem starts_decryptAES (named : resolveKeyUri options reference = .ok uri) (cipherValue : JsString)
    (additional : Option JsString) :
    Starts (ProviderOperation.Searches base64 uri mechanisms (.decryptAES reference cipherValue additional))
      (decryptAES base64 options mechanisms reference cipherValue additional) := by
  unfold decryptAES
  apply starts_reference named
  apply starts_requireMechanism
  apply Starts.given
  intro raw
  show Starts _ (if raw.length ≤ GCM_NONCE_BYTES then _ else _)
  split
  next short => exact (Starts.fail _).congr ⟨False.elim, fun both => by omega⟩
  next long =>
    apply (Starts.bind (starts_resolveObject _)).congr (and_iff_right (by omega)).symm
    intro name same
    cases same

theorem starts_signWithToken (named : resolveKeyUri options reference = .ok uri) {message : JsString}
    {plan : Except TokenFailure SignPlan} {supported : Prop}
    (usable : (∃ chosen, plan = .ok chosen) ↔ supported) :
    Starts (supported ∧ uri.searchable = true) (signWithToken base64 options reference message plan) := by
  have planned : Starts (∃ chosen, plan = .ok chosen ∧ uri.searchable = true)
      (signWithToken base64 options reference message plan) := by
    unfold signWithToken
    apply starts_reference named
    apply Starts.given
    intro chosen
    apply Starts.bind (starts_resolveObject _)
    intro name same
    cases same
  apply planned.congr
  rw [exists_and_right, usable]

theorem planEd25519_ok : (∃ chosen, planEd25519 mechanisms = .ok chosen) ↔ Mechanism.EdDsa ∈ mechanisms := by
  unfold planEd25519
  split
  next held => exact iff_of_true ⟨_, rfl⟩ held
  next missing => exact iff_of_false (fun ⟨_, same⟩ => by cases same) missing

theorem planRsaPss_ok : (∃ chosen, planRsaPss sha256 mechanisms = .ok chosen) ↔
    Mechanism.Sha256RsaPkcsPss ∈ mechanisms ∨ Mechanism.RsaPkcsPss ∈ mechanisms := by
  unfold planRsaPss
  dsimp only
  split
  next held => exact iff_of_true ⟨_, rfl⟩ (.inl held)
  next missing =>
    split
    next held => exact iff_of_true ⟨_, rfl⟩ (.inr held)
    next none => exact iff_of_false (fun ⟨_, same⟩ => by cases same) (not_or.mpr ⟨missing, none⟩)

theorem planRsaPkcs1v15_ok : (∃ chosen, planRsaPkcs1v15 sha256 mechanisms = .ok chosen) ↔
    Mechanism.Sha256RsaPkcs ∈ mechanisms ∨ Mechanism.RsaPkcs ∈ mechanisms := by
  unfold planRsaPkcs1v15
  split
  next held => exact iff_of_true ⟨_, rfl⟩ (.inl held)
  next missing =>
    split
    next held => exact iff_of_true ⟨_, rfl⟩ (.inr held)
    next none => exact iff_of_false (fun ⟨_, same⟩ => by cases same) (not_or.mpr ⟨missing, none⟩)

end bodies

/-- A program whose sessions make a call exactly where the mechanisms of their slot allow it and fail
otherwise. `touched` tells whether a call has been made to a token, without which there is no result,
and `opened` whether a session is open. -/
def Touches {α : Type} (needs : List Nat → Prop) : Bool → Bool → ProviderProgram α → Prop
  | touched, _, .done outcome => touched = true ∨ ∃ failure, outcome = .error failure
  | touched, _, .call .openToken _ next =>
    (∀ failure, Touches needs touched false (next (.error failure))) ∧ ∀ mechanisms,
      (needs mechanisms → (∃ c replaced rest, next (.ok mechanisms) = .call (.token c) replaced rest) ∧
        Touches needs true true (next (.ok mechanisms))) ∧
      (¬needs mechanisms → ∃ failure, next (.ok mechanisms) = .done (.error failure))
  | _, opened, .call (.token _) _ next => opened = true ∧ ∀ reply, Touches needs true true (next reply)
  | touched, opened, .call (.software _) _ next => ∀ reply, Touches needs touched opened (next reply)

section touching

variable {base64 : Base64} {sha256 : Bytes → Bytes} {options : ResolvedOptions} {α β : Type}
  {needs : List Nat → Prop} {touched opened : Bool}

theorem touches_onSession (p : TokenProgram α) : Touches needs true true (onSession p) := by
  induction p with
  | done outcome => exact .inl rfl
  | call c replaced next ih => exact ⟨rfl, ih⟩

theorem touches_failed (failure : TokenFailure) :
    Touches needs touched opened (.done (.error failure) : ProviderProgram α) :=
  .inr ⟨failure, rfl⟩

theorem touches_bind {p : ProviderProgram α} {f : α → ProviderProgram β}
    (first : Touches needs touched opened p) (rest : ∀ a opened, Touches needs true opened (f a)) :
    Touches needs touched opened (p >>= f) := by
  show Touches needs touched opened (p.bind f)
  induction p generalizing touched opened with
  | done outcome =>
    cases outcome with
    | error failure => exact touches_failed failure
    | ok a =>
      rcases first with touched | ⟨failure, wrong⟩
      · subst touched
        exact rest a opened
      · cases wrong
  | call c replaced next ih =>
    cases c with
    | software c => exact fun reply => ih reply (first reply)
    | token c => exact ⟨first.1, fun reply => ih reply (first.2 reply)⟩
    | openToken =>
      refine ⟨fun failure => ih _ (first.1 failure), fun mechanisms => ⟨fun met => ?_, fun unmet => ?_⟩⟩
      · obtain ⟨⟨c, replaced, next', same⟩, later⟩ := (first.2 mechanisms).1 met
        refine ⟨⟨c, replaced, fun reply => (next' reply).bind f, ?_⟩, ih _ later⟩
        show (next (.ok mechanisms)).bind f = _
        rw [same]
        rfl
      · obtain ⟨failure, same⟩ := (first.2 mechanisms).2 unmet
        refine ⟨failure, ?_⟩
        show (next (.ok mechanisms)).bind f = _
        rw [same]
        rfl

theorem touches_handle {p : ProviderProgram α} {handler : TokenFailure → Option (ProviderProgram α)}
    (always : ∀ mechanisms, needs mechanisms) (first : Touches needs true opened p)
    (rest : ∀ failure q opened, handler failure = some q → Touches needs true opened q) :
    Touches needs true opened (p.handle handler) := by
  induction p generalizing opened with
  | done outcome =>
    cases outcome with
    | ok a => exact .inl rfl
    | error failure =>
      show Touches needs true opened ((handler failure).getD _)
      cases taken : handler failure with
      | none => exact .inl rfl
      | some q => exact rest failure q opened taken
  | call c replaced next ih =>
    cases c with
    | software c => exact fun reply => ih reply (first reply)
    | token c => exact ⟨first.1, fun reply => ih reply (first.2 reply)⟩
    | openToken =>
      refine ⟨fun failure => ih _ (first.1 failure), fun mechanisms => ⟨fun met => ?_, fun unmet => ?_⟩⟩
      · obtain ⟨⟨c, replaced, next', same⟩, later⟩ := (first.2 mechanisms).1 met
        refine ⟨?_, ih _ later⟩
        show ∃ _ _ _, (next (.ok mechanisms)).handle handler = _
        rw [same]
        exact ⟨c, _, _, rfl⟩
      · exact absurd (always mechanisms) unmet

theorem touches_given {x : Except TokenFailure α} {f : α → ProviderProgram β}
    (h : ∀ a, x = .ok a → Touches needs touched opened (f a)) : Touches needs touched opened (lift x >>= f) := by
  cases x with
  | error failure => exact touches_failed failure
  | ok a => exact h a rfl

theorem touches_valid {operation : List Nat → TokenProgram α} (h : validateOptions options = .ok () →
    ∀ mechanisms, Starts (needs mechanisms) (operation mechanisms)) :
    Touches needs touched opened (onToken options operation) := by
  unfold onToken
  apply touches_given
  intro _ valid
  replace h := h valid
  refine ⟨touches_failed, fun mechanisms => ⟨fun met => ⟨?_, touches_onSession _⟩, fun unmet => ?_⟩⟩
  · obtain ⟨c, replaced, next, same⟩ := (h mechanisms).1 met
    refine ⟨c, replaced, fun reply => onSession (next reply), ?_⟩
    show onSession (operation mechanisms) = _
    rw [same]
    rfl
  · obtain ⟨failure, same⟩ := (h mechanisms).2 unmet
    refine ⟨failure, ?_⟩
    show onSession (operation mechanisms) = _
    rw [same]
    rfl

theorem touches_onToken {operation : List Nat → TokenProgram α}
    (h : ∀ mechanisms, Starts (needs mechanisms) (operation mechanisms)) :
    Touches (fun mechanisms => validateOptions options = .ok () ∧ needs mechanisms) touched opened
      (onToken options operation) :=
  touches_valid fun valid mechanisms => (h mechanisms).congr (and_iff_right valid).symm

theorem touches_software (c : SoftwareCall) : Touches needs true opened (software c) :=
  fun _ => .inl rfl

theorem touches_fetch {uri : KeyUri} (always : validateOptions options = .ok () → ∀ mechanisms, needs mechanisms) :
    Touches needs touched opened (Pkcs11Provider.fetchPublicKey base64 options uri) :=
  touches_valid fun valid mechanisms => starts_fetchPublicKey.congr (iff_of_true trivial (always valid mechanisms))

theorem touches_asking {c : SoftwareCall} {f : c.Reply → ProviderProgram β}
    (h : ∀ a, Touches needs touched opened (f a)) : Touches needs touched opened (software c >>= f) := by
  intro reply
  cases reply with
  | error failure => exact touches_failed failure
  | ok a => exact h a

theorem touches_fetching {reference : JsString} {f : JsString → ProviderProgram β}
    (rest : ∀ fetched opened, Touches (fun _ => validateOptions options = .ok () ∧ True) true opened (f fetched)) :
    Touches (fun _ => validateOptions options = .ok () ∧ True) touched opened (fetchVerificationKey base64 options reference >>= f) := by
  unfold fetchVerificationKey
  rw [bind_assoc]
  apply touches_given
  intro uri _
  exact touches_bind (touches_fetch fun valid _ => ⟨valid, trivial⟩) rest

variable {uri : KeyUri} {reference : JsString}

theorem touches_ecdhDecode (named : resolveKeyUri options reference = .ok uri) (cipherText : JsString) :
    Touches (fun mechanisms => validateOptions options = .ok () ∧ ReadableEnvelope base64 cipherText ∧
      Mechanism.Ecdh1Derive ∈ mechanisms ∧ uri.searchable = true) touched opened
      (ecdhDecodeOnToken base64 options reference cipherText) := by
  unfold ecdhDecodeOnToken
  apply touches_given
  intro found same
  cases named.symm.trans same
  apply touches_given
  intro payload h₁
  apply touches_given
  intro encodedKey h₂
  apply touches_given
  intro spki h₃
  apply touches_given
  intro curve h₄
  apply touches_asking
  intro peerPoint
  apply touches_given
  intro encodedNonce h₅
  apply touches_given
  intro nonce h₆
  apply touches_given
  intro encodedText h₇
  apply touches_given
  intro ciphertext h₈
  apply touches_bind
  · have readable : ReadableEnvelope base64 cipherText := ⟨_, _, _, _, _, _, _, _, h₁, h₂, h₃, h₄, h₅, h₆, h₇, h₈⟩
    apply touches_onToken
    intro mechanisms
    refine Starts.congr ?_ (and_iff_right readable).symm
    apply starts_requireMechanism
    apply Starts.bind (starts_resolveObject _)
    intro name same
    cases same
  · intro outcome opened
    cases outcome with
    | plaintext bytes => exact .inl rfl
    | shared secret =>
      apply touches_asking
      intro plaintext
      exact .inl rfl

theorem touches_getKey (named : resolveKeyUri options reference = .ok uri) :
    Touches (fun _ => validateOptions options = .ok () ∧ uri.searchable = true) touched opened (getKey base64 options reference) := by
  have described : ∀ mechanisms : List Nat, Starts (uri.searchable = true) (describeKey options reference) := by
    intro _
    unfold describeKey
    apply starts_reference named
    apply Starts.bind (starts_resolveObject _)
    intro name same
    cases same
  unfold getKey
  by_cases valid : validateOptions options = .ok ()
  case neg =>
    unfold onToken
    cases failed : validateOptions options with
    | error failure => exact touches_failed failure
    | ok _ => exact absurd failed valid
  by_cases searched : uri.searchable = true
  · apply touches_bind (touches_onToken described)
    intro resolved opened
    apply touches_bind
    · apply touches_handle (fun _ => ⟨valid, searched⟩) (touches_fetch fun _ _ => ⟨valid, searched⟩)
      intro failure q opened taken
      cases taken
      exact .inl rfl
    · intro publicKey opened
      cases keyDataFor resolved publicKey with
      | error failure => exact touches_failed failure
      | ok data => exact .inl rfl
  · obtain ⟨failure, fails⟩ := (described []).2 searched
    rw [fails]
    unfold onToken
    rw [bind_assoc]
    apply touches_given
    intro _ _
    refine ⟨touches_failed, fun mechanisms => ⟨fun met => absurd met.2 searched, fun _ => ?_⟩⟩
    exact ⟨failure, rfl⟩

theorem touches_routed {onHardware inSoftware : ProviderProgram α}
    (routed : routesToToken options reference = true) (h : Touches needs touched opened onHardware) :
    Touches needs touched opened (if routesToToken options reference then onHardware else inSoftware) := by
  rw [if_pos routed]
  exact h

theorem touches_operation {operation : ProviderOperation} (keyed : operation.reference? = some reference)
    (named : resolveKeyUri options reference = .ok uri) :
    Touches (fun mechanisms => validateOptions options = .ok () ∧ operation.Searches base64 uri mechanisms)
      false false (operation.program base64 sha256 options) := by
  have routed : routesToToken options reference = true := by
    by_contra unrouted
    obtain ⟨failure, failed⟩ := resolveKeyUri_of_unrouted (Bool.eq_false_of_not_eq_true unrouted)
    cases named.symm.trans failed
  have secretKey : ∀ name, ObjectClass.secretKey ≠ .inherited name := nofun
  have privateKey : ∀ name, ObjectClass.privateKey ≠ .inherited name := nofun
  cases operation with
  | encryptAES nonce key additional value =>
    cases keyed
    exact touches_routed routed (touches_onToken fun _ => starts_resolving named secretKey)
  | decryptAES key cipherValue additional =>
    cases keyed
    exact touches_routed routed (touches_onToken fun _ => starts_decryptAES named cipherValue additional)
  | rsaOaepEncode publicKey text =>
    cases keyed
    exact touches_routed routed (touches_fetching fun _ _ => touches_software _)
  | rsaOaepDecode key cipherText =>
    cases keyed
    exact touches_routed routed (touches_onToken fun _ => starts_resolving named privateKey)
  | ecdhEncode publicKey text =>
    cases keyed
    exact touches_routed routed (touches_fetching fun _ _ => touches_software _)
  | ecdhDecode key cipherText =>
    cases keyed
    exact touches_routed routed (touches_ecdhDecode named cipherText)
  | rotateKey id now keyId uid =>
    cases keyed
    apply touches_onToken
    intro mechanisms
    exact starts_reference named (Starts.bind (starts_resolveObject privateKey))
  | getKey keyId =>
    cases keyed
    exact touches_getKey named
  | deactivateKey keyId =>
    cases keyed
    apply touches_onToken
    intro mechanisms
    exact starts_reference named (Starts.bind (starts_resolveObject privateKey))
  | hmac key message =>
    cases keyed
    exact touches_routed routed (touches_onToken fun _ => starts_resolving named secretKey)
  | signEd25519 key text =>
    cases keyed
    exact touches_routed routed (touches_onToken fun _ => starts_signWithToken named planEd25519_ok)
  | verifyEd25519 publicKey text signature =>
    cases keyed
    exact touches_routed routed (touches_fetching fun _ _ => touches_software _)
  | signRSAPSS key text =>
    cases keyed
    exact touches_routed routed (touches_onToken fun _ => starts_signWithToken named planRsaPss_ok)
  | verifyRSAPSS publicKey text signature =>
    cases keyed
    exact touches_routed routed (touches_fetching fun _ _ => touches_software _)
  | signRSAPKCS1v15SHA256 key data =>
    cases keyed
    exact touches_routed routed (touches_onToken fun _ => starts_signWithToken named planRsaPkcs1v15_ok)
  | verifyRSAPKCS1v15SHA256 data publicKey signature =>
    cases keyed
    exact touches_routed routed (touches_fetching fun _ _ => touches_software _)
  | generateSymmetricKeys | generateRSAKeys | generateECDHCurveKeys | generateEd25519Keys => cases keyed
  | sha256Hex | blake3 => cases keyed

end touching

section hosts

variable (base64 : Base64) (sha256 : Bytes → Bytes) (maxSessions : Nat) (options : ResolvedOptions)
  (host : Host) (operation : ProviderOperation)

abbrev Host.calls : List ProviderExchange :=
  history (host.answer maxSessions options) [] (operation.program base64 sha256 options)

/-- The operation runs on a token with this label only, and without one it rejects before it has
touched an object. -/
structure TokenHonoured (token : JsString) : Prop where
  placed : ∀ earlier exchange later,
    host.calls base64 sha256 maxSessions options operation = earlier ++ exchange :: later →
      exchange.call.touches = true → host.sessionToken maxSessions options earlier = some token
  rejected : (∀ exchange ∈ host.calls base64 sha256 maxSessions options operation,
      exchange.call.touches = false) → ∃ failure, outcome (host.answer maxSessions options) []
        (operation.program base64 sha256 options) = .error failure

/-- In these surroundings the slot that the options select, if the operation gets to search there, holds a
token with this label. -/
def SelectsNamed (uri : KeyUri) (token : JsString) (around : Surroundings) : Prop :=
  validateOptions options = .ok () → ∀ slot, Selected maxSessions options around slot →
    operation.Searches base64 uri slot.mechanisms → around.tokenIn slot.id = some token

variable {base64 sha256 maxSessions options host operation} {α : Type} {needs : List Nat → Prop}

def SessionStanding (maxSessions : Nat) (options : ResolvedOptions) (host : Host) (needs : List Nat → Prop)
    (p : ProviderProgram α) (past : List ProviderExchange) : Prop :=
  ∃ touched opened, Touches needs touched opened p ∧ (opened = true → ∃ start slot,
    sessionStart past = some start ∧ withSession maxSessions options (host.around start) = .ok slot ∧
      needs slot.mechanisms)

variable {past earlier later : List ProviderExchange}

theorem sessionStanding_step {c : ProviderCall} {replaced : TokenFailure → Bool}
    {next : Except TokenFailure c.Reply → ProviderProgram α}
    (h : SessionStanding maxSessions options host needs (.call c replaced next) past) :
    SessionStanding maxSessions options host needs (next (host.answer maxSessions options past c))
      (past ++ [⟨c, host.answer maxSessions options past c⟩]) := by
  obtain ⟨touched, opened, kept, session⟩ := h
  cases c with
  | software c =>
    refine ⟨touched, opened, kept _, fun held => ?_⟩
    rw [sessionStart_other past (by simp)]
    exact session held
  | token c =>
    refine ⟨true, true, kept.2 _, fun _ => ?_⟩
    rw [sessionStart_other past (by simp)]
    exact session kept.1
  | openToken =>
    cases opening : withSession maxSessions options (host.around past) with
    | error failure =>
      have reply : host.answer maxSessions options past .openToken = .error failure := by
        show (withSession maxSessions options (host.around past)).map SlotState.mechanisms = _
        rw [opening]
        rfl
      rw [reply]
      exact ⟨touched, false, kept.1 failure, nofun⟩
    | ok slot =>
      rw [Host.answer_openToken opening]
      by_cases met : needs slot.mechanisms
      · refine ⟨true, true, ((kept.2 slot.mechanisms).1 met).2, fun _ => ⟨past, slot, ?_, opening, met⟩⟩
        exact sessionStart_opened past _
      · obtain ⟨failure, same⟩ := (kept.2 slot.mechanisms).2 met
        rw [same]
        exact ⟨false, false, touches_failed failure, nofun⟩

variable {p : ProviderProgram α}

theorem touched_of_ok {opened : Bool} (h : Touches needs false opened p) {a : α}
    (result : outcome (host.answer maxSessions options) past p = .ok a) :
    ∃ exchange ∈ history (host.answer maxSessions options) past p, exchange.call.touches = true := by
  induction p generalizing opened past with
  | done outcome =>
    rcases h with wrong | ⟨failure, wrong⟩
    · cases wrong
    · subst wrong
      cases result
  | call c replaced next ih =>
    cases c with
    | software c => exact ih _ (h _) result
    | token c =>
      obtain ⟨later, whole⟩ := history_from_call (host.answer maxSessions options) past (.token c) replaced next
      rw [whole]
      exact ⟨_, List.mem_append_right _ List.mem_cons_self, rfl⟩
    | openToken =>
      generalize reply : host.answer maxSessions options past .openToken = answered at result
      have whole : history (host.answer maxSessions options) past (.call .openToken replaced next) =
          history (host.answer maxSessions options) (past ++ [⟨.openToken, answered⟩]) (next answered) := by
        rw [← reply]
        rfl
      rw [whole]
      have rest : outcome (host.answer maxSessions options) (past ++ [⟨.openToken, answered⟩])
          (next answered) = .ok a := by
        rw [← result, ← reply]
        rfl
      cases answered with
      | error failure => exact ih _ (h.1 failure) rest
      | ok mechanisms =>
        by_cases met : needs mechanisms
        · obtain ⟨c, replaced, next', same⟩ := ((h.2 mechanisms).1 met).1
          obtain ⟨later, called⟩ := history_from_call (host.answer maxSessions options)
            (past ++ [⟨.openToken, .ok mechanisms⟩]) (.token c) replaced next'
          rw [same, called]
          exact ⟨_, List.mem_append_right _ List.mem_cons_self, rfl⟩
        · obtain ⟨failure, same⟩ := (h.2 mechanisms).2 met
          rw [same] at rest
          cases rest

theorem sessionStanding_at (h : Touches needs false false p) {exchange : ProviderExchange}
    (parts : history (host.answer maxSessions options) [] p = earlier ++ exchange :: later) :
    ∃ replaced next, SessionStanding maxSessions options host needs (.call exchange.call replaced next) earlier ∧
      Reached (host.answer maxSessions options) p [] (.call exchange.call replaced next) earlier := by
  obtain ⟨replaced, next, reached, _⟩ := reached_at (List.nil_append _ ▸ parts)
  refine ⟨replaced, next, ?_, reached⟩
  apply reached.keeps
  · exact ⟨false, false, h, nofun⟩
  · exact sessionStanding_step

theorem served_session (h : Touches needs false false p) {exchange : ProviderExchange}
    (parts : history (host.answer maxSessions options) [] p = earlier ++ exchange :: later)
    (touches : exchange.call.touches = true) : ∃ start slot, sessionStart earlier = some start ∧
      withSession maxSessions options (host.around start) = .ok slot ∧ needs slot.mechanisms := by
  obtain ⟨replaced, next, ⟨_, _, kept, session⟩, _⟩ := sessionStanding_at h parts
  obtain ⟨call, reply⟩ := exchange
  cases call with
  | token c => exact session kept.1
  | openToken => cases touches
  | software c => cases touches

theorem session_serves (h : Touches needs false false p)
    {start : List ProviderExchange} {exchange : ProviderExchange}
    (parts : history (host.answer maxSessions options) [] p = start ++ exchange :: later)
    (opens : exchange.call = .openToken) {slot : SlotState}
    (opened : withSession maxSessions options (host.around start) = .ok slot)
    (met : needs slot.mechanisms) : ∃ c reply rest reply', history (host.answer maxSessions options) [] p =
        (start ++ [⟨.openToken, reply⟩]) ++ ⟨.token c, reply'⟩ :: rest := by
  obtain ⟨replaced, next, ⟨_, _, kept, _⟩, reached⟩ := sessionStanding_at h parts
  obtain ⟨call, reply⟩ := exchange
  dsimp only at opens
  subst opens
  have after := reached.next.history_eq
  rw [Host.answer_openToken opened] at after
  obtain ⟨c, replaced', next', same⟩ := ((kept.2 slot.mechanisms).1 met).1
  rw [same] at after
  obtain ⟨rest, called⟩ := history_from_call (host.answer maxSessions options)
    (start ++ [⟨.openToken, .ok slot.mechanisms⟩]) (.token c) replaced' next'
  rw [called] at after
  exact ⟨c, _, rest, _, after.symm⟩

structure NamesToken (options : ResolvedOptions) (operation : ProviderOperation) (uri : KeyUri)
    (token : JsString) : Prop where
  resolved : ∃ reference, operation.reference? = some reference ∧ resolveKeyUri options reference = .ok uri
  token : uri.token = some token

theorem NamesToken.touches {uri : KeyUri} {token : JsString} (named : NamesToken options operation uri token) :
    Touches (fun mechanisms => validateOptions options = .ok () ∧ operation.Searches base64 uri mechanisms)
      false false (operation.program base64 sha256 options) := by
  obtain ⟨reference, keyed, resolved⟩ := named.resolved
  exact touches_operation keyed resolved

variable {uri : KeyUri} {token : JsString}

theorem honoured_of_selects (named : NamesToken options operation uri token)
    (selected : ∀ past, SelectsNamed base64 maxSessions options operation uri token (host.around past)) :
    TokenHonoured base64 sha256 maxSessions options host operation token := by
  constructor
  · intro earlier exchange later parts touches
    obtain ⟨start, slot, began, opened, valid, searched⟩ := served_session named.touches parts touches
    rw [Host.sessionToken_eq began opened]
    exact selected start valid slot (selected_iff.mpr opened) searched
  · intro untouched
    cases result : outcome (host.answer maxSessions options) [] (operation.program base64 sha256 options) with
    | error failure => exact ⟨failure, rfl⟩
    | ok a =>
      obtain ⟨exchange, mem, touches⟩ := touched_of_ok named.touches result
      rw [untouched exchange mem] at touches
      cases touches

section serving

def servingHost (around : Surroundings) : Host where
  around _ := around
  token _ _ := .error (encryptError [])
  software _ c :=
    match c with
    | .peerPoint _ _ => .ok ([] : Bytes)
    | _ => .error (encryptError [])

def OpensFirst (p : ProviderProgram α) : Prop := ∃ replaced next, p = .call .openToken replaced next

variable {β : Type} (valid : validateOptions options = .ok ())

theorem opens_bind {p : ProviderProgram α} {f : α → ProviderProgram β} (h : OpensFirst p) : OpensFirst (p >>= f) := by
  obtain ⟨replaced, next, rfl⟩ := h
  exact ⟨replaced, _, rfl⟩

theorem lift_ok (a : α) (f : α → ProviderProgram β) : lift (.ok a) >>= f = f a := rfl

include valid

theorem opens_onToken {operation : List Nat → TokenProgram α} : OpensFirst (onToken options operation) := by
  unfold onToken
  rw [valid]
  exact ⟨_, _, rfl⟩

theorem opens_fetching {reference : JsString} (resolved : resolveKeyUri options reference = .ok uri)
    {f : JsString → ProviderProgram β} :
    OpensFirst (fetchVerificationKey base64 options reference >>= f) := by
  unfold fetchVerificationKey
  rw [resolved]
  exact opens_bind (opens_onToken valid)

theorem operation_opens {reference : JsString} (keyed : operation.reference? = some reference)
    (resolved : resolveKeyUri options reference = .ok uri) {mechanisms : List Nat}
    (searched : operation.Searches base64 uri mechanisms) (around : Surroundings) :
    ∃ start reply later, (servingHost around).calls base64 sha256 maxSessions options operation =
      start ++ ⟨.openToken, reply⟩ :: later := by
  have routed : routesToToken options reference = true := by
    by_contra unrouted
    obtain ⟨failure, failed⟩ := resolveKeyUri_of_unrouted (Bool.eq_false_of_not_eq_true unrouted)
    cases resolved.symm.trans failed
  have first : ∀ {γ : Type} {p : ProviderProgram γ}, OpensFirst p → ∀ past, ∃ reply later,
      history ((servingHost around).answer maxSessions options) past p =
        past ++ ⟨.openToken, reply⟩ :: later := by
    rintro γ p ⟨replaced, next, rfl⟩ past
    obtain ⟨later, whole⟩ := history_from_call ((servingHost around).answer maxSessions options) past
      .openToken replaced next
    exact ⟨_, later, whole⟩
  have routes : ∀ {γ : Type} {p q : ProviderProgram γ}, OpensFirst p →
      OpensFirst (if routesToToken options reference then p else q) := by
    intro γ p q h
    rwa [if_pos routed]
  cases operation with
  | encryptAES | decryptAES | rsaOaepDecode | hmac | signEd25519 | signRSAPSS | signRSAPKCS1v15SHA256 =>
    cases keyed
    exact ⟨[], first (routes (opens_onToken valid)) []⟩
  | rsaOaepEncode | ecdhEncode | verifyEd25519 | verifyRSAPSS | verifyRSAPKCS1v15SHA256 =>
    cases keyed
    exact ⟨[], first (routes (opens_fetching valid resolved)) []⟩
  | rotateKey | deactivateKey =>
    cases keyed
    exact ⟨[], first (opens_onToken valid) []⟩
  | getKey =>
    cases keyed
    exact ⟨[], first (opens_bind (opens_onToken valid)) []⟩
  | ecdhDecode key cipherText =>
    cases keyed
    obtain ⟨⟨payload, encodedKey, spki, curve, encodedNonce, nonce, encodedText, ciphertext, h₁, h₂, h₃,
      h₄, h₅, h₆, h₇, h₈⟩, _⟩ := searched
    have program : ProviderOperation.program base64 sha256 options (.ecdhDecode reference cipherText) =
        ecdhDecodeOnToken base64 options reference cipherText := if_pos routed
    unfold Host.calls
    rw [program]
    simp only [ecdhDecodeOnToken, resolved, lift_ok, h₁, h₂, h₃, h₄, h₅, h₆, h₇, h₈]
    exact ⟨[⟨.software (.peerPoint spki curve), .ok ([] : Bytes)⟩],
      first (opens_bind (opens_onToken valid)) _⟩
  | generateSymmetricKeys | generateRSAKeys | generateECDHCurveKeys | generateEd25519Keys | sha256Hex
  | blake3 => cases keyed

end serving

/-- An operation keeps to the token that its URI names, whatever the token and the software answer, exactly
when in all surroundings that it may meet the slot that the options select holds that token, if it gets to
search there. Where the caches and listings are true, that is so when the options name the token. -/
theorem token_honoured_iff (named : NamesToken options operation uri token) (possible : Surroundings → Prop) :
    ((∀ host : Host, (∀ past, possible (host.around past)) →
        TokenHonoured base64 sha256 maxSessions options host operation token) ↔
      ∀ around, possible around → SelectsNamed base64 maxSessions options operation uri token around) ∧
    ∀ around, Truthful options around →
      (SelectsNamed base64 maxSessions options operation uri token around ↔
        (validateOptions options = .ok () → (∃ slot, Selected maxSessions options around slot ∧
          operation.Searches base64 uri slot.mechanisms) → OptionsName options around token)) := by
  refine ⟨⟨fun honoured around possibly valid slot selected searched => ?_, fun selects host possibly =>
    honoured_of_selects named fun past => selects _ (possibly past)⟩, fun around truthful => ?_⟩
  · obtain ⟨reference, keyed, resolved⟩ := named.resolved
    obtain ⟨start, reply, later, parts⟩ := operation_opens valid keyed resolved searched around
    have opened : withSession maxSessions options ((servingHost around).around start) = .ok slot :=
      selected_iff.mp selected
    obtain ⟨c, reply, rest, reply', whole⟩ := session_serves named.touches parts rfl opened
      ⟨valid, searched⟩
    have placed := (honoured (servingHost around) fun _ => possibly).placed _ ⟨.token c, reply'⟩ rest whole rfl
    rwa [Host.sessionToken_eq (sessionStart_opened start reply) opened] at placed
  · exact ⟨fun selects valid ⟨slot, selected, searched⟩ =>
      (truthful.names_iff selected).mp (selects valid slot selected searched),
      fun named valid slot selected searched =>
        (truthful.names_iff selected).mpr (named valid ⟨slot, selected, searched⟩)⟩

end hosts

def hmacHost : Host where
  around _ :=
    { entry := .ok { slots := [] },
      listed := .ok [{ id := 0, tokenLabel := js "hsm", tokenPresent := true, maxSessions := 0 }],
      mechanisms := fun _ => .ok [Mechanism.Sha256Hmac],
      admitted := fun _ => .ok (),
      tokenIn := fun id => if id = 0 then some (js "hsm") else none }
  token _ c :=
    match c with
    | .findObjects _ => .ok ([7] : List Nat)
    | .sign _ _ _ _ => .ok ([1, 2] : Bytes)
    | _ => .error (pkcs11Error (js "pkcs11: C_Function: CKR_GENERAL_ERROR"))
  software _ _ := .error (encryptError [])

theorem own_token_honoured : TokenHonoured plainBase64 id 8 sealedOptions hmacHost
    (.hmac (js "pkcs11:token=hsm;object=k") (js "m")) (js "hsm") := by
  have resolved : resolveKeyUri sealedOptions (js "pkcs11:token=hsm;object=k") =
      .ok { token := some (js "hsm"), object := some (js "k") } := rfl
  refine (token_honoured_iff ⟨⟨_, rfl, resolved⟩, rfl⟩ (· = hmacHost.around [])).1.mpr ?_ hmacHost
    fun _ => rfl
  rintro around rfl _ slot selected _
  cases selected_iff.mp selected
  rfl

/-- A key of the token that the options select signs for a URI that names another. -/
theorem other_token_serves :
    NamesToken sealedOptions (.hmac (js "pkcs11:token=spare;object=k") (js "m"))
        { token := some (js "spare"), object := some (js "k") } (js "spare") ∧
      outcome (hmacHost.answer 8 sealedOptions) [] (ProviderOperation.program plainBase64 id sealedOptions
        (.hmac (js "pkcs11:token=spare;object=k") (js "m"))) = .ok (plainBase64.encode [1, 2]) ∧
      ¬TokenHonoured plainBase64 id 8 sealedOptions hmacHost
        (.hmac (js "pkcs11:token=spare;object=k") (js "m")) (js "spare") := by
  have resolved : resolveKeyUri sealedOptions (js "pkcs11:token=spare;object=k") =
      .ok { token := some (js "spare"), object := some (js "k") } := rfl
  refine ⟨⟨⟨_, rfl, resolved⟩, rfl⟩, rfl, fun honoured => ?_⟩
  have held := honoured.placed [⟨.openToken, .ok [Mechanism.Sha256Hmac]⟩] _ _ rfl rfl
  cases held

end ForgeDeno
