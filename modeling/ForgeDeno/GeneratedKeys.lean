import ForgeDeno.KeyConfinement

namespace ForgeDeno

open CallProgram List

abbrev TokenAnswers := Answers TokenCall TokenCall.Reply TokenFailure

def TokenCall.generates : TokenCall → Bool
  | .generateKey _ _ => true
  | .generateKeyPair _ _ _ => true
  | _ => false

structure MadeObject where
  mechanism : Nat
  objectClass : ObjectClass
  template : List Attribute

def TokenCall.objects : TokenCall → List MadeObject
  | .generateKey mechanism template => [⟨mechanism, .secretKey, template⟩]
  | .generateKeyPair mechanism publicTemplate privateTemplate =>
    [⟨mechanism, .publicKey, publicTemplate⟩, ⟨mechanism, .privateKey, privateTemplate⟩]
  | _ => []

def generated (exchanges : List TokenExchange) : List TokenCall :=
  (exchanges.map Exchange.call).filter TokenCall.generates

theorem generated_append (first second : List TokenExchange) :
    generated (first ++ second) = generated first ++ generated second := by
  unfold generated
  rw [map_append, filter_append]

def NoKeyMade {α : Type} (p : TokenProgram α) : Prop := Keeps (fun _ c => c.generates = false) p

section unmade

variable {α : Type} {answer : TokenAnswers} {past : List TokenExchange}

theorem generated_none {p : TokenProgram α} (h : NoKeyMade p) :
    generated (history answer past p) = generated past := by
  have all : ∀ past, Meets (fun _ c => c.generates = false) (fun _ _ => True) past p →
      generated (history answer past p) = generated past := by
    clear h
    induction p with
    | done x => exact fun _ _ => rfl
    | call c replaced next ih =>
      intro past h
      have later := ih (answer past c) _ (h.2 _)
      have one : generated [(⟨c, answer past c⟩ : TokenExchange)] = [] := by
        unfold generated
        rw [map_singleton, filter_singleton, h.1]
        rfl
      have whole : generated (past ++ [⟨c, answer past c⟩]) = generated past := by
        rw [generated_append, one, append_nil]
      exact later.trans whole
  exact all past (h past)

theorem NoKeyMade.request {c : TokenCall} (h : c.generates = false) : NoKeyMade (Token.request c) :=
  Keeps.ask fun _ => h

theorem NoKeyMade.done (x : Except TokenFailure α) : NoKeyMade (.done x : TokenProgram α) := Keeps.done x

theorem noKeyMade_of_plain {p : TokenProgram α} (h : Keeps (fun _ c => c.plain = true) p) : NoKeyMade p := by
  apply h.imp
  intro _ c plain
  cases c with
  | generateKey => cases plain
  | generateKeyPair => cases plain
  | _ => rfl

theorem noKeyMade_describePair (label : JsString) (id : Bytes) (publicHandle : Nat) (types : List Nat)
    (publicKeyFrom : List Attribute → Except TokenFailure JsString) :
    NoKeyMade (describePair label id publicHandle types publicKeyFrom) := by
  apply Keeps.bind (NoKeyMade.request rfl)
  intro attributes
  apply Keeps.bind (NoKeyMade.done _)
  intro publicKey
  exact NoKeyMade.done _

theorem noKeyMade_disableObject (handle : Nat) : NoKeyMade (disableObject handle) := by
  apply Keeps.bind (NoKeyMade.request rfl)
  intro present
  dsimp only
  split
  · exact NoKeyMade.done _
  · exact NoKeyMade.request rfl

theorem lift_ok_bind {β : Type} (a : β) (f : β → TokenProgram α) : (Token.lift (.ok a) >>= f) = f a := rfl

theorem generated_bind_ok {β : Type} {p : TokenProgram β} {a : β} {f : β → TokenProgram α}
    (h : outcome answer past p = .ok a) : generated (history answer past (p >>= f)) =
      generated (history answer (history answer past p) (f a)) := by
  rw [history_bind, h]

theorem generated_make {c : TokenCall} (makes : c.generates = true) {f : c.Reply → TokenProgram α}
    (rest : ∀ reply, NoKeyMade (f reply)) :
    generated (history answer past (Token.request c >>= f)) = generated past ++ [c] := by
  have one : ∀ reply, generated (past ++ [(⟨c, reply⟩ : TokenExchange)]) = generated past ++ [c] := by
    intro reply
    rw [generated_append]
    unfold generated
    rw [map_singleton, filter_singleton, makes]
    rfl
  unfold Token.request
  rw [history_bind, outcome_ask, history_ask]
  cases answer past c with
  | ok reply => exact (generated_none (rest reply)).trans (one _)
  | error e => exact one _

theorem generated_guarded {mechanisms : List Nat} {mechanism : Nat} {c : TokenCall}
    (makes : c.generates = true) {f : c.Reply → TokenProgram α} (rest : ∀ reply, NoKeyMade (f reply)) :
    generated (history answer past (requireMechanism mechanisms mechanism >>= fun _ =>
      Token.request c >>= f)) = generated past ++ if mechanism ∈ mechanisms then [c] else [] := by
  unfold requireMechanism
  rw [history_bind]
  by_cases there : mechanism ∈ mechanisms
  · rw [if_pos there, if_pos there]
    exact generated_make makes rest
  · rw [if_neg there, if_neg there, append_nil]
    rfl

end unmade

section replacement

variable (base64 : Base64) (mechanisms : List Nat) (attributes : List Attribute) (label : JsString)
  (id : Bytes) {answer : TokenAnswers} {past : List TokenExchange}

/-- The call of `generateReplacement` for an AES key. -/
def aesReplacement : TokenCall :=
  .generateKey Mechanism.AesKeyGen
    (aesKeyTemplate label id (sizeOr (findAttribute attributes AttributeType.ValueLen) 32))

/-- The call of `generateReplacement` for an RSA key. -/
def rsaReplacement : TokenCall :=
  .generateKeyPair Mechanism.RsaPkcsKeyPairGen
    (publicKeyTemplate label id ++
      [ulongAttribute AttributeType.ModulusBits
          (sizeOr (findAttribute attributes AttributeType.ModulusBits) 2048),
        bytesAttribute AttributeType.PublicExponent RSA_PUBLIC_EXPONENT,
        boolAttribute AttributeType.Encrypt true, boolAttribute AttributeType.Verify true])
    (tokenKeyTemplate label id ++
      [boolAttribute AttributeType.Decrypt true, boolAttribute AttributeType.Sign true])

def ecMechanism (edwards : Bool) : Nat :=
  if edwards then Mechanism.EcEdwardsKeyPairGen else Mechanism.EcKeyPairGen

/-- The call of `generateReplacement` for a key on a curve. -/
def ecReplacement (ecParams : Bytes) (edwards : Bool) : TokenCall :=
  .generateKeyPair (ecMechanism edwards)
    (publicKeyTemplate label id ++ [bytesAttribute AttributeType.EcParams ecParams])
    (tokenKeyTemplate label id ++
      [boolAttribute AttributeType.Derive (!edwards), boolAttribute AttributeType.Sign edwards])

theorem generated_replaceAes : generated (history answer past (replaceAes mechanisms attributes label id)) =
    generated past ++ if Mechanism.AesKeyGen ∈ mechanisms then [aesReplacement attributes label id] else [] :=
  generated_guarded rfl fun _ => NoKeyMade.done _

theorem generated_replaceRsa :
    generated (history answer past (replaceRsa base64 mechanisms attributes label id)) =
      generated past ++ if Mechanism.RsaPkcsKeyPairGen ∈ mechanisms
        then [rsaReplacement attributes label id] else [] :=
  generated_guarded rfl fun _ => noKeyMade_describePair _ _ _ _ _

theorem generated_replaceEc {ecParams : Bytes} (edwards : Bool)
    (there : findAttribute attributes AttributeType.EcParams = some ecParams) :
    generated (history answer past (replaceEc base64 mechanisms attributes label id edwards)) =
      generated past ++ if ecMechanism edwards ∈ mechanisms
        then [ecReplacement label id ecParams edwards] else [] := by
  unfold replaceEc attributeOr
  rw [there]
  exact generated_guarded rfl fun _ => noKeyMade_describePair _ _ _ _ _

/-- What `generateReplacement` generates of what is described: one call, by the key type. -/
def replacement (attributes : List Attribute) (label : JsString) (id : Bytes) : Option (Nat × TokenCall) :=
  match (findAttribute attributes AttributeType.KeyType).bind ulongValue with
  | none => none
  | some decoded =>
    if decoded = KeyType.Aes then some (Mechanism.AesKeyGen, aesReplacement attributes label id)
    else if decoded = KeyType.Rsa then
      some (Mechanism.RsaPkcsKeyPairGen, rsaReplacement attributes label id)
    else if decoded = KeyType.Ec ∨ decoded = KeyType.EcEdwards then
      (findAttribute attributes AttributeType.EcParams).map fun ecParams =>
        (ecMechanism (decoded = KeyType.EcEdwards), ecReplacement label id ecParams (decoded = KeyType.EcEdwards))
    else none

def available : Option (Nat × TokenCall) → List TokenCall
  | none => []
  | some (mechanism, c) => if mechanism ∈ mechanisms then [c] else []

theorem available_mem {made : Option (Nat × TokenCall)} {c : TokenCall} :
    c ∈ available mechanisms made ↔ ∃ mechanism ∈ mechanisms, made = some (mechanism, c) := by
  cases made with
  | none =>
    constructor
    · intro mem
      cases mem
    · intro ⟨_, _, same⟩
      cases same
  | some made =>
    obtain ⟨mechanism, call⟩ := made
    unfold available
    dsimp only
    by_cases there : mechanism ∈ mechanisms
    · rw [if_pos there, mem_singleton]
      constructor
      · intro same
        exact ⟨mechanism, there, by rw [same]⟩
      · intro ⟨_, _, same⟩
        cases same
        rfl
    · rw [if_neg there]
      constructor
      · intro mem
        cases mem
      · intro ⟨other, present, same⟩
        cases same
        exact absurd present there

theorem generated_replacement :
    generated (history answer past (generateReplacement base64 mechanisms attributes label id)) =
      generated past ++ available mechanisms (replacement attributes label id) := by
  unfold generateReplacement replacement attributeOr
  cases findAttribute attributes AttributeType.KeyType with
  | none => exact (append_nil _).symm
  | some rawType =>
    simp only [lift_ok_bind, Option.bind_some]
    cases ulongValue rawType with
    | none => exact (append_nil _).symm
    | some decoded =>
      dsimp only
      split
      · exact generated_replaceAes mechanisms attributes label id
      · split
        · exact generated_replaceRsa base64 mechanisms attributes label id
        · split
          · cases there : findAttribute attributes AttributeType.EcParams with
            | none =>
              unfold replaceEc attributeOr
              rw [there]
              exact (append_nil _).symm
            | some ecParams => exact generated_replaceEc base64 mechanisms attributes label id _ there
          · exact (append_nil _).symm

end replacement

section rotation

variable (base64 : Base64) (options : ResolvedOptions) (mechanisms : List Nat) {answer : TokenAnswers}
  {keyId : JsString} {uri : KeyUri} {handle : Nat} {attributes : List Attribute}

/-- What `rotateKey` reads of the key. -/
def ROTATED_ATTRIBUTES : List Nat :=
  [AttributeType.Class, AttributeType.KeyType, AttributeType.Label, AttributeType.ValueLen,
    AttributeType.ModulusBits, AttributeType.EcParams]

theorem generated_rotateKey (named : resolveKeyUri options keyId = .ok uri)
    (resolved : outcome answer [] (resolveObject uri .privateKey) = .ok handle)
    (described : answer (history answer [] (resolveObject uri .privateKey))
      (.getAttributes handle ROTATED_ATTRIBUTES) = .ok attributes)
    (id : Bytes) (now : Nat) (uid : Option JsString) :
    generated (history answer [] (rotateKey base64 options mechanisms id now keyId uid)) = available mechanisms
        (replacement attributes (newObjectLabel now (rotationLabelBase attributes uri) uid) id) := by
  have searched : generated (history answer [] (resolveObject uri .privateKey)) = [] :=
    generated_none (noKeyMade_of_plain (plain_resolveObject uri .privateKey))
  have read : generated (history answer (history answer [] (resolveObject uri .privateKey))
      (Token.getAttributes handle ROTATED_ATTRIBUTES)) = [] :=
    (generated_none (NoKeyMade.request rfl)).trans searched
  have told : outcome answer (history answer [] (resolveObject uri .privateKey))
      (Token.getAttributes handle ROTATED_ATTRIBUTES) = .ok attributes := described
  have replaced : generated (history answer (history answer
      (history answer [] (resolveObject uri .privateKey)) (Token.getAttributes handle ROTATED_ATTRIBUTES))
      (generateReplacement base64 mechanisms attributes
        (newObjectLabel now (rotationLabelBase attributes uri) uid) id)) = _ :=
    generated_replacement base64 mechanisms attributes _ id
  rw [read, nil_append] at replaced
  unfold rotateKey
  rw [named, lift_ok_bind, generated_bind_ok resolved]
  apply (generated_bind_ok told).trans
  rw [← replaced, history_bind]
  split
  next rotated _ =>
    apply generated_none
    split
    · exact Keeps.bind (noKeyMade_disableObject handle) fun _ => NoKeyMade.done _
    · exact NoKeyMade.done _
  next => rfl

end rotation

end ForgeDeno
