import ForgeDeno.BigintNumbers
import ForgeDeno.GeneratedKeys

namespace ForgeDeno

open CallProgram JsNumber AttributeType Mechanism List

inductive KeyKind where
  | aes (bytes : Nat) (valid : bytes = 16 ∨ bytes = 24 ∨ bytes = 32)
  | rsa (bits : Nat) (positive : 0 < bits) (ulong : bits < 2 ^ 64)
  | ec (params : Bytes)
  | ed25519 (params : Bytes)

namespace KeyKind

def keyType : KeyKind → Nat
  | .aes _ _ => KeyType.Aes
  | .rsa _ _ _ => KeyType.Rsa
  | .ec _ => KeyType.Ec
  | .ed25519 _ => KeyType.EcEdwards

def mechanism : KeyKind → Nat
  | .aes _ _ => Mechanism.AesKeyGen
  | .rsa _ _ _ => Mechanism.RsaPkcsKeyPairGen
  | .ec _ => Mechanism.EcKeyPairGen
  | .ed25519 _ => Mechanism.EcEdwardsKeyPairGen

def sizeAttribute : KeyKind → Nat
  | .aes _ _ => AttributeType.ValueLen
  | .rsa _ _ _ => AttributeType.ModulusBits
  | .ec _ | .ed25519 _ => AttributeType.EcParams

def size : KeyKind → Bytes
  | .aes bytes _ => littleEndian 8 bytes
  | .rsa bits _ _ => littleEndian 8 bits
  | .ec params | .ed25519 params => params

def sizedClass : KeyKind → ObjectClass
  | .aes _ _ => .secretKey
  | _ => .publicKey

def tellsSize : KeyKind → ObjectClass → Bool
  | .rsa _ _ _, objectClass => objectClass = .publicKey
  | _, _ => true

def carried (kind : KeyKind) (objectClass : ObjectClass) (type : Nat) : Option Bytes :=
  if type = AttributeType.KeyType then some (littleEndian 8 kind.keyType)
  else if type = kind.sizeAttribute ∧ kind.tellsSize objectClass = true then some kind.size
  else none

end KeyKind

def Describes (kind : KeyKind) (objectClass : ObjectClass) (attributes : List Attribute) : Prop :=
  ∀ type ∈ [AttributeType.KeyType, AttributeType.ValueLen, AttributeType.ModulusBits,
    AttributeType.EcParams], findAttribute attributes type = kind.carried objectClass type

instance (kind : KeyKind) (objectClass : ObjectClass) (attributes : List Attribute) :
    Decidable (Describes kind objectClass attributes) :=
  inferInstanceAs (Decidable (∀ type ∈ [_, _, _, _], _ = _))

def TokenCall.Makes (c : TokenCall) (kind : KeyKind) : Prop :=
  ∃ object ∈ c.objects, object.mechanism = kind.mechanism ∧ object.objectClass = kind.sizedClass ∧
    findAttribute object.template kind.sizeAttribute = some kind.size

abbrev TokenDefaults := Nat → ObjectClass → Nat → Option Bytes

def MadeObject.usage (defaults : TokenDefaults) (object : MadeObject) : List (Option Bytes) :=
  DEACTIVATABLE_ATTRIBUTES.map fun type =>
    (findAttribute object.template type).or (defaults object.mechanism object.objectClass type)

def TokenCall.usage (defaults : TokenDefaults) (c : TokenCall) : List (List (Option Bytes)) :=
  c.objects.map (MadeObject.usage defaults)

/-- A generated key that can stand in for a key of this kind, made by the `origin` if there is one. -/
def Equivalent (defaults : TokenDefaults) (kind : KeyKind) (origin : Option TokenCall) (c : TokenCall) : Prop :=
  c.Makes kind ∧ ∀ first ∈ origin, c.usage defaults = first.usage defaults

inductive KeyGenerator where
  | symmetric (id : Bytes) (label : JsString) (size : Nat)
  | rsa (id : Bytes) (label : JsString) (size : Nat)
  | ecdh (id : Bytes) (label : JsString) (curve : Nat)
  | ed25519 (id : Bytes) (label : JsString)

def KeyGenerator.program (base64 : Base64) (mechanisms : List Nat) : KeyGenerator → TokenProgram KeyData
  | .symmetric id label size => generateSymmetricKeys mechanisms id label size
  | .rsa id label size => generateRSAKeys base64 mechanisms id label size
  | .ecdh id label curve => generateECDHCurveKeys base64 mechanisms id label curve
  | .ed25519 id label => generateEd25519Keys base64 mechanisms id label

def GeneratedHere (c : TokenCall) : Prop :=
  ∃ base64 mechanisms answer generator,
    c ∈ generated (history answer [] (KeyGenerator.program base64 mechanisms generator))

def SizeKept : KeyKind → ObjectClass → Prop
  | .rsa bits _ _, objectClass => if objectClass = .publicKey then Exact bits else bits = 2048
  | _, _ => True

def UsageKept (defaults : TokenDefaults) : KeyKind → Prop
  | .aes _ _ => True
  | .rsa _ _ _ =>
    defaults Mechanism.RsaPkcsKeyPairGen .publicKey AttributeType.Wrap = some [1] ∧
      defaults Mechanism.RsaPkcsKeyPairGen .privateKey AttributeType.Unwrap = some [1]
  | .ec _ => defaults Mechanism.EcKeyPairGen .privateKey AttributeType.Sign = some [0]
  | .ed25519 _ =>
    defaults Mechanism.EcEdwardsKeyPairGen .publicKey AttributeType.Verify = some [1] ∧
      defaults Mechanism.EcEdwardsKeyPairGen .privateKey AttributeType.Derive = some [0]

section replaced

variable {attributes : List Attribute} {kind : KeyKind} {objectClass : ObjectClass} (label : JsString)
  (id : Bytes)

theorem Describes.keyType (described : Describes kind objectClass attributes) :
    findAttribute attributes AttributeType.KeyType = some (littleEndian 8 kind.keyType) := by
  rw [described _ mem_cons_self]
  exact if_pos rfl

theorem Describes.size (described : Describes kind objectClass attributes) :
    findAttribute attributes kind.sizeAttribute =
      if kind.tellsSize objectClass = true then some kind.size else none := by
  have member : kind.sizeAttribute ∈ [KeyType, ValueLen,
      ModulusBits, EcParams] ∧
      kind.sizeAttribute ≠ KeyType := by
    cases kind <;> (dsimp only [KeyKind.sizeAttribute]; decide)
  rw [described _ member.1]
  unfold KeyKind.carried
  rw [if_neg member.2]
  simp only [true_and]

def KeyKind.replacedBy (attributes : List Attribute) (label : JsString) (id : Bytes) : KeyKind → TokenCall
  | .aes _ _ => aesReplacement attributes label id
  | .rsa _ _ _ => rsaReplacement attributes label id
  | .ec params => ecReplacement label id params false
  | .ed25519 params => ecReplacement label id params true

theorem ulongValue_keyType (kind : KeyKind) : ulongValue (littleEndian 8 kind.keyType) = some kind.keyType := by
  have small : kind.keyType < 2 ^ 53 := by
    cases kind <;> (dsimp only [KeyKind.keyType]; decide)
  have range : kind.keyType < 2 ^ 64 := by omega
  rw [ulongValue_littleEndian range, numberOfBigint_exact (exact_of_lt small) range]

theorem replacement_described (described : Describes kind objectClass attributes) :
    replacement attributes label id = some (kind.mechanism, kind.replacedBy attributes label id) := by
  have sized := described.size
  unfold replacement
  rw [described.keyType, Option.bind_some, ulongValue_keyType]
  cases kind with
  | aes bytes valid | rsa bits positive ulong => rfl
  | ec params =>
    have told : findAttribute attributes EcParams = some params := sized
    show Option.map _ (findAttribute attributes EcParams) = _
    rw [told]
    rfl
  | ed25519 params =>
    have told : findAttribute attributes EcParams = some params := sized
    show Option.map _ (findAttribute attributes EcParams) = _
    rw [told]
    rfl

theorem rsa_size {bits : Nat} {positive : 0 < bits} {ulong : bits < 2 ^ 64}
    (described : Describes (.rsa bits positive ulong) objectClass attributes) :
    littleEndian 8 (sizeOr (findAttribute attributes AttributeType.ModulusBits) 2048) =
      littleEndian 8 bits ↔ SizeKept (.rsa bits positive ulong) objectClass := by
  have sized := described.size
  rw [littleEndian_inj ulong]
  unfold SizeKept
  dsimp only
  by_cases half : objectClass = .publicKey
  · have told : findAttribute attributes ModulusBits = some (littleEndian 8 bits) := by
      rw [half] at sized
      exact sized
    rw [told, if_pos half]
    unfold sizeOr
    rw [Option.bind_some, ulongValue_littleEndian ulong]
    dsimp only
    by_cases nonzero : 0 < numberOfBigint bits
    · rw [if_pos nonzero]
      exact numberOfBigint_mod_iff ulong
    · rw [if_neg nonzero]
      constructor
      · intro same
        exact exact_of_lt (by omega)
      · intro held
        rw [numberOfBigint_exact held ulong] at nonzero
        exact absurd positive nonzero
  · have told : findAttribute attributes ModulusBits = none := by
      unfold KeyKind.tellsSize at sized
      rw [if_neg (by simpa using half)] at sized
      exact sized
    rw [told, if_neg half]
    constructor
    · intro same
      exact same.symm
    · intro same
      exact same.symm

theorem aes_size {bytes : Nat} {valid : bytes = 16 ∨ bytes = 24 ∨ bytes = 32}
    (described : Describes (.aes bytes valid) objectClass attributes) :
    sizeOr (findAttribute attributes AttributeType.ValueLen) 32 = bytes := by
  have sized : findAttribute attributes ValueLen = some (littleEndian 8 bytes) :=
    described.size
  have range : bytes < 2 ^ 64 := by omega
  rw [sized]
  unfold sizeOr
  rw [Option.bind_some, ulongValue_littleEndian range, numberOfBigint_exact (exact_of_lt (by omega)) range]
  dsimp only
  rw [if_pos (by omega)]

theorem replaced_makes_iff (described : Describes kind objectClass attributes) :
    (kind.replacedBy attributes label id).Makes kind ↔ SizeKept kind objectClass := by
  unfold TokenCall.Makes
  cases kind with
  | aes bytes valid =>
    have made : findAttribute (aesKeyTemplate label id
        (sizeOr (findAttribute attributes ValueLen) 32)) ValueLen =
        some (littleEndian 8 bytes) := by
      rw [aes_size described]
      rfl
    constructor
    · exact fun _ => trivial
    · exact fun _ => ⟨_, mem_cons_self, rfl, rfl, made⟩
  | rsa bits positive ulong =>
    rw [← rsa_size described]
    constructor
    · intro ⟨object, mem, _, half, made⟩
      rcases mem_pair.mp mem with same | same
      · rw [same] at made
        exact Option.some.inj made
      · rw [same] at half
        cases half
    · intro same
      have made : some (littleEndian 8 (sizeOr (findAttribute attributes ModulusBits) 2048)) =
          some (littleEndian 8 bits) := by rw [same]
      exact ⟨_, mem_cons_self, rfl, rfl, made⟩
  | ec params =>
    constructor
    · exact fun _ => trivial
    · exact fun _ => ⟨_, mem_cons_self, rfl, rfl, rfl⟩
  | ed25519 params =>
    constructor
    · exact fun _ => trivial
    · exact fun _ => ⟨_, mem_cons_self, rfl, rfl, rfl⟩

end replaced

section generators

def rsaGeneration (label : JsString) (id : Bytes) (modulusBits : Nat) : TokenCall :=
  .generateKeyPair Mechanism.RsaPkcsKeyPairGen
    (publicKeyTemplate label id ++
      [ulongAttribute AttributeType.ModulusBits modulusBits,
        bytesAttribute AttributeType.PublicExponent RSA_PUBLIC_EXPONENT,
        boolAttribute AttributeType.Encrypt true, boolAttribute AttributeType.Verify true,
        boolAttribute AttributeType.Wrap true])
    (tokenKeyTemplate label id ++
      [boolAttribute AttributeType.Decrypt true, boolAttribute AttributeType.Sign true,
        boolAttribute AttributeType.Unwrap true])

def ecdhGeneration (label : JsString) (id ecParams : Bytes) : TokenCall :=
  .generateKeyPair Mechanism.EcKeyPairGen
    (publicKeyTemplate label id ++ [bytesAttribute AttributeType.EcParams ecParams])
    (tokenKeyTemplate label id ++ [boolAttribute AttributeType.Derive true])

def ed25519Generation (label : JsString) (id : Bytes) : TokenCall :=
  .generateKeyPair Mechanism.EcEdwardsKeyPairGen
    (publicKeyTemplate label id ++
      [bytesAttribute AttributeType.EcParams ((EC_PARAMS.lookup (js "Ed25519")).getD []),
        boolAttribute AttributeType.Verify true])
    (tokenKeyTemplate label id ++ [boolAttribute AttributeType.Sign true])

section made

variable {α β : Type} {answer : TokenAnswers} {mechanisms : List Nat} {mechanism : Nat}

theorem made_guarded {call : TokenCall} {f : call.Reply → TokenProgram α} (makes : call.generates = true)
    (rest : ∀ reply, NoKeyMade (f reply)) {c : TokenCall} (made : c ∈ generated (history answer []
      (requireMechanism mechanisms mechanism >>= fun _ => Token.request call >>= f))) : c = call := by
  rw [generated_guarded makes rest] at made
  split at made
  · exact mem_singleton.mp made
  · cases made

theorem made_checked {x : Except TokenFailure β} (call : β → TokenCall)
    {f : (a : β) → (call a).Reply → TokenProgram α} (makes : ∀ a, (call a).generates = true)
    (rest : ∀ a reply, NoKeyMade (f a reply)) {c : TokenCall}
    (made : c ∈ generated (history answer [] (Token.lift x >>= fun a =>
      requireMechanism mechanisms mechanism >>= fun _ => Token.request (call a) >>= f a))) : ∃ a, c = call a := by
  cases x with
  | error e => cases made
  | ok a => exact ⟨a, made_guarded (makes a) (rest a) made⟩

end made

theorem GeneratedHere.forms {c : TokenCall} (here : GeneratedHere c) : ∃ label id,
    (∃ valueLen, c = .generateKey Mechanism.AesKeyGen (aesKeyTemplate label id valueLen)) ∨
    (∃ modulusBits, c = rsaGeneration label id modulusBits) ∨
    (∃ ecParams, c = ecdhGeneration label id ecParams) ∨ c = ed25519Generation label id := by
  obtain ⟨base64, mechanisms, answer, generator, made⟩ := here
  cases generator with
  | symmetric id label size =>
    refine ⟨label, id, .inl ?_⟩
    exact made_checked (fun valueLen => .generateKey AesKeyGen (aesKeyTemplate label id valueLen))
      (fun _ => rfl) (fun _ _ => NoKeyMade.done _) made
  | rsa id label size =>
    refine ⟨label, id, .inr (.inl ?_)⟩
    exact made_checked (rsaGeneration label id) (fun _ => rfl) (fun _ _ => noKeyMade_describePair _ _ _ _ _) made
  | ecdh id label curve =>
    refine ⟨label, id, .inr (.inr (.inl ?_))⟩
    exact made_checked (ecdhGeneration label id) (fun _ => rfl) (fun _ _ => noKeyMade_describePair _ _ _ _ _) made
  | ed25519 id label =>
    refine ⟨label, id, .inr (.inr (.inr ?_))⟩
    exact made_guarded rfl (fun _ => noKeyMade_describePair _ _ _ _ _) made

theorem makes_key {mechanism : Nat} {template : List Attribute} {kind : KeyKind}
    (makes : (TokenCall.generateKey mechanism template).Makes kind) : mechanism = kind.mechanism := by
  obtain ⟨object, mem, same, _⟩ := makes
  rw [mem_singleton.mp mem] at same
  exact same

theorem makes_pair {mechanism : Nat} {publicTemplate privateTemplate : List Attribute} {kind : KeyKind}
    (makes : (TokenCall.generateKeyPair mechanism publicTemplate privateTemplate).Makes kind) :
    mechanism = kind.mechanism := by
  obtain ⟨object, mem, same, _⟩ := makes
  rcases mem_pair.mp mem with first | second
  · rw [first] at same
    exact same
  · rw [second] at same
    exact same

section usages

variable (defaults : TokenDefaults) (attributes : List Attribute) (label : JsString) (id : Bytes)

theorem usage_rsaGeneration (modulusBits : Nat) :
    (rsaGeneration label id modulusBits).usage defaults =
      let left := defaults RsaPkcsKeyPairGen
      [[some [1], left .publicKey Decrypt, left .publicKey Sign, some [1],
          some [1], left .publicKey Unwrap, left .publicKey Derive],
        [left .privateKey Encrypt, some [1], some [1],
          left .privateKey Verify, left .privateKey Wrap, some [1],
          left .privateKey Derive]] := rfl

theorem usage_rsaReplacement :
    (rsaReplacement attributes label id).usage defaults =
      let left := defaults RsaPkcsKeyPairGen
      [[some [1], left .publicKey Decrypt, left .publicKey Sign, some [1],
          left .publicKey Wrap, left .publicKey Unwrap,
          left .publicKey Derive],
        [left .privateKey Encrypt, some [1], some [1],
          left .privateKey Verify, left .privateKey Wrap,
          left .privateKey Unwrap, left .privateKey Derive]] := rfl

theorem usage_ecdhGeneration (ecParams : Bytes) :
    (ecdhGeneration label id ecParams).usage defaults =
      let left := defaults EcKeyPairGen
      [DEACTIVATABLE_ATTRIBUTES.map (left .publicKey),
        [left .privateKey Encrypt, left .privateKey Decrypt,
          left .privateKey Sign, left .privateKey Verify,
          left .privateKey Wrap, left .privateKey Unwrap, some [1]]] := rfl

theorem usage_ed25519Generation :
    (ed25519Generation label id).usage defaults =
      let left := defaults EcEdwardsKeyPairGen
      [[left .publicKey Encrypt, left .publicKey Decrypt,
          left .publicKey Sign, some [1], left .publicKey Wrap,
          left .publicKey Unwrap, left .publicKey Derive],
        [left .privateKey Encrypt, left .privateKey Decrypt, some [1],
          left .privateKey Verify, left .privateKey Wrap,
          left .privateKey Unwrap, left .privateKey Derive]] := rfl

theorem usage_ecReplacement (ecParams : Bytes) (edwards : Bool) :
    (ecReplacement label id ecParams edwards).usage defaults =
      let left := defaults (ecMechanism edwards)
      [DEACTIVATABLE_ATTRIBUTES.map (left .publicKey),
        [left .privateKey Encrypt, left .privateKey Decrypt,
          some [if edwards then 1 else 0], left .privateKey Verify,
          left .privateKey Wrap, left .privateKey Unwrap,
          some [if !edwards then 1 else 0]]] := rfl

end usages

theorem usage_replaced_iff (defaults : TokenDefaults) {kind : KeyKind} {first : TokenCall}
    (here : GeneratedHere first) (makes : first.Makes kind) (attributes : List Attribute)
    (label : JsString) (id : Bytes) :
    (kind.replacedBy attributes label id).usage defaults = first.usage defaults ↔ UsageKept defaults kind := by
  obtain ⟨label', id', ⟨valueLen, rfl⟩ | ⟨modulusBits, rfl⟩ | ⟨ecParams, rfl⟩ | rfl⟩ := here.forms
  · have mechanism := makes_key makes
    cases kind with
    | aes bytes valid =>
      constructor
      · exact fun _ => trivial
      · exact fun _ => rfl
    | rsa | ec | ed25519 => cases mechanism
  · have mechanism := makes_pair makes
    cases kind with
    | rsa bits positive ulong =>
      have replaced := usage_rsaReplacement defaults attributes label id
      have made := usage_rsaGeneration defaults label' id' modulusBits
      unfold KeyKind.replacedBy UsageKept
      rw [replaced, made]
      simp
    | aes | ec | ed25519 => cases mechanism
  · have mechanism := makes_pair makes
    cases kind with
    | ec params =>
      have replaced := usage_ecReplacement defaults label id params false
      have made := usage_ecdhGeneration defaults label' id' ecParams
      unfold KeyKind.replacedBy UsageKept
      rw [replaced, made]
      simp only [ecMechanism, Bool.false_eq_true, if_false, Bool.not_false, if_true, List.cons.injEq,
        and_true, true_and]
      exact eq_comm
    | aes | rsa | ed25519 => cases mechanism
  · have mechanism := makes_pair makes
    cases kind with
    | ed25519 params =>
      have replaced := usage_ecReplacement defaults label id params true
      have made := usage_ed25519Generation defaults label' id'
      unfold KeyKind.replacedBy UsageKept
      rw [replaced, made]
      simp only [ecMechanism, if_true, DEACTIVATABLE_ATTRIBUTES, List.map_cons, List.map_nil, Bool.not_true,
        Bool.false_eq_true, if_false, List.cons.injEq, and_true, true_and]
      exact and_congr_right fun _ => eq_comm
    | aes | rsa | ec => cases mechanism

end generators

section rotation

variable (base64 : Base64) {options : ResolvedOptions} (mechanisms : List Nat) {answer : TokenAnswers}
  {keyId : JsString} {uri : KeyUri} {handle : Nat} {attributes : List Attribute} {kind : KeyKind}
  {objectClass : ObjectClass} (id : Bytes) (now : Nat) (uid : Option JsString)

theorem rotated_mem (named : resolveKeyUri options keyId = .ok uri)
    (resolved : outcome answer [] (resolveObject uri .privateKey) = .ok handle)
    (described : answer (history answer [] (resolveObject uri .privateKey))
      (.getAttributes handle ROTATED_ATTRIBUTES) = .ok attributes)
    (tells : Describes kind objectClass attributes) (c : TokenCall) :
    c ∈ generated (history answer [] (rotateKey base64 options mechanisms id now keyId uid)) ↔
      kind.mechanism ∈ mechanisms ∧ c = kind.replacedBy attributes
        (newObjectLabel now (rotationLabelBase attributes uri) uid) id := by
  rw [generated_rotateKey base64 options mechanisms named resolved described,
    replacement_described _ id tells, available_mem]
  constructor
  · intro ⟨mechanism, there, same⟩
    cases same
    exact ⟨there, rfl⟩
  · intro ⟨there, same⟩
    exact ⟨kind.mechanism, there, by rw [same]⟩

/-- A rotation generates an equivalent key exactly if the object that the reference resolves to tells
the size, and the token itself adds the usage that the templates differ in. -/
theorem rotation_equivalent_iff (named : resolveKeyUri options keyId = .ok uri)
    (resolved : outcome answer [] (resolveObject uri .privateKey) = .ok handle)
    (described : answer (history answer [] (resolveObject uri .privateKey))
      (.getAttributes handle ROTATED_ATTRIBUTES) = .ok attributes)
    (tells : Describes kind objectClass attributes) (defaults : TokenDefaults) (origin : Option TokenCall)
    (created : ∀ first ∈ origin, GeneratedHere first ∧ first.Makes kind) :
    (∀ c ∈ generated (history answer [] (rotateKey base64 options mechanisms id now keyId uid)),
      Equivalent defaults kind origin c) ↔ (kind.mechanism ∈ mechanisms →
      SizeKept kind objectClass ∧ (origin ≠ none → UsageKept defaults kind)) := by
  simp only [rotated_mem base64 mechanisms id now uid named resolved described tells]
  have usage : ∀ label, (∀ first ∈ origin,
      (kind.replacedBy attributes label id).usage defaults = first.usage defaults) ↔
      (origin ≠ none → UsageKept defaults kind) := by
    intro label
    cases origin with
    | none => simp
    | some first =>
      obtain ⟨here, makes⟩ := created first rfl
      have iff := usage_replaced_iff defaults here makes attributes label id
      simp [iff]
  constructor
  · intro equivalent there
    obtain ⟨makes, same⟩ := equivalent _ ⟨there, rfl⟩
    exact ⟨(replaced_makes_iff _ id tells).mp makes, (usage _).mp same⟩
  · intro kept c ⟨there, same⟩
    obtain ⟨size, used⟩ := kept there
    rw [same]
    exact ⟨(replaced_makes_iff _ id tells).mpr size, (usage _).mpr used⟩

end rotation

def singleKeyToken (attributes : List Attribute) : TokenAnswers
  | _, .findObjects _ => .ok ([7] : List Nat)
  | _, .getAttributes _ _ => .ok attributes
  | _, .generateKey _ _ => .ok (8 : Nat)
  | _, _ => .error (pkcs11Error (js "pkcs11: not here"))

def onlyKeyUri : KeyUri := { object := some (js "a") }

theorem only_key_named : resolveKeyUri sealedOptions (js "pkcs11:object=a") = .ok onlyKeyUri := by
  decide

def shortKind : KeyKind := .aes 16 (Or.inl rfl)

def shortKeyAttributes : List Attribute :=
  [ulongAttribute AttributeType.KeyType KeyType.Aes, textAttribute AttributeType.Label (js "a"),
    ulongAttribute AttributeType.ValueLen 16]

/-- A 128-bit key of `generateSymmetricKeys` is rotated into another one. -/
theorem short_key_rotated : Describes shortKind .secretKey shortKeyAttributes ∧
    ∀ c ∈ generated (history (singleKeyToken shortKeyAttributes) []
        (rotateKey plainBase64 sealedOptions [Mechanism.AesKeyGen] [1] 0 (js "pkcs11:object=a") none)),
      Equivalent (fun _ _ _ => none) shortKind
        (some (.generateKey Mechanism.AesKeyGen (aesKeyTemplate (js "a") [0] 16))) c := by
  have tells : Describes shortKind .secretKey shortKeyAttributes := by decide
  have here : GeneratedHere (.generateKey Mechanism.AesKeyGen (aesKeyTemplate (js "a") [0] 16)) :=
    ⟨plainBase64, [Mechanism.AesKeyGen], singleKeyToken [], .symmetric [0] (js "a") 16, List.mem_cons_self⟩
  have makes : TokenCall.Makes
      (.generateKey Mechanism.AesKeyGen (aesKeyTemplate (js "a") [0] 16)) shortKind :=
    ⟨_, List.mem_cons_self, rfl, rfl, rfl⟩
  refine ⟨tells, ?_⟩
  apply (rotation_equivalent_iff plainBase64 [Mechanism.AesKeyGen] [1] 0 none only_key_named rfl rfl tells
    (fun _ _ _ => none) (some (.generateKey Mechanism.AesKeyGen (aesKeyTemplate (js "a") [0] 16)))
    (fun first same => by cases same; exact ⟨here, makes⟩)).mpr
  exact fun _ => ⟨trivial, fun _ => trivial⟩

def longRsaKind : KeyKind := .rsa 3072 (by decide) (by decide)

def longRsaAttributes : List Attribute :=
  [ulongAttribute AttributeType.Class 0x00000003, ulongAttribute AttributeType.KeyType KeyType.Rsa,
    textAttribute AttributeType.Label (js "a")]

/-- A reference to the private half has a 3072-bit key replaced by one of 2048 bits. -/
theorem long_rsa_key_shrinks : Describes longRsaKind .privateKey longRsaAttributes ∧
    ∃ c ∈ generated (history (singleKeyToken longRsaAttributes) []
        (rotateKey plainBase64 sealedOptions [Mechanism.RsaPkcsKeyPairGen] [1] 0
          (js "pkcs11:object=a") none)),
      ¬c.Makes longRsaKind := by
  have tells : Describes longRsaKind .privateKey longRsaAttributes := by decide
  have shrunk : ¬SizeKept longRsaKind .privateKey := by
    intro same
    exact absurd (show 3072 = 2048 from same) (by decide)
  refine ⟨tells, longRsaKind.replacedBy longRsaAttributes (newObjectLabel 0
    (rotationLabelBase longRsaAttributes onlyKeyUri) none) [1], ?_, ?_⟩
  · exact (rotated_mem plainBase64 [Mechanism.RsaPkcsKeyPairGen] [1] 0 none only_key_named rfl rfl tells _).mpr
      ⟨List.mem_cons_self, rfl⟩
  · intro makes
    exact shrunk ((replaced_makes_iff _ [1] tells).mp makes)

end ForgeDeno
