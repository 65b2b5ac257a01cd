import ForgeDeno.KeyConfinement

namespace ForgeDeno

open CallProgram

/-- The derived handles that are there after an exchange: `deriveKey` adds the handle it returned,
`destroyObject` takes one away. There is no such list once a handle that is not there is destroyed. -/
def handlesAfter (live : List Nat) : TokenExchange → Option (List Nat)
  | ⟨.deriveKey _ _ _ _, .ok handle⟩ => some (handle :: live)
  | ⟨.destroyObject handle, _⟩ => if handle ∈ live then some (live.erase handle) else none
  | _ => some live

def leftBehind (exchanges : List TokenExchange) : Option (List Nat) :=
  exchanges.foldl (fun live exchange => live.bind fun live => handlesAfter live exchange) (some [])

theorem leftBehind_append (past : List TokenExchange) (exchange : TokenExchange) :
    leftBehind (past ++ [exchange]) = (leftBehind past).bind fun live => handlesAfter live exchange := by
  unfold leftBehind
  rw [List.foldl_append]
  rfl

def Settles {α : Type} (p : TokenProgram α) : Prop := ∀ past live, leftBehind past = some live →
  Meets (fun _ _ => True) (fun later _ => leftBehind later = some live) past p

def TokenCall.neutral : TokenCall → Bool
  | .deriveKey _ _ _ _ => false
  | .destroyObject _ => false
  | _ => true

section rules

variable {α β : Type}

theorem Settles.done (outcome : Except TokenFailure α) : Settles (.done outcome : TokenProgram α) :=
  fun _ _ known => known

theorem Settles.pure (a : α) : Settles (Pure.pure a : TokenProgram α) := Settles.done (.ok a)

theorem handlesAfter_neutral {c : TokenCall} (h : c.neutral = true) (live : List Nat)
    (reply : Except TokenFailure c.Reply) : handlesAfter live ⟨c, reply⟩ = some live := by
  cases c with
  | deriveKey => cases h
  | destroyObject => cases h
  | _ => rfl

theorem Settles.request {c : TokenCall} (h : c.neutral = true) : Settles (Token.request c) := by
  intro past live known
  apply Meets.ask trivial
  intro reply
  show leftBehind _ = _
  rw [leftBehind_append, known, Option.bind_some, handlesAfter_neutral h]

theorem Settles.bind {p : TokenProgram α} {f : α → TokenProgram β} (first : Settles p)
    (rest : ∀ a, Settles (f a)) : Settles (p >>= f) := by
  intro past live known
  apply Meets.bind
  apply (first past live known).weaken
  intro later outcome _ settled
  cases outcome with
  | ok a => exact rest a later live settled
  | error e => exact settled

theorem Settles.handle {p : TokenProgram α} {handler : TokenFailure → Option (TokenProgram α)}
    (first : Settles p) (rest : ∀ e q, handler e = some q → Settles q) : Settles (p.handle handler) := by
  intro past live known
  apply Meets.handle
  apply (first past live known).weaken
  intro later outcome _ settled
  cases outcome with
  | ok a => exact settled
  | error e =>
    cases taken : handler e with
    | none =>
      dsimp only
      rw [taken]
      exact settled
    | some q =>
      dsimp only
      rw [taken]
      exact rest e q taken later live settled

theorem Settles.given {x : Except TokenFailure α} {f : α → TokenProgram β} (rest : ∀ a, Settles (f a)) :
    Settles (Token.lift x >>= f) := (Settles.done x).bind rest

theorem leftBehind_destroyed {past : List TokenExchange} {handle : Nat} {live : List Nat}
    (known : leftBehind past = some (handle :: live)) (reply : Except TokenFailure Unit) :
    leftBehind (past ++ [⟨.destroyObject handle, reply⟩]) = some live := by
  rw [leftBehind_append, known]
  show (if handle ∈ handle :: live then some ((handle :: live).erase handle) else none) = some live
  rw [if_pos List.mem_cons_self, List.erase_cons_head]

theorem Settles.derived {mechanism base : Nat} {params : MechanismParams} {template : List Attribute}
    {body : Nat → TokenProgram α} (uses : ∀ handle, Settles (body handle)) :
    Settles (Token.deriveKey mechanism params base template >>= fun handle =>
      (body handle).andFinally (destroyQuietly handle)) := by
  intro past live known
  apply Meets.bind
  refine ⟨trivial, fun reply => ?_⟩
  cases reply with
  | error e =>
    show leftBehind _ = _
    rw [leftBehind_append, known]
    rfl
  | ok handle =>
    have made : leftBehind (past ++ [⟨.deriveKey mechanism (some params) base template, .ok handle⟩]) =
        some (handle :: live) := by
      rw [leftBehind_append, known]
      rfl
    apply Meets.andFinally
    apply (uses handle _ _ made).weaken
    intro later outcome _ settled
    -- whatever `destroyObject` answers, the handle has been given to it
    have ends := congrArg (Meets (fun _ _ => True) (fun later _ => leftBehind later = some live) later)
      (destroyQuietly_bind handle outcome)
    exact ends.mpr ⟨trivial, fun reply => leftBehind_destroyed settled reply⟩

end rules

theorem settles_decryptWithDerived (secretHandle : Nat) (info nonce ciphertext : Bytes) :
    Settles (decryptWithDerived secretHandle info nonce ciphertext) :=
  Settles.derived fun _ => Settles.request rfl

theorem settles_inHardware (privateKey : Nat) (peerPoint info nonce ciphertext : Bytes) :
    Settles (decryptEcdhInHardware privateKey peerPoint info nonce ciphertext) :=
  Settles.derived fun handle => settles_decryptWithDerived handle info nonce ciphertext

theorem settles_readSecret (handle : Nat) : Settles (readSecret handle) := by
  apply Settles.bind (Settles.request rfl)
  intro attributes
  split
  · exact Settles.done _
  · exact Settles.pure _

theorem settles_extractable (privateKey : Nat) (peerPoint : Bytes) :
    Settles (deriveExtractableSecret privateKey peerPoint) := Settles.derived settles_readSecret

theorem settles_findObject (uri : KeyUri) (objectClass : Option ObjectClass) :
    Settles (findObject uri objectClass) := by
  apply Settles.given
  intro template
  apply Settles.bind (Settles.request rfl)
  intro handles
  exact Settles.done _

theorem settles_resolveObject (uri : KeyUri) (fallback : ObjectClass) : Settles (resolveObject uri fallback) := by
  unfold resolveObject
  split
  · exact settles_findObject uri _
  · apply Settles.handle (settles_findObject uri _)
    intro e q taken
    cases taken
    exact settles_findObject uri none

theorem settles_requireMechanism (mechanisms : List Nat) (mechanism : Nat) :
    Settles (requireMechanism mechanisms mechanism) := by
  unfold requireMechanism
  split
  · exact Settles.pure _
  · exact Settles.done _

theorem settles_ecdhDecode (options : ResolvedOptions) (mechanisms : List Nat) (uri : KeyUri)
    (peerPoint info nonce ciphertext : Bytes) :
    Settles (ecdhDecode options mechanisms uri peerPoint info nonce ciphertext) := by
  unfold ecdhDecode
  apply Settles.bind (settles_requireMechanism mechanisms _)
  intro _
  apply Settles.bind (settles_resolveObject uri _)
  intro privateKey
  have extracted : Settles (do
      let secret ← deriveExtractableSecret privateKey peerPoint
      return EcdhOutcome.shared secret : TokenProgram EcdhOutcome) :=
    (settles_extractable privateKey peerPoint).bind fun _ => Settles.pure _
  dsimp only
  split
  · apply Settles.handle
    · exact (settles_inHardware privateKey peerPoint info nonce ciphertext).bind fun _ => Settles.pure _
    · intro e q taken
      split at taken
      · cases taken
        exact extracted
      · cases taken
  · split
    · exact extracted
    · exact Settles.done _

/-- Against every token, each handle that `deriveKey` returned is destroyed once before the operation
is over. -/
theorem ecdhDecode_leaves_nothing (answer : Answers TokenCall TokenCall.Reply TokenFailure)
    (options : ResolvedOptions) (mechanisms : List Nat) (uri : KeyUri) (peerPoint info nonce ciphertext : Bytes) :
    leftBehind (history answer [] (ecdhDecode options mechanisms uri peerPoint info nonce ciphertext)) =
      some [] :=
  (settles_ecdhDecode options mechanisms uri peerPoint info nonce ciphertext [] [] rfl).against

end ForgeDeno
