import ForgeDeno.NativeHandles
import ForgeDeno.SessionCore
import ForgeDeno.TokenRouting

namespace ForgeDeno

open CallProgram Pkcs11Provider List

structure ModuleEntry where
  slots : List (JsString × SlotState)

/-- What a call of `withSession` finds: the entry that `acquireModule` gives if the signal has not
aborted, the answers of the module's `slots(true)` and `mechanisms`, and whether `pool.acquire` and
`login` succeed on a slot. `tokenIn` is the label of the token that is in a slot. -/
structure Surroundings where
  entry : Except TokenFailure ModuleEntry
  listed : Except TokenFailure (List SlotInfo)
  mechanisms : Nat → Except TokenFailure (List Nat)
  admitted : Nat → Except TokenFailure Unit
  tokenIn : Nat → Option JsString

def slotIdText (options : ResolvedOptions) : JsString :=
  match options.slotId with
  | some id => JsonText.naturalText id
  | none => js "undefined"

/-- The key of a slot in `entry.slots`. -/
def slotSelector (options : ResolvedOptions) : JsString :=
  if options.tokenLabel ≠ [] then js "label:" ++ options.tokenLabel
  else js "slot:" ++ slotIdText options

def selects (options : ResolvedOptions) (slot : SlotInfo) : Bool :=
  if options.tokenLabel ≠ [] then slot.tokenLabel = options.tokenLabel
  else options.slotId = some slot.id

def noToken (options : ResolvedOptions) : TokenFailure :=
  pkcs11Error
    (if options.tokenLabel ≠ [] then
      js "pkcs11: no token with label " ++ JsonText.quote options.tokenLabel
    else js "pkcs11: no token in slot " ++ slotIdText options)

section resolving

variable (maxSessions : Nat) (options : ResolvedOptions)

/-- The slot, and the entry with it; a slot that is not found is not kept. `maxSessions` is the bound of
the options. -/
def resolveSlot (around : Surroundings) (entry : ModuleEntry) :
    Except TokenFailure (SlotState × ModuleEntry) := do
  match entry.slots.lookup (slotSelector options) with
  | some cached => return (cached, entry)
  | none =>
    let slots ← around.listed
    match slots.find? (selects options) with
    | none => throw (noToken options)
    | some found =>
      let mechanisms ← around.mechanisms found.id
      let slot := SlotState.new found.id mechanisms (sessionBound maxSessions found.maxSessions)
      return (slot, { slots := (slotSelector options, slot) :: entry.slots })

def withSession (around : Surroundings) : Except TokenFailure SlotState := do
  let entry ← around.entry
  let (slot, _) ← resolveSlot maxSessions options around entry
  around.admitted slot.id
  return slot

/-- The options select this slot and a session opens on it: it is the one that the entry keeps under their
selector, or else the first listed one with their label or id. -/
def Selected (around : Surroundings) (slot : SlotState) : Prop :=
  ∃ entry, around.entry = .ok entry ∧ around.admitted slot.id = .ok () ∧
    (entry.slots.lookup (slotSelector options) = some slot ∨
      (entry.slots.lookup (slotSelector options) = none ∧ ∃ slots found mechanisms,
        around.listed = .ok slots ∧ slots.find? (selects options) = some found ∧
          around.mechanisms found.id = .ok mechanisms ∧
          slot = .new found.id mechanisms (sessionBound maxSessions found.maxSessions)))

variable {maxSessions options} {around : Surroundings} {slot : SlotState}

theorem selected_iff : Selected maxSessions options around slot ↔
    withSession maxSessions options around = .ok slot := by
  unfold Selected withSession resolveSlot
  cases around.entry with
  | error failure => exact ⟨fun ⟨_, same, _⟩ => (by cases same), fun same => by cases same⟩
  | ok entry =>
    have admits : ∀ chosen : SlotState, around.admitted slot.id = .ok () ∧ slot = chosen ↔
        (do around.admitted chosen.id; pure chosen) = Except.ok slot := by
      intro chosen
      constructor
      · rintro ⟨admitted, rfl⟩
        rw [admitted]
        rfl
      · intro opened
        cases admitted : around.admitted chosen.id with
        | error failure =>
          rw [admitted] at opened
          cases opened
        | ok _ =>
          rw [admitted] at opened
          cases opened
          exact ⟨admitted, rfl⟩
    simp only [Except.ok.injEq, exists_eq_left', Bind.bind, Except.bind, Pure.pure, Except.pure]
    cases entry.slots.lookup (slotSelector options) with
    | some cached =>
      refine Iff.trans ?_ (admits cached)
      simp [eq_comm]
    | none =>
      cases around.listed with
      | error failure => simp
      | ok slots =>
        cases first : slots.find? (selects options) with
        | none => simp [first]
        | some found =>
          cases answered : around.mechanisms found.id with
          | error failure => simp [first, answered]
          | ok mechanisms =>
            simp only [first, answered]
            refine Iff.trans ?_ (admits (.new found.id mechanisms _))
            simp [first, answered]

/-- The cached slots are those of their selectors, and the listed ones hold the tokens they are listed
with. -/
structure Truthful (options : ResolvedOptions) (around : Surroundings) : Prop where
  cached : ∀ entry slot, around.entry = .ok entry → entry.slots.lookup (slotSelector options) = some slot →
    if options.tokenLabel ≠ [] then around.tokenIn slot.id = some options.tokenLabel
    else options.slotId = some slot.id
  listed : ∀ slots, around.listed = .ok slots → ∀ slot ∈ slots, around.tokenIn slot.id = some slot.tokenLabel

/-- The label in the options is this one, or the slot of their id holds the token with it. -/
def OptionsName (options : ResolvedOptions) (around : Surroundings) (token : JsString) : Prop :=
  if options.tokenLabel ≠ [] then options.tokenLabel = token
  else ∀ id, options.slotId = some id → around.tokenIn id = some token

theorem Truthful.names_iff (h : Truthful options around) (selected : Selected maxSessions options around slot)
    {token : JsString} : around.tokenIn slot.id = some token ↔ OptionsName options around token := by
  have holds : if options.tokenLabel ≠ [] then around.tokenIn slot.id = some options.tokenLabel
      else options.slotId = some slot.id := by
    obtain ⟨entry, kept, _, cached | ⟨_, slots, found, _, listed, first, _, rfl⟩⟩ := selected
    · exact h.cached entry slot kept cached
    · have label := h.listed slots listed found (mem_of_find?_eq_some first)
      have chosen := find?_some first
      unfold selects at chosen
      split at chosen
      next named => exact (if_pos named).mpr (label.trans (congrArg some (of_decide_eq_true chosen)))
      next unnamed => exact (if_neg unnamed).mpr (of_decide_eq_true chosen)
  unfold OptionsName
  split at holds
  next named => rw [if_pos named, holds, Option.some_inj]
  next unnamed =>
    rw [if_neg unnamed, holds]
    simp

end resolving

/-- What a provider runs against. The surroundings may be others at every call, and the token and the
software answer as they like. -/
structure Host where
  around : List ProviderExchange → Surroundings
  token : List ProviderExchange → (c : TokenCall) → Except TokenFailure c.Reply
  software : List ProviderExchange → (c : SoftwareCall) → Except TokenFailure c.Reply

def ProviderCall.touches : ProviderCall → Bool
  | .token _ => true
  | _ => false

def beforeSession : List ProviderExchange → Option (List ProviderExchange)
  | [] => none
  | ⟨.openToken, _⟩ :: before => some before.reverse
  | _ :: before => beforeSession before

def sessionStart (past : List ProviderExchange) : Option (List ProviderExchange) :=
  beforeSession past.reverse

theorem sessionStart_opened (start : List ProviderExchange) (reply : Except TokenFailure (List Nat)) :
    sessionStart (start ++ [⟨.openToken, reply⟩]) = some start := by
  unfold sessionStart
  rw [reverse_append]
  show some start.reverse.reverse = some start
  rw [reverse_reverse]

theorem sessionStart_other (past : List ProviderExchange) {exchange : ProviderExchange}
    (other : exchange.call ≠ .openToken) : sessionStart (past ++ [exchange]) = sessionStart past := by
  unfold sessionStart
  rw [reverse_append]
  obtain ⟨call, reply⟩ := exchange
  cases call with
  | openToken => exact absurd rfl other
  | token c => rfl
  | software c => rfl

namespace Host

variable (host : Host) (maxSessions : Nat) (options : ResolvedOptions)

def answer : Answers ProviderCall ProviderCall.Reply TokenFailure
  | past, .openToken =>
    (withSession maxSessions options (host.around past)).map SlotState.mechanisms
  | past, .token c => host.token past c
  | past, .software c => host.software past c

def sessionToken (past : List ProviderExchange) : Option JsString := do
  let start ← sessionStart past
  let slot ← (withSession maxSessions options (host.around start)).toOption
  (host.around start).tokenIn slot.id

variable {host maxSessions options}

theorem sessionToken_eq {past start : List ProviderExchange} {slot : SlotState}
    (began : sessionStart past = some start)
    (opened : withSession maxSessions options (host.around start) = .ok slot) :
    host.sessionToken maxSessions options past = (host.around start).tokenIn slot.id := by
  unfold sessionToken
  rw [began]
  show ((withSession maxSessions options (host.around start)).toOption >>= _) = _
  rw [opened]
  rfl

theorem answer_openToken {past : List ProviderExchange} {slot : SlotState}
    (opened : withSession maxSessions options (host.around past) = .ok slot) :
    host.answer maxSessions options past .openToken = .ok slot.mechanisms := by
  show (withSession maxSessions options (host.around past)).map SlotState.mechanisms = _
  rw [opened]
  rfl

end Host

end ForgeDeno
