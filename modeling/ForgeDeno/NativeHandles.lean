import ForgeDeno.AttributeReads
import Mathlib.Data.List.GetD

namespace ForgeDeno

open List

def ULONG_SIZE : Nat := 8

def FIND_BATCH : Nat := 32

def SLOT_FLAG_TOKEN_PRESENT : UInt64 := 0x00000001

namespace ReturnValue

def UserAlreadyLoggedIn : UInt64 := 0x00000100
def CryptokiAlreadyInitialized : UInt64 := 0x00000191

end ReturnValue

def CKR_NAMES : List (Nat × JsString) := [
  (0x00000001, js "CKR_CANCEL"),
  (0x00000002, js "CKR_HOST_MEMORY"),
  (0x00000003, js "CKR_SLOT_ID_INVALID"),
  (0x00000005, js "CKR_GENERAL_ERROR"),
  (0x00000006, js "CKR_FUNCTION_FAILED"),
  (0x00000007, js "CKR_ARGUMENTS_BAD"),
  (0x00000010, js "CKR_ATTRIBUTE_READ_ONLY"),
  (0x00000011, js "CKR_ATTRIBUTE_SENSITIVE"),
  (0x00000012, js "CKR_ATTRIBUTE_TYPE_INVALID"),
  (0x00000013, js "CKR_ATTRIBUTE_VALUE_INVALID"),
  (0x00000020, js "CKR_DATA_INVALID"),
  (0x00000021, js "CKR_DATA_LEN_RANGE"),
  (0x00000030, js "CKR_DEVICE_ERROR"),
  (0x00000031, js "CKR_DEVICE_MEMORY"),
  (0x00000032, js "CKR_DEVICE_REMOVED"),
  (0x00000040, js "CKR_ENCRYPTED_DATA_INVALID"),
  (0x00000041, js "CKR_ENCRYPTED_DATA_LEN_RANGE"),
  (0x00000060, js "CKR_KEY_HANDLE_INVALID"),
  (0x00000062, js "CKR_KEY_SIZE_RANGE"),
  (0x00000063, js "CKR_KEY_TYPE_INCONSISTENT"),
  (0x00000068, js "CKR_KEY_FUNCTION_NOT_PERMITTED"),
  (0x00000069, js "CKR_KEY_NOT_WRAPPABLE"),
  (0x0000006a, js "CKR_KEY_UNEXTRACTABLE"),
  (0x00000070, js "CKR_MECHANISM_INVALID"),
  (0x00000071, js "CKR_MECHANISM_PARAM_INVALID"),
  (0x00000082, js "CKR_OBJECT_HANDLE_INVALID"),
  (0x00000090, js "CKR_OPERATION_ACTIVE"),
  (0x00000091, js "CKR_OPERATION_NOT_INITIALIZED"),
  (0x000000a0, js "CKR_PIN_INCORRECT"),
  (0x000000a1, js "CKR_PIN_INVALID"),
  (0x000000a2, js "CKR_PIN_LEN_RANGE"),
  (0x000000a3, js "CKR_PIN_EXPIRED"),
  (0x000000a4, js "CKR_PIN_LOCKED"),
  (0x000000b0, js "CKR_SESSION_CLOSED"),
  (0x000000b1, js "CKR_SESSION_COUNT"),
  (0x000000b3, js "CKR_SESSION_HANDLE_INVALID"),
  (0x000000b5, js "CKR_SESSION_READ_ONLY"),
  (0x000000c0, js "CKR_SIGNATURE_INVALID"),
  (0x000000c1, js "CKR_SIGNATURE_LEN_RANGE"),
  (0x000000d0, js "CKR_TEMPLATE_INCOMPLETE"),
  (0x000000d1, js "CKR_TEMPLATE_INCONSISTENT"),
  (0x000000e0, js "CKR_TOKEN_NOT_PRESENT"),
  (0x000000e1, js "CKR_TOKEN_NOT_RECOGNIZED"),
  (0x000000e2, js "CKR_TOKEN_WRITE_PROTECTED"),
  (0x00000100, js "CKR_USER_ALREADY_LOGGED_IN"),
  (0x00000101, js "CKR_USER_NOT_LOGGED_IN"),
  (0x00000102, js "CKR_USER_PIN_NOT_INITIALIZED"),
  (0x00000103, js "CKR_USER_TYPE_INVALID"),
  (0x00000150, js "CKR_BUFFER_TOO_SMALL"),
  (0x00000190, js "CKR_CRYPTOKI_NOT_INITIALIZED"),
  (0x00000191, js "CKR_CRYPTOKI_ALREADY_INITIALIZED")]

/-- What is the engine's own: the longest array that it allocates, and `toString(16)` of a number from
`2 ^ 53` on. -/
structure Engine where
  limit : Nat
  hexadecimal : Nat → JsString

def Engine.codeText (engine : Engine) (code : Nat) : JsString :=
  let text := if code < 2 ^ 53 then (Nat.toDigits 16 code).map fun c => c.toUpper.toNat.toUInt16
    else engine.hexadecimal code
  List.replicate (8 - text.length) 0x30 ++ text

def returnValueName (engine : Engine) (code : Nat) : JsString :=
  (CKR_NAMES.lookup code).getD (js "CKR_0x" ++ engine.codeText code)

def tokenError (engine : Engine) (fn : JsString) (code : Nat) : TokenFailure :=
  { name := js "Pkcs11TokenError",
    message := js "pkcs11: " ++ fn ++ js " failed: " ++ returnValueName engine code,
    code := some code, ckr := some (returnValueName engine code) }

def readUlong (value : UInt64) : Nat := numberOfBigint value.toNat

/-- `BigInt(handle)` where the token takes a `CK_ULONG`. -/
def handleArgument (handle : Nat) : UInt64 := handle.toUInt64

/-- The answer of a call that writes one `CK_ULONG`. -/
structure UlongAnswer where
  code : UInt64
  value : UInt64

structure FillAnswer (α : Type) where
  code : UInt64
  written : List α
  length : UInt64

/-- The answers of `C_GetSlotInfo` and `C_GetTokenInfo` for one slot. -/
structure SlotAnswer where
  flags : UlongAnswer
  label : Bytes
  maxSessions : UlongAnswer

structure SlotInfo where
  id : Nat
  tokenLabel : JsString
  tokenPresent : Bool
  maxSessions : Nat

def trimmedText (bytes : Bytes) : JsString :=
  ((JsString.utf8Decode bytes).filter fun unit => unit ≠ 0).rdropWhile JsString.isWhiteSpace

namespace FfiModule

section methods

variable (engine : Engine)

def ok (code : UInt64) : Bool := readUlong code = ReturnValue.Ok.toNat

def check (fn : JsString) (code : UInt64) : Except TokenFailure Unit :=
  let value := readUlong code
  if value = ReturnValue.Ok.toNat then .ok () else .error (tokenError engine fn value)

def Allocates (size : Nat) : Prop := size ≤ engine.limit ∧ size < 2 ^ 53

instance (size : Nat) : Decidable (Allocates engine size) := inferInstanceAs (Decidable (_ ∧ _))

def alloc (size : Nat) : Except TokenFailure Unit :=
  if Allocates engine size then .ok () else .error (rangeError size)

/-- The buffer is counted in elements of `elementSize` bytes. -/
def twoPhase {α : Type} (zero : α) (name : JsString) (first : UlongAnswer) (second : FillAnswer α)
    (elementSize : Nat) : Except TokenFailure (List α) := do
  check engine name first.code
  let size := max (readUlong first.value * elementSize) 1
  alloc engine size
  check engine name second.code
  let out := second.written.take (size / elementSize) ++
    List.replicate (size / elementSize - second.written.length) zero
  return out.take (readUlong second.length)

def tolerating (fn : JsString) (tolerated code : UInt64) : Except TokenFailure Unit :=
  if ¬ok code ∧ readUlong code ≠ tolerated.toNat then check engine fn code else .ok ()

def initializeModule (code : UInt64) : Except TokenFailure Unit :=
  tolerating engine (js "C_Initialize") ReturnValue.CryptokiAlreadyInitialized code

def login (code : UInt64) : Except TokenFailure Unit :=
  tolerating engine (js "C_Login") ReturnValue.UserAlreadyLoggedIn code

def slotInfo (slot : UInt64) (answer : SlotAnswer) : SlotInfo :=
  let tokenPresent := ok answer.flags.code && answer.flags.value &&& SLOT_FLAG_TOKEN_PRESENT ≠ 0
  let maxSessions := answer.maxSessions.value
  if tokenPresent && ok answer.maxSessions.code then
    { id := readUlong slot, tokenLabel := trimmedText (answer.label.take 32), tokenPresent,
      maxSessions := if maxSessions = UNAVAILABLE_INFORMATION then 0 else readUlong maxSessions }
  else { id := readUlong slot, tokenLabel := [], tokenPresent, maxSessions := 0 }

/-- `infos` answers for the slots by their places in the list. -/
def slots (count : UlongAnswer) (ids : FillAnswer UInt64) (infos : Nat → SlotAnswer) :
    Except TokenFailure (List SlotInfo) := do
  check engine (js "C_GetSlotList") count.code
  let total := readUlong count.value
  if total = 0 then return []
  alloc engine (total * ULONG_SIZE)
  check engine (js "C_GetSlotList") ids.code
  return (List.range (min total (readUlong ids.length))).map fun index =>
    slotInfo (ids.written.getD index 0) (infos index)

def mechanisms (first : UlongAnswer) (second : FillAnswer UInt64) : Except TokenFailure (List Nat) := do
  let raw ← twoPhase engine 0 (js "C_GetMechanismList") first second ULONG_SIZE
  return raw.map readUlong

def newHandle (fn : JsString) (answer : UlongAnswer) : Except TokenFailure Nat := do
  check engine fn answer.code
  return readUlong answer.value

def openSession (answer : UlongAnswer) : Except TokenFailure Nat :=
  newHandle engine (js "C_OpenSession") answer

def generateKey (answer : UlongAnswer) : Except TokenFailure Nat :=
  newHandle engine (js "C_GenerateKey") answer

def deriveKey (answer : UlongAnswer) : Except TokenFailure Nat :=
  newHandle engine (js "C_DeriveKey") answer

def generateKeyPair (code publicHandle privateHandle : UInt64) : Except TokenFailure (Nat × Nat) := do
  check engine (js "C_GenerateKeyPair") code
  return (readUlong publicHandle, readUlong privateHandle)

def outOfBounds : TokenFailure :=
  { name := js "RangeError", message := js "Offset is outside the bounds of the DataView" }

/-- The loop over the answers of `C_FindObjects`; `batch` is its buffer, and there is no result while
the token has not answered to the end. -/
def findBatches (batch : List UInt64) (handles : List Nat) :
    List (FillAnswer UInt64) → Option (Except TokenFailure (List Nat))
  | [] => none
  | answer :: rest =>
    match check engine (js "C_FindObjects") answer.code with
    | .error e => some (.error e)
    | .ok () =>
      let batch := answer.written.take FIND_BATCH ++ batch.drop answer.written.length
      let found := readUlong answer.length
      if FIND_BATCH < found then some (.error outOfBounds)
      else
        let handles := handles ++ (batch.take found).map readUlong
        if found < FIND_BATCH then some (.ok handles) else findBatches batch handles rest

def findObjects (init : UInt64) (answers : List (FillAnswer UInt64)) : Option (Except TokenFailure (List Nat)) :=
  match check engine (js "C_FindObjectsInit") init with
  | .error e => some (.error e)
  | .ok () => findBatches engine (List.replicate FIND_BATCH 0) [] answers

end methods

/-- A use of the binding, with what the token answers in it; `checked` is a call that gives only its
code. -/
inductive NativeUse where
  | initializeModule (code : UInt64)
  | login (code : UInt64)
  | checked (fn : JsString) (code : UInt64)
  | slots (count : UlongAnswer) (ids : FillAnswer UInt64) (infos : Nat → SlotAnswer)
  | mechanisms (first : UlongAnswer) (second : FillAnswer UInt64)
  | openSession (answer : UlongAnswer)
  | findObjects (init : UInt64) (answers : List (FillAnswer UInt64))
  | generateKey (answer : UlongAnswer)
  | generateKeyPair (code publicHandle privateHandle : UInt64)
  | deriveKey (answer : UlongAnswer)
  | ulongValue (value : Bytes)
  | getAttributes (first : ValueCall) (types : List Nat)

section uses

variable (engine : Engine)

def NativeUse.numbers : NativeUse → Except TokenFailure (List Nat)
  | .initializeModule code => (FfiModule.initializeModule engine code).map fun _ => []
  | .login code => (FfiModule.login engine code).map fun _ => []
  | .checked fn code => (check engine fn code).map fun _ => []
  | .slots count ids infos =>
    (FfiModule.slots engine count ids infos).map fun infos =>
      infos.flatMap fun info => [info.id, info.maxSessions]
  | .mechanisms first second => FfiModule.mechanisms engine first second
  | .openSession answer => (FfiModule.openSession engine answer).map fun handle => [handle]
  | .findObjects init answers => (FfiModule.findObjects engine init answers).getD (.ok [])
  | .generateKey answer => (FfiModule.generateKey engine answer).map fun handle => [handle]
  | .generateKeyPair code publicHandle privateHandle =>
    (FfiModule.generateKeyPair engine code publicHandle privateHandle).map fun pair => [pair.1, pair.2]
  | .deriveKey answer => (FfiModule.deriveKey engine answer).map fun handle => [handle]
  | .ulongValue value => .ok (ForgeDeno.ulongValue value).toList
  | .getAttributes _ _ => .ok []

def reportedNumbers : Except TokenFailure (List Nat) → List Nat
  | .ok numbers => numbers
  | .error e => e.code.toList

def NativeUse.held (use : NativeUse) : List Nat := reportedNumbers (use.numbers engine)

/-- What a call has returned: its code where that is not `CKR_OK`. -/
def orCode (code : UInt64) (values : List UInt64) : List UInt64 :=
  if code = ReturnValue.Ok then values else [code]

def givenMaximum (answer : SlotAnswer) : UInt64 :=
  if answer.flags.code = ReturnValue.Ok ∧ answer.flags.value &&& SLOT_FLAG_TOKEN_PRESENT ≠ 0 ∧
      answer.maxSessions.code = ReturnValue.Ok ∧ answer.maxSessions.value ≠ UNAVAILABLE_INFORMATION then
    answer.maxSessions.value
  else 0

/-- The entries that the token gives in its second call, if there is room for as many as it has
announced. -/
def listed (size total : Nat) (second : FillAnswer UInt64) (entry : Nat → List UInt64) : List UInt64 :=
  if Allocates engine size then
    orCode second.code ((List.range (min total second.length.toNat)).flatMap entry)
  else []

def foundObjects (batch handles : List UInt64) : List (FillAnswer UInt64) → List UInt64
  | [] => []
  | answer :: rest =>
    let batch := answer.written.take FIND_BATCH ++ batch.drop answer.written.length
    let handles := handles ++ batch.take answer.length.toNat
    orCode answer.code
      (if FIND_BATCH < answer.length.toNat then []
      else if answer.length.toNat < FIND_BATCH then handles
      else foundObjects batch handles rest)

def NativeUse.returned : NativeUse → List UInt64
  | .initializeModule code =>
    if code = ReturnValue.CryptokiAlreadyInitialized then [] else orCode code []
  | .login code => if code = ReturnValue.UserAlreadyLoggedIn then [] else orCode code []
  | .checked _ code => orCode code []
  | .slots count ids infos =>
    orCode count.code
      (if count.value = 0 then []
      else listed engine (count.value.toNat * ULONG_SIZE) count.value.toNat ids fun index =>
        [ids.written.getD index 0, givenMaximum (infos index)])
  | .mechanisms first second =>
    orCode first.code
      (listed engine (max (first.value.toNat * ULONG_SIZE) 1) first.value.toNat second fun index =>
        [second.written.getD index 0])
  | .openSession answer => orCode answer.code [answer.value]
  | .findObjects init answers =>
    orCode init (foundObjects (List.replicate FIND_BATCH 0) [] answers)
  | .generateKey answer => orCode answer.code [answer.value]
  | .generateKeyPair code publicHandle privateHandle => orCode code [publicHandle, privateHandle]
  | .deriveKey answer => orCode answer.code [answer.value]
  | .ulongValue value => if value.length = 8 then [(ofLittleEndian value).toUInt64] else []
  | .getAttributes _ _ => []

/-- In a run the binding holds and reports the values that the token has returned, passes them back as
they were, and takes none for another. -/
structure HandlesKept (uses : List NativeUse) : Prop where
  same : ∀ use ∈ uses, use.held engine = (use.returned engine).map UInt64.toNat
  passed : ∀ use ∈ uses, (use.held engine).map handleArgument = use.returned engine
  written : ∀ use ∈ uses, ∀ type, (use.held engine).map (ulongAttribute type) =
    (use.returned engine).map fun value => ulongAttribute type value.toNat
  lengths : ∀ first types, .getAttributes first types ∈ uses → ∀ template,
    fill engine.limit first types = .ok template → ∀ (i : Nat) entry, template[i]? = some entry →
      ∃ asked, (sizes types)[i]? = some asked ∧ entry.length = lengthAfter asked ((first (sizes types)).at i)
  apart : ∀ use ∈ uses, ∀ use' ∈ uses, ∀ (i j : Nat) value value',
    (use.returned engine)[i]? = some value → (use'.returned engine)[j]? = some value' →
      (use.held engine)[i]? = (use'.held engine)[j]? → value = value'

end uses

section reading

variable {value : UInt64} {k : Nat}

theorem readUlong_lt_iff (value : UInt64) (small : k ≤ 2 ^ 53) : readUlong value < k ↔ value.toNat < k := by
  have range : value.toNat < 2 ^ 64 := value.toNat_lt
  unfold readUlong
  by_cases fits : value.toNat < 2 ^ 53
  · rw [numberOfBigint_exact (JsNumber.exact_of_lt fits) range]
  · have large := numberOfBigint_large (show 2 ^ 53 ≤ value.toNat by omega) range
    omega

theorem readUlong_eq_iff (small : k < 2 ^ 53) : readUlong value = k ↔ value.toNat = k := by
  have above := readUlong_lt_iff value (show k + 1 ≤ 2 ^ 53 by omega)
  have below := readUlong_lt_iff value (show k ≤ 2 ^ 53 by omega)
  omega

theorem readUlong_code {code : UInt64} (small : code.toNat < 2 ^ 53) :
    readUlong value = code.toNat ↔ value = code := by
  rw [readUlong_eq_iff small, UInt64.toNat_inj]

theorem readUlong_zero : readUlong 0 = 0 := numberOfBigint_zero

theorem readUlong_small (small : value.toNat < 2 ^ 53) : readUlong value = value.toNat :=
  numberOfBigint_exact (JsNumber.exact_of_lt small) value.toNat_lt

theorem min_readUlong (small : k ≤ 2 ^ 53) : min k (readUlong value) = min k value.toNat := by
  have below := readUlong_lt_iff value small
  by_cases fits : value.toNat < k
  · rw [readUlong_small (by omega)]
  · omega

theorem allocates_readUlong (engine : Engine) (value : UInt64) (low : Nat) :
    Allocates engine (max (readUlong value * ULONG_SIZE) low) ↔
      Allocates engine (max (value.toNat * ULONG_SIZE) low) := by
  by_cases fits : value.toNat < 2 ^ 50
  · rw [readUlong_small (by omega)]
  · have large := mt (readUlong_lt_iff value (show 2 ^ 50 ≤ 2 ^ 53 by decide)).mp fits
    unfold Allocates ULONG_SIZE
    omega

theorem readUlong_exact_iff : readUlong value = value.toNat ↔ JsNumber.Exact value.toNat := by
  constructor
  · intro same
    rw [← same]
    exact exact_numberOfBigint value.toNat
  · exact fun held => numberOfBigint_exact held value.toNat_lt

end reading

section held

variable {engine : Engine} {fn : JsString} {code : UInt64} {numbers : Except TokenFailure (List Nat)}
  {values : List UInt64}

theorem check_eq : check engine fn code =
    if code = ReturnValue.Ok then .ok () else .error (tokenError engine fn (readUlong code)) := by
  have passed : readUlong code = ReturnValue.Ok.toNat ↔ code = ReturnValue.Ok := readUlong_code (by decide)
  unfold check
  simp only [passed]

variable {rest : Unit → Except TokenFailure (List Nat)}

theorem reported_check
    (goes_on : reportedNumbers (rest ()) = values.map readUlong) :
    reportedNumbers (check engine fn code >>= rest) = (orCode code values).map readUlong := by
  rw [check_eq]
  unfold orCode
  by_cases passed : code = ReturnValue.Ok
  · rw [if_pos passed, if_pos passed]
    exact goes_on
  · rw [if_neg passed, if_neg passed]
    rfl

theorem reported_alloc {size : Nat}
    (goes_on : Allocates engine size → reportedNumbers (rest ()) = values.map readUlong) :
    reportedNumbers (alloc engine size >>= rest) =
      (if Allocates engine size then values else []).map readUlong := by
  unfold alloc
  by_cases fits : Allocates engine size
  · rw [if_pos fits, if_pos fits]
    exact goes_on fits
  · rw [if_neg fits, if_neg fits]
    rfl

theorem reported_checked :
    reportedNumbers ((check engine fn code).map fun _ => []) = (orCode code []).map readUlong := by
  have whole : (check engine fn code).map (fun _ => ([] : List Nat)) =
      check engine fn code >>= fun _ => .ok [] := by
    cases check engine fn code <;> rfl
  rw [whole]
  exact reported_check rfl

theorem reported_new (answer : UlongAnswer) :
    reportedNumbers ((newHandle engine fn answer).map fun handle => [handle]) =
      (orCode answer.code [answer.value]).map readUlong := by
  unfold newHandle
  rw [ExceptRules.map_bind]
  exact reported_check rfl

theorem reported_tolerating {tolerated : UInt64} (small : tolerated.toNat < 2 ^ 53) :
    reportedNumbers ((tolerating engine fn tolerated code).map fun _ => []) =
      (if code = tolerated then [] else orCode code []).map readUlong := by
  unfold tolerating ok
  by_cases passed : code = tolerated
  · have same := (readUlong_code small).mpr passed
    rw [if_neg (fun both => both.2 same), if_pos passed]
    rfl
  · have other := mt (readUlong_code small).mp passed
    rw [if_neg passed]
    by_cases fine : readUlong code = ReturnValue.Ok.toNat
    · have zero := (readUlong_code (by decide)).mp fine
      rw [if_neg (by simp [fine])]
      unfold orCode
      rw [if_pos zero]
      rfl
    · rw [if_pos (by simp [fine, other])]
      exact reported_checked

theorem buffer_take {α : Type} (zero : α) (written : List α) (n m : Nat) :
    (written.take n ++ List.replicate (n - written.length) zero).take m =
      (List.range (min n m)).map fun index => written.getD index zero := by
  apply ext_getElem
  · rw [length_take, length_append, length_take, length_replicate, length_map, length_range]
    omega
  · intro i _ there
    rw [length_map, length_range] at there
    rw [getElem_take, getElem_map, getElem_range, getElem_append]
    by_cases within : i < written.length
    · rw [dif_pos (by rw [length_take]; omega), getElem_take]
      exact (getD_eq_getElem written zero within).symm
    · rw [dif_neg (by rw [length_take]; omega), getElem_replicate]
      exact (getD_eq_default written zero (by omega)).symm

theorem slotInfo_numbers (slot : UInt64) (answer : SlotAnswer) :
    [(slotInfo slot answer).id, (slotInfo slot answer).maxSessions] =
      [slot, givenMaximum answer].map readUlong := by
  have passed : ∀ code : UInt64, ok code = true ↔ code = ReturnValue.Ok := by
    intro code
    unfold ok
    rw [decide_eq_true_iff]
    exact readUlong_code (by decide)
  unfold slotInfo givenMaximum
  dsimp only
  simp only [Bool.and_eq_true, decide_eq_true_eq, passed, and_assoc]
  split_ifs <;> simp_all [readUlong_zero]

theorem reported_listed {size total : Nat} {second : FillAnswer UInt64}
    {entry : Nat → List UInt64}
    (goes_on : Allocates engine size → reportedNumbers (rest ()) =
      ((List.range (min total second.length.toNat)).flatMap entry).map readUlong) :
    reportedNumbers (alloc engine size >>= fun _ => check engine fn second.code >>= rest) =
      (listed engine size total second entry).map readUlong :=
  reported_alloc fun fits => reported_check (goes_on fits)

theorem readUlong_allocated {value : UInt64} (low : Nat)
    (fits : Allocates engine (max (readUlong value * ULONG_SIZE) low)) :
    readUlong value = value.toNat ∧ value.toNat ≤ 2 ^ 53 := by
  obtain ⟨_, short⟩ := (allocates_readUlong engine value low).mp fits
  unfold ULONG_SIZE at short
  have small : value.toNat < 2 ^ 53 := by omega
  exact ⟨readUlong_small small, by omega⟩

theorem reported_slots (count : UlongAnswer) (ids : FillAnswer UInt64) (infos : Nat → SlotAnswer) :
    NativeUse.held engine (.slots count ids infos) =
      (NativeUse.returned engine (.slots count ids infos)).map readUlong := by
  have zero : readUlong count.value = 0 ↔ count.value = 0 :=
    readUlong_code (show (0 : UInt64).toNat < 2 ^ 53 by decide)
  have room := allocates_readUlong engine count.value 0
  rw [Nat.max_zero, Nat.max_zero] at room
  unfold NativeUse.held NativeUse.numbers NativeUse.returned slots
  dsimp only
  rw [ExceptRules.map_bind]
  apply reported_check
  by_cases none : count.value = 0
  · rw [if_pos (zero.mpr none), if_pos none]
    rfl
  · rw [if_neg (mt zero.mp none), if_neg none]
    simp only [ExceptRules.map_bind]
    unfold listed
    simp only [← room]
    apply reported_listed
    intro fits
    obtain ⟨whole, small⟩ := readUlong_allocated 0 (by rwa [Nat.max_zero])
    rw [whole, min_readUlong small]
    unfold reportedNumbers
    dsimp only [Except.map, pure, Except.pure]
    rw [flatMap_map, map_flatMap]
    congr 1
    funext index
    exact slotInfo_numbers _ _

theorem reported_mechanisms (first : UlongAnswer) (second : FillAnswer UInt64) :
    NativeUse.held engine (.mechanisms first second) =
      (NativeUse.returned engine (.mechanisms first second)).map readUlong := by
  have room := allocates_readUlong engine first.value 1
  unfold NativeUse.held NativeUse.numbers NativeUse.returned mechanisms twoPhase
  dsimp only
  simp only [bind_assoc]
  apply reported_check
  unfold listed
  simp only [← room]
  apply reported_listed
  intro fits
  obtain ⟨whole, small⟩ := readUlong_allocated 1 fits
  have elements : max (first.value.toNat * ULONG_SIZE) 1 / ULONG_SIZE = first.value.toNat := by
    unfold ULONG_SIZE
    omega
  dsimp only [bind, Except.bind, pure, Except.pure, reportedNumbers]
  rw [whole, elements, buffer_take, min_readUlong small]
  exact congrArg (map readUlong) map_eq_flatMap

theorem reported_batches (batch handles : List UInt64) (answers : List (FillAnswer UInt64)) :
    reportedNumbers ((findBatches engine batch (handles.map readUlong) answers).getD (.ok [])) =
      (foundObjects batch handles answers).map readUlong := by
  induction answers generalizing batch handles with
  | nil => rfl
  | cons answer rest ih =>
    unfold findBatches foundObjects orCode
    rw [check_eq]
    by_cases passed : answer.code = ReturnValue.Ok
    · rw [if_pos passed, if_pos passed]
      dsimp only
      by_cases many : FIND_BATCH < answer.length.toNat
      · have beyond := mt (readUlong_lt_iff answer.length (show FIND_BATCH + 1 ≤ 2 ^ 53 by decide)).mp
          (by omega)
        rw [if_pos many, if_pos (by omega)]
        rfl
      · have few : answer.length.toNat < 2 ^ 53 := by
          unfold FIND_BATCH at many
          omega
        rw [readUlong_small few, if_neg many, if_neg many, ← map_append]
        by_cases last : answer.length.toNat < FIND_BATCH
        · rw [if_pos last, if_pos last]
          rfl
        · rw [if_neg last, if_neg last]
          exact ih _ _
    · rw [if_neg passed, if_neg passed]
      rfl

theorem reported_search (init : UInt64) (answers : List (FillAnswer UInt64)) :
    NativeUse.held engine (.findObjects init answers) =
      (NativeUse.returned engine (.findObjects init answers)).map readUlong := by
  unfold NativeUse.held NativeUse.numbers NativeUse.returned findObjects orCode
  dsimp only
  rw [check_eq]
  by_cases passed : init = ReturnValue.Ok
  · rw [if_pos passed, if_pos passed]
    exact reported_batches _ [] answers
  · rw [if_neg passed, if_neg passed]
    rfl

theorem held_eq (engine : Engine) (use : NativeUse) : use.held engine = (use.returned engine).map readUlong := by
  cases use with
  | initializeModule code => exact reported_tolerating (by decide)
  | login code => exact reported_tolerating (by decide)
  | checked fn code => exact reported_checked
  | slots count ids infos => exact reported_slots count ids infos
  | mechanisms first second => exact reported_mechanisms first second
  | openSession answer => exact reported_new answer
  | findObjects init answers => exact reported_search init answers
  | generateKey answer => exact reported_new answer
  | generateKeyPair code publicHandle privateHandle =>
    unfold NativeUse.held NativeUse.numbers NativeUse.returned FfiModule.generateKeyPair
    dsimp only
    rw [ExceptRules.map_bind]
    exact reported_check rfl
  | deriveKey answer => exact reported_new answer
  | ulongValue value =>
    unfold NativeUse.held NativeUse.numbers NativeUse.returned ForgeDeno.ulongValue
    dsimp only
    by_cases long : value.length = 8
    · have range := ofLittleEndian_lt value
      rw [long, show 256 ^ 8 = 2 ^ 64 by norm_num] at range
      have whole : (ofLittleEndian value).toUInt64.toNat = ofLittleEndian value := by
        rw [Nat.toUInt64_eq, UInt64.toNat_ofNat', Nat.mod_eq_of_lt range]
      rw [if_neg (not_not.mpr long), if_pos long, map_singleton]
      unfold readUlong
      rw [whole]
      rfl
    · rw [if_pos long, if_neg long]
      rfl
  | getAttributes first types => rfl

end held

theorem offer_length {limit type : Nat} {length : UInt64} {entry : TemplateEntry}
    (offered : offer limit type length = .ok entry) : entry.length = length := by
  unfold offer at offered
  dsimp only at offered
  split_ifs at offered with unavailable fits
  · cases offered
    exact unavailable.symm
  · cases offered
    have small := (readUlong_lt_iff length le_rfl).mp fits.2
    have whole : numberOfBigint length.toNat = length.toNat := readUlong_small small
    dsimp only
    rw [whole, Nat.toUInt64_eq, UInt64.ofNat_toNat]

theorem fill_lengths {limit : Nat} {first : ValueCall} {types : List Nat} {template : List TemplateEntry}
    (filled : fill limit first types = .ok template) {i : Nat} {entry : TemplateEntry}
    (there : template[i]? = some entry) : ∃ asked, (sizes types)[i]? = some asked ∧
      entry.length = lengthAfter asked ((first (sizes types)).at i) := by
  obtain ⟨⟨asked, place⟩, here, offered⟩ := ExceptRules.mapM_list_ok filled there
  rw [getElem?_zipIdx, Option.map_eq_some_iff] at here
  obtain ⟨_, here, same⟩ := here
  rw [Nat.zero_add] at same
  cases same
  exact ⟨asked, here, offer_length offered⟩

theorem handleArgument_toNat (value : UInt64) : handleArgument value.toNat = value := by
  unfold handleArgument
  rw [Nat.toUInt64_eq, UInt64.ofNat_toNat]

/-- The values of a run are kept exactly if each of them has at most 53 significant bits. -/
theorem handles_kept_iff (engine : Engine) (uses : List NativeUse) : HandlesKept engine uses ↔
    ∀ use ∈ uses, ∀ value ∈ use.returned engine, JsNumber.Exact value.toNat := by
  constructor
  · intro kept use used value returned
    have same := kept.same use used
    rw [held_eq, List.map_inj_left] at same
    exact readUlong_exact_iff.mp (same value returned)
  · intro exact_values
    have same : ∀ use ∈ uses, use.held engine = (use.returned engine).map UInt64.toNat := by
      intro use used
      rw [held_eq, List.map_inj_left]
      exact fun value returned => readUlong_exact_iff.mpr (exact_values use used value returned)
    refine ⟨same, ?_, ?_, ?_, ?_⟩
    · intro use used
      rw [same use used, List.map_map]
      exact List.map_id'' handleArgument_toNat _
    · intro use used type
      rw [same use used, List.map_map]
      rfl
    · intro first types _ template filled i entry there
      exact fill_lengths filled there
    · intro use used use' used' i j value value' here there confused
      rw [same use used, same use' used', List.getElem?_map, List.getElem?_map, here, there] at confused
      exact UInt64.toNat_inj.mp (Option.some.inj confused)

def someEngine : Engine where
  limit := 2 ^ 32
  hexadecimal _ := []

def oddSession : UlongAnswer := { code := 0, value := 0x20000000000001 }
def evenSession : UlongAnswer := { code := 0, value := 0x20000000000000 }

/-- The second of two sessions is taken for the first. -/
theorem odd_session_confused : (openSession someEngine oddSession).toOption = some (2 ^ 53) ∧
    (openSession someEngine evenSession).toOption = some (2 ^ 53) ∧
    ¬HandlesKept someEngine [.openSession evenSession, .openSession oddSession] := by
  refine ⟨by decide +kernel, by decide +kernel, ?_⟩
  intro kept
  have confused := kept.apart (.openSession evenSession) (by simp) (.openSession oddSession) (by simp) 0 0
    evenSession.value oddSession.value rfl rfl (by decide +kernel)
  have different : evenSession.value ≠ oddSession.value := by decide
  exact different confused

end FfiModule

end ForgeDeno
