import ForgeDeno.PublicKeys

namespace JsString

open List Option

def Printable (s : JsString) : Prop :=
  ∀ u ∈ s, 0x20 ≤ u.toNat ∧ u.toNat < 0x7F ∧ u ≠ 0x22 ∧ u ≠ 0x5C

def Low (s : JsString) : Prop := ∀ u ∈ s, u.toNat < 0x7F

instance (s : JsString) : Decidable s.Low := inferInstanceAs (Decidable (∀ u ∈ s, _))

theorem Low.cons {u : UInt16} {s : JsString} (first : u.toNat < 0x7F) (rest : s.Low) : Low (u :: s) := by
  intro v mem
  rcases mem_cons.mp mem with rfl | later
  · exact first
  · exact rest v later

theorem not_surrogate_of_lt {u : UInt16} (h : u.toNat < 0x7F) :
    isHighSurrogate u = false ∧ isLowSurrogate u = false := by
  have high : ¬0xD800 ≤ u := by
    simp only [UInt16.le_iff_toNat_le, UInt16.reduceToNat]
    omega
  have low : ¬0xDC00 ≤ u := by
    simp only [UInt16.le_iff_toNat_le, UInt16.reduceToNat]
    omega
  constructor
  · rw [isHighSurrogate, decide_eq_false high, Bool.false_and]
  · rw [isLowSurrogate, decide_eq_false low, Bool.false_and]

theorem wellFormed_of_lt {s : JsString} (h : s.Low) : s.WellFormed := by
  induction s with
  | nil =>
    intro c mem
    cases mem
  | cons u rest ih =>
    have here := h u mem_cons_self
    intro c mem
    rw [codePoints_cons (not_surrogate_of_lt here).1] at mem
    rcases mem_cons.mp mem with rfl | mem
    · intro surrogate
      have low := surrogate.1
      omega
    · exact ih (fun v later => h v (mem_cons_of_mem _ later)) c mem

end JsString

namespace ForgeDeno

structure Base64.Lawful (base64 : Base64) : Prop where
  round_trip : ∀ bytes, base64.decode (base64.encode bytes) = .ok bytes
  printable : ∀ bytes, (base64.encode bytes).Printable
  empty : base64.decode [] = .ok []

theorem Base64.Lawful.encode_ne_nil {base64 : Base64} (lawful : base64.Lawful) {bytes : Bytes}
    (h : bytes ≠ []) : base64.encode bytes ≠ [] := by
  intro none
  have back := lawful.round_trip bytes
  rw [none, lawful.empty] at back
  cases back
  exact h rfl

namespace Rfc4648

def PAD : UInt16 := 0x3D

def unitOf (digit : Nat) : UInt16 :=
  if digit < 26 then (0x41 + digit).toUInt16
  else if digit < 52 then (0x61 + (digit - 26)).toUInt16
  else if digit < 62 then (0x30 + (digit - 52)).toUInt16
  else if digit = 62 then 0x2B
  else 0x2F

def digitOf (u : UInt16) : Option Nat :=
  let n := u.toNat
  if 0x41 ≤ n ∧ n ≤ 0x5A then some (n - 0x41)
  else if 0x61 ≤ n ∧ n ≤ 0x7A then some (n - 0x61 + 26)
  else if 0x30 ≤ n ∧ n ≤ 0x39 then some (n - 0x30 + 52)
  else if n = 0x2B then some 62
  else if n = 0x2F then some 63
  else none

def encode : Bytes → JsString
  | [] => []
  | [a] => [unitOf (a.toNat / 4), unitOf (a.toNat % 4 * 16), PAD, PAD]
  | [a, b] =>
    [unitOf (a.toNat / 4), unitOf (a.toNat % 4 * 16 + b.toNat / 16), unitOf (b.toNat % 16 * 4), PAD]
  | a :: b :: c :: rest =>
    unitOf (a.toNat / 4) :: unitOf (a.toNat % 4 * 16 + b.toNat / 16) ::
      unitOf (b.toNat % 16 * 4 + c.toNat / 64) :: unitOf (c.toNat % 64) :: encode rest

/-- The bytes of one group of four characters, the last of a text or not. -/
def decodeGroup (p q r s : UInt16) (last : Bool) : Option Bytes := do
  let x ← digitOf p
  let y ← digitOf q
  let first := (x * 4 + y / 16).toUInt8
  if last && r = PAD && s = PAD then return [first]
  let z ← digitOf r
  let second := (y % 16 * 16 + z / 4).toUInt8
  if last && s = PAD then return [first, second]
  let w ← digitOf s
  return [first, second, (z % 4 * 64 + w).toUInt8]

def decode : JsString → Option Bytes
  | [] => some []
  | p :: q :: r :: s :: rest => do
    let group ← decodeGroup p q r s (rest = [])
    let others ← decode rest
    return group ++ others
  | _ => none

theorem digitOf_unitOf {digit : Nat} (h : digit < 64) : digitOf (unitOf digit) = some digit := by
  have all : ∀ n < 64, digitOf (unitOf n) = some n := by decide
  exact all digit h

theorem unitOf_ne_pad {digit : Nat} (h : digit < 64) : unitOf digit ≠ PAD := by
  have all : ∀ n < 64, unitOf n ≠ PAD := by decide
  exact all digit h

theorem printable_unitOf {digit : Nat} (h : digit < 64) :
    0x20 ≤ (unitOf digit).toNat ∧ (unitOf digit).toNat < 0x7F ∧ unitOf digit ≠ 0x22 ∧ unitOf digit ≠ 0x5C := by
  have all : ∀ n < 64, 0x20 ≤ (unitOf n).toNat ∧ (unitOf n).toNat < 0x7F ∧ unitOf n ≠ 0x22 ∧
      unitOf n ≠ 0x5C := by decide
  exact all digit h

theorem toUInt8_of_toNat {n : Nat} {a : UInt8} (h : n = a.toNat) : n.toUInt8 = a := by
  rw [h, Nat.toUInt8_eq, UInt8.ofNat_toNat]

theorem decodeGroup_three (a b c : UInt8) (last : Bool) :
    decodeGroup (unitOf (a.toNat / 4)) (unitOf (a.toNat % 4 * 16 + b.toNat / 16))
      (unitOf (b.toNat % 16 * 4 + c.toNat / 64)) (unitOf (c.toNat % 64)) last = some [a, b, c] := by
  have boundA := a.toNat_lt
  have boundB := b.toNat_lt
  have boundC := c.toNat_lt
  have third : b.toNat % 16 * 4 + c.toNat / 64 < 64 := by omega
  have fourth : c.toNat % 64 < 64 := by omega
  unfold decodeGroup
  rw [digitOf_unitOf (by omega), digitOf_unitOf (by omega), digitOf_unitOf third, digitOf_unitOf fourth,
    decide_eq_false (unitOf_ne_pad third), decide_eq_false (unitOf_ne_pad fourth)]
  simp only [Option.bind_eq_bind, Option.bind_some, Bool.and_false, Bool.false_eq_true, if_false, pure]
  rw [toUInt8_of_toNat (a := a) (by omega), toUInt8_of_toNat (a := b) (by omega),
    toUInt8_of_toNat (a := c) (by omega)]

theorem decodeGroup_two (a b : UInt8) :
    decodeGroup (unitOf (a.toNat / 4)) (unitOf (a.toNat % 4 * 16 + b.toNat / 16))
      (unitOf (b.toNat % 16 * 4)) PAD true = some [a, b] := by
  have boundA := a.toNat_lt
  have boundB := b.toNat_lt
  have third : b.toNat % 16 * 4 < 64 := by omega
  unfold decodeGroup
  rw [digitOf_unitOf (by omega), digitOf_unitOf (by omega), digitOf_unitOf third,
    decide_eq_false (unitOf_ne_pad third)]
  simp only [Option.bind_eq_bind, Option.bind_some, Bool.and_false, Bool.false_eq_true, if_false,
    decide_true, Bool.and_true, if_true, pure]
  rw [toUInt8_of_toNat (a := a) (by omega), toUInt8_of_toNat (a := b) (by omega)]

theorem decodeGroup_one (a : UInt8) :
    decodeGroup (unitOf (a.toNat / 4)) (unitOf (a.toNat % 4 * 16)) PAD PAD true = some [a] := by
  have boundA := a.toNat_lt
  unfold decodeGroup
  rw [digitOf_unitOf (by omega), digitOf_unitOf (by omega)]
  simp only [Option.bind_eq_bind, Option.bind_some, decide_true, Bool.and_true, if_true, pure]
  rw [toUInt8_of_toNat (a := a) (by omega)]

theorem decode_encode (bytes : Bytes) : decode (encode bytes) = some bytes := by
  induction bytes using encode.induct with
  | case1 => rfl
  | case2 a =>
    show (do let group ← decodeGroup _ _ PAD PAD true; let others ← decode []; pure (group ++ others)) = _
    rw [decodeGroup_one]
    rfl
  | case3 a b =>
    show (do let group ← decodeGroup _ _ _ PAD true; let others ← decode []; pure (group ++ others)) = _
    rw [decodeGroup_two]
    rfl
  | case4 a b c rest ih =>
    show (do
      let group ← decodeGroup _ _ _ _ _
      let others ← decode (encode rest)
      pure (group ++ others)) = _
    rw [decodeGroup_three, ih]
    rfl

theorem length_le_encode (bytes : Bytes) : bytes.length ≤ (encode bytes).length := by
  induction bytes using encode.induct with
  | case1 | case2 | case3 => simp [encode]
  | case4 a b c rest ih =>
    simp only [encode, List.length_cons]
    omega

theorem forall_encode {P : UInt16 → Prop} (pad : P PAD) (letters : ∀ digit < 64, P (unitOf digit))
    (bytes : Bytes) : ∀ u ∈ encode bytes, P u := by
  induction bytes using encode.induct with
  | case1 => exact List.forall_mem_nil P
  | case2 a =>
    have bound := a.toNat_lt
    simp only [encode, List.forall_mem_cons]
    exact ⟨letters _ (by omega), letters _ (by omega), pad, pad, List.forall_mem_nil P⟩
  | case3 a b =>
    have boundA := a.toNat_lt
    have boundB := b.toNat_lt
    simp only [encode, List.forall_mem_cons]
    exact ⟨letters _ (by omega), letters _ (by omega), letters _ (by omega), pad, List.forall_mem_nil P⟩
  | case4 a b c rest ih =>
    have boundA := a.toNat_lt
    have boundB := b.toNat_lt
    have boundC := c.toNat_lt
    simp only [encode, List.forall_mem_cons]
    exact ⟨letters _ (by omega), letters _ (by omega), letters _ (by omega), letters _ (by omega), ih⟩

theorem printable_encode (bytes : Bytes) : (encode bytes).Printable :=
  forall_encode (by decide) (fun _ => printable_unitOf) bytes

end Rfc4648

def rfcBase64 : Base64 where
  encode := Rfc4648.encode
  decode text :=
    match Rfc4648.decode text with
    | some bytes => .ok bytes
    | none => .error { name := js "TypeError", message := js "Failed to decode base64" }

theorem rfcBase64_lawful : rfcBase64.Lawful where
  round_trip bytes := by
    show (match Rfc4648.decode (Rfc4648.encode bytes) with
      | some bytes => Except.ok bytes
      | none => _) = _
    rw [Rfc4648.decode_encode]
  printable := Rfc4648.printable_encode
  empty := rfl

end ForgeDeno
