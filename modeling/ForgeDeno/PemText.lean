import ForgeDeno.AbiBase64
import ForgeDeno.SettingPaths

namespace ForgeDeno

namespace Pem

open List JsString Rfc4648

def NEWLINE : UInt16 := 0x0A

def DASH : UInt16 := 0x2D

def DASHES : JsString := [DASH, DASH, DASH, DASH, DASH]

/-- What `.` does not match. -/
def isLineEnd (u : UInt16) : Bool := u = 0x0A || u = 0x0D || u = 0x2028 || u = 0x2029

def closed (piece : JsString) : List JsString := if piece = [] then [] else [piece]

/-- The matches of `/.{1,64}/g` in the rest of a text; `piece` is the match under way. -/
def pieces (piece : JsString) : JsString → List JsString
  | [] => closed piece
  | u :: rest =>
    if isLineEnd u then closed piece ++ pieces [] rest
    else if piece.length = 63 then (piece ++ [u]) :: pieces [] rest
    else pieces (piece ++ [u]) rest

def isLabelUnit (u : UInt16) : Bool :=
  (0x41 ≤ u && u ≤ 0x5A) || (0x30 ≤ u && u ≤ 0x39) || u = 0x20

/-- The length of a match of `head[A-Z0-9 ]+-----` at the start of a text. The class has no dash,
so only its longest run can be followed by one. -/
def boundaryLength? (head s : JsString) : Option Nat :=
  let rest := s.drop head.length
  let label := rest.takeWhile isLabelUnit
  if head.isPrefixOf s && !label.isEmpty && DASHES.isPrefixOf (rest.dropWhile isLabelUnit) then
    some (head.length + label.length + DASHES.length)
  else none

def BEGIN : JsString := DASHES ++ js "BEGIN "

def END : JsString := DASHES ++ js "END "

/-- `/-----BEGIN [A-Z0-9 ]+-----/.test(pem)` -/
def hasBegin : JsString → Bool
  | [] => false
  | u :: rest => (boundaryLength? BEGIN (u :: rest)).isSome || hasBegin rest

/-- `pem.replace(/-----[A-Z0-9 ]+-----/g, "")`, `skip` units of a match still to be passed. -/
def removeBoundaries : Nat → JsString → JsString
  | _, [] => []
  | skip + 1, _ :: rest => removeBoundaries skip rest
  | 0, u :: rest =>
    match boundaryLength? DASHES (u :: rest) with
    | some length => removeBoundaries (length - 1) rest
    | none => u :: removeBoundaries 0 rest

section codec

variable (base64 : Base64)

/-- The `?? ""` is the text of no match. -/
def toPem (label : JsString) (der : Bytes) : JsString :=
  let body := JsString.join [NEWLINE] (pieces [] (base64.encode der))
  (BEGIN ++ label ++ DASHES) ++ NEWLINE :: (body ++ NEWLINE :: ((END ++ label ++ DASHES) ++ [NEWLINE]))

def notPem : TokenFailure :=
  { name := js "Error", message := js "deno-openssl: input is not a PEM block" }

def emptyBody : TokenFailure :=
  { name := js "Error", message := js "deno-openssl: empty PEM body" }

def fromPem (pem : JsString) : Except TokenFailure Bytes :=
  if !hasBegin pem then .error notPem
  else
    let body := (removeBoundaries 0 pem).filter (!JsString.isWhiteSpace ·)
    if body = [] then .error emptyBody else base64.decode body

end codec

section body

theorem join_append (between : JsString) {first last : List JsString} (some_first : first ≠ [])
    (some_last : last ≠ []) : JsString.join between (first ++ last) =
      JsString.join between first ++ between ++ JsString.join between last := by
  induction first with
  | nil => exact absurd rfl some_first
  | cons part first ih =>
    cases first with
    | nil =>
      obtain ⟨other, last, rfl⟩ := exists_cons_of_ne_nil some_last
      rfl
    | cons other first =>
      have joined := ih (cons_ne_nil other first)
      rw [cons_append] at joined ⊢
      rw [cons_append, join_cons_cons, joined, join_cons_cons]
      simp only [append_assoc]

theorem closed_flatten (piece : JsString) : (closed piece).flatten = piece := by
  unfold closed
  split
  next empty => exact empty.symm
  next => exact flatten_singleton

theorem length_closed {piece line : JsString} (h : piece.length ≤ 63) (mem : line ∈ closed piece) :
    line.length ≤ 64 := by
  unfold closed at mem
  split at mem
  next => cases mem
  next =>
    rw [mem_singleton.mp mem]
    omega

theorem pieces_flatten {piece s : JsString} (h : ∀ u ∈ s, isLineEnd u = false) :
    (pieces piece s).flatten = piece ++ s := by
  induction s generalizing piece with
  | nil => rw [pieces, closed_flatten, append_nil]
  | cons u s ih =>
    obtain ⟨inside, later⟩ := forall_mem_cons.mp h
    rw [pieces, inside, if_neg Bool.false_ne_true]
    split
    · rw [flatten_cons, ih later, append_assoc, nil_append, singleton_append]
    · rw [ih later, append_assoc, singleton_append]

theorem pieces_length {piece s line : JsString} (short : piece.length ≤ 63)
    (mem : line ∈ pieces piece s) : line.length ≤ 64 := by
  induction s generalizing piece with
  | nil => exact length_closed short mem
  | cons u s ih =>
    have fresh : ([] : JsString).length ≤ 63 := Nat.zero_le _
    rw [pieces] at mem
    split at mem
    · rcases mem_append.mp mem with here | later
      · exact length_closed short here
      · exact ih fresh later
    · split at mem
      next full =>
        rcases mem_cons.mp mem with rfl | later
        · rw [length_append, full, length_singleton]
        · exact ih fresh later
      next room =>
        have longer : (piece ++ [u]).length = piece.length + 1 := length_append
        exact ih (by omega) mem

theorem filter_join {parts : List JsString}
    (visible : ∀ part ∈ parts, ∀ u ∈ part, JsString.isWhiteSpace u = false) :
    (JsString.join [NEWLINE] parts).filter (!JsString.isWhiteSpace ·) = parts.flatten := by
  have kept {s : JsString} (h : ∀ u ∈ s, isWhiteSpace u = false) :
      s.filter (!isWhiteSpace ·) = s :=
    filter_eq_self.mpr fun u mem => by rw [h u mem]; rfl
  induction parts with
  | nil => rfl
  | cons part parts ih =>
    obtain ⟨here, later⟩ := forall_mem_cons.mp visible
    cases parts with
    | nil => rw [join, kept here, flatten_singleton]
    | cons other parts =>
      rw [join_cons_cons, filter_append, filter_append, kept here, ih later]
      exact congrArg (· ++ _) (append_nil part)

end body

section framing

variable {label rest : JsString}

theorem removeBoundaries_skip (s rest : JsString) :
    removeBoundaries s.length (s ++ rest) = removeBoundaries 0 rest := by
  induction s with
  | nil => rfl
  | cons u s ih =>
    show removeBoundaries (s.length + 1) (u :: (s ++ rest)) = _
    rw [removeBoundaries, ih]

theorem removeBoundaries_dashless {s : JsString} (h : DASH ∉ s) :
    removeBoundaries 0 (s ++ rest) = s ++ removeBoundaries 0 rest := by
  induction s with
  | nil => rfl
  | cons u s ih =>
    have other : (DASH == u) = false := beq_false_of_ne fun same => h (same ▸ mem_cons_self)
    have unmatched : boundaryLength? DASHES (u :: (s ++ rest)) = none := by
      unfold boundaryLength?
      rw [DASHES, isPrefixOf_cons_cons, other]
      rfl
    rw [cons_append, removeBoundaries, unmatched]
    exact congrArg (u :: ·) (ih fun mem => h (mem_cons_of_mem u mem))

theorem boundaryLength?_label (head rest : JsString) {label : JsString}
    (letters : ∀ u ∈ label, isLabelUnit u = true) : boundaryLength? head (head ++ (label ++ (DASHES ++ rest))) =
      if label = [] then none else some (head.length + label.length + DASHES.length) := by
  have stop : (DASHES ++ rest).takeWhile isLabelUnit = [] := rfl
  have left : (DASHES ++ rest).dropWhile isLabelUnit = DASHES ++ rest := rfl
  unfold boundaryLength?
  dsimp only
  rw [drop_left, takeWhile_append_of_pos letters, dropWhile_append_of_pos letters, stop,
    left, append_nil, isPrefixOf_iff_prefix.mpr (prefix_append head _),
    isPrefixOf_iff_prefix.mpr (prefix_append DASHES _)]
  cases label with
  | nil => rfl
  | cons u label => rfl

theorem removeBoundaries_match {u : UInt16} {length : Nat}
    (h : boundaryLength? DASHES (u :: rest) = some length) :
    removeBoundaries 0 (u :: rest) = removeBoundaries (length - 1) rest := by
  rw [removeBoundaries, h]

theorem removeBoundaries_boundary (letters : ∀ u ∈ label, isLabelUnit u = true) (some_unit : label ≠ []) :
    removeBoundaries 0 (DASHES ++ (label ++ (DASHES ++ rest))) = removeBoundaries 0 rest := by
  have matched := boundaryLength?_label DASHES rest letters
  rw [if_neg some_unit] at matched
  have inside : 5 + label.length + 5 - 1 = (DASHES.tail ++ (label ++ DASHES)).length := by
    simp only [DASHES, tail_cons, length_append, length_cons, length_nil]
    omega
  have skipped := removeBoundaries_skip (DASHES.tail ++ (label ++ DASHES)) rest
  rw [← inside, append_assoc, append_assoc] at skipped
  exact (removeBoundaries_match matched).trans skipped

theorem hasBegin_match {u : UInt16} {length : Nat}
    (h : boundaryLength? BEGIN (u :: rest) = some length) : hasBegin (u :: rest) = true := by
  rw [hasBegin, h]
  rfl

theorem hasBegin_label (letters : ∀ u ∈ label, isLabelUnit u = true) (some_unit : label ≠ []) :
    hasBegin (BEGIN ++ (label ++ (DASHES ++ rest))) = true := by
  have matched := boundaryLength?_label BEGIN rest letters
  rw [if_neg some_unit] at matched
  exact hasBegin_match matched

theorem hasBegin_dashless {s : JsString} (h : DASH ∉ s) : hasBegin (s ++ rest) = hasBegin rest := by
  induction s with
  | nil => rfl
  | cons u s ih =>
    have other : (DASH == u) = false := beq_false_of_ne fun same => h (same ▸ mem_cons_self)
    have unmatched : boundaryLength? BEGIN (u :: (s ++ rest)) = none := by
      unfold boundaryLength? 
      rw [BEGIN, DASHES, cons_append, isPrefixOf_cons_cons, other]
      rfl
    rw [cons_append, hasBegin, unmatched]
    exact ih fun mem => h (mem_cons_of_mem u mem)

theorem hasBegin_unlabelled {body : JsString} (dashless : DASH ∉ body) :
    hasBegin (BEGIN ++ DASHES ++ NEWLINE :: (body ++ NEWLINE :: (END ++ DASHES ++ [NEWLINE]))) = false := by
  have head : hasBegin (BEGIN ++ DASHES ++ NEWLINE ::
      (body ++ NEWLINE :: (END ++ DASHES ++ [NEWLINE]))) =
        hasBegin (body ++ NEWLINE :: (END ++ DASHES ++ [NEWLINE])) := rfl
  rw [head, hasBegin_dashless dashless]
  rfl

end framing

section round_trip

theorem plain_encode {bytes : Bytes} {u : UInt16} (mem : u ∈ Rfc4648.encode bytes) :
    u ≠ DASH ∧ isLineEnd u = false ∧ JsString.isWhiteSpace u = false :=
  forall_encode (P := fun u => u ≠ DASH ∧ isLineEnd u = false ∧ isWhiteSpace u = false)
    (by decide) (by decide) bytes u mem

theorem mem_pieces {bytes : Bytes} {line : JsString} (mem : line ∈ pieces [] (Rfc4648.encode bytes))
    {u : UInt16} (inside : u ∈ line) : u ∈ Rfc4648.encode bytes := by
  have whole := @pieces_flatten [] (encode bytes) fun u mem => (plain_encode mem).2.1
  rw [nil_append] at whole
  rw [← whole]
  exact mem_flatten.mpr ⟨line, mem, inside⟩

theorem filter_removeBoundaries {label body : JsString} (letters : ∀ u ∈ label, isLabelUnit u = true)
    (dashless : DASH ∉ body) : (removeBoundaries 0 ((BEGIN ++ label ++ DASHES) ++ NEWLINE ::
      (body ++ NEWLINE :: ((END ++ label ++ DASHES) ++ [NEWLINE])))).filter
        (!JsString.isWhiteSpace ·) = body.filter (!JsString.isWhiteSpace ·) := by
  have first : ∀ u ∈ js "BEGIN " ++ label, isLabelUnit u = true :=
    forall_mem_append.mpr ⟨by decide, letters⟩
  have last : ∀ u ∈ js "END " ++ label, isLabelUnit u = true :=
    forall_mem_append.mpr ⟨by decide, letters⟩
  have newline : DASH ∉ [NEWLINE] := by decide
  have between : DASH ∉ NEWLINE :: (body ++ [NEWLINE]) := by
    intro mem
    rcases mem_cons.mp mem with here | mem
    · exact absurd here (by decide)
    · rcases mem_append.mp mem with inside | later
      · exact dashless inside
      · exact newline later
  have whole : (BEGIN ++ label ++ DASHES) ++ NEWLINE ::
      (body ++ NEWLINE :: ((END ++ label ++ DASHES) ++ [NEWLINE])) =
      DASHES ++ ((js "BEGIN " ++ label) ++ (DASHES ++ (NEWLINE :: (body ++ [NEWLINE]) ++
        (DASHES ++ ((js "END " ++ label) ++ (DASHES ++ ([NEWLINE] ++ []))))))) := by
    simp only [BEGIN, END, append_assoc, cons_append, nil_append]
  rw [whole, removeBoundaries_boundary first (cons_ne_nil _ _), removeBoundaries_dashless between,
    removeBoundaries_boundary last (cons_ne_nil _ _), removeBoundaries_dashless newline]
  have space : isWhiteSpace NEWLINE = true := by decide
  simp only [removeBoundaries, filter_append, filter_cons, filter_nil, space,
    Bool.not_true, Bool.false_eq_true, if_false, append_nil]

variable {base64 : Base64}

theorem encode_ne_nil {bytes : Bytes} (some_byte : bytes ≠ []) : Rfc4648.encode bytes ≠ [] :=
  rfcBase64_lawful.encode_ne_nil some_byte

theorem pieces_ne_nil {bytes : Bytes} (some_byte : bytes ≠ []) : pieces [] (Rfc4648.encode bytes) ≠ [] := by
  intro none
  have whole := @pieces_flatten [] (encode bytes) fun u mem => (plain_encode mem).2.1
  rw [none] at whole
  exact encode_ne_nil some_byte whole.symm

theorem toPem_lines (standard : base64.Standard) {label : JsString}
    (letters : ∀ u ∈ label, isLabelUnit u = true) {der : Bytes} (some_byte : der ≠ []) :
    (toPem base64 label der).split NEWLINE = (BEGIN ++ label ++ DASHES) ::
        (pieces [] (Rfc4648.encode der) ++ [END ++ label ++ DASHES, []]) := by
  have unbroken (head : JsString) (h : NEWLINE ∉ head) : NEWLINE ∉ head ++ label ++ DASHES := by
    intro mem
    rcases mem_append.mp mem with mem | mem
    · rcases mem_append.mp mem with mem | mem
      · exact h mem
      · exact absurd (letters NEWLINE mem) (by decide)
    · exact absurd mem (by decide)
  have lines : ∀ line ∈ pieces [] (encode der), NEWLINE ∉ line := fun line mem inside =>
    absurd (plain_encode (mem_pieces mem inside)).2.1 (by decide)
  have joined := join_append [NEWLINE] (pieces_ne_nil some_byte)
    (cons_ne_nil (END ++ label ++ DASHES) [[]])
  have text : toPem base64 label der = (BEGIN ++ label ++ DASHES) ++ NEWLINE ::
      join [NEWLINE] (pieces [] (encode der) ++ [END ++ label ++ DASHES, []]) := by
    unfold toPem
    rw [joined, standard.encode_eq]
    simp only [join, append_assoc, cons_append, nil_append, append_nil]
  rw [text, split_append (unbroken BEGIN (by decide)), split_join (by simp)]
  intro line mem
  rcases mem_append.mp mem with inside | last
  · exact lines line inside
  · rcases mem_cons.mp last with rfl | last
    · exact unbroken END (by decide)
    · rw [mem_singleton.mp last]
      exact not_mem_nil

theorem fromPem_toPem (standard : base64.Standard) {label : JsString}
    (letters : ∀ u ∈ label, isLabelUnit u = true) {der : Bytes} (some_byte : der ≠ []) :
    fromPem base64 (toPem base64 label der) = if label = [] then .error notPem else .ok der := by
  have dashless : DASH ∉ join [NEWLINE] (pieces [] (encode der)) := by
    intro mem
    rcases mem_join mem with between | ⟨line, mem, inside⟩
    · exact absurd between (by decide)
    · exact (plain_encode (mem_pieces mem inside)).1 rfl
  have visible : ∀ line ∈ pieces [] (encode der), ∀ u ∈ line,
      isWhiteSpace u = false :=
    fun line mem u inside => (plain_encode (mem_pieces mem inside)).2.2
  have body := filter_removeBoundaries letters dashless
  rw [filter_join visible, pieces_flatten fun u mem => (plain_encode mem).2.1, nil_append] at body
  unfold fromPem toPem
  dsimp only
  rw [standard.encode_eq]
  by_cases empty : label = []
  · rw [if_pos empty, empty, append_nil, append_nil, hasBegin_unlabelled dashless]
    rfl
  · have labelled : ∀ rest, hasBegin (BEGIN ++ label ++ DASHES ++ rest) = true := by
      intro rest
      rw [append_assoc, append_assoc]
      exact hasBegin_label letters empty
    rw [if_neg empty, labelled, body, if_neg (encode_ne_nil some_byte)]
    exact standard.decode_encode der

end round_trip

/-- The text of a block has lines of at most 64 characters, and it is read back unless its label
is empty: the pattern of a boundary asks for a label. -/
theorem pem_round_trip {base64 : Base64} (standard : base64.Standard) (label : JsString)
    (letters : ∀ u ∈ label, isLabelUnit u = true) (der : Bytes) (some_byte : der ≠ []) :
    (∃ lines, (toPem base64 label der).split NEWLINE =
        (js "-----BEGIN " ++ label ++ js "-----") ::
          (lines ++ [js "-----END " ++ label ++ js "-----", []]) ∧
      ∀ line ∈ lines, line.length ≤ 64) ∧
    fromPem base64 (toPem base64 label der) = if label = [] then .error notPem else .ok der := by
  have opening : js "-----BEGIN " = BEGIN := by decide
  have closing : js "-----END " = END := by decide
  have dashes : js "-----" = DASHES := by decide
  rw [opening, closing, dashes]
  refine ⟨⟨_, toPem_lines standard letters some_byte, ?_⟩, fromPem_toPem standard letters some_byte⟩
  exact fun line mem => pieces_length (Nat.zero_le _) mem

/-- The public key of the curve P-256 whose point is the generator. -/
def generatorKey : Bytes := [
  0x30, 0x59, 0x30, 0x13, 0x06, 0x07, 0x2A, 0x86, 0x48, 0xCE, 0x3D, 0x02, 0x01, 0x06, 0x08, 0x2A,
  0x86, 0x48, 0xCE, 0x3D, 0x03, 0x01, 0x07, 0x03, 0x42, 0x00, 0x04, 0x6B, 0x17, 0xD1, 0xF2, 0xE1,
  0x2C, 0x42, 0x47, 0xF8, 0xBC, 0xE6, 0xE5, 0x63, 0xA4, 0x40, 0xF2, 0x77, 0x03, 0x7D, 0x81, 0x2D,
  0xEB, 0x33, 0xA0, 0xF4, 0xA1, 0x39, 0x45, 0xD8, 0x98, 0xC2, 0x96, 0x4F, 0xE3, 0x42, 0xE2, 0xFE,
  0x1A, 0x7F, 0x9B, 0x8E, 0xE7, 0xEB, 0x4A, 0x7C, 0x0F, 0x9E, 0x16, 0x2B, 0xCE, 0x33, 0x57, 0x6B,
  0x31, 0x5E, 0xCE, 0xCB, 0xB6, 0x40, 0x68, 0x37, 0xBF, 0x51, 0xF5]

/-- Its text takes two lines. -/
theorem pem_round_trip_key :
    fromPem rfcBase64 (toPem rfcBase64 (js "PUBLIC KEY") generatorKey) = .ok generatorKey := by
  obtain ⟨-, read⟩ := pem_round_trip rfcBase64_standard (js "PUBLIC KEY") (by decide) generatorKey (by decide)
  exact read

theorem fromPem_unlabelled : (∀ u ∈ ([] : JsString), isLabelUnit u = true) ∧
    fromPem rfcBase64 (toPem rfcBase64 [] [0x30]) = .error notPem := by
  refine ⟨by decide, ?_⟩
  have dashless : DASH ∉ js "MA==" := by decide
  have begins := hasBegin_unlabelled dashless
  unfold fromPem
  have text : toPem rfcBase64 [] [0x30] = BEGIN ++ DASHES ++ NEWLINE ::
      (js "MA==" ++ NEWLINE :: (END ++ DASHES ++ [NEWLINE])) := by decide
  rw [text, begins]
  rfl

end Pem

end ForgeDeno
