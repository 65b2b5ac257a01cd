import ForgeDeno.JsString

namespace FileUrl

open List

def scalarValues (s : JsString) : List Nat :=
  s.codePoints.map fun c => if 0xD800 ≤ c ∧ c ≤ 0xDFFF then 0xFFFD else c

def isStripped (c : Nat) : Bool := c ≤ 0x20

def isTabOrNewline (c : Nat) : Bool := c = 0x09 || c = 0x0A || c = 0x0D

def clean (input : List Nat) : List Nat :=
  ((input.dropWhile isStripped).rdropWhile isStripped).filter fun c => !isTabOrNewline c

def isSlash (c : Nat) : Bool := c = 0x2F || c = 0x5C

def isAlpha (c : Nat) : Bool := (0x41 ≤ c && c ≤ 0x5A) || (0x61 ≤ c && c ≤ 0x7A)

def isWindowsDriveLetter : List Nat → Bool
  | [a, b] => isAlpha a && (b = 0x3A || b = 0x7C)
  | _ => false

def isNormalizedWindowsDriveLetter : List Nat → Bool
  | [a, b] => isAlpha a && b = 0x3A
  | _ => false

def startsWithWindowsDriveLetter : List Nat → Bool
  | a :: b :: rest =>
    isWindowsDriveLetter [a, b] && match rest with
      | [] => true
      | c :: _ => isSlash c || c = 0x3F || c = 0x23
  | _ => false

def isSingleDot (s : List Nat) : Bool :=
  s = [0x2E] || s = [0x25, 0x32, 0x65] || s = [0x25, 0x32, 0x45]

/-- `..` with each dot in its two spellings. -/
def isDoubleDot : List Nat → Bool
  | 0x2E :: rest => isSingleDot rest
  | 0x25 :: 0x32 :: 0x65 :: rest => isSingleDot rest
  | 0x25 :: 0x32 :: 0x45 :: rest => isSingleDot rest
  | _ => false

def hexDigit (n : Nat) : Nat := if n < 10 then 0x30 + n else 0x37 + n

def isPathEncoded (c : Nat) : Bool :=
  c ≤ 0x20 || 0x7E < c || c = 0x22 || c = 0x23 || c = 0x3C || c = 0x3E || c = 0x3F || c = 0x5E ||
    c = 0x60 || c = 0x7B || c = 0x7D

def percentEncode (c : Nat) : List Nat :=
  if isPathEncoded c then
    (JsString.utf8OfCodePoint c).flatMap fun b =>
      [0x25, hexDigit (b.toNat / 16), hexDigit (b.toNat % 16)]
  else [c]

def shorten (path : List (List Nat)) : List (List Nat) :=
  match path with
  | [drive] => if isNormalizedWindowsDriveLetter drive then [drive] else []
  | path => path.dropLast

def normalizeDrive (path : List (List Nat)) (buffer : List Nat) : List Nat :=
  if path = [] ∧ isWindowsDriveLetter buffer then buffer.take 1 ++ [0x3A] else buffer

def endSegment (path : List (List Nat)) (buffer : List Nat) (slash : Bool) : List (List Nat) :=
  if isDoubleDot buffer then
    if slash then shorten path else shorten path ++ [[]]
  else if isSingleDot buffer then
    if slash then path else path ++ [[]]
  else path ++ [normalizeDrive path buffer]

def pathState (path : List (List Nat)) (buffer : List Nat) : List Nat → List (List Nat)
  | [] => endSegment path buffer false
  | c :: rest =>
    if isSlash c then pathState (endSegment path buffer true) [] rest
    else pathState path (buffer ++ percentEncode c) rest

def segments (buffer : List Nat) : List Nat → List (List Nat)
  | [] => [buffer]
  | c :: rest =>
    if isSlash c then buffer :: segments [] rest else segments (buffer ++ percentEncode c) rest

def walk (path : List (List Nat)) : List (List Nat) → List (List Nat)
  | [] => path
  | [last] => endSegment path last false
  | segment :: rest => walk (endSegment path segment true) rest

theorem segments_ne_nil (buffer input : List Nat) : segments buffer input ≠ [] := by
  induction input generalizing buffer with
  | nil => exact cons_ne_nil buffer []
  | cons c rest ih =>
    unfold segments
    split
    next => exact cons_ne_nil _ _
    next => exact ih _

theorem pathState_eq_walk (path : List (List Nat)) (buffer input : List Nat) :
    pathState path buffer input = walk path (segments buffer input) := by
  induction input generalizing path buffer with
  | nil => rfl
  | cons c rest ih =>
    unfold pathState segments
    split
    next =>
      rw [ih]
      obtain ⟨first, others, eq⟩ := exists_cons_of_ne_nil (segments_ne_nil [] rest)
      rw [eq]
      rfl
    next => exact ih path _

structure Resolved (segment : List Nat) : Prop where
  plain : 0x2F ∉ segment
  single : isSingleDot segment = false
  double : isDoubleDot segment = false

instance : DecidablePred Resolved := fun segment =>
  decidable_of_iff
    (0x2F ∉ segment ∧ isSingleDot segment = false ∧ isDoubleDot segment = false)
    ⟨fun h => ⟨h.1, h.2.1, h.2.2⟩, fun h => ⟨h.plain, h.single, h.double⟩⟩

theorem resolved_nil : Resolved [] := ⟨not_mem_nil, rfl, rfl⟩

theorem hexDigit_ne_slash {n : Nat} (h : n < 16) : hexDigit n ≠ 0x2F := by
  unfold hexDigit
  split <;> omega

theorem percentEncode_plain {c : Nat} (h : isSlash c = false) : 0x2F ∉ percentEncode c := by
  unfold percentEncode
  split
  next =>
    intro mem
    obtain ⟨b, _, mem⟩ := mem_flatMap.mp mem
    have high := hexDigit_ne_slash (n := b.toNat / 16) (by have := b.toNat_lt; omega)
    have low := hexDigit_ne_slash (n := b.toNat % 16) (by omega)
    simp only [mem_cons, not_mem_nil, or_false] at mem
    omega
  next =>
    intro mem
    have eq := mem_singleton.mp mem
    subst eq
    exact absurd h (by decide)

theorem segments_plain {buffer input : List Nat} (h : 0x2F ∉ buffer) :
    ∀ segment ∈ segments buffer input, 0x2F ∉ segment := by
  induction input generalizing buffer with
  | nil =>
    intro segment mem
    rw [mem_singleton.mp mem]
    exact h
  | cons c rest ih =>
    intro segment mem
    unfold segments at mem
    split at mem
    next =>
      rcases mem_cons.mp mem with rfl | mem
      · exact h
      · exact ih not_mem_nil segment mem
    next slash =>
      apply ih _ segment mem
      intro mem
      rcases mem_append.mp mem with mem | mem
      · exact h mem
      · exact percentEncode_plain (Bool.not_eq_true _ ▸ slash) mem

theorem plain_takeWhile (input : List Nat) : 0x2F ∉ input.takeWhile fun c => !isSlash c := by
  intro mem
  exact absurd (mem_takeWhile_imp mem) (by decide)

theorem shorten_sublist (path : List (List Nat)) : (shorten path).Sublist path := by
  unfold shorten
  split
  next drive =>
    split
    next => exact .refl _
    next => exact nil_sublist _
  next => exact dropLast_sublist _

theorem endSegment_forall {P : List Nat → Prop} {path : List (List Nat)} {buffer : List Nat}
    (empty : P []) (kept : ∀ segment ∈ path, P segment)
    (added : isSingleDot buffer = false → isDoubleDot buffer = false →
      P (normalizeDrive path buffer)) (slash : Bool) : ∀ segment ∈ endSegment path buffer slash, P segment := by
  have up : ∀ segment ∈ shorten path, P segment :=
    fun segment mem => kept segment ((shorten_sublist path).mem mem)
  have ended (front : List (List Nat)) (h : ∀ segment ∈ front, P segment) :
      ∀ segment ∈ (if slash then front else front ++ [[]]), P segment := by
    intro segment mem
    split at mem
    next => exact h segment mem
    next =>
      rcases mem_append.mp mem with mem | mem
      · exact h segment mem
      · rw [mem_singleton.mp mem]
        exact empty
  unfold endSegment
  split
  next => exact ended _ up
  next double =>
    split
    next => exact ended _ kept
    next single =>
      intro segment mem
      rcases mem_append.mp mem with mem | mem
      · exact kept segment mem
      · rw [mem_singleton.mp mem]
        exact added (Bool.not_eq_true _ ▸ single) (Bool.not_eq_true _ ▸ double)

theorem walk_forall {P : List Nat → Prop} {path entries : List (List Nat)} (empty : P [])
    (kept : ∀ segment ∈ path, P segment) (added : ∀ path, ∀ segment ∈ entries, isSingleDot segment = false →
      isDoubleDot segment = false → P (normalizeDrive path segment)) :
    ∀ segment ∈ walk path entries, P segment := by
  induction entries generalizing path with
  | nil => exact kept
  | cons first rest ih =>
    have here := endSegment_forall empty kept (added path first mem_cons_self)
    cases rest with
    | nil => exact here false
    | cons second others =>
      exact ih (here true) fun path segment mem => added path segment (mem_cons_of_mem _ mem)

theorem isNormalized_plain {drive : List Nat} (h : isNormalizedWindowsDriveLetter drive = true) :
    Resolved drive := by
  unfold isNormalizedWindowsDriveLetter at h
  split at h
  next a b =>
    obtain ⟨alpha, colon⟩ := Bool.and_eq_true_iff.mp h
    have eq : b = 0x3A := of_decide_eq_true colon
    have letter : a ≠ 0x2F ∧ a ≠ 0x2E ∧ a ≠ 0x25 := by
      unfold isAlpha at alpha
      simp only [Bool.or_eq_true, Bool.and_eq_true, decide_eq_true_eq] at alpha
      omega
    obtain ⟨slash, dot, percent⟩ := letter
    subst eq
    refine ⟨?_, ?_, ?_⟩
    · simp [slash.symm]
    · simp [isSingleDot]
    · unfold isDoubleDot
      split <;> simp_all
  next => exact absurd h (by decide)

theorem normalizeDrive_cases (path : List (List Nat)) (buffer : List Nat) : normalizeDrive path buffer = buffer ∨
      path = [] ∧ isNormalizedWindowsDriveLetter (normalizeDrive path buffer) = true := by
  unfold normalizeDrive
  split
  next h =>
    right
    obtain ⟨root, drive⟩ := h
    unfold isWindowsDriveLetter at drive
    split at drive
    next a b =>
      have alpha := (Bool.and_eq_true_iff.mp drive).1
      exact ⟨root, by simp [isNormalizedWindowsDriveLetter, alpha]⟩
    next => exact absurd drive (by decide)
  next => exact .inl rfl

theorem normalizeDrive_length (path : List (List Nat)) (buffer : List Nat) :
    (normalizeDrive path buffer).length ≤ buffer.length := by
  unfold normalizeDrive
  split
  next h =>
    obtain ⟨_, drive⟩ := h
    unfold isWindowsDriveLetter at drive
    split at drive
    next => exact Nat.le_refl _
    next => exact absurd drive (by decide)
  next => exact Nat.le_refl _

theorem pathState_resolved {path : List (List Nat)} {buffer input : List Nat}
    (kept : ∀ segment ∈ path, Resolved segment) (plain : 0x2F ∉ buffer) :
    ∀ segment ∈ pathState path buffer input, Resolved segment := by
  rw [pathState_eq_walk]
  refine walk_forall resolved_nil kept ?_
  intro path segment mem single double
  rcases normalizeDrive_cases path segment with same | ⟨_, drive⟩
  · rw [same]
    exact ⟨segments_plain plain segment mem, single, double⟩
  · exact isNormalized_plain drive

end FileUrl

/-- A parsed URL of the scheme `file`. -/
structure FileUrl where
  host : List Nat
  path : List (List Nat)
  query : Option (List Nat)
  fragment : Option (List Nat)
  resolved : ∀ segment ∈ path, FileUrl.Resolved segment

namespace FileUrl

def fileSlashPath (input : List Nat) (base : FileUrl) : List (List Nat) :=
  match base.path with
  | drive :: _ =>
    if !startsWithWindowsDriveLetter input && isNormalizedWindowsDriveLetter drive then [drive]
    else []
  | [] => []

def pathStart : List Nat → List Nat
  | [] => []
  | c :: rest => if isSlash c then rest else c :: rest

theorem fileSlashPath_resolved (input : List Nat) (base : FileUrl) :
    ∀ segment ∈ fileSlashPath input base, Resolved segment := by
  intro segment mem
  unfold fileSlashPath at mem
  split at mem
  next drive _ eq =>
    split at mem
    next =>
      rw [List.mem_singleton.mp mem]
      exact base.resolved drive (eq ▸ List.mem_cons_self)
    next => exact absurd mem List.not_mem_nil
  next => exact absurd mem List.not_mem_nil

def ofPath (host : List Nat) (path : List (List Nat)) (buffer input : List Nat)
    (kept : ∀ segment ∈ path, Resolved segment) (plain : 0x2F ∉ buffer) : FileUrl where
  host := host
  path := pathState path buffer input
  query := none
  fragment := none
  resolved := pathState_resolved kept plain

/-- The file host state, behind two slashes. `parseHost` is the host parser. A drive letter is read
as the beginning of the path. -/
def fileHost (parseHost : List Nat → Option (List Nat)) (input : List Nat) : Option FileUrl :=
  let buffer := input.takeWhile fun c => !isSlash c
  let rest := input.dropWhile fun c => !isSlash c
  if isWindowsDriveLetter buffer then
    some (ofPath [] [] buffer rest (fun _ mem => absurd mem List.not_mem_nil) (plain_takeWhile input))
  else if buffer.isEmpty then
    some (ofPath [] [] [] (pathStart rest) (fun _ mem => absurd mem List.not_mem_nil) List.not_mem_nil)
  else
    match parseHost buffer with
    | none => none
    | some host =>
      let host := if host = "localhost".toList.map Char.toNat then [] else host
      some (ofPath host [] [] (pathStart rest) (fun _ mem => absurd mem List.not_mem_nil) List.not_mem_nil)

/-- The basic URL parser with a base URL of the scheme `file`, on an input without `:`, `?`
and `#`. -/
def parseClean (parseHost : List Nat → Option (List Nat)) (base : FileUrl) : List Nat → Option FileUrl
  | [] => some { base with fragment := none }
  | c :: rest =>
    if isSlash c then
      match rest with
      | d :: behind =>
        if isSlash d then fileHost parseHost behind
        else some (ofPath base.host (fileSlashPath rest base) [] rest
          (fileSlashPath_resolved rest base) List.not_mem_nil)
      | [] => some (ofPath base.host (fileSlashPath [] base) [] []
          (fileSlashPath_resolved [] base) List.not_mem_nil)
    else if startsWithWindowsDriveLetter (c :: rest) then
      some (ofPath base.host [] [] (c :: rest) (fun _ mem => absurd mem List.not_mem_nil) List.not_mem_nil)
    else
      some (ofPath base.host (shorten base.path) [] (c :: rest)
        (fun segment mem => base.resolved segment ((shorten_sublist base.path).mem mem))
        List.not_mem_nil)

def parse (parseHost : List Nat → Option (List Nat)) (input : JsString) (base : FileUrl) : Option FileUrl :=
  parseClean parseHost base (clean (scalarValues input))

def pathnameOf (path : List (List Nat)) : List Nat := path.flatMap fun segment => 0x2F :: segment

def pathname (url : FileUrl) : List Nat := pathnameOf url.path

def StrictlyUnder (url directory : FileUrl) : Prop :=
  url.host = directory.host ∧ ∃ rest, rest ≠ [] ∧ url.pathname = directory.pathname ++ rest

inductive SegmentKind
  | up
  | stay
  | into
deriving DecidableEq

def kindOf (segment : List Nat) : SegmentKind :=
  if isDoubleDot segment then .up else if isSingleDot segment then .stay else .into

/-- Reading the segments never climbs above the start and ends at a place below it. -/
def Descends (depth : Nat) : List (List Nat) → Prop
  | [] => False
  | [last] =>
    match kindOf last with
    | .up => 2 ≤ depth
    | .stay => 1 ≤ depth
    | .into => 0 < depth ∨ last ≠ []
  | segment :: rest =>
    match kindOf segment with
    | .up => 0 < depth ∧ Descends (depth - 1) rest
    | .stay => Descends depth rest
    | .into => Descends (depth + 1) rest

section

variable {buffer : List Nat}

theorem endSegment_up (h : kindOf buffer = .up) (path : List (List Nat)) (slash : Bool) :
    endSegment path buffer slash = if slash then shorten path else shorten path ++ [[]] := by
  unfold kindOf at h
  split at h
  next double => exact if_pos double
  next => split at h <;> cases h

theorem endSegment_stay (h : kindOf buffer = .stay) (path : List (List Nat)) (slash : Bool) :
    endSegment path buffer slash = if slash then path else path ++ [[]] := by
  unfold kindOf at h
  split at h
  next => cases h
  next double =>
    split at h
    next single => exact (if_neg double).trans (if_pos single)
    next => cases h

theorem endSegment_into (h : kindOf buffer = .into) (path : List (List Nat)) (slash : Bool) :
    endSegment path buffer slash = path ++ [normalizeDrive path buffer] := by
  unfold kindOf at h
  split at h
  next => cases h
  next double =>
    split at h
    next => cases h
    next single => exact (if_neg double).trans (if_neg single)

end

variable {front path entries : List (List Nat)}

theorem shorten_append (ne : front ≠ []) (path : List (List Nat))
    (deep : path ≠ []) : shorten (front ++ path) = front ++ path.dropLast := by
  obtain ⟨first, others, rfl⟩ := List.exists_cons_of_ne_nil ne
  obtain ⟨second, rest, rfl⟩ := List.exists_cons_of_ne_nil deep
  have long : shorten (first :: others ++ second :: rest) =
      (first :: others ++ second :: rest).dropLast := by
    unfold shorten
    split
    next eq =>
      have := congrArg List.length eq
      simp at this
    next => rfl
  rw [long, List.dropLast_append_of_ne_nil (List.cons_ne_nil _ _)]

theorem normalizeDrive_of_ne_nil (ne : path ≠ []) (buffer : List Nat) :
    normalizeDrive path buffer = buffer :=
  if_neg fun h => ne h.1

theorem concat_ne_root {last : List Nat} (h : 0 < path.length ∨ last ≠ []) : path ++ [last] ≠ [[]] := by
  intro eq
  cases path with
  | nil =>
    rcases h with deep | ne
    · exact absurd deep (Nat.lt_irrefl 0)
    · exact ne (List.head_eq_of_cons_eq eq)
  | cons _ others => exact List.append_ne_nil_of_right_ne_nil others (by simp) (List.cons.inj eq).2

theorem walk_descends (ne : front ≠ []) (path : List (List Nat)) (h : Descends path.length entries) :
    ∃ behind, behind ≠ [] ∧ behind ≠ [[]] ∧ walk (front ++ path) entries = front ++ behind := by
  induction entries generalizing path with
  | nil => exact h.elim
  | cons segment rest ih =>
    have named : normalizeDrive (front ++ path) segment = segment :=
      normalizeDrive_of_ne_nil (List.append_ne_nil_of_left_ne_nil ne path) segment
    cases rest with
    | nil =>
      unfold Descends at h
      unfold walk
      cases kind : kindOf segment with
      | up =>
        simp only [kind] at h
        have deep : path ≠ [] := List.ne_nil_of_length_pos (by omega)
        have shorter : 0 < path.dropLast.length := by
          rw [List.length_dropLast]
          omega
        rw [endSegment_up kind, shorten_append ne path deep]
        exact ⟨path.dropLast ++ [[]], by simp, concat_ne_root (.inl shorter), by simp⟩
      | stay =>
        simp only [kind] at h
        rw [endSegment_stay kind]
        exact ⟨path ++ [[]], by simp, concat_ne_root (.inl h), by simp⟩
      | into =>
        simp only [kind] at h
        rw [endSegment_into kind, named]
        exact ⟨path ++ [segment], by simp, concat_ne_root h, by simp⟩
    | cons second others =>
      unfold Descends at h
      unfold walk
      cases kind : kindOf segment with
      | up =>
        simp only [kind] at h
        have deep : path ≠ [] := List.ne_nil_of_length_pos h.1
        rw [endSegment_up kind, if_pos rfl, shorten_append ne path deep]
        apply ih
        rw [List.length_dropLast]
        exact h.2
      | stay =>
        simp only [kind] at h
        rw [endSegment_stay kind, if_pos rfl]
        exact ih path h
      | into =>
        simp only [kind] at h
        rw [endSegment_into kind, named, List.append_assoc]
        apply ih
        rw [List.length_append]
        exact h

theorem shorten_drive {drive : List Nat} (h : isNormalizedWindowsDriveLetter drive = true)
    (path : List (List Nat)) : ∃ rest, shorten (drive :: path) = drive :: rest := by
  cases path with
  | nil => exact ⟨[], if_pos h⟩
  | cons second others => exact ⟨(second :: others).dropLast, rfl⟩

theorem endSegment_drive {drive : List Nat} (h : isNormalizedWindowsDriveLetter drive = true)
    (path : List (List Nat)) (segment : List Nat) (slash : Bool) :
    ∃ rest, endSegment (drive :: path) segment slash = drive :: rest := by
  obtain ⟨shorter, eq⟩ := shorten_drive h path
  cases kind : kindOf segment with
  | up =>
    rw [endSegment_up kind, eq]
    cases slash <;> exact ⟨_, rfl⟩
  | stay =>
    rw [endSegment_stay kind]
    cases slash <;> exact ⟨_, rfl⟩
  | into => exact ⟨_, endSegment_into kind _ _⟩

theorem walk_drive {drive : List Nat} (h : isNormalizedWindowsDriveLetter drive = true)
    (path entries : List (List Nat)) :
    walk (drive :: path) entries ≠ [] ∧ walk (drive :: path) entries ≠ [[]] := by
  induction entries generalizing path with
  | nil =>
    refine ⟨List.cons_ne_nil _ _, ?_⟩
    intro root
    rw [List.head_eq_of_cons_eq root] at h
    exact absurd h (by decide)
  | cons segment rest ih =>
    cases rest with
    | nil =>
      obtain ⟨next, eq⟩ := endSegment_drive h path segment false
      unfold walk
      rw [eq]
      exact ih next
    | cons second others =>
      obtain ⟨next, eq⟩ := endSegment_drive h path segment true
      unfold walk
      rw [eq]
      exact ih next

theorem shorten_cases (path : List (List Nat)) : shorten path = path.dropLast ∨
    ∃ drive, path = [drive] ∧ isNormalizedWindowsDriveLetter drive = true := by
  unfold shorten
  split
  next drive =>
    by_cases letter : isNormalizedWindowsDriveLetter drive = true
    · exact .inr ⟨drive, rfl, letter⟩
    · exact .inl (if_neg letter)
  next => exact .inl rfl

theorem walk_root (path : List (List Nat)) (h : Descends path.length entries) :
    walk path entries ≠ [] ∧ walk path entries ≠ [[]] := by
  induction entries generalizing path with
  | nil => exact h.elim
  | cons segment rest ih =>
    rcases shorten_cases path with shorter | ⟨drive, rfl, letter⟩
    · cases rest with
      | nil =>
        unfold Descends at h
        unfold walk
        cases kind : kindOf segment with
        | up =>
          simp only [kind] at h
          have deep : 0 < path.dropLast.length := by
            rw [List.length_dropLast]
            omega
          rw [endSegment_up kind, shorter]
          exact ⟨by simp, concat_ne_root (.inl deep)⟩
        | stay =>
          simp only [kind] at h
          rw [endSegment_stay kind]
          exact ⟨by simp, concat_ne_root (.inl h)⟩
        | into =>
          simp only [kind] at h
          rw [endSegment_into kind]
          rcases normalizeDrive_cases path segment with named | ⟨rfl, letter⟩
          · rw [named]
            exact ⟨by simp, concat_ne_root h⟩
          · exact walk_drive letter [] []
      | cons second others =>
        unfold Descends at h
        unfold walk
        cases kind : kindOf segment with
        | up =>
          simp only [kind] at h
          rw [endSegment_up kind, if_pos rfl, shorter]
          apply ih
          rw [List.length_dropLast]
          exact h.2
        | stay =>
          simp only [kind] at h
          rw [endSegment_stay kind, if_pos rfl]
          exact ih path h
        | into =>
          simp only [kind] at h
          rw [endSegment_into kind]
          rcases normalizeDrive_cases path segment with named | ⟨rfl, letter⟩
          · rw [named]
            apply ih
            rw [List.length_append]
            exact h
          · exact walk_drive letter [] (second :: others)
    · exact walk_drive letter [] _

/-- A walk that does not descend, from a directory whose name is longer than every segment, ends in
that directory or beside it. -/
theorem walk_escapes {fresh : List Nat} (long : 3 ≤ fresh.length)
    (ne : entries ≠ []) (short : ∀ segment ∈ entries, segment.length < fresh.length)
    (path : List (List Nat)) (inside : ∀ segment ∈ path, segment.length < fresh.length)
    (h : ¬Descends path.length entries) : walk (fresh :: path) entries = [fresh, []] ∨
      ∀ segment ∈ walk (fresh :: path) entries, segment.length < fresh.length := by
  have nowhere : shorten [fresh] = [] := by
    apply if_neg
    intro letter
    unfold isNormalizedWindowsDriveLetter at letter
    split at letter
    next => exact absurd long (by simp)
    next => exact absurd letter (by decide)
  have deeper (path : List (List Nat)) (deep : path ≠ []) :
      shorten (fresh :: path) = fresh :: path.dropLast :=
    shorten_append (List.cons_ne_nil fresh []) path deep
  induction entries generalizing path with
  | nil => exact absurd rfl ne
  | cons segment rest ih =>
    have small : segment.length < fresh.length := short segment List.mem_cons_self
    cases rest with
    | nil =>
      unfold Descends at h
      unfold walk
      cases kind : kindOf segment with
      | up =>
        simp only [kind] at h
        rw [endSegment_up kind, if_neg Bool.false_ne_true]
        by_cases deep : path = []
        · right
          rw [deep, nowhere]
          intro segment mem
          rw [List.mem_singleton.mp mem]
          exact Nat.lt_of_lt_of_le (by decide) long
        · left
          have one : path.dropLast = [] := by
            apply List.eq_nil_of_length_eq_zero
            rw [List.length_dropLast]
            omega
          rw [deeper path deep, one]
          rfl
      | stay =>
        simp only [kind] at h
        have root : path = [] := List.eq_nil_of_length_eq_zero (by omega)
        rw [endSegment_stay kind, root]
        exact .inl rfl
      | into =>
        simp only [kind] at h
        obtain ⟨flat, empty⟩ := not_or.mp h
        have root : path = [] := List.eq_nil_of_length_eq_zero (by omega)
        rw [endSegment_into kind, normalizeDrive_of_ne_nil (List.cons_ne_nil _ _), root, not_not.mp empty]
        exact .inl rfl
    | cons second others =>
      have later : ∀ segment ∈ second :: others, segment.length < fresh.length :=
        fun segment mem => short segment (List.mem_cons_of_mem _ mem)
      unfold Descends at h
      unfold walk
      cases kind : kindOf segment with
      | up =>
        simp only [kind] at h
        rw [endSegment_up kind, if_pos rfl]
        by_cases deep : path = []
        · right
          rw [deep, nowhere]
          refine walk_forall (Nat.lt_of_lt_of_le (by decide) long) nofun ?_
          intro path segment mem _ _
          exact Nat.lt_of_le_of_lt (normalizeDrive_length path segment) (later segment mem)
        · rw [deeper path deep]
          apply ih (List.cons_ne_nil _ _) later
          · intro segment mem
            exact inside segment ((List.dropLast_sublist path).mem mem)
          · intro descends
            rw [List.length_dropLast] at descends
            exact h ⟨List.length_pos_of_ne_nil deep, descends⟩
      | stay =>
        simp only [kind] at h
        rw [endSegment_stay kind, if_pos rfl]
        exact ih (List.cons_ne_nil _ _) later path inside h
      | into =>
        simp only [kind] at h
        rw [endSegment_into kind, normalizeDrive_of_ne_nil (List.cons_ne_nil _ _)]
        apply ih (List.cons_ne_nil _ _) later (path ++ [segment])
        · intro other mem
          rcases List.mem_append.mp mem with mem | mem
          · exact inside other mem
          · rw [List.mem_singleton.mp mem]
            exact small
        · rw [List.length_append]
          exact h

section parsing

variable (parseHost : List Nat → Option (List Nat))

variable {rest : List Nat}

theorem parseClean_relative (base : FileUrl) {c : Nat}
    (plain : isSlash c = false) (drive : startsWithWindowsDriveLetter (c :: rest) = false) :
    ∃ url, parseClean parseHost base (c :: rest) = some url ∧ url.host = base.host ∧
      url.path = walk (shorten base.path) (segments [] (c :: rest)) := by
  unfold parseClean
  simp only [plain, drive, Bool.false_eq_true, if_false]
  exact ⟨_, rfl, rfl, pathState_eq_walk _ _ _⟩

theorem parseClean_drive (base : FileUrl) {c : Nat}
    (plain : isSlash c = false) (drive : startsWithWindowsDriveLetter (c :: rest) = true) :
    ∃ url, parseClean parseHost base (c :: rest) = some url ∧ url.path = walk [] (segments [] (c :: rest)) := by
  unfold parseClean
  simp only [plain, drive, Bool.false_eq_true, if_false, if_true]
  exact ⟨_, rfl, pathState_eq_walk _ _ _⟩

theorem parseClean_refused (base : FileUrl) {a b : Nat} (first : isSlash a = true)
    (second : isSlash b = true) (letter : isWindowsDriveLetter (rest.takeWhile fun c => !isSlash c) = false)
    (named : (rest.takeWhile fun c => !isSlash c) ≠ [])
    (unknown : parseHost (rest.takeWhile fun c => !isSlash c) = none) :
    parseClean parseHost base (a :: b :: rest) = none := by
  unfold parseClean fileHost
  simp [first, second, letter, named, unknown]

theorem parseClean_host {a b : Nat} (first : isSlash a = true) (second : isSlash b = true)
    (known : ¬(isWindowsDriveLetter (rest.takeWhile fun c => !isSlash c) = false ∧
      (rest.takeWhile fun c => !isSlash c) ≠ [] ∧ parseHost (rest.takeWhile fun c => !isSlash c) = none)) :
    ∃ url, ∀ base, parseClean parseHost base (a :: b :: rest) = some url := by
  have same (base : FileUrl) :
      parseClean parseHost base (a :: b :: rest) = fileHost parseHost rest := by
    unfold parseClean
    simp only [first, second, if_true]
  have found : ∃ url, fileHost parseHost rest = some url := by
    unfold fileHost
    by_cases letter : isWindowsDriveLetter (rest.takeWhile fun c => !isSlash c) = true
    · exact ⟨_, if_pos letter⟩
    · by_cases unnamed : (rest.takeWhile fun c => !isSlash c).isEmpty = true
      · exact ⟨_, (if_neg letter).trans (if_pos unnamed)⟩
      · cases parsed : parseHost (rest.takeWhile fun c => !isSlash c) with
        | none =>
          have named : (rest.takeWhile fun c => !isSlash c) ≠ [] := by
            intro empty
            exact unnamed (by rw [empty]; rfl)
          exact absurd ⟨Bool.not_eq_true _ ▸ letter, named, parsed⟩ known
        | some host =>
          simp only [letter, unnamed, parsed, Bool.false_eq_true, if_false]
          exact ⟨_, rfl⟩
  obtain ⟨url, eq⟩ := found
  exact ⟨url, fun base => (same base).trans eq⟩

theorem parseClean_absolute (base : FileUrl) {c : Nat}
    (slash : isSlash c = true) (one : ∀ d behind, rest = d :: behind → isSlash d = false)
    (root : ∀ drive ∈ base.path.head?, isNormalizedWindowsDriveLetter drive = false) :
    ∃ url, parseClean parseHost base (c :: rest) = some url ∧ url.path = walk [] (segments [] rest) := by
  have start : fileSlashPath rest base = [] := by
    unfold fileSlashPath
    split
    next drive _ eq =>
      apply if_neg
      rw [root drive (by rw [eq]; rfl), Bool.and_false]
      exact Bool.false_ne_true
    next => rfl
  cases rest with
  | nil =>
    unfold parseClean
    simp only [slash, if_true]
    refine ⟨_, rfl, ?_⟩
    show pathState (fileSlashPath [] base) [] [] = _
    rw [start, pathState_eq_walk]
  | cons d behind =>
    unfold parseClean
    simp only [slash, one d behind rfl, Bool.false_eq_true, if_true, if_false]
    refine ⟨_, rfl, ?_⟩
    show pathState (fileSlashPath (d :: behind) base) [] (d :: behind) = _
    rw [start, pathState_eq_walk]

end parsing

end FileUrl
