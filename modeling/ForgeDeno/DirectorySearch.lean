import ForgeDeno.ConfigRepeat

namespace ForgeDeno

open List

section places

def resolvedStart (host : ConfigHost) (start : JsString) : JsString :=
  if isAbsolutePath start then start else joinPath host.workingDirectory start

/-- The directories that the loop of `findResourcesDir` looks into while it finds nothing. -/
def searched : Nat → JsString → List JsString
  | 0, _ => []
  | fuel + 1, directory =>
    if directory = [] then []
    else
      let parent := parentPath directory
      directory :: if parent = directory then [] else searched fuel parent

def pathNames (path : JsString) : List JsString :=
  (path.splitOnP isSeparator).filter fun name => !name.isEmpty

def isRooted (path : JsString) : Bool := path.head?.any isSeparator

/-- Where a directory is: below the root, or below a directory that is not known. -/
structure Place where
  rooted : Bool
  names : List JsString
deriving DecidableEq

/-- One more name of a path. A `..` of a path without a root may lead out of it. -/
def enterName (rooted : Bool) (entered : List JsString) (name : JsString) : List JsString :=
  if name = js "." then entered
  else if name = js ".." then
    match entered.getLast? with
    | none => if rooted then entered else [name]
    | some last => if last = js ".." then entered ++ [name] else entered.dropLast
  else entered ++ [name]

def enterNames (rooted : Bool) (names : List JsString) : List JsString :=
  names.foldl (enterName rooted) []

def place (path : JsString) : Place := ⟨isRooted path, enterNames (isRooted path) (pathNames path)⟩

def lineage (rooted : Bool) : List JsString → List Place
  | [] => if rooted then [⟨rooted, []⟩] else []
  | name :: above => ⟨rooted, (name :: above).reverse⟩ :: lineage rooted above

def Place.ancestors (place : Place) : List Place := lineage place.rooted place.names.reverse

def separatesNames (path : JsString) : Bool :=
  match path.dropWhile fun u => !isSeparator u with
  | [] => true
  | [_] => false
  | _ :: u :: _ => !isSeparator u

/-- The paths whose ancestors are found: no dot name changes where they lead, and without a root
the first separator stands before a name. -/
structure Searchable (path : JsString) : Prop where
  undotted : enterNames (isRooted path) (pathNames path) = pathNames path
  separated : isRooted path = true ∨ separatesNames path = true

end places

section names

variable {path name seps : JsString} {sep : UInt16}

theorem pathNames_append (path rest : JsString) (h : isSeparator sep = true) :
    pathNames (path ++ sep :: rest) = pathNames path ++ pathNames rest := by
  unfold pathNames
  rw [splitOnP_append_cons path rest h, filter_append]

theorem pathNames_seps (h : ∀ u ∈ seps, isSeparator u = true) : pathNames seps = [] := by
  induction seps with
  | nil => rfl
  | cons u seps ih =>
    obtain ⟨here, later⟩ := forall_mem_cons.mp h
    exact (pathNames_append [] seps here).trans (ih later)

theorem pathNames_name (some_unit : name ≠ []) (plain : ∀ u ∈ name, isSeparator u = false)
    (h : ∀ u ∈ seps, isSeparator u = true) : pathNames (name ++ seps) = [name] := by
  have alone : pathNames name = [name] := by
    unfold pathNames
    rw [splitOnP_eq_singleton plain]
    cases name with
    | nil => exact absurd rfl some_unit
    | cons u name => rfl
  cases seps with
  | nil => rw [append_nil, alone]
  | cons u seps =>
    obtain ⟨here, later⟩ := forall_mem_cons.mp h
    rw [pathNames_append name seps here, alone, pathNames_seps later]
    rfl

theorem isRooted_name (some_unit : name ≠ []) (plain : ∀ u ∈ name, isSeparator u = false)
    (rest : JsString) : isRooted (name ++ rest) = false := by
  cases name with
  | nil => exact absurd rfl some_unit
  | cons u name => exact plain u mem_cons_self

theorem isRooted_append (some_unit : path ≠ []) (rest : JsString) : isRooted (path ++ rest) = isRooted path := by
  cases path with
  | nil => exact absurd rfl some_unit
  | cons u path => rfl

theorem exists_span (p : UInt16 → Bool) (s : JsString) :
    ∃ front, (∀ u ∈ front, p u = true) ∧ s = front ++ s.dropWhile p ∧
      ∀ u rest, s.dropWhile p = u :: rest → p u = false := by
  refine ⟨s.takeWhile p, fun u mem => mem_takeWhile_imp mem, ?_, ?_⟩
  · exact takeWhile_append_dropWhile.symm
  · intro u rest left
    have some_unit : s.dropWhile p ≠ [] := by simp [left]
    have head := head_dropWhile_not p some_unit
    simpa [left] using head

theorem parentPath_cases (path : JsString) :
    ((∀ u ∈ path, isSeparator u = true) ∧ parentPath path = []) ∨
    (∃ name seps, path = name ++ seps ∧ name ≠ [] ∧ (∀ u ∈ name, isSeparator u = false) ∧
      (∀ u ∈ seps, isSeparator u = true) ∧ parentPath path = name) ∨
    ∃ front sep name seps, path = front ++ sep :: (name ++ seps) ∧ isSeparator sep = true ∧
      name ≠ [] ∧ (∀ u ∈ name, isSeparator u = false) ∧ (∀ u ∈ seps, isSeparator u = true) ∧
      parentPath path = if front = [] then js "/" else front := by
  obtain ⟨seps, ends, whole, visible⟩ := exists_span isSeparator path.reverse
  have trimmed : dropSeparators path = (path.reverse.dropWhile isSeparator).reverse := rfl
  generalize path.reverse.dropWhile isSeparator = rest at whole visible trimmed
  obtain ⟨name, letters, split, stop⟩ := exists_span (fun u => !isSeparator u) rest
  have path_eq : path = rest.reverse ++ seps.reverse := by
    rw [← reverse_append, ← whole, reverse_reverse]
  have ends : ∀ u ∈ seps.reverse, isSeparator u = true :=
    fun u mem => ends u (mem_reverse.mp mem)
  have plain : ∀ u ∈ name.reverse, isSeparator u = false := by
    intro u mem
    simpa using letters u (mem_reverse.mp mem)
  cases rest with
  | nil =>
    refine .inl ⟨?_, ?_⟩
    · rw [path_eq]
      exact ends
    · unfold parentPath
      rw [trimmed]
      rfl
  | cons u rest =>
    have some_unit : name.reverse ≠ [] := by
      intro none
      rw [reverse_eq_nil_iff.mp none, nil_append] at split
      have absent := stop u rest split.symm
      rw [visible u rest rfl] at absent
      cases absent
    right
    cases up : (u :: rest).dropWhile fun u => !isSeparator u with
    | nil =>
      rw [up, append_nil] at split
      refine .inl ⟨name.reverse, seps.reverse, ?_, some_unit, plain, ends, ?_⟩
      · rw [path_eq, split]
      · unfold parentPath
        rw [trimmed]
        dsimp only
        rw [reverse_reverse, up, split]
    | cons sep above =>
      rw [up] at split
      refine .inr ⟨above.reverse, sep, name.reverse, seps.reverse, ?_, ?_, some_unit, plain, ends, ?_⟩
      · rw [path_eq, split]
        simp only [reverse_append, reverse_cons, append_assoc, cons_append, nil_append]
      · simpa using stop sep above up
      · unfold parentPath
        rw [trimmed]
        dsimp only
        rw [reverse_reverse, up]
        cases above with
        | nil => rfl
        | cons v above => rw [if_neg (by simp)]

end names

section walk

theorem lineage_concat (rooted : Bool) (names : List JsString) (name : JsString) :
    (Place.ancestors ⟨rooted, names ++ [name]⟩) =
      ⟨rooted, names ++ [name]⟩ :: Place.ancestors ⟨rooted, names⟩ := by
  unfold Place.ancestors
  rw [reverse_concat, lineage, reverse_cons, reverse_reverse]

theorem length_ancestors (p : Place) : p.ancestors.length = p.names.length + if p.rooted then 1 else 0 := by
  obtain ⟨rooted, names⟩ := p
  induction names using reverseRecOn with
  | nil => cases rooted <;> rfl
  | append_singleton names name ih =>
    rw [lineage_concat, length_cons, ih, length_append, length_singleton]
    dsimp only
    omega

def spelled (path : JsString) : Place := ⟨isRooted path, pathNames path⟩

variable {path name : JsString}

theorem searched_cons {fuel : Nat} (some_unit : path ≠ []) : searched (fuel + 1) path =
      path :: if parentPath path = path then [] else searched fuel (parentPath path) := by
  rw [searched, if_neg some_unit]

theorem searched_nil (fuel : Nat) : searched fuel [] = [] := by
  cases fuel with
  | zero => rfl
  | succ fuel => rw [searched, if_pos rfl]

theorem separatesNames_append {front : JsString} {sep : UInt16} (some_unit : name ≠ [])
    (plain : ∀ u ∈ name, isSeparator u = false) (h : isSeparator sep = true) (rest : JsString) :
    separatesNames (front ++ sep :: (name ++ rest)) = separatesNames front := by
  obtain ⟨letters, shown, split, stop⟩ := exists_span (fun u => !isSeparator u) front
  obtain ⟨v, name, rfl⟩ := exists_cons_of_ne_nil some_unit
  have next := plain v mem_cons_self
  unfold separatesNames
  cases up : front.dropWhile fun u => !isSeparator u with
  | nil =>
    rw [up, append_nil] at split
    rw [split, dropWhile_append_of_pos shown, dropWhile_cons]
    simp [h, next]
  | cons u later =>
    have first : front.dropWhile (fun u => !isSeparator u) ≠ [] := by simp [up]
    have kept : (front ++ sep :: (v :: name ++ rest)).dropWhile (fun u => !isSeparator u) =
        u :: (later ++ sep :: (v :: name ++ rest)) := by
      rw [dropWhile_append, up]
      rfl
    rw [kept]
    cases later with
    | nil => simp [h]
    | cons w later => rfl

theorem separatesNames_name (plain : ∀ u ∈ name, isSeparator u = false) :
    separatesNames name = true := by
  have shown : ∀ v ∈ name, (!isSeparator v) = true := fun v mem => by rw [plain v mem]; rfl
  unfold separatesNames
  rw [dropWhile_eq_nil_iff.mpr shown]

theorem separatesNames_seps {seps : JsString} {u : UInt16}
    (plain : ∀ u ∈ name, isSeparator u = false) (ends : ∀ v ∈ u :: seps, isSeparator v = true) :
    separatesNames (name ++ u :: seps) = false := by
  obtain ⟨here, later⟩ := forall_mem_cons.mp ends
  have shown : ∀ v ∈ name, (!isSeparator v) = true := fun v mem => by rw [plain v mem]; rfl
  unfold separatesNames
  rw [dropWhile_append_of_pos shown, dropWhile_cons, here]
  cases seps with
  | nil => rfl
  | cons w seps =>
    have next := later w mem_cons_self
    simp [next]

theorem searched_spelled {fuel : Nat} {path : JsString} (room : path.length < fuel)
    (some_unit : path ≠ []) (separated : isRooted path = true ∨ separatesNames path = true) :
    (searched fuel path).map spelled = (spelled path).ancestors := by
  induction fuel generalizing path with
  | zero => omega
  | succ fuel ih =>
    rw [searched_cons some_unit, map_cons]
    rcases parentPath_cases path with ⟨slashes, parent⟩ |
      ⟨name, seps, rfl, some_name, plain, ends, parent⟩ |
      ⟨front, sep, name, seps, rfl, slash, some_name, plain, ends, parent⟩
    · obtain ⟨u, path, rfl⟩ := exists_cons_of_ne_nil some_unit
      have rooted : isRooted (u :: path) = true := slashes u mem_cons_self
      rw [parent, if_neg (cons_ne_nil u path).symm, searched_nil]
      unfold spelled
      rw [rooted, pathNames_seps slashes]
      rfl
    · have rootless := isRooted_name some_name plain seps
      have alone : seps = [] := by
        rcases separated with rooted | separated
        · cases rootless.symm.trans rooted
        · cases seps with
          | nil => rfl
          | cons u seps =>
            rw [separatesNames_seps plain ends] at separated
            cases separated
      have names := pathNames_name some_name plain ends
      rw [alone, append_nil] at parent rootless names
      rw [alone, append_nil, if_pos parent]
      unfold spelled
      rw [rootless, names]
      rfl
    · have shown : pathNames (front ++ sep :: (name ++ seps)) = pathNames front ++ [name] := by
        rw [pathNames_append front _ slash, pathNames_name some_name plain ends]
      have shorter : front.length + 1 < (front ++ sep :: (name ++ seps)).length := by
        have positive := length_pos_iff.mpr some_name
        simp only [length_append, length_cons]
        omega
      by_cases top : front = []
      · subst top
        rw [if_pos rfl] at parent
        rw [length_nil] at shorter
        have rooted : isRooted ([] ++ sep :: (name ++ seps)) = true := slash
        have above : js "/" ≠ [] ++ sep :: (name ++ seps) := by
          intro same
          rw [← same] at shorter
          exact absurd shorter (by decide)
        have short : (js "/").length = 1 := by decide
        have root : spelled (js "/") = ⟨true, []⟩ := by decide
        have rest := @ih (js "/") (by omega) (by decide) (.inl (by decide))
        rw [parent, if_neg above, rest, root]
        unfold spelled
        rw [shown, rooted, lineage_concat]
        rfl
      · rw [if_neg top] at parent
        have lower : front ≠ front ++ sep :: (name ++ seps) := by
          intro same
          have length := congrArg List.length same
          omega
        have rooted := isRooted_append top (sep :: (name ++ seps))
        have rest := @ih front (by omega) top (by
          rw [rooted, separatesNames_append some_name plain slash] at separated
          exact separated)
        rw [parent, if_neg lower, rest]
        unfold spelled
        rw [shown, rooted, lineage_concat]

theorem searched_length {fuel : Nat} (room : path.length < fuel)
    (rootless : isRooted path = false) (joined : separatesNames path = false) :
    (searched fuel path).length = (pathNames path).length + 1 := by
  induction fuel generalizing path with
  | zero => omega
  | succ fuel ih =>
    have some_unit : path ≠ [] := by
      intro none
      rw [none] at joined
      cases joined
    rw [searched_cons some_unit, length_cons]
    rcases parentPath_cases path with ⟨slashes, parent⟩ |
      ⟨name, seps, rfl, some_name, plain, ends, parent⟩ |
      ⟨front, sep, name, seps, rfl, slash, some_name, plain, ends, parent⟩
    · obtain ⟨u, path, rfl⟩ := exists_cons_of_ne_nil some_unit
      have rooted : isRooted (u :: path) = true := slashes u mem_cons_self
      rw [rootless] at rooted
      cases rooted
    · have whole := separatesNames_name plain
      cases seps with
      | nil =>
        rw [append_nil, whole] at joined
        cases joined
      | cons u seps =>
        have longer : name ≠ name ++ u :: seps := by
          intro same
          have length := congrArg List.length same
          simp at length
        have above : isRooted name = false := by
          rw [← isRooted_append some_name (u :: seps)]
          exact rootless
        have names : pathNames name = [name] := by
          have alone := pathNames_name some_name plain (forall_mem_nil _)
          rwa [append_nil] at alone
        have again := @searched_spelled fuel name (by simp at room; omega) some_name (.inr whole)
        have one := congrArg List.length again
        rw [length_map, length_ancestors, spelled, above, names] at one
        rw [parent, if_neg longer, one, pathNames_name some_name plain ends]
        rfl
    · by_cases top : front = []
      · subst top
        have rooted : isRooted ([] ++ sep :: (name ++ seps)) = true := slash
        rw [rootless] at rooted
        cases rooted
      · rw [if_neg top] at parent
        rw [separatesNames_append some_name plain slash] at joined
        rw [isRooted_append top] at rootless
        have lower : front ≠ front ++ sep :: (name ++ seps) := by
          intro same
          have length := congrArg List.length same
          simp at length
        have rest := @ih front (by simp at room; omega) rootless joined
        rw [parent, if_neg lower, rest, pathNames_append front _ slash,
          pathNames_name some_name plain ends, length_append, length_singleton]

theorem parentPath_shorter (some_unit : path ≠ []) (above : parentPath path ≠ path) :
    (parentPath path).length < path.length := by
  rcases parentPath_cases path with ⟨-, parent⟩ | ⟨name, seps, rfl, some_name, -, -, parent⟩ |
    ⟨front, sep, name, seps, rfl, -, some_name, -, -, parent⟩
  · rw [parent]
    exact length_pos_iff.mpr some_unit
  · rw [parent] at above ⊢
    cases seps with
    | nil => exact absurd (append_nil name).symm above
    | cons u seps => simp
  · have positive := length_pos_iff.mpr some_name
    have short : (js "/").length = 1 := by decide
    rw [parent]
    split
    · rw [short]
      simp only [length_append, length_cons]
      omega
    · simp only [length_append, length_cons]
      omega

theorem searched_fuel {a b : Nat} (roomA : path.length < a)
    (roomB : path.length < b) : searched a path = searched b path := by
  induction a generalizing b path with
  | zero => omega
  | succ a ih =>
    cases b with
    | zero => omega
    | succ b =>
      by_cases some_unit : path = []
      · rw [some_unit, searched_nil, searched_nil]
      · rw [searched_cons some_unit, searched_cons some_unit]
        by_cases top : parentPath path = path
        · rw [if_pos top, if_pos top]
        · have shorter := parentPath_shorter some_unit top
          rw [if_neg top, if_neg top, ih (b := b) (by omega) (by omega)]

theorem findResourcesFrom_eq (host : ConfigHost) (env : Environment) (fuel : Nat) (path : JsString) :
    findResourcesFrom host env fuel path =
      ((searched fuel path).map (joinPath · RESOURCES_DIR)).find? (hasConfigFiles host env) := by
  induction fuel generalizing path with
  | zero => rfl
  | succ fuel ih =>
    by_cases some_unit : path = []
    · rw [findResourcesFrom, if_pos some_unit, searched, if_pos some_unit]
      rfl
    · rw [findResourcesFrom, if_neg some_unit, searched_cons some_unit, map_cons]
      dsimp only
      by_cases found : hasConfigFiles host env (joinPath path RESOURCES_DIR) = true
      · rw [if_pos found, find?_cons_of_pos found]
      · rw [if_neg found, find?_cons_of_neg found]
        by_cases top : parentPath path = path
        · rw [if_pos top, if_pos top]
          rfl
        · rw [if_neg top, if_neg top, ih]

theorem mem_ancestors {rooted : Bool} {names : List JsString} {p : Place}
    (mem : p ∈ Place.ancestors ⟨rooted, names⟩) : p.rooted = rooted ∧ ∃ later, names = p.names ++ later := by
  induction names using reverseRecOn with
  | nil =>
    cases rooted with
    | false => cases mem
    | true =>
      rw [mem_singleton.mp mem]
      exact ⟨rfl, [], rfl⟩
  | append_singleton names name ih =>
    rw [lineage_concat] at mem
    rcases mem_cons.mp mem with rfl | above
    · exact ⟨rfl, [], (append_nil _).symm⟩
    · obtain ⟨same, later, split⟩ := ih above
      exact ⟨same, later ++ [name], by rw [split, append_assoc]⟩

end walk

section dots

variable {rooted : Bool} {entered names : List JsString} {name : JsString}

theorem enterName_length (rooted : Bool) (entered : List JsString) (name : JsString) :
    (enterName rooted entered name).length ≤ entered.length ∨
      enterName rooted entered name = entered ++ [name] := by
  unfold enterName
  split
  next => exact .inl le_rfl
  next =>
    split
    next =>
      split
      next empty =>
        split
        next => exact .inl le_rfl
        next =>
          rw [getLast?_eq_none_iff.mp empty]
          exact .inr rfl
      next =>
        split
        next => exact .inr rfl
        next =>
          left
          rw [length_dropLast]
          omega
    next => exact .inr rfl

theorem enterNames_concat (rooted : Bool) (names : List JsString) (name : JsString) :
    enterNames rooted (names ++ [name]) = enterName rooted (enterNames rooted names) name :=
  foldl_concat ..

theorem enterNames_length (rooted : Bool) (names : List JsString) :
    (enterNames rooted names).length < names.length ∨ enterNames rooted names = names := by
  induction names using reverseRecOn with
  | nil => exact .inr rfl
  | append_singleton names name ih =>
    rw [enterNames_concat, length_append, length_singleton]
    have within : (enterNames rooted names).length ≤ names.length := by
      rcases ih with less | same
      · omega
      · rw [same]
    rcases enterName_length rooted (enterNames rooted names) name with less | grown
    · left
      omega
    · rcases ih with less | same
      · left
        rw [grown, length_append, length_singleton]
        omega
      · right
        rw [grown, same]

theorem enterNames_prefix {later : List JsString}
    (undotted : enterNames rooted (names ++ later) = names ++ later) : enterNames rooted names = names := by
  induction later using reverseRecOn with
  | nil => rwa [append_nil] at undotted
  | append_singleton later name ih =>
    apply ih
    rw [← append_assoc, enterNames_concat] at undotted
    rcases enterNames_length rooted (names ++ later) with less | same
    · rcases enterName_length rooted (enterNames rooted (names ++ later)) name with short | grown
      · have length := congrArg List.length undotted
        rw [length_append, length_singleton] at length
        omega
      · rw [grown] at undotted
        exact (append_inj' undotted rfl).1
    · exact same

end dots

section search

variable {path : JsString}

theorem place_of_undotted (undotted : enterNames (isRooted path) (pathNames path) = pathNames path) :
    place path = spelled path := by
  unfold place
  rw [undotted]
  rfl

theorem places_searched (searchable : Searchable path) :
    (searched (path.length + 1) path).map place = (place path).ancestors := by
  by_cases some_unit : path = []
  · rw [some_unit]
    rfl
  · have steps := searched_spelled (Nat.lt_add_one _) some_unit searchable.separated
    rw [place_of_undotted searchable.undotted, ← steps, map_inj_left]
    intro probed mem
    have above : spelled probed ∈ (spelled path).ancestors := by
      rw [← steps]
      exact mem_map_of_mem mem
    obtain ⟨rooted, later, split⟩ := mem_ancestors above
    apply place_of_undotted
    have undotted := searchable.undotted
    rw [split] at undotted
    have first := enterNames_prefix undotted
    rw [← rooted] at first
    exact first

theorem searchable_of_places (places : (searched (path.length + 1) path).map place = (place path).ancestors) :
    Searchable path := by
  by_cases some_unit : path = []
  · rw [some_unit]
    exact ⟨rfl, .inr rfl⟩
  · have length := congrArg List.length places
    rw [length_map, length_ancestors] at length
    have fewer := enterNames_length (isRooted path) (pathNames path)
    have separated : isRooted path = true ∨ separatesNames path = true := by
      by_contra neither
      rw [not_or, Bool.not_eq_true, Bool.not_eq_true] at neither
      rw [searched_length (Nat.lt_add_one _) neither.1 neither.2] at length
      simp only [place, neither.1, Bool.false_eq_true, if_false] at length fewer
      rcases fewer with less | same
      · omega
      · rw [same] at length
        omega
    refine ⟨?_, separated⟩
    rcases fewer with less | same
    · have steps := congrArg List.length
        (searched_spelled (Nat.lt_add_one path.length) some_unit separated)
      rw [length_map, length_ancestors] at steps
      have count : (enterNames (isRooted path) (pathNames path)).length = (pathNames path).length :=
        Nat.add_right_cancel (length.symm.trans steps)
      omega
    · exact same

end search

/-- The search ends and finds the first of the directories it looks into that holds configuration.
These are the start and its ancestors, once each and nearest first, where the start is
searchable. -/
theorem directory_search (host : ConfigHost) (env : Environment) (start : JsString) :
    (∀ fuel, (resolvedStart host start).length < fuel →
      findResourcesFrom host env fuel (resolvedStart host start) = findResourcesDir host env start ∧
      searched fuel (resolvedStart host start) =
        searched ((resolvedStart host start).length + 1) (resolvedStart host start)) ∧
    findResourcesDir host env start =
      ((searched ((resolvedStart host start).length + 1) (resolvedStart host start)).map
        (joinPath · RESOURCES_DIR)).find? (hasConfigFiles host env) ∧
    ((searched ((resolvedStart host start).length + 1) (resolvedStart host start)).map place =
        (place (resolvedStart host start)).ancestors ↔ Searchable (resolvedStart host start)) := by
  have whole : findResourcesDir host env start = findResourcesFrom host env
    ((resolvedStart host start).length + 1) (resolvedStart host start) := rfl
  refine ⟨?_, ?_, searchable_of_places, places_searched⟩
  · intro fuel room
    have enough := searched_fuel room (Nat.lt_add_one _)
    rw [whole, findResourcesFrom_eq, findResourcesFrom_eq, enough]
    exact ⟨rfl, rfl⟩
  · rw [whole, findResourcesFrom_eq]

/-- The root of a drive is looked into twice: its parent is the drive's name. -/
theorem drive_searched_twice :
    (searched ((resolvedStart namedHost (js "C:\\")).length + 1)
        (resolvedStart namedHost (js "C:\\"))).map place ≠
      (place (resolvedStart namedHost (js "C:\\"))).ancestors ∧
    (searched 4 (js "C:\\")).map (joinPath · RESOURCES_DIR) =
      [js "C:/resources", js "C:/resources"] := by
  have start : resolvedStart namedHost (js "C:\\") = js "C:\\" := by decide
  rw [start]
  refine ⟨?_, ?_⟩
  · decide
  · decide

end ForgeDeno
