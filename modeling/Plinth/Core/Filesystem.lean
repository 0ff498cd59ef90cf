import Plinth.Core.Bytes

/-!
# Paths and file systems

Paths as `std::filesystem::path` iterates over them, a file system with symbolic links, and
`weakly_canonical`. Below a directory without symbolic links, names other than `.` and `..` lead
to the directory's own descendants, and `weakly_canonical` appends them to what it makes of the
directory.
-/

namespace Plinth.Core

open List

/-- A file name; the empty name stands after a separator at the end of a path. -/
abbrev Name := Bytes

namespace Name

def dot : Name := [0x2e]

def dotDot : Name := [0x2e, 0x2e]

/-- A name that path resolution looks up in a directory. -/
def Plain (name : Name) : Prop := name ≠ [] ∧ name ≠ dot ∧ name ≠ dotDot

instance (name : Name) : Decidable name.Plain :=
  inferInstanceAs (Decidable (_ ∧ _ ∧ _))

end Name

structure Path where
  absolute : Bool
  names : List Name
  deriving DecidableEq

namespace Path

def slash : UInt8 := 0x2f

/-- The iteration over a text: repeated separators count once, and a separator after the last
name is an empty name. -/
def parse (text : Bytes) : Path where
  absolute := text.head? == some slash
  names :=
    let names := (text.splitOn slash).filter (· != [])
    if names != [] && text.getLast? == some slash then names ++ [[]] else names

def components (text : Bytes) : List Name :=
  if (text.splitOn slash).getLast? = some [] then (text.splitOn slash).dropLast
  else text.splitOn slash

/-- A loop that cuts a text at its separators until nothing is left. -/
def scan (accepts : Name → Bool) (remaining : Bytes) : Bool :=
  if remaining = [] then true
  else if !accepts (remaining.takeWhile (· != slash)) then false
  else
    match _split : remaining.dropWhile (· != slash) with
    | [] => true
    | _ :: rest => scan accepts rest
  termination_by remaining.length
  decreasing_by
    have shorter := (dropWhile_suffix (· != slash) (l := remaining)).length_le
    simp only [_split, length_cons] at shorter
    omega

def base (path : Path) : List Name :=
  if path.names.getLast? = some [] then path.names.dropLast else path.names

def HasFilename (path : Path) : Prop := ∃ name, path.names.getLast? = some name ∧ name ≠ []

/-- `operator/`. -/
def append (path other : Path) : Path :=
  if other.absolute then other
  else if other.names = [] then
    if path.base = [] then path else { path with names := path.base ++ [[]] }
  else { path with names := path.base ++ other.names }

def elements (path : Path) : List Name :=
  (if path.absolute then [[slash]] else []) ++ path.names

def push (absolute : Bool) (names : List Name) (name : Name) : List Name :=
  if name = [] ∨ name = Name.dot then names
  else if name = Name.dotDot then
    match names.getLast? with
    | none => if absolute then [] else [name]
    | some last => if last = Name.dotDot then names ++ [name] else names.dropLast
  else names ++ [name]

def lexicallyNormal (path : Path) : Path :=
  let names := path.names.foldl (push path.absolute) []
  if names = [] then
    if path.absolute ∨ path.names = [] then { path with names := [] }
    else { path with names := [Name.dot] }
  else if path.names.getLast?.all (·.Plain) ∨ names.getLast? = some Name.dotDot then
    { path with names := names }
  else { path with names := names ++ [[]] }

def Descent (names : List Name) : Prop :=
  ∃ inner : List Name, inner ≠ [] ∧ (∀ name ∈ inner, name.Plain) ∧
    (names = inner ∨ names = inner ++ [[]])

/-- A path with the elements of another one and some names after them. -/
def StrictlyInside (root path : Path) : Prop :=
  path.absolute = root.absolute ∧ ∃ names, Descent names ∧ path.names = root.names ++ names

def Same (root path : Path) : Prop :=
  path = root ∨ path = { root with names := root.names ++ [[]] }

theorem HasFilename.names_ne_nil {path : Path} (named : path.HasFilename) : path.names ≠ [] := by
  rintro isNil
  rcases named with ⟨name, isLast, -⟩
  simp [isNil] at isLast

theorem HasFilename.base_eq {path : Path} (named : path.HasFilename) : path.base = path.names := by
  rcases named with ⟨name, isLast, notNil⟩
  rw [base, isLast, if_neg]
  simpa using notNil

section Scan

/-- The first component reaches up to the first slash. -/
theorem components_cut (text : Bytes) (notNil : text ≠ []) :
    components text = text.takeWhile (· != slash) ::
      match text.dropWhile (· != slash) with
      | [] => []
      | _ :: rest => components rest := by
  have isText := takeWhile_append_dropWhile (p := (· != slash)) (l := text)
  simp only [components, splitOn_cut slash text]
  cases isRest : text.dropWhile (· != slash) with
  | nil =>
    rw [isRest, append_nil] at isText
    simp [isText, notNil]
  | cons separator rest =>
    rcases exists_cons_of_ne_nil (splitOn_ne_nil slash rest) with ⟨first, parts, split⟩
    simp only [split, getLast?_cons_cons, dropLast_cons_cons]
    split <;> rfl

/-- A scan accepts a text if it accepts every component. -/
theorem scan_eq_all (accepts : Name → Bool) (text : Bytes) :
    scan accepts text = (components text).all accepts := by
  fun_induction scan accepts text with
  | case1 => rfl
  | case2 text notNil refused =>
    rw [components_cut text notNil]
    have refused : accepts (text.takeWhile (· != slash)) = false := by simpa using refused
    rw [all_cons, refused, Bool.false_and]
  | case3 text notNil accepted isRest =>
    rw [components_cut text notNil, isRest]
    simpa using accepted
  | case4 text notNil accepted separator rest isRest ih =>
    rw [components_cut text notNil, isRest]
    have accepted : accepts (text.takeWhile (· != slash)) := by simpa using accepted
    rw [all_cons, accepted, Bool.true_and, ih]

theorem mem_components {text : Bytes} {part : Name} (isPart : part ∈ text.splitOn slash)
    (notNil : part ≠ []) : part ∈ components text := by
  simp only [components]
  split
  case isFalse => exact isPart
  case isTrue isLast =>
  rcases getLast?_eq_some_iff.mp isLast with ⟨front, split⟩
  rw [split, dropLast_concat]
  rw [split] at isPart
  rcases mem_append.mp isPart with isPart | isPart
  · exact isPart
  · exact absurd (mem_singleton.mp isPart) notNil

/-- A relative text of plain components only goes down. -/
theorem descent_parse {text : Bytes} (notNil : text ≠ []) (relative : text.head? ≠ some slash)
    (plain : ∀ component ∈ components text, component = [] ∨ component.Plain) :
    Descent (parse text).names := by
  refine ⟨(text.splitOn slash).filter (· != []), ?_, ?_, ?_⟩
  · have isFirst : text.takeWhile (· != slash) ≠ [] := by
      cases text with
      | nil => exact absurd rfl notNil
      | cons first text =>
        have notSlash : first ≠ slash := by simpa using relative
        simp [notSlash]
    rw [splitOn_cut slash text, filter_cons_of_pos (by simpa using isFirst)]
    simp
  · intro name mem
    rcases List.mem_filter.mp mem with ⟨isPart, someName⟩
    have isName : name ≠ [] := by simpa using someName
    exact (plain name (mem_components isPart isName)).resolve_left isName
  · simp only [parse]
    split
    · exact .inr rfl
    · exact .inl rfl

theorem Descent.plain_or_nil {names : List Name} (descent : Descent names) :
    ∀ name ∈ names, name = [] ∨ name.Plain := by
  rcases descent with ⟨inner, -, plain, rfl | rfl⟩
  · exact fun name mem => .inr (plain name mem)
  intro name mem
  rcases mem_append.mp mem with mem | mem
  · exact .inr (plain name mem)
  · exact .inl (mem_singleton.mp mem)

theorem Descent.plain {text : Bytes} (descent : Descent (parse text).names)
    (notSlash : text.getLast? ≠ some slash) :
    ∀ name ∈ (parse text).names, name.Plain := by
  intro name mem
  have someName : name ≠ [] := by
    have filtered : (parse text).names = (text.splitOn slash).filter (· != []) := by
      simp [parse, notSlash]
    rw [filtered] at mem
    simpa using (List.mem_filter.mp mem).2
  exact (descent.plain_or_nil name mem).resolve_left someName

end Scan

section Normal

variable {absolute : Bool}

@[simp]
theorem push_nil (names : List Name) : push absolute names [] = names := by simp [push]

theorem push_plain {name : Name} (plain : name.Plain) (names : List Name) :
    push absolute names name = names ++ [name] := by
  simp [push, plain.1, plain.2.1, plain.2.2]

variable {names : List Name}

/-- Plain names are appended as they are. -/
theorem foldl_push_plain (plain : ∀ name ∈ names, name.Plain) (done : List Name) :
    names.foldl (push absolute) done = done ++ names := by
  induction names generalizing done with
  | nil => simp
  | cons name names ih =>
    rw [foldl_cons, push_plain (plain name (by simp)),
      ih fun name mem => plain name (by simp [mem])]
    simp

/-- Normalising leaves a descent alone. -/
theorem lexicallyNormal_descent (descent : Descent names) (above : List Name) :
    lexicallyNormal ⟨absolute, above ++ names⟩ =
      ⟨absolute, above.foldl (push absolute) [] ++ names⟩ := by
  rcases descent with ⟨inner, notNil, plain, isNames⟩
  rcases eq_nil_or_concat inner with rfl | ⟨front, last, rfl⟩
  · exact absurd rfl notNil
  rw [concat_eq_append] at *
  have isPlain : last.Plain := plain last (by simp)
  have folded : (above ++ (front ++ [last])).foldl (push absolute) [] =
      above.foldl (push absolute) [] ++ (front ++ [last]) := by
    rw [foldl_append, foldl_push_plain plain]
  rcases isNames with rfl | rfl
  · simp only [lexicallyNormal, folded]
    simp [← append_assoc, isPlain]
  have separated : (above ++ (front ++ [last] ++ [[]])).foldl (push absolute) [] =
      above.foldl (push absolute) [] ++ (front ++ [last]) := by
    rw [← append_assoc, foldl_append, folded]
    simp
  simp only [lexicallyNormal, separated]
  simp [← append_assoc, isPlain.2.2, Name.Plain]

theorem Descent.head_plain (descent : Descent names) :
    ∃ first rest, names = first :: rest ∧ first.Plain := by
  rcases descent with ⟨inner, notNil, plain, isNames⟩
  cases inner with
  | nil => exact absurd rfl notNil
  | cons first inner =>
    rcases isNames with rfl | rfl
    · exact ⟨first, inner, rfl, plain first (by simp)⟩
    · exact ⟨first, inner ++ [[]], rfl, plain first (by simp)⟩

/-- A descent below a path leads strictly inside it. -/
theorem strictlyInside_of_prefix {outer : List Name} (descent : Descent names)
    (inside : (lexicallyNormal ⟨absolute, outer⟩).elements <+:
      (⟨absolute, outer.foldl (push absolute) [] ++ names⟩ : Path).elements) :
    StrictlyInside (lexicallyNormal ⟨absolute, outer⟩)
      ⟨absolute, outer.foldl (push absolute) [] ++ names⟩ := by
  rcases descent.head_plain with ⟨first, rest, isNames, plain⟩
  simp only [lexicallyNormal] at inside ⊢
  generalize outer.foldl (push absolute) [] = folded at inside ⊢
  split at inside
  case isTrue isNil =>
    subst isNil
    split at inside
    case isTrue isRoot => exact ⟨by simp [isRoot], names, descent, by simp [isRoot]⟩
    case isFalse relative =>
    simp only [elements, isNames, prefix_append_right_inj, nil_append, cons_prefix_cons] at inside
    exact absurd inside.1.symm plain.2.1
  case isFalse someFolded =>
    split at inside
    case isTrue isPlain => exact ⟨by simp [someFolded, isPlain], names, descent, by
      simp [someFolded, isPlain]⟩
    case isFalse =>
      simp only [elements, isNames, prefix_append_right_inj, cons_prefix_cons] at inside
      exact absurd inside.1.symm plain.1

theorem same_lexicallyNormal {outer : List Name} (notNil : outer ≠ []) :
    Same (lexicallyNormal ⟨absolute, outer⟩) (lexicallyNormal ⟨absolute, outer ++ [[]]⟩) := by
  have notPlain : ¬ Name.Plain [] := fun plain => plain.1 rfl
  have folds : (outer ++ [[]]).foldl (push absolute) [] = outer.foldl (push absolute) [] := by
    simp
  simp only [lexicallyNormal, folds]
  generalize outer.foldl (push absolute) [] = folded
  rcases eq_or_ne folded [] with isNil | notEmpty
  · exact .inl (by simp [isNil, notNil])
  rcases eq_or_ne (folded.getLast?) (some Name.dotDot) with isParent | notParent
  · exact .inl (by simp [notEmpty, isParent])
  cases isPlain : outer.getLast?.all fun name => decide name.Plain with
  | true => exact .inr (by simp [notEmpty, notParent, notPlain])
  | false => exact .inl (by simp [notEmpty, notParent, notPlain])

end Normal

end Path

inductive Entry where
  | directory
  | file
  | symlink (target : Path)
  deriving DecidableEq

/-- The entries by their names from the root directory, and the entries whose status cannot be
determined. -/
structure Filesystem where
  entry : List Name → Option Entry
  unreadable : List Name → Bool
  workingDirectory : List Name
  isCanonical : ∀ name ∈ workingDirectory, name.Plain

theorem forall_plain_nil : ∀ name ∈ ([] : List Name), name.Plain := by simp

inductive Status where
  | found (names : List Name)
  | missing
  | unknown
  deriving DecidableEq

namespace Filesystem

def maxSymlinks : Nat := 40

/-- Resolution of names from a directory; a symbolic link is left to `follow`. -/
def walkWith (fs : Filesystem) (follow : List Name → List Name → Status) :
    List Name → List Name → Status
  | current, [] => .found current
  | current, name :: rest =>
    if fs.entry current ≠ some .directory then .missing
    else if name = [] ∨ name = Name.dot then walkWith fs follow current rest
    else if name = Name.dotDot then walkWith fs follow current.dropLast rest
    else if fs.unreadable (current ++ [name]) then .unknown
    else
      match fs.entry (current ++ [name]) with
      | none => .missing
      | some (.symlink target) =>
        follow (if target.absolute then [] else current) (target.names ++ rest)
      | some _ => walkWith fs follow (current ++ [name]) rest

def walk (fs : Filesystem) : Nat → List Name → List Name → Status
  | 0 => fs.walkWith fun _ _ => .unknown
  | links + 1 => fs.walkWith (fs.walk links)

def start (fs : Filesystem) (absolute : Bool) : List Name :=
  if absolute then [] else fs.workingDirectory

/-- `status`, with the canonical names of what it finds; the empty path names nothing. -/
def status (fs : Filesystem) (path : Path) : Status :=
  if path = ⟨false, []⟩ then .missing
  else fs.walk maxSymlinks (fs.start path.absolute) path.names

/-- The longest part of some names whose leading parts all exist, and the names after it. -/
def existing (fs : Filesystem) (absolute : Bool) :
    List Name → List Name → Option (List Name × List Name)
  | done, [] => some (done, [])
  | done, name :: rest =>
    match fs.status ⟨absolute, done ++ [name]⟩ with
    | .found _ => existing fs absolute (done ++ [name]) rest
    | .missing => some (done, name :: rest)
    | .unknown => none

def canonical (fs : Filesystem) (path : Path) : Path :=
  match fs.status path with
  | .found names => ⟨true, names⟩
  | _ => path

/-- `weakly_canonical`, or nothing on an error. -/
def weaklyCanonical (fs : Filesystem) (path : Path) : Option Path :=
  match fs.status path with
  | .found names => some ⟨true, names⟩
  | .unknown => none
  | .missing =>
    (fs.existing path.absolute [] path.names).map fun (done, rest) =>
      let head := fs.canonical ⟨path.absolute, done⟩
      Path.lexicallyNormal { head with names := head.names ++ rest }

def SymlinkFree (fs : Filesystem) (directory : List Name) : Prop :=
  ∀ names target, fs.entry (directory ++ names) ≠ some (.symlink target)

variable {first second : List Name}

section Walk

variable {fs : Filesystem} {current rest names : List Name} {name : Name} {links : Nat}
  {follow : List Name → List Name → Status}

/-- One step of a walk to a plain name, with what stands there. -/
theorem walkWith_plain (follow : List Name → List Name → Status)
    (directory : fs.entry current = some .directory) (plain : name.Plain)
    (readable : fs.unreadable (current ++ [name]) = false) :
    fs.walkWith follow current (name :: rest) =
      match fs.entry (current ++ [name]) with
      | none => .missing
      | some (.symlink target) =>
        follow (if target.absolute then [] else current) (target.names ++ rest)
      | some _ => fs.walkWith follow (current ++ [name]) rest := by
  simp [walkWith, directory, plain.1, plain.2.1, plain.2.2, readable]

theorem walk_eq_walkWith (links : Nat) : ∃ follow, fs.walk links = fs.walkWith follow := by
  cases links with
  | zero | succ => exact ⟨_, rfl⟩

theorem walk_cons_of_some {entry : Entry} (directory : fs.entry current = some .directory)
    (plain : name.Plain) (readable : fs.unreadable (current ++ [name]) = false)
    (isEntry : fs.entry (current ++ [name]) = some entry)
    (notLink : ∀ target, entry ≠ .symlink target) :
    fs.walk links current (name :: rest) = fs.walk links (current ++ [name]) rest := by
  rcases fs.walk_eq_walkWith links with ⟨follow, isWalk⟩
  rw [isWalk, walkWith_plain follow directory plain readable, isEntry]
  cases entry with
  | symlink target => exact absurd rfl (notLink target)
  | directory | file => rfl

theorem walk_cons_of_none (directory : fs.entry current = some .directory) (plain : name.Plain)
    (readable : fs.unreadable (current ++ [name]) = false)
    (free : fs.entry (current ++ [name]) = none) :
    fs.walk links current (name :: rest) = .missing := by
  rcases fs.walk_eq_walkWith links with ⟨follow, isWalk⟩
  rw [isWalk, walkWith_plain follow directory plain readable, free]

@[simp]
theorem walk_nil (links : Nat) (current : List Name) :
    fs.walk links current [] = .found current := by
  cases links <;> rfl

theorem walk_nil_cons (directory : fs.entry current = some .directory) :
    fs.walk links current ([] :: rest) = fs.walk links current rest := by
  rcases fs.walk_eq_walkWith links with ⟨follow, isWalk⟩
  simp [isWalk, walkWith, directory]

/-- The ways in which a walk that succeeds takes its first step. -/
theorem walkWith_cons (found : fs.walkWith follow current (name :: rest) = .found names) :
    fs.entry current = some .directory ∧
      ((name = [] ∨ name = Name.dot) ∧ fs.walkWith follow current rest = .found names ∨
        name = Name.dotDot ∧ fs.walkWith follow current.dropLast rest = .found names ∨
        name.Plain ∧ fs.unreadable (current ++ [name]) = false) := by
  simp only [walkWith] at found
  split at found
  · cases found
  rename_i directory
  refine ⟨not_not.mp directory, ?_⟩
  split at found
  · exact .inl ⟨‹_›, found⟩
  split at found
  · exact .inr (.inl ⟨‹_›, found⟩)
  rename_i notSelf notParent
  split at found
  · cases found
  exact .inr (.inr ⟨⟨fun same => notSelf (.inl same), fun same => notSelf (.inr same), notParent⟩,
    Bool.eq_false_of_not_eq_true ‹_›⟩)

theorem walkWith_append
    (again : ∀ current rest names, fs.walkWith follow current rest = .found names →
      ∃ links, fs.walk links current rest = .found names)
    (split : ∀ current first second names, follow current (first ++ second) = .found names →
      ∃ links middle, follow current first = .found middle ∧
        fs.walk links middle second = .found names)
    (found : fs.walkWith follow current (first ++ second) = .found names) :
    ∃ links middle, fs.walkWith follow current first = .found middle ∧
      fs.walk links middle second = .found names := by
  induction first generalizing current with
  | nil =>
    rcases again current second names found with ⟨links, found⟩
    exact ⟨links, current, rfl, found⟩
  | cons name first ih =>
    rw [cons_append] at found
    rcases walkWith_cons found with
      ⟨directory, ⟨isSelf, later⟩ | ⟨isParent, later⟩ | ⟨plain, readable⟩⟩
    · rcases ih later with ⟨links, middle, isFirst, isSecond⟩
      exact ⟨links, middle, by simp [walkWith, directory, isSelf, isFirst], isSecond⟩
    · rcases ih later with ⟨links, middle, isFirst, isSecond⟩
      have notSelf : ¬ (Name.dotDot = [] ∨ Name.dotDot = Name.dot) := by decide
      exact ⟨links, middle, by simp [walkWith, directory, isParent, notSelf, isFirst], isSecond⟩
    · rw [walkWith_plain follow directory plain readable] at found ⊢
      cases isEntry : fs.entry (current ++ [name]) with
      | none =>
        rw [isEntry] at found
        cases found
      | some entry =>
        rw [isEntry] at found
        cases entry with
        | symlink target =>
          simp only [← append_assoc] at found
          exact split _ _ _ _ found
        | directory | file => exact ih found

/-- A walk along two paths is a walk along the first and then along the second. -/
theorem walk_append (found : fs.walk links current (first ++ second) = .found names) :
    ∃ later middle, fs.walk links current first = .found middle ∧
      fs.walk later middle second = .found names := by
  induction links generalizing current first second names with
  | zero =>
    exact walkWith_append (fun _ _ _ found => ⟨0, found⟩) (fun _ _ _ _ found => by cases found)
      found
  | succ links ih =>
    exact walkWith_append (fun _ _ _ found => ⟨links + 1, found⟩) (fun _ _ _ _ found => ih found)
      found

theorem walkWith_isCanonical
    (canonical : ∀ current rest names, (∀ name ∈ current, name.Plain) →
      follow current rest = .found names → ∀ name ∈ names, name.Plain)
    (plain : ∀ name ∈ current, name.Plain)
    (found : fs.walkWith follow current rest = .found names) : ∀ name ∈ names, name.Plain := by
  induction rest generalizing current with
  | nil =>
    cases found
    exact plain
  | cons name rest ih =>
    rcases walkWith_cons found with
      ⟨directory, ⟨-, later⟩ | ⟨-, later⟩ | ⟨isPlain, readable⟩⟩
    · exact ih plain later
    · exact ih (fun name mem => plain name (dropLast_subset _ mem)) later
    · have below : ∀ other ∈ current ++ [name], other.Plain := by
        intro other mem
        rcases mem_append.mp mem with old | new
        · exact plain other old
        · exact mem_singleton.mp new ▸ isPlain
      rw [walkWith_plain follow directory isPlain readable] at found
      split at found
      · cases found
      · refine canonical _ _ _ ?_ found
        split
        · simp
        · exact plain
      · exact ih below found

/-- What a walk finds is written with plain names. -/
theorem walk_isCanonical (plain : ∀ name ∈ current, name.Plain)
    (found : fs.walk links current rest = .found names) : ∀ name ∈ names, name.Plain := by
  induction links generalizing current rest names with
  | zero => exact walkWith_isCanonical (fun _ _ _ _ found => by cases found) plain found
  | succ links ih =>
    exact walkWith_isCanonical (fun _ _ _ plain found => ih plain found) plain found

/-- Below a place without links a walk ends where the names say. -/
theorem walk_of_symlinkFree (symlinkFree : fs.SymlinkFree current)
    (plain : ∀ name ∈ rest, name = [] ∨ name.Plain)
    (found : fs.walk links current rest = .found names) :
    names = current ++ rest.filter (· != []) := by
  rcases fs.walk_eq_walkWith links with ⟨follow, isWalk⟩
  rw [isWalk] at found
  clear isWalk
  induction rest generalizing current with
  | nil =>
    cases found
    simp
  | cons name rest ih =>
    rcases plain name (by simp) with rfl | isPlain
    · rcases walkWith_cons found with ⟨-, ⟨-, later⟩ | ⟨same, -⟩ | ⟨absurdly, -⟩⟩
      · simpa using ih symlinkFree (fun name mem => plain name (by simp [mem])) later
      · exact absurd same (by decide)
      · exact absurd rfl absurdly.1
    · rcases walkWith_cons found with ⟨directory, ⟨isSelf, -⟩ | ⟨isParent, -⟩ | ⟨-, readable⟩⟩
      · exact (isSelf.elim isPlain.1 isPlain.2.1).elim
      · exact absurd isParent isPlain.2.2
      · have below : fs.SymlinkFree (current ++ [name]) := by
          intro names target
          rw [append_assoc]
          exact symlinkFree ([name] ++ names) target
        have later : fs.walkWith follow (current ++ [name]) rest = .found names := by
          rw [walkWith_plain follow directory isPlain readable] at found
          split at found
          · cases found
          · exact absurd ‹_› (symlinkFree [name] _)
          · exact found
        have reached := ih below (fun name mem => plain name (by simp [mem])) later
        simpa [isPlain.1] using reached

end Walk

section WeaklyCanonical

variable {fs : Filesystem} {absolute : Bool} {names : List Name}

theorem status_append (nonempty : absolute ∨ first ≠ [])
    (found : fs.status ⟨absolute, first ++ second⟩ = .found names) :
    ∃ links middle, fs.status ⟨absolute, first⟩ = .found middle ∧
      fs.walk links middle second = .found names := by
  simp only [status] at found ⊢
  split at found
  · cases found
  rcases walk_append found with ⟨links, middle, isFirst, isSecond⟩
  refine ⟨links, middle, ?_, isSecond⟩
  rw [if_neg ?_]
  · exact isFirst
  · simp only [Path.mk.injEq, not_and]
    intro relative isNil
    exact nonempty.elim (by simp [relative]) (fun notNil => notNil isNil)

/-- The existing part of a longer path, from that of its start. -/
theorem existing_append (absolute : Bool) (done first second : List Name) :
    fs.existing absolute done (first ++ second) =
      match fs.existing absolute done first with
      | none => none
      | some (done, []) => fs.existing absolute done second
      | some (done, rest) => some (done, rest ++ second) := by
  induction first generalizing done with
  | nil => simp [existing]
  | cons name first ih =>
    simp only [cons_append, existing]
    cases fs.status ⟨absolute, done ++ [name]⟩ with
    | found names => exact ih _
    | missing | unknown => rfl

theorem existing_of_found {done rest : List Name}
    (found : fs.status ⟨absolute, done ++ rest⟩ = .found names) :
    fs.existing absolute done rest = some (done ++ rest, []) := by
  induction rest generalizing done with
  | nil => simp [existing]
  | cons name rest ih =>
    have split : done ++ name :: rest = (done ++ [name]) ++ rest := by simp
    rw [split] at found ⊢
    rcases status_append (.inr (by simp)) found with ⟨-, middle, isFirst, -⟩
    simp only [existing, isFirst]
    exact ih found

/-- The existing part is a start of the path, and it is there. -/
theorem existing_eq_some {done part rest : List Name}
    (isExisting : fs.existing absolute done names = some (part, rest)) :
    ∃ front, part = done ++ front ∧ names = front ++ rest ∧
      (front = [] ∨ ∃ found, fs.status ⟨absolute, part⟩ = .found found) := by
  induction names generalizing done with
  | nil =>
    simp only [existing, Option.some.injEq, Prod.mk.injEq] at isExisting
    rcases isExisting with ⟨rfl, rfl⟩
    exact ⟨[], by simp, rfl, .inl rfl⟩
  | cons name names ih =>
    simp only [existing] at isExisting
    cases isStatus : fs.status ⟨absolute, done ++ [name]⟩ with
    | found found =>
      rw [isStatus] at isExisting
      rcases ih isExisting with ⟨front, isPart, isNames, exists_⟩
      refine ⟨name :: front, by simp [isPart], by simp [isNames], .inr ?_⟩
      rcases exists_ with rfl | exists_
      · rw [isPart, append_nil]
        exact ⟨found, isStatus⟩
      · exact exists_
    | missing =>
      rw [isStatus] at isExisting
      simp only [Option.some.injEq, Prod.mk.injEq] at isExisting
      rcases isExisting with ⟨rfl, rfl⟩
      exact ⟨[], by simp, rfl, .inl rfl⟩
    | unknown =>
      rw [isStatus] at isExisting
      cases isExisting

theorem status_isCanonical {path : Path} (found : fs.status path = .found names) :
    ∀ name ∈ names, name.Plain := by
  simp only [status] at found
  split at found
  · cases found
  refine walk_isCanonical ?_ found
  simp only [start]
  split
  · simp
  · exact fs.isCanonical

/-- Below a missing path nothing more exists. -/
theorem existing_of_missing {part rest : List Name} (notNil : names ≠ [])
    (missing : fs.status ⟨absolute, names⟩ = .missing) (below : List Name)
    (isExisting : fs.existing absolute [] names = some (part, rest)) :
    rest ≠ [] ∧ fs.existing absolute [] (names ++ below) = some (part, rest ++ below) := by
  have unfinished : rest ≠ [] := by
    rintro rfl
    rcases existing_eq_some isExisting with ⟨front, isPart, isNames, rfl | ⟨found, exists_⟩⟩
    · exact notNil (by simpa using isNames)
    · rw [isPart, nil_append, ← append_nil front, ← isNames, missing] at exists_
      cases exists_
  refine ⟨unfinished, ?_⟩
  rw [existing_append, isExisting]
  cases rest with
  | nil => exact absurd rfl unfinished
  | cons name rest => rfl

variable {resolved : Path}

/-- Below an existing place without links, resolving a descent stays strictly inside. -/
theorem weaklyCanonical_append_of_found {above found : List Name} (notNil : above ≠ [])
    (descent : Path.Descent names) (exists_ : fs.status ⟨absolute, above⟩ = .found found)
    (symlinkFree : fs.SymlinkFree found)
    (isResolved : fs.weaklyCanonical ⟨absolute, above ++ names⟩ = some resolved) :
    Path.StrictlyInside ⟨true, found⟩ resolved := by
  have plainOrNil := descent.plain_or_nil
  rcases descent with ⟨inner, innerNotNil, plain, isNames⟩
  have filtered : ∀ some : List Name, (∀ name ∈ some, name.Plain) →
      some.filter (· != []) = some := by
    intro some plain
    exact filter_eq_self.mpr fun name mem => by simpa using (plain name mem).1
  simp only [weaklyCanonical] at isResolved
  cases isStatus : fs.status ⟨absolute, above ++ names⟩ with
  | unknown =>
    rw [isStatus] at isResolved
    cases isResolved
  | found reached =>
    rw [isStatus] at isResolved
    cases isResolved
    rcases status_append (.inr notNil) isStatus with ⟨links, middle, isAbove, isBelow⟩
    rw [exists_] at isAbove
    cases isAbove
    refine ⟨rfl, inner, ⟨inner, innerNotNil, plain, .inl rfl⟩, ?_⟩
    rw [walk_of_symlinkFree symlinkFree plainOrNil isBelow]
    rcases isNames with rfl | rfl
    · rw [filtered _ plain]
    · simp [filtered _ plain]
  | missing =>
    rw [isStatus] at isResolved
    have isAbove : fs.existing absolute [] above = some (above, []) :=
      @existing_of_found fs absolute found [] above exists_
    simp only [existing_append, isAbove, Option.map_eq_some_iff] at isResolved
    rcases isResolved with ⟨⟨part, rest⟩, isExisting, rfl⟩
    rcases existing_eq_some isExisting with ⟨front, rfl, isFront, exists'⟩
    have reached : ∃ names, fs.status ⟨absolute, above ++ front⟩ = .found names := by
      rcases exists' with rfl | reached
      · exact ⟨found, by simpa using exists_⟩
      · exact reached
    rcases reached with ⟨reached, isReached⟩
    -- The empty name at the end is not part of what exists.
    have restNotNil : rest ≠ [] := by
      rintro rfl
      rw [append_nil] at isFront
      rw [isFront, isReached] at isStatus
      cases isStatus
    have frontPlain : ∀ name ∈ front, name.Plain := by
      rcases eq_nil_or_concat rest with rfl | ⟨body, last, rfl⟩
      · exact absurd rfl restNotNil
      intro name mem
      rw [concat_eq_append, ← append_assoc] at isFront
      rcases isNames with rfl | rfl
      · exact plain name (by rw [isFront]; simp [mem])
      · have same := append_inj_left' isFront (by simp)
        exact plain name (by rw [same]; simp [mem])
    rcases status_append (.inr notNil) isReached with ⟨links, middle, isAbove, isBelow⟩
    rw [exists_] at isAbove
    cases isAbove
    have isPart := walk_of_symlinkFree symlinkFree (fun name mem => .inr (frontPlain name mem))
      isBelow
    rw [filtered _ frontPlain] at isPart
    simp only [canonical, isReached, isPart, append_assoc, ← isFront]
    rw [Path.lexicallyNormal_descent ⟨inner, innerNotNil, plain, isNames⟩,
      Path.foldl_push_plain (status_isCanonical exists_), nil_append]
    exact ⟨rfl, names, ⟨inner, innerNotNil, plain, isNames⟩, rfl⟩

theorem weaklyCanonical_append_of_missing {above : List Name} {root : Path} (notNil : above ≠ [])
    (descent : Path.Descent names) (missing : fs.status ⟨absolute, above⟩ = .missing)
    (isRoot : fs.weaklyCanonical ⟨absolute, above⟩ = some root)
    (isResolved : fs.weaklyCanonical ⟨absolute, above ++ names⟩ = some resolved)
    (inside : root.elements <+: resolved.elements) : Path.StrictlyInside root resolved := by
  simp only [weaklyCanonical, missing, Option.map_eq_some_iff] at isRoot
  rcases isRoot with ⟨⟨part, rest⟩, isExisting, rfl⟩
  rcases existing_of_missing notNil missing names isExisting with ⟨-, isBelow⟩
  have alsoMissing : ∀ found, fs.status ⟨absolute, above ++ names⟩ ≠ .found found := by
    intro found isFound
    rcases status_append (.inr notNil) isFound with ⟨-, middle, isAbove, -⟩
    rw [missing] at isAbove
    cases isAbove
  simp only [weaklyCanonical] at isResolved
  cases isStatus : fs.status ⟨absolute, above ++ names⟩ with
  | unknown =>
    rw [isStatus] at isResolved
    cases isResolved
  | found found => exact absurd isStatus (alsoMissing found)
  | missing =>
    rw [isStatus] at isResolved
    simp only [isBelow, Option.map_some, Option.some.injEq, ← append_assoc] at isResolved
    subst isResolved
    generalize fs.canonical ⟨absolute, part⟩ = head at inside ⊢
    rw [Path.lexicallyNormal_descent descent] at inside ⊢
    exact Path.strictlyInside_of_prefix descent inside

/-- Where the root is free of links or missing, a resolved descent is strictly inside it. -/
theorem weaklyCanonical_append {above : Path} {root : Path} (notNil : above.names ≠ [])
    (descent : Path.Descent names)
    (symlinkFree : ∀ found, fs.status above = .found found → fs.SymlinkFree found)
    (isRoot : fs.weaklyCanonical above = some root)
    (isResolved : fs.weaklyCanonical ⟨above.absolute, above.names ++ names⟩ = some resolved)
    (inside : root.elements <+: resolved.elements) : Path.StrictlyInside root resolved := by
  cases isStatus : fs.status above with
  | unknown => simp [weaklyCanonical, isStatus] at isRoot
  | missing =>
    exact weaklyCanonical_append_of_missing notNil descent isStatus isRoot isResolved inside
  | found found =>
    have same : root = ⟨true, found⟩ := by simpa [weaklyCanonical, isStatus, eq_comm] using isRoot
    rw [same]
    exact weaklyCanonical_append_of_found notNil descent isStatus (symlinkFree found isStatus)
      isResolved

theorem walk_separator {links : Nat} {current : List Name}
    (found : fs.walk links current [[]] = .found names) : names = current := by
  rcases fs.walk_eq_walkWith links with ⟨follow, isWalk⟩
  rw [isWalk] at found
  rcases walkWith_cons found with ⟨-, ⟨-, later⟩ | ⟨same, -⟩ | ⟨plain, -⟩⟩
  · cases later
    rfl
  · exact absurd same (by decide)
  · exact absurd rfl plain.1

/-- A separator at the end does not change what is resolved. -/
theorem weaklyCanonical_separator {above root : Path} (notNil : above.names ≠ [])
    (isRoot : fs.weaklyCanonical above = some root)
    (isResolved : fs.weaklyCanonical ⟨above.absolute, above.names ++ [[]]⟩ = some resolved) :
    Path.Same root resolved := by
  have separated : ∀ found, fs.status ⟨above.absolute, above.names ++ [[]]⟩ = .found found →
      fs.status above = .found found := by
    intro found isFound
    rcases status_append (.inr notNil) isFound with ⟨links, middle, isAbove, isBelow⟩
    rw [walk_separator isBelow]
    exact isAbove
  simp only [weaklyCanonical] at isRoot isResolved
  cases isBelow : fs.status ⟨above.absolute, above.names ++ [[]]⟩ with
  | unknown => simp [isBelow] at isResolved
  | found found =>
    simp only [isBelow, separated found isBelow, Option.some.injEq] at isRoot isResolved
    exact .inl (by rw [← isRoot, ← isResolved])
  | missing =>
    simp only [isBelow] at isResolved
    cases isStatus : fs.status above with
    | unknown => simp [isStatus] at isRoot
    | found found =>
      have isAbove : fs.existing above.absolute [] above.names = some (above.names, []) :=
        @existing_of_found fs above.absolute found [] above.names isStatus
      have plain := status_isCanonical isStatus
      simp only [isStatus, Option.some.injEq] at isRoot
      simp only [existing_append, isAbove, existing, isBelow, Option.map_some,
        Option.some.injEq, canonical, isStatus] at isResolved
      subst isRoot isResolved
      rcases eq_or_ne found [] with rfl | someFound
      · exact .inl (by simp [Path.lexicallyNormal])
      · have descent : Path.Descent (found ++ [[]]) := ⟨found, someFound, plain, .inr rfl⟩
        exact .inr (Path.lexicallyNormal_descent descent [])
    | missing =>
      simp only [isStatus, Option.map_eq_some_iff] at isRoot
      rcases isRoot with ⟨⟨part, rest⟩, isExisting, rfl⟩
      rcases existing_of_missing notNil isStatus [[]] isExisting with ⟨restNotNil, isLonger⟩
      simp only [isLonger, Option.map_some, Option.some.injEq, ← append_assoc] at isResolved
      subst isResolved
      exact Path.same_lexicallyNormal (by simp [restNotNil])

end WeaklyCanonical

end Filesystem

end Plinth.Core
