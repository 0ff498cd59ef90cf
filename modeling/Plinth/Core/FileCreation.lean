import Plinth.Core.Filesystem

/-!
# Creating files and directories

`create_directories` and the opening of a file for writing, on a file system in which entries are
only added. What a resolution finds stays found, so creations below a directory without symbolic
links stay inside of it.
-/

namespace Plinth.Core

open List

namespace Filesystem

structure Extends (fs later : Filesystem) : Prop where
  entry : ∀ names entry, fs.entry names = some entry → later.entry names = some entry
  unreadable : later.unreadable = fs.unreadable
  workingDirectory : later.workingDirectory = fs.workingDirectory

def put (fs : Filesystem) (names : List Name) (entry : Entry) : Filesystem :=
  { fs with entry := fun other => if other = names then some entry else fs.entry other }

@[simp]
theorem put_entry_self (fs : Filesystem) (names : List Name) (entry : Entry) :
    (fs.put names entry).entry names = some entry := by
  simp [put]

/-- A new entry at a free place disturbs nothing. -/
theorem extends_put {fs : Filesystem} {names : List Name} (free : fs.entry names = none)
    (entry : Entry) : fs.Extends (fs.put names entry) where
  entry := by
    intro other old isOld
    have different : other ≠ names := by
      rintro rfl
      simp [free] at isOld
    simpa [put, different] using isOld
  unreadable := rfl
  workingDirectory := rfl

section Extends

variable {fs later : Filesystem} (grown : fs.Extends later)
include grown

theorem Extends.walkWith {follow followLater : List Name → List Name → Status}
    (follows : ∀ current rest names, follow current rest = .found names →
      followLater current rest = .found names)
    {current rest names : List Name}
    (found : fs.walkWith follow current rest = .found names) :
    later.walkWith followLater current rest = .found names := by
  induction rest generalizing current with
  | nil => exact found
  | cons name rest ih =>
    rcases walkWith_cons found with
      ⟨directory, ⟨isSelf, rest⟩ | ⟨isParent, rest⟩ | ⟨plain, readable⟩⟩
    · have directory := grown.entry _ _ directory
      simp [Filesystem.walkWith, directory, isSelf, ih rest]
    · have directory := grown.entry _ _ directory
      have notSelf : ¬ (Name.dotDot = [] ∨ Name.dotDot = Name.dot) := by decide
      simp [Filesystem.walkWith, directory, isParent, notSelf, ih rest]
    · rw [walkWith_plain follow directory plain readable] at found
      rw [walkWith_plain followLater (grown.entry _ _ directory) plain
        (by rw [grown.unreadable]; exact readable)]
      cases isEntry : fs.entry (current ++ [name]) with
      | none =>
        rw [isEntry] at found
        cases found
      | some entry =>
        rw [isEntry] at found
        rw [grown.entry _ _ isEntry]
        cases entry with
        | symlink target => exact follows _ _ _ found
        | directory | file => exact ih found

/-- What a walk finds, it finds in every extension. -/
theorem Extends.walk {links : Nat} {current rest names : List Name}
    (found : fs.walk links current rest = .found names) :
    later.walk links current rest = .found names := by
  induction links generalizing current rest names with
  | zero => exact grown.walkWith (fun _ _ _ found => found) found
  | succ links ih => exact grown.walkWith (fun _ _ _ found => ih found) found

theorem Extends.status {path : Path} {names : List Name} (found : fs.status path = .found names) :
    later.status path = .found names := by
  simp only [Filesystem.status, start, grown.workingDirectory] at found ⊢
  split at found
  · cases found
  · rw [if_neg ‹_›]
    exact grown.walk found

end Extends

inductive FileError where
  | notADirectory
  | isADirectory
  | unreadable
  | refused

structure Session where
  fs : Filesystem
  touched : List (List Name)

/-- The creation of one entry in a directory that a path leads to. A dangling symbolic link is
in the way of the entry. -/
def Session.create (session : Session) (refused : List Name → Bool) (absolute : Bool)
    (directory : List Name) (name : Name) (entry : Entry) :
    Except FileError (Session × List Name) :=
  match session.fs.walk maxSymlinks (session.fs.start absolute) directory with
  | .found parent =>
    if session.fs.entry parent ≠ some .directory ∨ ¬ name.Plain then .error .notADirectory
    else if session.fs.entry (parent ++ [name]) ≠ none ∨ refused (parent ++ [name]) then
      .error .refused
    else .ok (⟨session.fs.put (parent ++ [name]) entry, session.touched ++ [parent ++ [name]]⟩,
      parent ++ [name])
  | .missing => .error .notADirectory
  | .unknown => .error .unreadable

def makeDirectories (refused : List Name → Bool) (absolute : Bool) :
    List Name → List Name → Session → Except FileError Session
  | _, [], session => .ok session
  | done, name :: rest, session =>
    match session.fs.status ⟨absolute, done ++ [name]⟩ with
    | .found names =>
      if session.fs.entry names = some .directory then
        makeDirectories refused absolute (done ++ [name]) rest session
      else .error .notADirectory
    | .missing =>
      (session.create refused absolute done name .directory).bind fun (session, _) =>
        makeDirectories refused absolute (done ++ [name]) rest session
    | .unknown => .error .unreadable

def createDirectories (refused : List Name → Bool) (path : Path) (session : Session) :
    Except FileError Session :=
  makeDirectories refused path.absolute [] path.names session

/-- Opening a file for writing; what it held before is gone. -/
def openForWriting (refused : List Name → Bool) (path : Path) (session : Session) :
    Except FileError (Session × List Name) :=
  match session.fs.status path with
  | .found names =>
    if session.fs.entry names ≠ some .file then .error .isADirectory
    else if refused names then .error .refused
    else .ok ({ session with touched := session.touched ++ [names] }, names)
  | .missing =>
    session.create refused path.absolute path.names.dropLast
      (path.names.getLast?.getD []) .file
  | .unknown => .error .unreadable

/-- A directory without symbolic links in which everything touched lies. -/
structure Session.Within (session : Session) (destination : Path) (root : List Name) : Prop where
  found : session.fs.status destination = .found root
  symlinkFree : session.fs.SymlinkFree root
  inside : ∀ names ∈ session.touched, ∃ below, below ≠ [] ∧ names = root ++ below

section Within

variable {session : Session} {destination : Path} {root : List Name}
  {refused : List Name → Bool} {front names : List Name} {later : Session}

/-- Below the destination a walk along plain names stays where they say. -/
theorem Session.Within.walk (within : session.Within destination root)
    (notNil : destination.names ≠ []) (plain : ∀ name ∈ front, name = [] ∨ name.Plain)
    (isFound : session.fs.walk maxSymlinks (session.fs.start destination.absolute)
      (destination.names ++ front) = .found names) : names = root ++ front.filter (· != []) := by
  rcases walk_append isFound with ⟨links, middle, isRoot, isBelow⟩
  have same : middle = root := by
    have found := within.found
    have notEmpty : destination ≠ ⟨false, []⟩ := by
      rintro rfl
      exact notNil rfl
    rw [status, if_neg notEmpty, isRoot] at found
    exact Status.found.inj found
  subst same
  exact walk_of_symlinkFree within.symlinkFree plain isBelow

/-- An entry that is no link keeps the session within its root. -/
theorem Session.Within.create (within : session.Within destination root)
    (notNil : destination.names ≠ []) {name : Name} {entry : Entry}
    (plain : ∀ name ∈ front, name = [] ∨ name.Plain) (notLink : ∀ target, entry ≠ .symlink target)
    (created : session.create refused destination.absolute (destination.names ++ front) name
      entry = .ok (later, names)) : later.Within destination root := by
  simp only [Session.create] at created
  split at created
  case h_2 | h_3 => cases created
  case h_1 parent isParent =>
    split at created
    · cases created
    split at created
    · cases created
    rename_i free
    simp only [not_or, not_not] at free
    cases created
    have isBelow := within.walk notNil plain isParent
    refine ⟨(extends_put free.1 entry).status within.found, ?_, ?_⟩
    · intro below target
      simp only [put]
      split
      · simpa using notLink target
      · exact within.symlinkFree below target
    · intro names mem
      rcases mem_append.mp mem with old | new
      · exact within.inside names old
      · rw [mem_singleton.mp new, isBelow, append_assoc]
        exact ⟨_, by simp, rfl⟩

/-- Directories that are there already are passed. -/
theorem makeDirectories_of_found {absolute : Bool} {first second done : List Name}
    (isFound : session.fs.status ⟨absolute, done ++ first⟩ = .found names)
    (made : makeDirectories refused absolute done (first ++ second) session = .ok later) :
    makeDirectories refused absolute (done ++ first) second session = .ok later := by
  induction first generalizing done with
  | nil => simpa using made
  | cons name first ih =>
    have split : done ++ name :: first = (done ++ [name]) ++ first := by simp
    rw [split] at isFound ⊢
    rcases status_append (.inr (by simp)) isFound with ⟨-, middle, isFirst, -⟩
    simp only [cons_append, makeDirectories, isFirst] at made
    split at made
    · exact ih isFound made
    · cases made

/-- Every directory made on the way is within the root. -/
theorem makeDirectories_within (notNil : destination.names ≠ []) {rest : List Name}
    (plain : ∀ name ∈ front ++ rest, name = [] ∨ name.Plain)
    (within : session.Within destination root)
    (made : makeDirectories refused destination.absolute (destination.names ++ front) rest
      session = .ok later) : later.Within destination root := by
  induction rest generalizing front session with
  | nil =>
    cases made
    exact within
  | cons name rest ih =>
    have longer : destination.names ++ front ++ [name] =
        destination.names ++ (front ++ [name]) := by simp
    have stillPlain : ∀ other ∈ front ++ [name] ++ rest, other = [] ∨ other.Plain := by
      simpa using plain
    simp only [makeDirectories] at made
    split at made
    · split at made
      · rw [longer] at made
        exact ih stillPlain within made
      · cases made
    · cases isCreated : session.create refused destination.absolute
          (destination.names ++ front) name .directory with
      | error error =>
        rw [isCreated] at made
        cases made
      | ok created =>
        rw [isCreated] at made
        have before : ∀ other ∈ front, other = [] ∨ other.Plain :=
          fun other mem => plain other (by simp [mem])
        have next := within.create notNil before (by simp) isCreated
        refine ih stillPlain next ?_
        rw [← longer]
        exact made
    · cases made

theorem createDirectories_within (notNil : destination.names ≠ [])
    (plain : ∀ name ∈ names, name = [] ∨ name.Plain) (within : session.Within destination root)
    (made : createDirectories refused ⟨destination.absolute, destination.names ++ names⟩ session =
      .ok later) : later.Within destination root := by
  have below : makeDirectories refused destination.absolute ([] ++ destination.names) names
      session = .ok later := makeDirectories_of_found within.found made
  have start : makeDirectories refused destination.absolute (destination.names ++ []) names
      session = .ok later := by simpa using below
  exact makeDirectories_within notNil (by simpa using plain) within start

/-- A file is opened for writing within the root only. -/
theorem openForWriting_within (notNil : destination.names ≠ []) {name : Name}
    (plain : ∀ name ∈ front, name = [] ∨ name.Plain) (isPlain : name.Plain)
    (within : session.Within destination root)
    (isOpen : openForWriting refused
      ⟨destination.absolute, destination.names ++ (front ++ [name])⟩ session =
      .ok (later, names)) : later.Within destination root := by
  simp only [openForWriting] at isOpen
  split at isOpen
  case h_1 found isFound =>
    split at isOpen
    · cases isOpen
    split at isOpen
    · cases isOpen
    cases isOpen
    refine ⟨within.found, within.symlinkFree, ?_⟩
    intro other mem
    rcases mem_append.mp mem with old | new
    · exact within.inside other old
    have notEmpty : (⟨destination.absolute, destination.names ++ (front ++ [name])⟩ : Path) ≠
        ⟨false, []⟩ := by simp
    rw [status, if_neg notEmpty] at isFound
    have longer : ∀ other ∈ front ++ [name], other = [] ∨ other.Plain := by
      intro other mem
      rcases mem_append.mp mem with mem | mem
      · exact plain other mem
      · exact .inr (mem_singleton.mp mem ▸ isPlain)
    rw [mem_singleton.mp new, within.walk notNil longer isFound]
    exact ⟨_, by simp [isPlain.1], rfl⟩
  case h_2 =>
    have isFront : (destination.names ++ (front ++ [name])).dropLast =
        destination.names ++ front := by
      rw [← append_assoc, dropLast_concat]
    have isLast : (destination.names ++ (front ++ [name])).getLast?.getD [] = name := by
      rw [← append_assoc]
      simp
    rw [isFront, isLast] at isOpen
    exact within.create notNil plain (by simp) isOpen
  case h_3 => cases isOpen

end Within

end Filesystem

end Plinth.Core
