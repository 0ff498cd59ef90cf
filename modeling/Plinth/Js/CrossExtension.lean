import Plinth.Core.SqlLexical
import Plinth.Packages.NameGrammars

/-!
# Schemas of other extensions in batches

An extension may not touch the schema of another extension in a batch of statements. The kernel
looks for names of the form `ext_<name>` with a regular expression before it sends a statement.

The expression finds the words of the text, in ASCII letters, digits and underscores, that are
`ext_` and lower case letters, digits or underscores after it. Names of extensions have dashes, and
PostgreSQL folds the case of names without quotes, so a reference can be hidden from it.
-/

namespace Plinth.Js

open Core Core.Sql List

def isWordByte (c : UInt8) : Bool :=
  (0x41 ≤ c && c ≤ 0x5a) || (0x61 ≤ c && c ≤ 0x7a) || (0x30 ≤ c && c ≤ 0x39) || c == 0x5f

def isGroupByte (c : UInt8) : Bool :=
  (0x61 ≤ c && c ≤ 0x7a) || (0x30 ≤ c && c ≤ 0x39) || c == 0x5f

def schemaStart : Bytes := utf8 "ext_"

def isBoundary (previous next : Option UInt8) : Bool :=
  previous.any isWordByte != next.any isWordByte

/-- The longest accepted start of a run of at most `length` bytes: a repetition that gives back a
byte at a time. -/
def giveBack (accepts : Bytes → Bool) (run : Bytes) : ℕ → Option Bytes
  | 0 => none
  | length + 1 =>
    if accepts (run.take (length + 1)) then some (run.take (length + 1))
    else giveBack accepts run length

/-- The group of the match of `\bext_([a-z0-9_]+)\b` at a place. -/
def groupAt (previous : Option UInt8) (text : Bytes) : Option Bytes :=
  if isBoundary previous text.head? && schemaStart.isPrefixOf text then
    let run := (text.drop schemaStart.length).takeWhile isGroupByte
    giveBack (fun group =>
      isBoundary group.getLast? (text.drop (schemaStart.length + group.length)).head?) run
        run.length
  else none

/-- The matches one after the other; the first `skip` bytes belong to the match before. -/
def groups (previous : Option UInt8) : ℕ → Bytes → List Bytes
  | _, [] => []
  | skip + 1, c :: text => groups (some c) skip text
  | 0, c :: text =>
    match groupAt previous (c :: text) with
    | some group => group :: groups (some c) (schemaStart.length + group.length - 1) text
    | none => groups (some c) 0 text

/-- A name after `ext_` that the expression can read. -/
def IsGroup (group : Bytes) : Prop := group ≠ [] ∧ ∀ c ∈ group, isGroupByte c = true

/-- The name of a schema stands in the text as a whole word. -/
def HasWord (previous : Option UInt8) (text group : Bytes) : Prop :=
  ∃ front back, text = front ++ (schemaStart ++ group) ++ back ∧
    (front.getLast?.or previous).any isWordByte = false ∧ back.head?.any isWordByte = false

theorem isWordByte_of_isGroupByte {c : UInt8} (isGroup : isGroupByte c) : isWordByte c := by
  simp only [isGroupByte, Bool.or_eq_true] at isGroup
  simp only [isWordByte, Bool.or_eq_true]
  rcases isGroup with (lower | digit) | underscore
  · exact .inl (.inl (.inr lower))
  · exact .inl (.inr digit)
  · exact .inr underscore

theorem schemaStart_eq : schemaStart = [0x65, 0x78, 0x74, 0x5f] := by decide +kernel

section Match

variable {previous : Option UInt8} {text group : Bytes}

theorem IsGroup.last (isGroup : IsGroup group) : group.getLast?.any isWordByte := by
  rw [getLast?_eq_some_getLast isGroup.1, Option.any_some]
  exact isWordByte_of_isGroupByte (isGroup.2 _ (getLast_mem isGroup.1))

theorem IsGroup.isWordByte (isGroup : IsGroup group) :
    ∀ c ∈ schemaStart ++ group, isWordByte c := by
  have start : ∀ c ∈ schemaStart, Js.isWordByte c := by
    simp [schemaStart_eq, Js.isWordByte]
  intro c mem
  rcases mem_append.mp mem with mem | mem
  · exact start c mem
  · exact isWordByte_of_isGroupByte (isGroup.2 c mem)

end Match

/-- The bytes of a name that a manifest may have. -/
def isNameValid (name : Bytes) : Bool :=
  Packages.isNameValid (String.ofList (name.map fun c => Char.ofNat c.toNat))

def schemaOf (name : Bytes) : Bytes := schemaStart ++ name

/-- PostgreSQL reads a name without quotes in lower case. -/
def foldCase (c : UInt8) : UInt8 := if 0x41 ≤ c && c ≤ 0x5a then c + 0x20 else c

/-- An identifier, with or without quotes, that is the name of a schema. -/
def Names (schema : Bytes) (token : Token) : Prop :=
  match token.lexeme with
  | .word text => text.map foldCase = schema
  | .quotedName => token.start = doubleQuote :: schema ++ doubleQuote :: token.rest
  | _ => False

/-- The token is a reference in the text to the schema of an extension. -/
def References (standardStrings : Bool) (sql name : Bytes) (token : Token) : Prop :=
  (∃ found, tokens standardStrings none sql = some found ∧ token ∈ found) ∧
    Names (schemaOf name) token

/-- Every `ext_` in the text is in a reference to the schema of the extension. -/
def OnlyOwn (standardStrings : Bool) (sql name : Bytes) : Prop :=
  ∀ front back, sql = front ++ (schemaStart ++ back) →
    ∃ token, References standardStrings sql name token ∧
      (token.start = schemaStart ++ back ∨ token.start = doubleQuote :: (schemaStart ++ back))

/-- A reference to the schema of another extension that the expression does not see: a name without
quotes with upper case letters or right after a letter, digit or underscore, or a quoted name that
starts with the own name and a dash. -/
def Hidden (sql name other : Bytes) (token : Token) : Prop :=
  match token.lexeme with
  | .word text => text ≠ schemaOf other ∨ (before sql token.start).getLast?.any isWordByte = true
  | _ => other.takeWhile (· != dash) = name

structure Distinct (standardStrings : Bool) (sql name : Bytes) : Prop where
  seen : ∀ other token, isNameValid other = true → other ≠ name →
    References standardStrings sql other token → Hidden sql name other token →
      (∃ other token, isNameValid other = true ∧ other ≠ name ∧
        References standardStrings sql other token ∧ ¬ Hidden sql name other token) ∨
      ∃ word, IsGroup word ∧ HasWord none sql word ∧ word ≠ name
  dashed : OnlyOwn standardStrings sql name → dash ∈ name → ¬ schemaStart <:+: sql

section Names

variable {name : Bytes}

theorem isNameChar_spec : ∀ c : UInt8,
    (Packages.isNameChar (Char.ofNat c.toNat) → c ≠ dash → isGroupByte c) ∧
      (Capabilities.isLower (Char.ofNat c.toNat) → c ≠ dash) := by
  decide +kernel

/-- A name does not start with a dash, and all its other bytes are those of groups. -/
theorem bytes_of_isNameValid (valid : isNameValid name) :
    (∃ first rest, name = first :: rest ∧ first ≠ dash) ∧
      ∀ c ∈ name, c ≠ dash → isGroupByte c := by
  rcases Packages.exists_of_isNameValid valid with ⟨first, tail, isName, starts, named⟩
  rw [String.toList_ofList] at isName named
  constructor
  · rcases map_eq_cons_iff.mp isName with ⟨byte, rest, rfl, rfl, -⟩
    exact ⟨byte, rest, rfl, (isNameChar_spec byte).2 starts⟩
  · exact fun c mem => (isNameChar_spec c).1 (named _ (mem_map.mpr ⟨c, mem, rfl⟩))

theorem foldCase_spec : ∀ c : UInt8, (isGroupByte c → foldCase c = c) ∧
    (isWordByte (foldCase c) → isWordByte c) ∧
    (identifierPart c → foldCase c ≠ dash) ∧
    (identifierPart c = false → isWordByte c = false) := by
  decide +kernel

theorem isGroup_takeWhile (valid : isNameValid name) : IsGroup (name.takeWhile (· != dash)) := by
  constructor
  · rcases (bytes_of_isNameValid valid).1 with ⟨first, rest, rfl, notDash⟩
    simp [notDash]
  · intro c mem
    have notDash : c ≠ dash := by
      simpa using all_eq_true.mp (all_takeWhile (p := (· != dash))) c mem
    exact (bytes_of_isNameValid valid).2 c ((List.takeWhile_prefix _).subset mem) notDash

theorem hasWord_of_quoted {sql rest : Bytes}
    (isStart : doubleQuote :: schemaOf name ++ doubleQuote :: rest <:+ sql) :
    HasWord none sql (name.takeWhile (· != dash)) := by
  rcases isStart with ⟨front, rfl⟩
  refine ⟨front ++ [doubleQuote], name.dropWhile (· != dash) ++ doubleQuote :: rest, ?_, ?_, ?_⟩
  · have whole := takeWhile_append_dropWhile (p := (· != dash)) (l := name)
    simp only [schemaOf, append_assoc, cons_append, nil_append]
    rw [← append_assoc (name.takeWhile _), whole]
  · simp [show isWordByte doubleQuote = false by decide]
  · cases isRest : name.dropWhile (· != dash) with
    | nil => rfl
    | cons c back =>
      have isDash : c = dash := by
        have head := head?_dropWhile_not (· != dash) name
        simpa [isRest] using head
      rw [isDash]
      rfl

theorem dash_notMem_of_word {text schema : Bytes} (parts : ∀ c ∈ text, identifierPart c)
    (same : text.map foldCase = schema) : dash ∉ schema := by
  rintro mem
  rw [← same] at mem
  rcases mem_map.mp mem with ⟨c, mem, isDash⟩
  exact (foldCase_spec c).2.2.1 (parts c mem) isDash

end Names

section Tokens

variable {standardStrings : Bool} {sql name other : Bytes} {token : Token}

theorem References.start_suffix (references : References standardStrings sql name token) :
    token.start <:+ sql := by
  rcases references.1 with ⟨found, isRead, mem⟩
  exact (reads_of_mem_tokens isRead mem).1

/-- A schema is referred to by a word or in quotes. -/
theorem References.cases (references : References standardStrings sql name token) :
    (∃ text, token.lexeme = .word text ∧ text.map foldCase = schemaOf name ∧
      token.start = text ++ token.rest ∧ (∀ c ∈ text, identifierPart c) ∧
      token.rest.head?.any identifierPart = false) ∨
    (token.lexeme = .quotedName ∧
      token.start = doubleQuote :: schemaOf name ++ doubleQuote :: token.rest) := by
  rcases references with ⟨⟨found, isRead, mem⟩, names⟩
  rcases (reads_of_mem_tokens isRead mem).2 with ⟨pending, reads⟩
  rw [Names] at names
  split at names
  case h_1 text isWord =>
    rw [isWord] at reads
    rcases lexeme_word reads with ⟨isStart, parts, stops⟩
    exact .inl ⟨text, isWord, names, isStart, parts, stops⟩
  case h_2 isQuoted => exact .inr ⟨isQuoted, names⟩
  case h_3 => cases names

theorem OnlyOwn.flagged (own : OnlyOwn standardStrings sql name) (valid : isNameValid name)
    (hasDash : dash ∈ name) (occurs : schemaStart <:+: sql) :
    ∃ word, IsGroup word ∧ HasWord none sql word ∧ word ≠ name := by
  rcases occurs with ⟨front, back, isSql⟩
  rcases own front back (by rw [← isSql, append_assoc]) with ⟨token, references, -⟩
  rcases references.cases with ⟨text, -, same, -, parts, -⟩ | ⟨-, start⟩
  · exact absurd (mem_append_right schemaStart hasDash) (dash_notMem_of_word parts same)
  have isStart := references.start_suffix
  rw [start] at isStart
  refine ⟨_, isGroup_takeWhile valid, hasWord_of_quoted isStart, ?_⟩
  intro same
  rw [← same] at hasDash
  simpa using all_eq_true.mp (all_takeWhile (p := (· != dash))) dash hasDash

end Tokens

end Plinth.Js
