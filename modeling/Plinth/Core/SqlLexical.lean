import Plinth.Core.Bytes

/-!
# Lexical rules of PostgreSQL

The lexemes of a PostgreSQL text, as far as they decide which semicolons end a statement. Numbers
and operators are read symbol by symbol: neither can hold a quote, and an operator ends where a
comment starts.

A string that is closed may be continued by another one after white space with a line break. The
part that continues it is read by the rules of the first part, so the reader carries what the last
closed string was until something other than white space or a line comment follows it.
-/

namespace Plinth.Core.Sql

open Plinth.Core List

def newline : UInt8 := 0x0a

def carriageReturn : UInt8 := 0x0d

def doubleQuote : UInt8 := 0x22

def dollar : UInt8 := 0x24

def quote : UInt8 := 0x27

def star : UInt8 := 0x2a

def dash : UInt8 := 0x2d

def slash : UInt8 := 0x2f

def semicolon : UInt8 := 0x3b

def backslash : UInt8 := 0x5c

def isSpace (c : UInt8) : Bool := c == 0x20 || (0x09 ≤ c && c ≤ 0x0d)

def isNewline (c : UInt8) : Bool := c == newline || c == carriageReturn

def identifierStart (c : UInt8) : Bool :=
  (0x41 ≤ c && c ≤ 0x5a) || (0x61 ≤ c && c ≤ 0x7a) || c == 0x5f || 0x80 ≤ c

def identifierPart (c : UInt8) : Bool :=
  identifierStart c || (0x30 ≤ c && c ≤ 0x39) || c == dollar

/-- What follows the comment that is open at a depth. -/
def closeComment : Nat → Bytes → Option Bytes
  | 0, text => some text
  | _ + 1, [] => none
  | _ + 1, [_] => none
  | depth + 1, c :: next :: following =>
    if c == slash && next == star then closeComment (depth + 2) following
    else if c == star && next == slash then closeComment depth following
    else closeComment (depth + 1) (next :: following)

/-- What follows the closing mark of a quoted text; a doubled mark does not close it. -/
def closeQuote (mark : UInt8) (escapes : Bool) : Bytes → Option Bytes
  | [] => none
  | c :: text =>
    if c == backslash && escapes then
      match text with
      | [] => none
      | _ :: following => closeQuote mark escapes following
    else if c == mark then
      match text with
      | [] => some []
      | next :: following =>
        if next == mark then closeQuote mark escapes following else some text
    else closeQuote mark escapes text

/-- The tag that a dollar sign opens, with what follows it. -/
def dollarTag (text : Bytes) : Option (Bytes × Bytes) :=
  let name :=
    if text.head?.any identifierStart then
      text.takeWhile fun c => c != dollar && identifierPart c
    else []
  match text.drop name.length with
  | c :: body => if c == dollar then some (dollar :: name ++ [dollar], body) else none
  | [] => none

def closeDollar (tag : Bytes) : Bytes → Option Bytes
  | [] => if tag.isEmpty then some [] else none
  | c :: text =>
    if tag.isPrefixOf (c :: text) then some ((c :: text).drop tag.length)
    else closeDollar tag text

variable {text : Bytes} {standardStrings : Bool} {pending : Option Continuation}

theorem closeComment_suffix {depth : Nat} {rest : Bytes}
    (closed : closeComment depth text = some rest) : rest <:+ text := by
  fun_induction closeComment depth text with
  | case1 text =>
    cases closed
    exact suffix_rfl
  | case2 | case3 => cases closed
  | case4 depth c next following _ ih | case5 depth c next following _ _ ih =>
    exact (ih closed).trans ((suffix_cons _ _).trans (suffix_cons _ _))
  | case6 depth c next following _ _ ih => exact (ih closed).trans (suffix_cons _ _)

/-- What follows a closed literal is the rest of the text. -/
theorem closeQuote_suffix {mark : UInt8} {escapes : Bool} {rest : Bytes}
    (closed : closeQuote mark escapes text = some rest) : rest <:+ text := by
  fun_induction closeQuote mark escapes text with
  | case1 | case2 => cases closed
  | case3 c _ next following ih | case5 c _ _ next following _ ih =>
    exact (ih closed).trans ((suffix_cons _ _).trans (suffix_cons _ _))
  | case4 =>
    cases closed
    exact nil_suffix
  | case6 =>
    cases closed
    exact suffix_cons _ _
  | case7 c text _ _ ih => exact (ih closed).trans (suffix_cons _ _)

theorem dollarTag_suffix {tag body : Bytes} (opened : dollarTag text = some (tag, body)) :
    body <:+ text := by
  dsimp only [dollarTag] at opened
  split at opened
  case h_1 name c following dropped =>
    split at opened <;> cases opened
    exact (suffix_cons c _).trans (dropped ▸ drop_suffix _ text)
  case h_2 => cases opened

theorem closeDollar_suffix {tag rest : Bytes} (closed : closeDollar tag text = some rest) :
    rest <:+ text := by
  fun_induction closeDollar tag text with
  | case1 =>
    cases closed
    exact suffix_rfl
  | case2 => cases closed
  | case3 c text _ =>
    cases closed
    exact drop_suffix _ _
  | case4 c text _ ih => exact (ih closed).trans (suffix_cons _ _)

inductive Lexeme where
  | space (c : UInt8)
  | lineComment
  | blockComment
  | quotedName
  /-- A string without a letter before it, or a part that continues a string. -/
  | string (escapes : Bool) (body : Bytes)
  | escapeString
  | bitString (letter : UInt8) (body : Bytes)
  | dollarString
  | word (text : Bytes)
  | symbol (c : UInt8)
  deriving DecidableEq

/-- The last closed string, with whether a line break follows it. -/
structure Continuation where
  escapes : Bool
  broken : Bool

def Lexeme.continuation (pending : Option Continuation) : Lexeme → Option Continuation
  | .space c => pending.map fun last => { last with broken := last.broken || isNewline c }
  | .lineComment => pending
  | .string escapes _ => some ⟨escapes, false⟩
  | .escapeString => some ⟨true, false⟩
  | .bitString _ _ => some ⟨false, false⟩
  | _ => none

/-- Whether a backslash is an escape in a string that no letter opens. -/
def stringEscapes (standardStrings : Bool) : Option Continuation → Bool
  | some ⟨escapes, true⟩ => escapes
  | _ => !standardStrings

def lexeme (standardStrings : Bool) (pending : Option Continuation) :
    Bytes → Option (Lexeme × Bytes)
  | [] => none
  | c :: text =>
    if isSpace c then some (.space c, text)
    else if c == dash && text.head? == some dash then
      some (.lineComment, text.tail.dropWhile fun c => !isNewline c)
    else if c == slash && text.head? == some star then
      (closeComment 1 text.tail).map (.blockComment, ·)
    else if c == doubleQuote then (closeQuote doubleQuote false text).map (.quotedName, ·)
    else if c == quote then
      let escapes := stringEscapes standardStrings pending
      (closeQuote quote escapes text).map (.string escapes text, ·)
    else if (c == 0x45 || c == 0x65) && text.head? == some quote then
      (closeQuote quote true text.tail).map (.escapeString, ·)
    else if (c == 0x42 || c == 0x62 || c == 0x58 || c == 0x78) && text.head? == some quote then
      (closeQuote quote false text.tail).map (.bitString c text.tail, ·)
    else if c == dollar then
      match dollarTag text with
      | some (tag, body) => (closeDollar tag body).map (.dollarString, ·)
      | none => some (.symbol c, text)
    else if identifierStart c then
      some (.word (c :: text.takeWhile identifierPart), text.dropWhile identifierPart)
    else some (.symbol c, text)

/-- A lexeme takes at least one byte of the text. -/
theorem lexeme_suffix {c : UInt8} {rest : Bytes} {found : Lexeme}
    (reads : lexeme standardStrings pending (c :: text) = some (found, rest)) : rest <:+ text := by
  have tail : text.tail <:+ text := tail_suffix text
  dsimp only [lexeme] at reads
  split_ifs at reads
  all_goals try split at reads
  all_goals first
    | (simp only [Option.map_eq_some_iff, Prod.mk.injEq] at reads
       rcases reads with ⟨after, closed, _, rfl⟩
       first
        | exact (closeComment_suffix closed).trans tail
        | exact closeQuote_suffix closed
        | exact (closeQuote_suffix closed).trans tail
        | exact (closeDollar_suffix closed).trans (dollarTag_suffix ‹_›))
    | (cases reads
       first
        | exact suffix_rfl
        | exact dropWhile_suffix _
        | exact (dropWhile_suffix _).trans tail)

theorem lexeme_symbol {c d : UInt8} {rest : Bytes}
    (reads : lexeme standardStrings pending (c :: text) = some (.symbol d, rest)) :
    c = d ∧ rest = text := by
  dsimp only [lexeme] at reads
  split_ifs at reads
  all_goals try split at reads
  all_goals simp_all

/-- The lexemes of the first statement of a text, each with what follows it, and the text after
the statement. -/
def statement (standardStrings : Bool) (pending : Option Continuation) (text : Bytes) :
    Option (List (Lexeme × Bytes) × Bytes) :=
  match text with
  | [] => some ([], [])
  | c :: text =>
    match _reads : lexeme standardStrings pending (c :: text) with
    | none => none
    | some (found, rest) =>
      if found = .symbol semicolon then some ([(found, rest)], rest)
      else
        (statement standardStrings (found.continuation pending) rest).map
          fun (lexemes, after) => ((found, rest) :: lexemes, after)
termination_by text.length
decreasing_by
  have := (lexeme_suffix _reads).length_le
  simp only [length_cons]
  omega

structure Token where
  lexeme : Lexeme
  start : Bytes
  rest : Bytes
  deriving DecidableEq

def tokens (standardStrings : Bool) (pending : Option Continuation) (text : Bytes) :
    Option (List Token) :=
  match text with
  | [] => some []
  | c :: text =>
    match _reads : lexeme standardStrings pending (c :: text) with
    | none => none
    | some (found, rest) =>
      (tokens standardStrings (found.continuation pending) rest).map
        (⟨found, c :: text, rest⟩ :: ·)
termination_by text.length
decreasing_by
  have := (lexeme_suffix _reads).length_le
  simp only [length_cons]
  omega

/-- Every token was read at its own place in the text. -/
theorem reads_of_mem_tokens {found : List Token}
    (isRead : tokens standardStrings pending text = some found) {token : Token}
    (mem : token ∈ found) :
    token.start <:+ text ∧
      ∃ pending, lexeme standardStrings pending token.start = some (token.lexeme, token.rest) := by
  fun_induction tokens standardStrings pending text generalizing found with
  | case1 =>
    cases isRead
    cases mem
  | case2 => cases isRead
  | case3 pending c text lexeme rest reads ih =>
    rcases Option.map_eq_some_iff.mp isRead with ⟨later, isLater, rfl⟩
    rcases mem_cons.mp mem with rfl | mem
    · exact ⟨suffix_rfl, pending, reads⟩
    · rcases ih isLater mem with ⟨suffix, readsLater⟩
      exact ⟨suffix.trans ((lexeme_suffix reads).trans (suffix_cons c text)), readsLater⟩

/-- A word is taken to its last letter. -/
theorem lexeme_word {word rest : Bytes}
    (reads : lexeme standardStrings pending text = some (.word word, rest)) :
    text = word ++ rest ∧ (∀ c ∈ word, identifierPart c) ∧
      rest.head?.any identifierPart = false := by
  cases text with
  | nil => cases reads
  | cons c text =>
    dsimp only [lexeme] at reads
    split_ifs at reads
    all_goals try split at reads
    all_goals simp only [Option.map_eq_some_iff, Option.some.injEq, Prod.mk.injEq,
      reduceCtorEq, false_and, and_false, exists_false, Lexeme.word.injEq] at reads
    rcases reads with ⟨rfl, rfl⟩
    refine ⟨by simp, ?_, ?_⟩
    · rw [forall_mem_cons]
      refine ⟨?_, all_eq_true.mp all_takeWhile⟩
      rename_i isStart
      simp [identifierPart, isStart]
    have stops := head?_dropWhile_not identifierPart text
    cases isHead : (text.dropWhile identifierPart).head? with
    | none => rfl
    | some d => simpa [isHead] using stops

end Plinth.Core.Sql
