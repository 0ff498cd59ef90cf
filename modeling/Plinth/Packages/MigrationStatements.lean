import Plinth.Core.SqlLexical
import Plinth.Packages.Migrations

/-!
# Statements of caller-owned migrations

A migration that runs inside a transaction of the caller is executed statement by statement, so that
no statement can end the transaction. The kernel finds the statements with a scanner of its own; the
server reads them by the rules of PostgreSQL.

The scanner cuts every text into pieces that make it up again. The pieces are the statements of
PostgreSQL where the two readings agree, which leaves out three things the scanner does not know: a
line comment that a carriage return ends, a backslash in the continuation of an escape string, and a
backslash in a bit string.
-/

namespace Plinth.Packages.Migrations

open Plinth.Core Plinth.Core.Sql List

/-- One turn of the scanner: the statement ends, or it goes on with the rest of the text. -/
inductive Scanned where
  | ends (rest : Bytes)
  | goesOn (rest : Bytes) (word : Option Bytes)

def Scanned.rest : Scanned → Bytes
  | .ends rest => rest
  | .goesOn rest _ => rest

/-- The loops of the scanner stop at the end of the text, with an error of their own. -/
def goOn (message : String) : Option Bytes → Except String Scanned
  | none => .error message
  | some rest => .ok (.goesOn rest none)

def isEscapeLetter (c : UInt8) : Bool := c == 0x45 || c == 0x65

/-- One turn of the loop of `next_migration_statement` at a byte. -/
def scan (standardStrings : Bool) (c : UInt8) (text : Bytes) : Except String Scanned :=
  let escapeString := isEscapeLetter c && text.head? == some quote
  if c == semicolon then .ok (.ends text)
  else if c == dash && text.head? == some dash then
    .ok (.goesOn (text.tail.dropWhile (· != newline)) none)
  else if c == slash && text.head? == some star then
    goOn "unterminated migration SQL comment" (closeComment 1 text.tail)
  else if c == quote || c == doubleQuote || escapeString then
    let mark := if escapeString then quote else c
    let backslashEscapes := mark == quote && (escapeString || !standardStrings)
    goOn "unterminated migration SQL literal"
      (closeQuote mark backslashEscapes (if escapeString then text.tail else text))
  else
    match if c == dollar then dollarTag text else none with
    | some (tag, body) => goOn "unterminated migration SQL dollar literal" (closeDollar tag body)
    | none =>
      if identifierStart c then
        .ok (.goesOn (text.dropWhile identifierPart) (some (c :: text.takeWhile identifierPart)))
      else .ok (.goesOn text none)

theorem goOn_eq_ok {message : String} {closed : Option Bytes} {found : Scanned} :
    goOn message closed = .ok found ↔ ∃ rest, closed = some rest ∧ found = .goesOn rest none := by
  cases closed <;> simp [goOn, eq_comm]

variable {standardStrings : Bool} {text rest : Bytes} {words : List Bytes} {c : UInt8}

/-- One turn of the scanner takes at least one byte. -/
theorem scan_suffix {found : Scanned}
    (scanned : scan standardStrings c text = .ok found) : found.rest <:+ text := by
  have tail : text.tail <:+ text := tail_suffix text
  have literal : ∀ {mark escapes} {escapeString : Bool} {rest : Bytes},
      closeQuote mark escapes (if escapeString then text.tail else text) = some rest →
        rest <:+ text := by
    intro mark escapes escapeString rest closed
    refine (closeQuote_suffix closed).trans ?_
    split
    · exact tail
    · exact suffix_rfl
  dsimp only [scan] at scanned
  split at scanned
  · cases scanned
    exact suffix_rfl
  split at scanned
  · cases scanned
    exact (dropWhile_suffix _).trans tail
  split at scanned
  · rcases goOn_eq_ok.mp scanned with ⟨rest, closed, rfl⟩
    exact (closeComment_suffix closed).trans tail
  split at scanned
  · rcases goOn_eq_ok.mp scanned with ⟨rest, closed, rfl⟩
    exact literal closed
  split at scanned
  case h_1 tag body opened =>
    rcases goOn_eq_ok.mp scanned with ⟨rest, closed, rfl⟩
    rcases ite_eq_iff.mp opened with ⟨_, opened⟩ | ⟨_, impossible⟩
    · exact (closeDollar_suffix closed).trans (dollarTag_suffix opened)
    · cases impossible
  case h_2 =>
    split at scanned <;> cases scanned
    · exact dropWhile_suffix _
    · exact suffix_rfl

def upper (word : Bytes) : Bytes :=
  word.map fun c => if 0x61 ≤ c && c ≤ 0x7a then c - 0x20 else c

def keepWord (words : List Bytes) : Option Bytes → List Bytes
  | none => words
  | some word => if words.length < 2 then words ++ [upper word] else words

/-- The loop of `next_migration_statement`: what follows the statement, and its first words. -/
def scanStatement (standardStrings : Bool) (words : List Bytes) (text : Bytes) :
    Except String (Bytes × List Bytes) :=
  match text with
  | [] => .ok ([], words)
  | c :: text =>
    match _scanned : scan standardStrings c text with
    | .error message => .error message
    | .ok (.ends rest) => .ok (rest, words)
    | .ok (.goesOn rest word) => scanStatement standardStrings (keepWord words word) rest
termination_by text.length
decreasing_by
  have := (scan_suffix _scanned).length_le
  simp only [Scanned.rest, length_cons] at this ⊢
  omega

/-- The commands that end or start a transaction, by the first words of a statement. -/
def isTransactionControl : List Bytes → Bool
  | [] => false
  | command :: words =>
    command ∈ ["BEGIN", "START", "COMMIT", "END", "ROLLBACK", "ABORT"].map utf8 ||
      (command == utf8 "PREPARE" && words.head? == some (utf8 "TRANSACTION"))

structure MigrationStatement where
  length : Nat
  transactionControl : Bool

def nextMigrationStatement (sql : Bytes) (standardStrings : Bool) :
    Except String MigrationStatement :=
  if 0 ∈ sql then .error "migration SQL contains a NUL byte"
  else do
    let (rest, words) ← scanStatement standardStrings [] sql
    return ⟨sql.length - rest.length, isTransactionControl words⟩

theorem scanStatement_ends (scanned : scan standardStrings c text = .ok (.ends rest)) :
    scanStatement standardStrings words (c :: text) = .ok (rest, words) := by
  rw [scanStatement]
  split
  all_goals simp_all

theorem scanStatement_goesOn {word : Option Bytes}
    (scanned : scan standardStrings c text = .ok (.goesOn rest word)) :
    scanStatement standardStrings words (c :: text) =
      scanStatement standardStrings (keepWord words word) rest := by
  rw [scanStatement]
  split
  all_goals simp_all

/-- A statement takes at least one byte. -/
theorem scanStatement_suffix {found : List Bytes}
    (scanned : scanStatement standardStrings words text = .ok (rest, found)) :
    rest <:+ text.tail := by
  fun_induction scanStatement standardStrings words text with
  | case1 words =>
    cases scanned
    exact suffix_rfl
  | case2 => cases scanned
  | case3 words c text rest ends =>
    cases scanned
    exact scan_suffix ends
  | case4 words c text next word goesOn ih =>
    exact ((ih scanned).trans (tail_suffix _)).trans (scan_suffix goesOn)

/-- What the next statement is, from the turns of the scanner. -/
theorem nextMigrationStatement_ok {sql : Bytes} {parsed : MigrationStatement}
    (isOk : nextMigrationStatement sql standardStrings = .ok parsed) :
    ∃ rest words, scanStatement standardStrings [] sql = .ok (rest, words) ∧
      sql.take parsed.length ++ rest = sql ∧ sql.drop parsed.length = rest ∧
        parsed.transactionControl = isTransactionControl words := by
  simp only [nextMigrationStatement] at isOk
  split at isOk
  · cases isOk
  rcases scanned : scanStatement standardStrings [] sql with message | ⟨rest, words⟩
  · rw [scanned] at isOk
    cases isOk
  rw [scanned] at isOk
  cases isOk
  rcases (scanStatement_suffix scanned).trans (tail_suffix sql) with ⟨front, rfl⟩
  exact ⟨rest, words, rfl, by simp, by simp, rfl⟩

/-- What the server answers to the statements of one migration after those executed before, which
can change `standard_conforming_strings`. -/
structure Server where
  standardStrings : List Bytes → Bool
  refusesGuard : List Bytes → Option String
  refuses : List Bytes → Bytes → Option String
  inTransaction : List Bytes → Bytes → Bool
  refusesCleanup : List Bytes → Bytes → Option String

/-- The answer of the server to one statement between its guard and the cleanup. -/
def executeStatement (server : Server) (file : MigrationFile) (executed : List Bytes)
    (statement : Bytes) : Except MigrationFailure Unit :=
  match server.refusesGuard executed with
  | some detail => .error (applyFailed file "migration privilege guard setup failed: " detail)
  | none =>
    match server.refuses executed statement with
    | some detail =>
      .error (applyFailed file ("migration " ++ file.filename ++ " failed: ") detail)
    | none =>
      if server.inTransaction executed statement then
        match server.refusesCleanup executed statement with
        | some detail =>
          .error (applyFailed file "migration privilege guard cleanup failed: " detail)
        | none => .ok ()
      else .error (applyFailed file "caller-owned migration lost its transaction" "")

/-- The loop of `apply_one` over a migration whose transaction the caller owns, at a remaining
text. The loop tests after the first turn. -/
def applyStatements (server : Server) (file : MigrationFile) (executed : List Bytes)
    (text : Bytes) : Except MigrationFailure (List Bytes) :=
  match _parsed : nextMigrationStatement text (server.standardStrings executed) with
  | .error message => .error (applyFailed file message "")
  | .ok ⟨length, transactionControl⟩ =>
    if transactionControl then
      .error (applyFailed file "caller-owned migrations cannot contain transaction control" "")
    else
      let statement := text.take length
      match executeStatement server file executed statement with
      | .error failure => .error failure
      | .ok () =>
        if _more : (text.drop length).isEmpty then .ok (executed ++ [statement])
        else applyStatements server file (executed ++ [statement]) (text.drop length)
termination_by text.length
decreasing_by
  rcases nextMigrationStatement_ok _parsed with ⟨rest, words, scanned, -, dropped, -⟩
  have shorter := (scanStatement_suffix scanned).length_le
  simp only [dropped, List.isEmpty_iff] at _more ⊢
  have := length_pos_iff.mpr _more
  simp only [length_tail] at shorter
  omega

def scannedWord : Lexeme → Option Bytes
  | .word text => some text
  | .bitString letter _ => some [letter]
  | _ => none

/-- The scanner reads a lexeme as PostgreSQL does: a carriage return ends a line comment only at the
end of a line or of the text, and where only one of them takes a backslash for an escape the literal
ends at the same place. -/
def Aligned (standardStrings : Bool) : Lexeme × Bytes → Prop
  | (.lineComment, rest) =>
    rest.head? = some carriageReturn → rest.tail.head?.all (· == newline) = true
  | (.string escapes body, _) =>
    escapes = !standardStrings ∨ closeQuote quote true body = closeQuote quote false body
  | (.bitString _ body, _) =>
    standardStrings = true ∨ closeQuote quote true body = closeQuote quote false body
  | _ => True

instance (standardStrings : Bool) : DecidablePred (Aligned standardStrings)
  | (.lineComment, rest) =>
    inferInstanceAs (Decidable (rest.head? = some carriageReturn →
      rest.tail.head?.all (· == newline) = true))
  | (.string escapes body, _) =>
    inferInstanceAs (Decidable (escapes = !standardStrings ∨
      closeQuote quote true body = closeQuote quote false body))
  | (.bitString _ body, _) =>
    inferInstanceAs (Decidable (standardStrings = true ∨
      closeQuote quote true body = closeQuote quote false body))
  | (.space _, _) | (.blockComment, _) | (.quotedName, _) | (.escapeString, _)
  | (.dollarString, _) | (.word _, _) | (.symbol _, _) => .isTrue trivial

theorem scan_dollar : scan standardStrings dollar text =
    match dollarTag text with
    | some (tag, body) => goOn "unterminated migration SQL dollar literal" (closeDollar tag body)
    | none => .ok (.goesOn text none) := rfl

theorem scan_space (isBlank : isSpace c) :
    scan standardStrings c text = .ok (.goesOn text none) := by
  have others : ∀ c, isSpace c → (c == semicolon) = false ∧ (c == dash) = false ∧
      (c == slash) = false ∧ (c == quote) = false ∧ (c == doubleQuote) = false ∧
      isEscapeLetter c = false ∧ (c == dollar) = false ∧ identifierStart c = false := by
    decide +kernel
  rcases others c isBlank with
    ⟨notEnd, notDash, notSlash, notQuote, notDoubleQuote, notLetter, notDollar, notStart⟩
  simp [scan, notEnd, notDash, notSlash, notQuote, notDoubleQuote, notLetter, notDollar, notStart]

/-- A carriage return that ends a comment for PostgreSQL is part of it for the scanner. -/
theorem scanStatement_lineComment
    (aligned : Aligned standardStrings (.lineComment, text.dropWhile fun c => !isNewline c)) :
    scanStatement standardStrings words (text.dropWhile (· != newline)) =
      scanStatement standardStrings words (text.dropWhile fun c => !isNewline c) := by
  induction text with
  | nil => rfl
  | cons c text ih =>
    rcases eq_or_ne c newline with rfl | notLine
    · rfl
    rcases eq_or_ne c carriageReturn with rfl | notReturn
    · have passed : scan standardStrings carriageReturn text = .ok (.goesOn text none) :=
        scan_space rfl
      have ends : text.head?.all (· == newline) := aligned rfl
      have stays : text.dropWhile (· != newline) = text := by
        cases text with
        | nil => rfl
        | cons next text => simp_all
      exact (congrArg _ stays).trans (scanStatement_goesOn passed).symm
    · have inside : isNewline c = false := by simp [isNewline, notLine, notReturn]
      simp only [dropWhile_cons, inside, bne_iff_ne, ne_eq, notLine, not_false_eq_true,
        Bool.not_false, if_true] at aligned ⊢
      exact ih aligned

/-- A literal ends at the same place for both readings of a backslash. -/
theorem closeQuote_aligned {escapes assumed : Bool} {body : Bytes}
    (closed : closeQuote quote escapes body = some rest)
    (aligned : escapes = assumed ∨ closeQuote quote true body = closeQuote quote false body) :
    closeQuote quote assumed body = some rest := by
  rcases aligned with rfl | same
  · exact closed
  · cases escapes <;> cases assumed <;> simp_all

theorem scanStatement_closed {message : String} {closed : Option Bytes}
    (scanned : scan standardStrings c text = goOn message closed) (isClosed : closed = some rest) :
    scanStatement standardStrings words (c :: text) = scanStatement standardStrings words rest :=
  scanStatement_goesOn (scanned.trans (goOn_eq_ok.mpr ⟨rest, isClosed, rfl⟩))

/-- The scanner passes a lexeme in which both readings agree. -/
theorem scanStatement_lexeme {pending : Option Continuation} {found : Lexeme}
    (reads : lexeme standardStrings pending (c :: text) = some (found, rest))
    (isInner : found ≠ .symbol semicolon) (aligned : Aligned standardStrings (found, rest)) :
    scanStatement standardStrings words (c :: text) =
      scanStatement standardStrings (keepWord words (scannedWord found)) rest := by
  have opens : ∀ {first second : UInt8},
      (c == first && text.head? == some second) → c = first ∧ ∃ tail, text = second :: tail := by
    intro first second both
    simpa [head?_eq_some_iff] using both
  dsimp only [lexeme] at reads
  split at reads
  case isTrue isBlank =>
    cases reads
    exact scanStatement_goesOn (scan_space isBlank)
  split at reads
  case isTrue isComment =>
    cases reads
    rcases opens isComment with ⟨rfl, tail, rfl⟩
    have scanned : scan standardStrings dash (dash :: tail) =
        .ok (.goesOn (tail.dropWhile (· != newline)) none) := rfl
    rw [scanStatement_goesOn scanned]
    exact scanStatement_lineComment aligned
  split at reads
  case isTrue isComment =>
    rcases Option.map_eq_some_iff.mp reads with ⟨after, closed, ⟨⟩⟩
    rcases opens isComment with ⟨rfl, tail, rfl⟩
    exact scanStatement_closed rfl closed
  split at reads
  case isTrue isName =>
    rcases Option.map_eq_some_iff.mp reads with ⟨after, closed, ⟨⟩⟩
    cases beq_iff_eq.mp isName
    exact scanStatement_closed rfl closed
  split at reads
  case isTrue isString =>
    rcases Option.map_eq_some_iff.mp reads with ⟨after, closed, ⟨⟩⟩
    cases beq_iff_eq.mp isString
    exact scanStatement_closed rfl (closeQuote_aligned closed aligned)
  split at reads
  case isTrue isEscape =>
    rcases Option.map_eq_some_iff.mp reads with ⟨after, closed, ⟨⟩⟩
    simp only [Bool.and_eq_true, Bool.or_eq_true, beq_iff_eq, head?_eq_some_iff] at isEscape
    rcases isEscape with ⟨rfl | rfl, tail, rfl⟩
    all_goals exact scanStatement_closed rfl closed
  split at reads
  case isTrue isBit =>
    rcases Option.map_eq_some_iff.mp reads with ⟨after, closed, ⟨⟩⟩
    simp only [Bool.and_eq_true, Bool.or_eq_true, beq_iff_eq, head?_eq_some_iff] at isBit
    have unescaped : closeQuote quote (!standardStrings) text.tail = some rest :=
      closeQuote_aligned closed (aligned.imp_left fun isOn => by rw [isOn]; rfl)
    -- the scanner takes the letter for a word and the string for one of its own
    rcases isBit with ⟨((rfl | rfl) | rfl) | rfl, tail, rfl⟩
    all_goals exact (scanStatement_goesOn rfl).trans (scanStatement_closed rfl unescaped)
  split at reads
  case isTrue isDollar =>
    cases beq_iff_eq.mp isDollar
    have scanned := @scan_dollar standardStrings text
    split at reads
    case h_1 tag body opened =>
      rcases Option.map_eq_some_iff.mp reads with ⟨after, closed, ⟨⟩⟩
      rw [opened] at scanned
      exact scanStatement_closed scanned closed
    case h_2 opened =>
      cases reads
      rw [opened] at scanned
      exact scanStatement_goesOn scanned
  case isFalse notSpace notLine notBlock notName notString notEscape notBit notDollar =>
    have notEnd : ¬(c == semicolon) := by
      intro isEnd
      cases beq_iff_eq.mp isEnd
      cases reads
      exact isInner rfl
    have scanned : scan standardStrings c text =
        if identifierStart c then
          .ok (.goesOn (text.dropWhile identifierPart) (some (c :: text.takeWhile identifierPart)))
        else .ok (.goesOn text none) := by
      simp [scan, isEscapeLetter, notEnd, notLine, notBlock, notName, notString, notEscape,
        notDollar]
    split at reads
    case isTrue isStart =>
      cases reads
      rw [if_pos isStart] at scanned
      exact scanStatement_goesOn scanned
    case isFalse notStart =>
      cases reads
      rw [if_neg notStart] at scanned
      exact scanStatement_goesOn scanned

/-- The first words of a statement: those that only white space and comments come before. -/
def leadingWords : List (Lexeme × Bytes) → List Bytes
  | (.word text, _) :: lexemes => upper text :: leadingWords lexemes
  | (.space _, _) :: lexemes | (.lineComment, _) :: lexemes | (.blockComment, _) :: lexemes =>
    leadingWords lexemes
  | _ => []

def scannedWords (lexemes : List (Lexeme × Bytes)) : List Bytes :=
  (lexemes.filterMap fun found => scannedWord found.1).map upper

theorem take_append_take {Element : Type*} (n : Nat) (first second : List Element) :
    (first.take n ++ second).take n = (first ++ second).take n := by
  simp only [take_append, take_take, length_take, Nat.min_self]
  congr 2
  omega

theorem keepWord_eq_take {word : Option Bytes} (few : words.length ≤ 2) :
    keepWord words word = (words ++ (word.map upper).toList).take 2 := by
  cases word with
  | none => simp [keepWord, take_of_length_le few]
  | some word =>
    simp only [keepWord]
    split
    case isTrue room => exact (take_of_length_le (by simp; omega)).symm
    case isFalse full => exact (take_left' (by omega)).symm

/-- Over a whole statement that it reads alike, the scanner ends where PostgreSQL does. -/
theorem scanStatement_eq_statement {pending : Option Continuation} {after : Bytes}
    {lexemes : List (Lexeme × Bytes)} (few : words.length ≤ 2)
    (reads : statement standardStrings pending text = some (lexemes, after))
    (aligned : ∀ found ∈ lexemes, Aligned standardStrings found) :
    scanStatement standardStrings words text =
      .ok (after, (words ++ scannedWords lexemes).take 2) := by
  fun_induction statement standardStrings pending text generalizing lexemes words with
  | case1 pending =>
    cases reads
    rw [scanStatement]
    simp [scannedWords, take_of_length_le few]
  | case2 => cases reads
  | case3 pending c text rest isEnd =>
    cases reads
    rcases lexeme_symbol isEnd with ⟨rfl, rfl⟩
    rw [scanStatement_ends rfl]
    simp [scannedWords, scannedWord, take_of_length_le few]
  | case4 pending c text found rest isLexeme inner ih =>
    rcases Option.map_eq_some_iff.mp reads with ⟨⟨following, last⟩, readsOn, ⟨⟩⟩
    have alike := aligned (found, rest) mem_cons_self
    rw [scanStatement_lexeme isLexeme inner alike,
      ih (by simp [keepWord_eq_take few]) readsOn fun next mem =>
        aligned next (mem_cons_of_mem _ mem), keepWord_eq_take few]
    have words_cons : scannedWords ((found, rest) :: following) =
        ((scannedWord found).map upper).toList ++ scannedWords following := by
      cases isWord : scannedWord found <;> simp [scannedWords, isWord]
    rw [words_cons, ← append_assoc, take_append_take]

theorem leadingWords_of_beginning (lexemes : List (Lexeme × Bytes)) :
    leadingWords lexemes <+: scannedWords lexemes := by
  fun_induction leadingWords lexemes with
  | case1 text rest lexemes ih =>
    exact cons_prefix_cons.mpr ⟨rfl, ih⟩
  | case2 c rest lexemes ih | case3 rest lexemes ih | case4 rest lexemes ih => exact ih
  | case5 lexemes => exact nil_prefix

/-- The first two words decide whether a statement controls transactions. -/
theorem isTransactionControl_of_beginning {first : List Bytes} (isPrefix : first <+: words)
    (isControl : isTransactionControl first) :
    isTransactionControl (words.take 2) := by
  rcases isPrefix with ⟨others, rfl⟩
  match first with
  | [] => cases isControl
  | [command] =>
    have listed : command ∈ ["BEGIN", "START", "COMMIT", "END", "ROLLBACK", "ABORT"].map utf8 := by
      simpa [isTransactionControl] using isControl
    simp only [cons_append, take_succ_cons, isTransactionControl, Bool.or_eq_true,
      decide_eq_true_eq]
    exact .inl listed
  | command :: next :: words => simpa [isTransactionControl] using isControl

/-- The scanner reads the first statement of a text as PostgreSQL does. -/
def Agrees (standardStrings : Bool) (text : Bytes) : Prop :=
  ∃ read ∈ statement standardStrings none text, ∀ found ∈ read.1, Aligned standardStrings found

instance (standardStrings : Bool) (text : Bytes) : Decidable (Agrees standardStrings text) :=
  inferInstanceAs (Decidable (∃ read ∈ statement standardStrings none text,
    ∀ found ∈ read.1, Aligned standardStrings found))

/-- An executed statement, with the text that follows it, ends at the first semicolon outside of
comments and literals or at the end, and its first word is no command of transaction control. -/
def EndsProperly (standardStrings : Bool) (executed following : Bytes) : Prop :=
  ∃ lexemes, statement standardStrings none (executed ++ following) = some (lexemes, following) ∧
    isTransactionControl (leadingWords lexemes) = false

/-- Where the readings agree, the scanner cuts at the end of a statement. -/
theorem EndsProperly.of_scanned {sql : Bytes} (agrees : Agrees standardStrings sql)
    (scanned : scanStatement standardStrings [] sql = .ok (rest, words))
    (uncontrolled : isTransactionControl words = false) :
    ∃ lexemes, statement standardStrings none sql = some (lexemes, rest) ∧
      isTransactionControl (leadingWords lexemes) = false := by
  rcases agrees with ⟨⟨lexemes, after⟩, reads, aligned⟩
  have same := scanned.symm.trans (scanStatement_eq_statement (Nat.zero_le 2) reads aligned)
  cases same
  refine ⟨lexemes, reads, ?_⟩
  rw [← Bool.not_eq_true] at uncontrolled ⊢
  exact fun isControl =>
    uncontrolled (isTransactionControl_of_beginning (leadingWords_of_beginning lexemes) isControl)

/-- A statement that is accepted is not empty, and it ends where PostgreSQL ends it. -/
theorem nextMigrationStatement_splits {sql : Bytes} {length : Nat}
    (isOk : nextMigrationStatement sql standardStrings = .ok ⟨length, false⟩)
    (nonempty : sql ≠ []) :
    sql.take length ≠ [] ∧
      (Agrees standardStrings sql →
        EndsProperly standardStrings (sql.take length) (sql.drop length)) := by
  rcases nextMigrationStatement_ok isOk with ⟨rest, words, scanned, joined, dropped, control⟩
  constructor
  · intro isEmpty
    have shorter := (scanStatement_suffix scanned).length_le
    have whole : rest = sql := by rwa [isEmpty] at joined
    have := length_pos_iff.mpr nonempty
    rw [whole, length_tail] at shorter
    omega
  · intro agrees
    rw [EndsProperly, take_append_drop, dropped]
    exact EndsProperly.of_scanned agrees scanned control.symm

/-- A text is executed as a list of statements, after those executed before. -/
structure Executes (server : Server) (executed : List Bytes) (text : Bytes)
    (added : List Bytes) : Prop where
  joined : added.flatten = text
  filled : ∀ statement ∈ added, statement ≠ []
  proper : ∀ before statement after, added = before ++ statement :: after →
    Agrees (server.standardStrings (executed ++ before)) (statement ++ after.flatten) →
      EndsProperly (server.standardStrings (executed ++ before)) statement after.flatten

theorem Executes.nil (server : Server) (executed : List Bytes) :
    Executes server executed [] [] := by
  constructor
  · rfl
  · simp
  · simp

theorem Executes.cons {server : Server} {executed added : List Bytes} {length : Nat}
    (filled : text.take length ≠ [])
    (proper : Agrees (server.standardStrings executed) text →
      EndsProperly (server.standardStrings executed) (text.take length) (text.drop length))
    (later : Executes server (executed ++ [text.take length]) (text.drop length) added) :
    Executes server executed text (text.take length :: added) := by
  constructor
  · simp [later.joined]
  · simpa [filled] using later.filled
  · intro before chosen after split agrees
    cases before with
    | nil =>
      cases split
      rw [later.joined, append_nil] at agrees ⊢
      rw [take_append_drop] at agrees
      exact proper agrees
    | cons first before =>
      cases split
      simpa using later.proper before chosen after rfl (by simpa using agrees)

/-- The loop executes the statements of the text one after the other. -/
theorem applyStatements_executes {server : Server} {file : MigrationFile}
    {executed statements : List Bytes} (nonempty : text ≠ [])
    (applied : applyStatements server file executed text = .ok statements) :
    ∃ added, statements = executed ++ added ∧ Executes server executed text added := by
  fun_induction applyStatements server file executed text with
  | case1 | case2 | case3 => cases applied
  | case4 executed text length transactionControl parsed uncontrolled statement _ isLast =>
    cases applied
    cases Bool.not_eq_true _ ▸ uncontrolled
    rcases nextMigrationStatement_splits parsed nonempty with ⟨filled, proper⟩
    have nothingLeft : Executes server (executed ++ [statement]) (text.drop length) [] := by
      rw [List.isEmpty_iff.mp isLast]
      exact Executes.nil server _
    exact ⟨[statement], rfl, .cons filled proper nothingLeft⟩
  | case5 executed text length transactionControl parsed uncontrolled statement _ isMore ih =>
    cases Bool.not_eq_true _ ▸ uncontrolled
    rcases nextMigrationStatement_splits parsed nonempty with ⟨filled, proper⟩
    rcases ih (by simpa using isMore) applied with ⟨added, rfl, later⟩
    exact ⟨statement :: added, by simp, .cons filled proper later⟩

/-- An applied caller-owned migration is executed as statements that make up its text, none of them
empty. A statement that the scanner reads as PostgreSQL does ends at its first semicolon or at the
end of the text, and starts with no command of transaction control. -/
theorem applyStatements_splits {server : Server} {file : MigrationFile} {text : Bytes}
    {statements : List Bytes} (nonempty : text ≠ [])
    (applied : applyStatements server file [] text = .ok statements) :
    statements.flatten = text ∧ (∀ statement ∈ statements, statement ≠ []) ∧
      ∀ before statement after, statements = before ++ statement :: after →
        Agrees (server.standardStrings before) (statement ++ after.flatten) →
          EndsProperly (server.standardStrings before) statement after.flatten := by
  rcases applyStatements_executes nonempty applied with ⟨added, rfl, executes⟩
  exact ⟨executes.joined, executes.filled, executes.proper⟩

def acceptingServer : Server where
  standardStrings _ := true
  refusesGuard _ := none
  refuses _ _ := none
  inTransaction _ _ := true
  refusesCleanup _ _ := none

def sampleMigration : MigrationFile := ⟨"001_init.sql", "", ""⟩

theorem applyStatements_splits_two :
    [utf8 "SELECT ';' --\r\n;", utf8 "COMMENT"].flatten = utf8 "SELECT ';' --\r\n;COMMENT" ∧
      EndsProperly true (utf8 "SELECT ';' --\r\n;") (utf8 "COMMENT") := by
  have applied : applyStatements acceptingServer sampleMigration []
      (utf8 "SELECT ';' --\r\n;COMMENT") =
        .ok [utf8 "SELECT ';' --\r\n;", utf8 "COMMENT"] := by
    decide +kernel
  have nonempty : utf8 "SELECT ';' --\r\n;COMMENT" ≠ [] := by decide +kernel
  rcases applyStatements_splits nonempty applied with ⟨joined, -, proper⟩
  exact ⟨joined, proper [] _ [utf8 "COMMENT"] rfl (by decide +kernel)⟩

/-- The carriage return ends the comment, so the semicolon after it ends a statement. The scanner
takes both statements for one. -/
theorem applyStatements_carriageReturn :
    applyStatements acceptingServer sampleMigration [] (utf8 "SELECT 1 --\r; SELECT 2") =
        .ok [utf8 "SELECT 1 --\r; SELECT 2"] ∧
      ¬EndsProperly true (utf8 "SELECT 1 --\r; SELECT 2") [] := by
  have first : (statement true none (utf8 "SELECT 1 --\r; SELECT 2")).map Prod.snd =
      some (utf8 " SELECT 2") := by
    decide +kernel
  refine ⟨by decide +kernel, ?_⟩
  rintro ⟨lexemes, reads, -⟩
  rw [append_nil] at reads
  rw [reads] at first
  cases first

end Plinth.Packages.Migrations
