import Plinth.Packages.MigrationStatements

/-!
# Unqualified definitions in migrations

Before a migration is applied, the kernel looks for `CREATE` statements that do not name the schema
of the extension. It looks at the text without its comments and literals, which it blanks by a
second reading of SQL, apart from the scanner that finds the statements.

The two readings agree on a text exactly if it has none of the things that only the scanner knows:
quoted names and words with the start of a comment or a literal in them, escape strings, and tags of
dollar quotes beyond ASCII.
-/

namespace Plinth.Packages.Migrations

open Plinth.Core Plinth.Core.Sql List

def blankFor (c : UInt8) : UInt8 := if c == newline then newline else 0x20

/-- A byte that stays, or a range of bytes that is blanked. -/
inductive Piece where
  | kept (c : UInt8)
  | blanked (range : Bytes)
  deriving DecidableEq

def Piece.text : Piece → Bytes
  | .kept c => [c]
  | .blanked range => range.map blankFor

/-- What follows a block comment that is open at a depth; an open one goes to the end. -/
def skipBlockComment : ℕ → Bytes → Bytes
  | 0, text => text
  | _ + 1, [] => []
  | _ + 1, [_] => []
  | depth + 1, c :: next :: following =>
    if c == slash && next == star then skipBlockComment (depth + 2) following
    else if c == star && next == slash then skipBlockComment depth following
    else skipBlockComment (depth + 1) (next :: following)

def skipSingleQuoted : Bytes → Bytes
  | [] => []
  | c :: text =>
    if c != quote then skipSingleQuoted text
    else
      match text with
      | [] => []
      | next :: following => if next == quote then skipSingleQuoted following else text

def isTagByte (c : UInt8) : Bool :=
  (0x41 ≤ c && c ≤ 0x5a) || (0x61 ≤ c && c ≤ 0x7a) || (0x30 ≤ c && c ≤ 0x39) || c == 0x5f

/-- The tag that a dollar sign opens before a text, if there is one. -/
def openedTag (text : Bytes) : Option Bytes :=
  let name := text.takeWhile isTagByte
  if (text.drop name.length).head? == some dollar then some (dollar :: name ++ [dollar]) else none

/-- What follows the first occurrence of a tag. Without one, the last bytes stay that are too few
for the tag. -/
def skipDollarQuoted (tag : Bytes) : Bytes → Bytes
  | [] => []
  | c :: text =>
    if (c :: text).length < tag.length then c :: text
    else if tag.isPrefixOf (c :: text) then (c :: text).drop tag.length
    else skipDollarQuoted tag text

/-- One turn of the loop of `strip_sql_noise`: what follows the comment or literal that starts at a
byte, if one does. -/
def skipNoise (c : UInt8) (text : Bytes) : Option Bytes :=
  if c == dash && text.head? == some dash then some (text.dropWhile (· != newline))
  else if c == slash && text.head? == some star then some (skipBlockComment 1 text.tail)
  else if c == quote then some (skipSingleQuoted text)
  else if c == dollar then
    (openedTag text).map fun tag => skipDollarQuoted tag (text.drop (tag.length - 1))
  else none

/-- Both readings close a block comment at the same place. -/
theorem skipBlockComment_eq (depth : ℕ) (text : Bytes) :
    skipBlockComment depth text = (closeComment depth text).getD [] := by
  fun_induction closeComment depth text with
  | case1 | case2 | case3 => simp [skipBlockComment]
  | case4 depth c next following opens ih => rw [skipBlockComment, if_pos opens, ih]
  | case5 depth c next following notOpen closes ih =>
    rw [skipBlockComment, if_neg notOpen, if_pos closes, ih]
  | case6 depth c next following notOpen notClose ih =>
    rw [skipBlockComment, if_neg notOpen, if_neg notClose, ih]

/-- A string is closed as one without escapes. -/
theorem skipSingleQuoted_eq (text : Bytes) :
    skipSingleQuoted text = (closeQuote quote false text).getD [] := by
  fun_induction skipSingleQuoted text with
  | case1 => rfl
  | case2 c text notQuote ih =>
    rw [closeQuote.eq_def]
    simp_all
  | case3 c isQuote => simp_all [closeQuote]
  | case4 | case5 =>
    rw [closeQuote]
    simp_all

theorem getD_suffix {closed : Option Bytes} {text : Bytes}
    (suffix : ∀ rest, closed = some rest → rest <:+ text) : closed.getD [] <:+ text := by
  cases closed with
  | none => exact nil_suffix
  | some rest => exact suffix rest rfl

theorem skipSingleQuoted_suffix (text : Bytes) : skipSingleQuoted text <:+ text := by
  rw [skipSingleQuoted_eq]
  exact getD_suffix fun _ closed => closeQuote_suffix closed

theorem skipDollarQuoted_suffix (tag text : Bytes) : skipDollarQuoted tag text <:+ text := by
  fun_induction skipDollarQuoted tag text with
  | case1 | case2 => exact suffix_rfl
  | case3 => exact drop_suffix _ _
  | case4 c text _ _ ih => exact ih.trans (suffix_cons _ _)

variable {c : UInt8} {text rest : Bytes}

/-- What follows a comment or literal is the rest of the text. -/
theorem skipNoise_suffix (skipped : skipNoise c text = some rest) : rest <:+ text := by
  rw [skipNoise] at skipped
  split at skipped
  · cases skipped
    exact dropWhile_suffix _
  split at skipped
  · cases skipped
    rw [skipBlockComment_eq]
    exact (getD_suffix fun _ closed => closeComment_suffix closed).trans (tail_suffix text)
  split at skipped
  · cases skipped
    exact skipSingleQuoted_suffix text
  split at skipped
  · rcases Option.map_eq_some_iff.mp skipped with ⟨tag, -, rfl⟩
    exact (skipDollarQuoted_suffix _ _).trans (drop_suffix _ _)
  · cases skipped

def stripPieces (text : Bytes) : List Piece :=
  match text with
  | [] => []
  | c :: text =>
    match _skipped : skipNoise c text with
    | some rest => .blanked (before (c :: text) rest) :: stripPieces rest
    | none => .kept c :: stripPieces text
termination_by text.length
decreasing_by
  · have := (skipNoise_suffix _skipped).length_le
    simp only [length_cons]
    omega
  · simp

def piecesText (pieces : List Piece) : Bytes := pieces.flatMap Piece.text

def stripSqlNoise (sql : Bytes) : Bytes := piecesText (stripPieces sql)

def lower (c : UInt8) : UInt8 := if 0x41 ≤ c && c ≤ 0x5a then c + 0x20 else c

/-- What may follow a keyword and the white space after it, in the text after them. -/
def keyword (word : String) (text : Bytes) : List Bytes :=
  let letters := utf8 word
  if (text.take letters.length).map lower = letters.map lower then [text.drop letters.length]
  else []

def spaces (text : Bytes) : List Bytes :=
  if text.head?.any isSpace then [text.dropWhile isSpace] else []

def phrase : List String → Bytes → List Bytes
  | [], text => [text]
  | word :: words, text => ((keyword word text).flatMap spaces).flatMap (phrase words)

/-- One of several phrases or none, the phrases first. -/
def optionally (phrases : List (List String)) (text : Bytes) : List Bytes :=
  phrases.flatMap (phrase · text) ++ [text]

def isNameByte (c : UInt8) : Bool := !isSpace c && c != 0x28 && c != semicolon && c != 0x2c

/-- What is defined: the words for its kind and its name, with what follows them. -/
structure Definition where
  kind : Bytes
  name : Bytes
  rest : Bytes

def definedKinds (text : Bytes) : List Bytes :=
  keyword "TABLE" text ++ (phrase ["MATERIALIZED"] text).flatMap (keyword "VIEW") ++
    ["VIEW", "SEQUENCE", "TYPE", "FUNCTION", "PROCEDURE"].flatMap (keyword · text)

def definitions (text : Bytes) : List Definition :=
  let replaced := (phrase ["CREATE"] text).flatMap (optionally [["OR", "REPLACE"]])
  let inScope := replaced.flatMap (optionally [["GLOBAL"], ["LOCAL"]])
  let kinds := inScope.flatMap
    (optionally [["TEMPORARY"], ["TEMP"], ["UNLOGGED"], ["RECURSIVE"]])
  kinds.flatMap fun kind => (definedKinds kind).flatMap fun afterKind =>
    ((spaces afterKind).flatMap (optionally [["IF", "NOT", "EXISTS"]])).flatMap fun text =>
      let name := text.takeWhile isNameByte
      if name.isEmpty then [] else [⟨before kind afterKind, name, text.dropWhile isNameByte⟩]

def isWordByte (c : UInt8) : Bool := isTagByte c

/-- The match of the pattern at a place: at the start of the text, or after a byte of no word. -/
def definitionAt (atStart : Bool) (c : UInt8) (text : Bytes) : Option Definition :=
  ((if atStart then definitions (c :: text) else []) ++
    if isWordByte c then [] else definitions text).head?

/-- The matches one after the other; the first `skip` bytes belong to the match before. -/
def findDefinitions (atStart : Bool) : ℕ → Bytes → List Definition
  | _, [] => []
  | skip + 1, _ :: text => findDefinitions false skip text
  | 0, c :: text =>
    match definitionAt atStart c text with
    | some found => found :: findDefinitions false (text.length - found.rest.length) text
    | none => findDefinitions false 0 text

def unquoteInner : Bytes → Bytes
  | [] => []
  | [c] => [c]
  | c :: next :: text =>
    if c == doubleQuote && next == doubleQuote then doubleQuote :: unquoteInner text
    else c :: unquoteInner (next :: text)

def unquoteSchema (ident : Bytes) : Bytes :=
  if 2 ≤ ident.length && ident.head? == some doubleQuote && ident.getLast? == some doubleQuote then
    unquoteInner (ident.drop 1).dropLast
  else ident

def schemaOf (inQuote : Bool) : Bytes → Option Bytes
  | [] => none
  | c :: name =>
    if c == doubleQuote then (schemaOf (!inQuote) name).map (c :: ·)
    else if c == 0x2e && !inQuote then some []
    else (schemaOf inQuote name).map (c :: ·)

def isQualifiedToExt (name extensionName : Bytes) : Bool :=
  match schemaOf false name with
  | none => false
  | some schema => !schema.isEmpty && unquoteSchema schema == utf8 "ext_" ++ extensionName

def unqualifiedMessage (found : Definition) (extensionName : Bytes) : Bytes :=
  utf8 "unqualified DDL: `CREATE " ++ found.kind ++ utf8 " " ++ found.name ++
    utf8 "` must be schema-qualified as `ext_" ++ extensionName ++
    utf8 ".<name>` (per ICD-0.4.3 §Schema + GRANT Contract — search_path " ++
    utf8 "is deliberately not set during migration apply, so unqualified DDL " ++
    utf8 "lands in the admin connection's default schema rather than ext_" ++
    extensionName ++ utf8 ")"

/-- The first definition in a text that is not in the schema of the extension. -/
def unqualifiedDdl (text extensionName : Bytes) : Option Bytes :=
  ((findDefinitions true 0 text).find? fun found =>
    !isQualifiedToExt found.name extensionName).map fun found =>
      unqualifiedMessage found extensionName

def checkQualifiedDdl (sql extensionName : Bytes) : Option Bytes :=
  unqualifiedDdl (stripSqlNoise sql) extensionName

theorem stripPieces_skipped (skipped : skipNoise c text = some rest) :
    stripPieces (c :: text) = .blanked (before (c :: text) rest) :: stripPieces rest := by
  rw [stripPieces]
  split
  all_goals simp_all

theorem stripPieces_kept (kept : skipNoise c text = none) :
    stripPieces (c :: text) = .kept c :: stripPieces text := by
  rw [stripPieces]
  split
  all_goals simp_all

/-- Blanking keeps the lines. -/
theorem lines_stripSqlNoise (sql : Bytes) :
    (stripSqlNoise sql).map (· == newline) = sql.map (· == newline) := by
  have blanked (range : Bytes) :
      (range.map blankFor).map (· == newline) = range.map (· == newline) := by
    have sameByte : ∀ c : UInt8, (blankFor c == newline) = (c == newline) := by decide +kernel
    simp [sameByte]
  fun_induction stripPieces sql with
  | case1 => simp [stripSqlNoise, piecesText, stripPieces]
  | case2 c text rest skipped ih =>
    have whole := before_append ((skipNoise_suffix skipped).trans (suffix_cons c text))
    rw [stripSqlNoise, stripPieces_skipped skipped]
    simp only [piecesText, flatMap_cons, Piece.text, map_append, blanked]
    rw [← piecesText, ← stripSqlNoise, ih, ← map_append, whole]
  | case3 c text kept ih =>
    rw [stripSqlNoise, stripPieces_kept kept]
    simp only [piecesText, flatMap_cons, Piece.text, map_append]
    rw [← piecesText, ← stripSqlNoise, ih]
    rfl

/-- One turn of the scanner: where it starts, and what follows the lexeme. -/
structure Turn where
  c : UInt8
  text : Bytes
  rest : Bytes

namespace Turn

variable (turn : Turn)

def lexeme : Bytes := before (turn.c :: turn.text) turn.rest

def isComment : Bool :=
  (turn.c == dash && turn.text.head? == some dash) ||
    (turn.c == slash && turn.text.head? == some star)

def isEscapeString : Bool := isEscapeLetter turn.c && turn.text.head? == some quote

def isDollarLiteral : Bool := turn.c == dollar && (dollarTag turn.text).isSome

/-- Comments and literals; quoted names are none. -/
def isNoise : Bool :=
  turn.isComment || turn.c == quote || turn.isEscapeString || turn.isDollarLiteral

def pieces : List Piece :=
  if turn.isNoise then [.blanked turn.lexeme] else turn.lexeme.map .kept

/-- What the blanking has to find in a lexeme of the scanner: no escape string, no string that ends
elsewhere if backslashes are plain bytes, no tag that needs bytes beyond ASCII, and no start of a
comment or literal in a name, a word or a symbol. -/
structure Agrees : Prop where
  notEscapeString : turn.isEscapeString = false
  string : turn.c = quote → skipSingleQuoted turn.text = turn.rest
  dollarLiteral : turn.isDollarLiteral = true → openedTag turn.text ≠ none
  code : turn.isNoise = false → ∀ front c back, turn.lexeme = front ++ c :: back →
    skipNoise c (back ++ turn.rest) = none

end Turn

def statementAfter (statement : ℕ) : Scanned → ℕ
  | .ends _ => statement + 1
  | .goesOn _ _ => statement

/-- The whole text, statement after statement; a statement can change the setting for those after
it. -/
def readText (settings : ℕ → Bool) (statement : ℕ) (text : Bytes) : Except String (List Turn) :=
  match text with
  | [] => .ok []
  | c :: text =>
    match _scanned : scan (settings statement) c text with
    | .error message => .error message
    | .ok found =>
      (readText settings (statementAfter statement found) found.rest).map
        (⟨c, text, found.rest⟩ :: ·)
termination_by text.length
decreasing_by
  have := (scan_suffix _scanned).length_le
  simp only [length_cons]
  omega

/-- A text of which `next_migration_statement` accepts every statement. -/
def acceptsText (settings : ℕ → Bool) (statement : ℕ) (sql : Bytes) : Bool :=
  if _more : sql.isEmpty then true
  else
    match _parsed : nextMigrationStatement sql (settings statement) with
    | .error _ => false
    | .ok parsed => acceptsText settings (statement + 1) (sql.drop parsed.length)
termination_by sql.length
decreasing_by
  rcases nextMigrationStatement_ok _parsed with ⟨rest, words, scanned, -, dropped, -⟩
  have shorter := (scanStatement_suffix scanned).length_le
  simp only [List.isEmpty_iff] at _more
  have := length_pos_iff.mpr _more
  simp only [dropped, length_tail] at shorter ⊢
  omega

variable {settings : ℕ → Bool} {statement : ℕ}

theorem readText_scanned {found : Scanned}
    (scanned : scan (settings statement) c text = .ok found) :
    readText settings statement (c :: text) =
      (readText settings (statementAfter statement found) found.rest).map
        (⟨c, text, found.rest⟩ :: ·) := by
  rw [readText]
  split
  all_goals simp_all

theorem exists_of_readText {turns : List Turn}
    (read : readText settings statement (c :: text) = .ok turns) :
    ∃ found later, scan (settings statement) c text = .ok found ∧
      readText settings (statementAfter statement found) found.rest = .ok later ∧
        turns = ⟨c, text, found.rest⟩ :: later := by
  cases scanned : scan (settings statement) c text with
  | error message =>
    rw [readText] at read
    split at read
    all_goals simp_all
  | ok found =>
    rw [readText_scanned scanned] at read
    cases isLater : readText settings (statementAfter statement found) found.rest with
    | error message => simp [isLater, Except.map] at read
    | ok later =>
      simp only [isLater, Except.map, Except.ok.injEq] at read
      exact ⟨found, later, rfl, isLater, read.symm⟩

theorem readText_of_scanStatement {words found : List Bytes} {later : List Turn}
    (scanned : scanStatement (settings statement) words text = .ok (rest, found))
    (read : readText settings (statement + 1) rest = .ok later) :
    ∃ turns, readText settings statement text = .ok turns := by
  fun_induction scanStatement (settings statement) words text with
  | case1 words => exact ⟨[], by rw [readText]⟩
  | case2 => cases scanned
  | case3 words c text rest ends =>
    cases scanned
    rw [readText_scanned ends]
    exact ⟨_, congrArg (Except.map _) read⟩
  | case4 words c text next word goesOn ih =>
    rcases ih scanned with ⟨turns, isRead⟩
    rw [readText_scanned goesOn]
    exact ⟨_, congrArg (Except.map _) isRead⟩

/-- A text that is accepted statement by statement is read to its end. -/
theorem readText_of_acceptsText {sql : Bytes} (accepted : acceptsText settings statement sql) :
    ∃ turns, readText settings statement sql = .ok turns := by
  fun_induction acceptsText settings statement sql with
  | case1 statement sql isNil =>
    rw [List.isEmpty_iff.mp isNil]
    exact ⟨[], by rw [readText]⟩
  | case2 => cases accepted
  | case3 statement sql more parsed isParsed ih =>
    rcases nextMigrationStatement_ok isParsed with ⟨rest, words, scanned, -, dropped, -⟩
    rcases ih accepted with ⟨later, read⟩
    rw [dropped] at read
    exact readText_of_scanStatement scanned read

/-- Code without the start of a comment or literal stays as it is. -/
theorem stripPieces_append {code : Bytes}
    (plain : ∀ front c back, code = front ++ c :: back → skipNoise c (back ++ rest) = none) :
    stripPieces (code ++ rest) = code.map .kept ++ stripPieces rest := by
  induction code with
  | nil => rfl
  | cons c code ih =>
    have kept := plain [] c code rfl
    have later := ih fun front d back same => plain (c :: front) d back (by rw [same]; rfl)
    rw [cons_append, stripPieces_kept kept, later]
    rfl

theorem stripSqlNoise_skipped (skipped : skipNoise c text = some rest) :
    stripSqlNoise (c :: text) = (before (c :: text) rest).map blankFor ++ stripSqlNoise rest := by
  rw [stripSqlNoise, stripPieces_skipped skipped]
  rfl

theorem stripSqlNoise_kept (kept : skipNoise c text = none) :
    stripSqlNoise (c :: text) = c :: stripSqlNoise text := by
  rw [stripSqlNoise, stripPieces_kept kept]
  rfl

/-- The first byte of a blanked range is seen to be blanked. -/
theorem blankFor_ne (skipped : skipNoise c text = some rest) : blankFor c ≠ c := by
  have starts : c = dash ∨ c = slash ∨ c = quote ∨ c = dollar := by
    by_contra other
    simp only [not_or] at other
    simp [skipNoise, other] at skipped
  rcases starts with rfl | rfl | rfl | rfl
  all_goals decide

/-- A start of a comment or literal in code shows in the blanked text. -/
theorem stripSqlNoise_append_ne {code front back : Bytes} (same : code = front ++ c :: back)
    (skipped : skipNoise c (back ++ rest) ≠ none) (later : Bytes) :
    stripSqlNoise (code ++ rest) ≠ code ++ later := by
  induction code generalizing front with
  | nil => simp at same
  | cons d code ih =>
    cases starts : skipNoise d (code ++ rest) with
    | some after =>
      rw [cons_append, stripSqlNoise_skipped starts, before_cons (skipNoise_suffix starts)]
      intro sameText
      exact blankFor_ne starts (List.cons.inj sameText).1
    | none =>
      rw [cons_append, stripSqlNoise_kept starts]
      cases front with
      | nil =>
        cases same
        exact absurd starts skipped
      | cons d front =>
        intro sameText
        exact ih (List.cons.inj same).2 (List.cons.inj sameText).2

theorem length_le_of_closeDollar {tag : Bytes} (closed : closeDollar tag text = some rest) :
    tag.length ≤ text.length := by
  fun_induction closeDollar tag text with
  | case1 isNil => simp [List.isEmpty_iff.mp isNil]
  | case2 => cases closed
  | case3 c text isTag => exact (List.isPrefixOf_iff_prefix.mp isTag).length_le
  | case4 c text notTag ih =>
    have shorter := ih closed
    simp only [length_cons]
    omega

theorem skipDollarQuoted_of_close {tag : Bytes} (notNil : tag ≠ [])
    (closed : closeDollar tag text = some rest) : skipDollarQuoted tag text = rest := by
  fun_induction closeDollar tag text with
  | case1 isNil => exact absurd (List.isEmpty_iff.mp isNil) notNil
  | case2 => cases closed
  | case3 c text isTag =>
    cases closed
    have longer := (List.isPrefixOf_iff_prefix.mp isTag).length_le
    rw [skipDollarQuoted, if_neg (by omega), if_pos isTag]
  | case4 c text notTag ih =>
    have longer := length_le_of_closeDollar closed
    rw [skipDollarQuoted, if_neg (by simp only [length_cons]; omega), if_neg notTag]
    exact ih closed

theorem openedTag_eq_some {opened : Bytes} (isOpened : openedTag text = some opened) :
    ∃ name body, name.all isTagByte ∧ text = name ++ dollar :: body ∧
      opened = dollar :: name ++ [dollar] := by
  dsimp only [openedTag] at isOpened
  split at isOpened
  case isFalse => cases isOpened
  case isTrue closes =>
  have cut : text.takeWhile isTagByte ++ text.drop (text.takeWhile isTagByte).length = text :=
    prefix_iff_eq_append.mp (List.takeWhile_prefix _)
  cases isRest : text.drop (text.takeWhile isTagByte).length with
  | nil => simp [isRest] at closes
  | cons d body =>
    have isDollar : d = dollar := by simpa [isRest] using closes
    rw [isRest, isDollar] at cut
    cases isOpened
    exact ⟨_, body, all_takeWhile, cut.symm, rfl⟩

/-- Where both readings see a tag, it is the same. -/
theorem openedTag_of_dollarTag {tag body opened : Bytes}
    (isTag : dollarTag text = some (tag, body)) (isOpened : openedTag text = some opened) :
    opened = tag ∧ text.drop (opened.length - 1) = body := by
  rcases openedTag_eq_some isOpened with ⟨name, after, tagBytes, rfl, rfl⟩
  have inName : ∀ c, isTagByte c → (c != dollar && identifierPart c) := by
    decide +kernel
  have whole : (name ++ dollar :: after).takeWhile (fun c => c != dollar && identifierPart c) =
      name := by
    rw [takeWhile_append_of_pos fun c mem => inName c (all_eq_true.mp tagBytes c mem)]
    simp
  have sameName : (if (name ++ dollar :: after).head?.any identifierStart then
      (name ++ dollar :: after).takeWhile fun c => c != dollar && identifierPart c else []) =
        name := by
    cases name with
    | nil => rfl
    | cons first name =>
      by_cases starts : identifierStart first
      case pos => simpa [starts] using whole
      case neg =>
      -- the scanner would see no tag, since a tag starts with no digit
      have isTagByte : isTagByte first := all_eq_true.mp tagBytes first (by simp)
      have notDollar : first ≠ dollar := by
        rintro rfl
        exact absurd isTagByte (by decide)
      simp [dollarTag, starts, notDollar] at isTag
  dsimp only [dollarTag] at isTag
  rw [sameName, drop_left] at isTag
  rcases isTag with ⟨rfl, rfl⟩
  simp

section Turns

variable {standardStrings : Bool} {c : UInt8} {text : Bytes} {found : Scanned}

theorem lexeme_append (scanned : scan standardStrings c text = .ok found) :
    (Turn.mk c text found.rest).lexeme ++ found.rest = c :: text :=
  before_append ((scan_suffix scanned).trans (suffix_cons c text))

theorem closeQuote_of_scan (scanned : scan standardStrings quote text = .ok found) :
    closeQuote quote (!standardStrings) text = some found.rest := by
  have closes : scan standardStrings quote text =
      goOn "unterminated migration SQL literal" (closeQuote quote (!standardStrings) text) := rfl
  rcases goOn_eq_ok.mp (closes.symm.trans scanned) with ⟨rest, closed, rfl⟩
  exact closed

theorem closeDollar_of_scan {tag body : Bytes}
    (scanned : scan standardStrings dollar text = .ok found)
    (isTag : dollarTag text = some (tag, body)) : closeDollar tag body = some found.rest := by
  rw [scan_dollar, isTag] at scanned
  rcases goOn_eq_ok.mp scanned with ⟨rest, closed, rfl⟩
  exact closed

/-- The blanking passes a comment of the scanner. -/
theorem skipNoise_of_comment (scanned : scan standardStrings c text = .ok found)
    (isComment : (Turn.mk c text found.rest).isComment) :
    skipNoise c text = some found.rest := by
  have notEnd : (c == semicolon) = false := by
    simp only [Turn.isComment, Bool.or_eq_true, Bool.and_eq_true, beq_iff_eq] at isComment
    rcases isComment with ⟨rfl, -⟩ | ⟨rfl, -⟩ <;> rfl
  simp only [Turn.isComment, Bool.or_eq_true] at isComment
  by_cases isLine : (c == dash && text.head? == some dash)
  case pos =>
    simp only [scan, notEnd, isLine, Bool.false_eq_true, if_false, if_true] at scanned
    cases scanned
    rw [skipNoise, if_pos isLine]
    -- the second dash is no line break
    cases text with
    | nil => simp at isLine
    | cons next text =>
      have isDash : next = dash := by simpa using (Bool.and_eq_true_iff.mp isLine).2
      have notLine : (dash != newline) := by decide
      simp [Scanned.rest, isDash, notLine]
  case neg =>
    have isBlock := isComment.resolve_left isLine
    simp only [scan, notEnd, isLine, isBlock, Bool.false_eq_true, if_false, if_true] at scanned
    rcases goOn_eq_ok.mp scanned with ⟨rest, closed, rfl⟩
    rw [skipNoise, if_neg isLine, if_pos isBlock, skipBlockComment_eq, closed]
    rfl

theorem skipNoise_quote (text : Bytes) : skipNoise quote text = some (skipSingleQuoted text) := rfl

theorem skipNoise_dollar (text : Bytes) :
    skipNoise dollar text =
      (openedTag text).map fun tag => skipDollarQuoted tag (text.drop (tag.length - 1)) := rfl

section

variable (scanned : scan standardStrings c text = .ok found)
include scanned

/-- The blanking passes a comment or literal on which the readings agree. -/
theorem skipNoise_of_agrees (agrees : (Turn.mk c text found.rest).Agrees)
    (noise : (Turn.mk c text found.rest).isNoise) : skipNoise c text = some found.rest := by
  simp only [Turn.isNoise, Bool.or_eq_true, beq_iff_eq] at noise
  rcases noise with ((isComment | rfl) | isEscape) | isDollar
  · exact skipNoise_of_comment scanned isComment
  · have ends : skipSingleQuoted text = found.rest := agrees.string rfl
    rw [skipNoise_quote, ends]
  · exact absurd isEscape (by simp [agrees.notEscapeString])
  · have opens : openedTag text ≠ none := agrees.dollarLiteral isDollar
    simp only [Turn.isDollarLiteral, Bool.and_eq_true, beq_iff_eq, Option.isSome_iff_exists]
      at isDollar
    rcases isDollar with ⟨rfl, ⟨tag, body⟩, isTag⟩
    rcases Option.ne_none_iff_exists'.mp opens with ⟨opened, isOpened⟩
    rcases openedTag_of_dollarTag isTag isOpened with ⟨rfl, isBody⟩
    rcases openedTag_eq_some isOpened with ⟨name, after, -, -, isTagText⟩
    have closed := closeDollar_of_scan scanned isTag
    rw [skipNoise_dollar, isOpened, Option.map_some, isBody,
      skipDollarQuoted_of_close (by simp [isTagText]) closed]

/-- A lexeme on which the readings agree is delimited as the scanner does. -/
theorem stripPieces_of_agrees (agrees : (Turn.mk c text found.rest).Agrees) :
    stripPieces (c :: text) = (Turn.mk c text found.rest).pieces ++ stripPieces found.rest := by
  rw [Turn.pieces]
  split
  case isTrue noise => exact stripPieces_skipped (skipNoise_of_agrees scanned agrees noise)
  case isFalse notNoise =>
    rw [← lexeme_append scanned]
    exact stripPieces_append (agrees.code (by simpa using notNoise))

theorem stripSqlNoise_kept_ne
    (noise : (Turn.mk c text found.rest).isNoise) (kept : skipNoise c text = none)
    (visible : blankFor c ≠ c) (later : Bytes) :
    stripSqlNoise (c :: text) ≠ piecesText (Turn.mk c text found.rest).pieces ++ later := by
  rw [stripSqlNoise_kept kept, Turn.pieces, if_pos noise, Turn.lexeme,
    before_cons (scan_suffix scanned)]
  intro same
  exact visible (List.cons.inj same).1.symm

/-- The step: where a string ends at the same place, a lexeme on which the readings do not agree
shows in the blanked text. -/
theorem stripSqlNoise_of_not_agrees (string : c = quote → skipSingleQuoted text = found.rest)
    (disagrees : ¬ (Turn.mk c text found.rest).Agrees) (later : Bytes) :
    stripSqlNoise (c :: text) ≠ piecesText (Turn.mk c text found.rest).pieces ++ later := by
  by_cases isEscape : (Turn.mk c text found.rest).isEscapeString
  case pos =>
    have noise : (Turn.mk c text found.rest).isNoise := by simp [Turn.isNoise, isEscape]
    have isLetter : isEscapeLetter c := (Bool.and_eq_true_iff.mp isEscape).1
    have letters : ∀ c, isEscapeLetter c → blankFor c ≠ c ∧ (c == dash) = false ∧
        (c == slash) = false ∧ (c == quote) = false ∧ (c == dollar) = false := by decide +kernel
    rcases letters c isLetter with ⟨visible, notDash, notSlash, notQuote, notDollar⟩
    have kept : skipNoise c text = none := by
      simp [skipNoise, notDash, notSlash, notQuote, notDollar]
    exact stripSqlNoise_kept_ne scanned noise kept visible later
  case neg =>
    have notEscape : (Turn.mk c text found.rest).isEscapeString = false := by simpa using isEscape
    by_cases isDollar : (Turn.mk c text found.rest).isDollarLiteral ∧ openedTag text = none
    case pos =>
      have isDollarByte : c = dollar := by
        simpa using (Bool.and_eq_true_iff.mp isDollar.1).1
      have noise : (Turn.mk c text found.rest).isNoise := by simp [Turn.isNoise, isDollar.1]
      subst isDollarByte
      have kept : skipNoise dollar text = none := by rw [skipNoise_dollar, isDollar.2]; rfl
      exact stripSqlNoise_kept_ne scanned noise kept (by decide) later
    case neg =>
      -- what is left is a start of a comment or literal in code
      have inCode : ∃ front d back, (Turn.mk c text found.rest).isNoise = false ∧
          (Turn.mk c text found.rest).lexeme = front ++ d :: back ∧
            skipNoise d (back ++ found.rest) ≠ none := by
        by_contra noStart
        apply disagrees
        refine ⟨notEscape, string, fun literal isNone => isDollar ⟨literal, isNone⟩, ?_⟩
        intro notNoise front d back isLexeme
        by_contra starts
        exact noStart ⟨front, d, back, notNoise, isLexeme, starts⟩
      rcases inCode with ⟨front, d, back, notNoise, isLexeme, starts⟩
      have keptText : piecesText (Turn.mk c text found.rest).pieces =
          (Turn.mk c text found.rest).lexeme := by
        rw [Turn.pieces, if_neg (by simp [notNoise]), piecesText, flatMap_map]
        exact flatMap_singleton' _
      rw [keptText, ← lexeme_append scanned]
      exact stripSqlNoise_append_ne isLexeme starts later

/-- A lexeme on which they do not agree is delimited otherwise. -/
theorem stripPieces_of_not_agrees
    (disagrees : ¬ (Turn.mk c text found.rest).Agrees) (later : List Piece) :
    stripPieces (c :: text) ≠ (Turn.mk c text found.rest).pieces ++ later := by
  by_cases string : c = quote → skipSingleQuoted text = found.rest
  case pos =>
    intro same
    refine stripSqlNoise_of_not_agrees scanned string disagrees (piecesText later) ?_
    rw [stripSqlNoise, same, piecesText, flatMap_append]
    rfl
  case neg =>
    simp only [not_forall] at string
    rcases string with ⟨rfl, elsewhere⟩
    have noise : (Turn.mk quote text found.rest).isNoise := by simp [Turn.isNoise]
    rw [stripPieces_skipped (skipNoise_quote text), Turn.pieces, if_pos noise]
    intro same
    have sameRange : before (quote :: text) (skipSingleQuoted text) =
        before (quote :: text) found.rest := Piece.blanked.inj (List.cons.inj same).1
    have first := before_append ((skipSingleQuoted_suffix text).trans (suffix_cons quote text))
    have second := lexeme_append scanned
    rw [sameRange] at first
    exact elsewhere (append_cancel_left (first.trans second.symm))

end

end Turns

/-- What the scanner makes of a text: everything but comments and literals stays. -/
def code (turns : List Turn) : List Piece := turns.flatMap Turn.pieces

variable {settings : ℕ → Bool} {statement : ℕ} {sql : Bytes} {turns : List Turn}

/-- The induction over the lexemes of a text: an equation about the two readings holds if they
agree, when one lexeme decides it. -/
theorem forall_agrees_of_readText (Same : Bytes → List Turn → Prop) (nil : Same [] [])
    (agree : ∀ {statement c text found later},
      scan (settings statement) c text = .ok found → (Turn.mk c text found.rest).Agrees →
        (Same (c :: text) (⟨c, text, found.rest⟩ :: later) ↔ Same found.rest later))
    (differ : ∀ {statement c text found later},
      scan (settings statement) c text = .ok found → ¬ (Turn.mk c text found.rest).Agrees →
        ¬ Same (c :: text) (⟨c, text, found.rest⟩ :: later))
    (read : readText settings statement sql = .ok turns) :
    Same sql turns ↔ ∀ turn ∈ turns, turn.Agrees := by
  induction turns generalizing statement sql with
  | nil =>
    cases sql with
    | nil => simp [nil]
    | cons c text =>
      rcases exists_of_readText read with ⟨found, later, -, -, impossible⟩
      cases impossible
  | cons turn turns ih =>
    cases sql with
    | nil => simp [readText] at read
    | cons c text =>
      rcases exists_of_readText read with ⟨found, later, scanned, isLater, ⟨⟩⟩
      rw [forall_mem_cons]
      by_cases agrees : (Turn.mk c text found.rest).Agrees
      case pos => rw [agree scanned agrees, ih isLater, and_iff_right agrees]
      case neg =>
        exact iff_of_false (differ scanned agrees) fun all => agrees all.1

theorem stripPieces_eq_iff (read : readText settings statement sql = .ok turns) :
    stripPieces sql = code turns ↔ ∀ turn ∈ turns, turn.Agrees := by
  refine forall_agrees_of_readText (fun sql turns => stripPieces sql = code turns) ?_ ?_ ?_ read
  · rw [stripPieces, code, flatMap_nil]
  · intro statement c text found later scanned agrees
    rw [stripPieces_of_agrees scanned agrees, code, flatMap_cons]
    exact append_right_inj _
  · intro statement c text found later scanned disagrees
    exact stripPieces_of_not_agrees scanned disagrees _

theorem stripSqlNoise_eq_iff (standard : ∀ n, settings n)
    (read : readText settings statement sql = .ok turns) :
    stripSqlNoise sql = piecesText (code turns) ↔ ∀ turn ∈ turns, turn.Agrees := by
  refine forall_agrees_of_readText
    (fun sql turns => stripSqlNoise sql = piecesText (code turns)) ?_ ?_ ?_ read
  · rw [stripSqlNoise, stripPieces, code, flatMap_nil]
  · intro statement c text found later scanned agrees
    rw [stripSqlNoise, stripPieces_of_agrees scanned agrees, code, flatMap_cons, piecesText,
      piecesText, flatMap_append, flatMap_append]
    exact append_right_inj _
  · intro statement c text found later scanned disagrees
    rw [code, flatMap_cons, piecesText, flatMap_append]
    refine stripSqlNoise_of_not_agrees scanned ?_ disagrees _
    rintro rfl
    have closed := closeQuote_of_scan scanned
    rw [standard statement, Bool.not_true] at closed
    rw [skipSingleQuoted_eq, closed]
    rfl

/-- The blanked text has the length and the lines of the text, it is the text with the comments and
literals of the scanner blanked, and the definitions that are checked are those outside them. -/
structure BlanksExactly (sql : Bytes) (turns : List Turn) : Prop where
  length : (stripSqlNoise sql).length = sql.length
  lines : (stripSqlNoise sql).map (· == newline) = sql.map (· == newline)
  blanked : stripSqlNoise sql = piecesText (code turns)
  checked : ∀ extensionName, checkQualifiedDdl sql extensionName =
    unqualifiedDdl (piecesText (code turns)) extensionName

/-- The other parts follow from the blanked text. -/
theorem blanksExactly_iff :
    BlanksExactly sql turns ↔ stripSqlNoise sql = piecesText (code turns) := by
  constructor
  · exact BlanksExactly.blanked
  · intro blanked
    have lines := lines_stripSqlNoise sql
    refine ⟨by simpa using congrArg List.length lines, lines, blanked, ?_⟩
    intro extensionName
    rw [checkQualifiedDdl, blanked]

/-- The blanking delimits the comments and literals of an accepted text as the scanner does exactly
if they agree on every lexeme, and then it blanks the text exactly. With standard strings the
blanked text is exact in no other case. -/
theorem blanksExactly_iff_agrees (settings : ℕ → Bool) (sql : Bytes)
    (accepted : acceptsText settings 0 sql = true) :
    ∃ turns, readText settings 0 sql = .ok turns ∧
      (stripPieces sql = code turns ↔ ∀ turn ∈ turns, turn.Agrees) ∧
      ((∀ turn ∈ turns, turn.Agrees) → BlanksExactly sql turns) ∧
      ((∀ statement, settings statement = true) →
        (BlanksExactly sql turns ↔ ∀ turn ∈ turns, turn.Agrees)) := by
  rcases readText_of_acceptsText accepted with ⟨turns, read⟩
  refine ⟨turns, read, stripPieces_eq_iff read, ?_, ?_⟩
  · intro agrees
    have same := (stripPieces_eq_iff read).mpr agrees
    rw [blanksExactly_iff, stripSqlNoise, same]
  · intro standard
    rw [blanksExactly_iff]
    exact stripSqlNoise_eq_iff standard read

def plainMigration : Bytes :=
  utf8 "CREATE TABLE ext_notes.a (t TEXT); -- it's\nINSERT INTO ext_notes.a VALUES ('CREATE TABLE b');"

theorem plainMigration_agrees :
    ∃ turns, readText (fun _ => true) 0 plainMigration = .ok turns ∧
      (∀ turn ∈ turns, turn.Agrees) ∧ BlanksExactly plainMigration turns := by
  rcases blanksExactly_iff_agrees (fun _ => true) plainMigration (by decide +kernel) with
    ⟨turns, read, delimits, blanks, -⟩
  have same : (readText (fun _ => true) 0 plainMigration).map code =
      .ok (stripPieces plainMigration) := by decide +kernel
  rw [read] at same
  have agrees := delimits.mp (Except.ok.inj same).symm
  exact ⟨turns, read, agrees, blanks agrees⟩

/-- An apostrophe in a quoted name, and a table outside the schema of the extension after it. -/
def hiddenTable : Bytes :=
  utf8 "CREATE TABLE ext_notes.\"it's\" (id INT);\nCREATE TABLE secrets (id INT);"

theorem hiddenTable_unchecked :
    acceptsText (fun _ => true) 0 hiddenTable = true ∧
      checkQualifiedDdl hiddenTable (utf8 "notes") = none ∧
      ∃ turns, readText (fun _ => true) 0 hiddenTable = .ok turns ∧
        unqualifiedDdl (piecesText (code turns)) (utf8 "notes") =
          some (unqualifiedMessage ⟨utf8 "TABLE", utf8 "secrets", []⟩ (utf8 "notes")) ∧
        ¬ BlanksExactly hiddenTable turns := by
  have accepted : acceptsText (fun _ => true) 0 hiddenTable = true := by decide +kernel
  have unchecked : checkQualifiedDdl hiddenTable (utf8 "notes") = none := by decide +kernel
  rcases readText_of_acceptsText accepted with ⟨turns, read⟩
  have found : (readText (fun _ => true) 0 hiddenTable).map (fun turns =>
      unqualifiedDdl (piecesText (code turns)) (utf8 "notes")) =
        .ok (some (unqualifiedMessage ⟨utf8 "TABLE", utf8 "secrets", []⟩ (utf8 "notes"))) := by
    decide +kernel
  rw [read] at found
  have isFound : unqualifiedDdl (piecesText (code turns)) (utf8 "notes") =
      some (unqualifiedMessage ⟨utf8 "TABLE", utf8 "secrets", []⟩ (utf8 "notes")) :=
    Except.ok.inj found
  refine ⟨accepted, unchecked, turns, read, isFound, ?_⟩
  intro blanks
  have same := blanks.checked (utf8 "notes")
  rw [unchecked, isFound] at same
  cases same

end Plinth.Packages.Migrations
