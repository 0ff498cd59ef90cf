import Mathlib.Data.List.DropRight

/-!
# One-dimensional array literals

How a database reads the text of an array: elements between braces, separated by commas, each
quoted or bare. A text that is not such a literal is refused.
-/

namespace Plinth.Core.ArrayLiteral

def isSpace (c : Char) : Bool := [' ', '\t', '\n', '\r', '\x0b', '\x0c'].contains c

/-- The text of a quoted element behind its opening quote, and what follows the closing one. -/
def readQuoted : List Char → Option (List Char × List Char)
  | '"' :: rest => some ([], rest)
  | '\\' :: c :: rest => (readQuoted rest).map fun (text, left) => (c :: text, left)
  | c :: rest => (readQuoted rest).map fun (text, left) => (c :: text, left)
  | [] => none

/-- The characters of a bare element, each with whether it was escaped, up to the delimiter. -/
def readBare : List Char → Option (List (Char × Bool) × List Char)
  | '\\' :: c :: rest => (readBare rest).map fun (text, left) => ((c, true) :: text, left)
  | c :: rest =>
    if c = ',' ∨ c = '}' then some ([], c :: rest)
    else if c = '"' ∨ c = '{' then none
    else (readBare rest).map fun (text, left) => ((c, false) :: text, left)
  | [] => none

/-- A bare element without its trailing blanks: it must not be empty, and an unescaped `null`, in
any case of its letters, is no text at all. -/
def bareElement (token : List (Char × Bool)) : Option (Option String) :=
  let text := token.rdropWhile fun (c, escaped) => !escaped && isSpace c
  if text.isEmpty then none
  else if text.map (fun (c, escaped) => (c.toLower, escaped)) = "null".toList.map (·, false) then
    some none
  else some (some (String.ofList (text.map Prod.fst)))

def readElement (text : List Char) : Option (Option String × List Char) :=
  match text.dropWhile isSpace with
  | '"' :: rest => (readQuoted rest).map fun (text, left) => (some (String.ofList text), left)
  | rest => (readBare rest).bind fun (token, left) => (bareElement token).map (·, left)

/-- At most `fuel` elements up to the closing brace, behind which only blanks may follow. -/
def readElements : (fuel : ℕ) → List Char → Option (List (Option String))
  | 0, _ => none
  | fuel + 1, text =>
    (readElement text).bind fun (element, left) =>
      match left.dropWhile isSpace with
      | ',' :: rest => (readElements fuel rest).map (element :: ·)
      | '}' :: rest => if rest.all isSpace then some [element] else none
      | _ => none

/-- The elements of the literal, of which each takes more than one of its characters. -/
def readArray (literal : List Char) : Option (List (Option String)) :=
  match literal.dropWhile isSpace with
  | '{' :: rest =>
    match rest.dropWhile isSpace with
    | '}' :: rest => if rest.all isSpace then some [] else none
    | rest => readElements rest.length rest
  | _ => none

/-- Quoted without escapes, this character is read back. -/
def isPlain (c : Char) : Bool := c != '"' && c != '\\'

/-- A quoted element without quotes and backslashes is read to its closing quote. -/
theorem readQuoted_plain {text : List Char} (plain : ∀ c ∈ text, isPlain c = true)
    (rest : List Char) : readQuoted (text ++ '"' :: rest) = some (text, rest) := by
  induction text with
  | nil => rfl
  | cons c text ih =>
    have isPlainHead := plain c List.mem_cons_self
    simp only [isPlain, Bool.and_eq_true, bne_iff_ne] at isPlainHead
    rw [List.cons_append, readQuoted.eq_3 _ _ isPlainHead.1 fun _ _ isEscape =>
      absurd isEscape isPlainHead.2, ih fun other mem => plain other (List.mem_cons_of_mem _ mem)]
    rfl

theorem readElement_plain {text : List Char} (plain : ∀ c ∈ text, isPlain c = true)
    (rest : List Char) :
    readElement ('"' :: text ++ '"' :: rest) = some (some (String.ofList text), rest) := by
  have quoted : ('"' :: text ++ '"' :: rest).dropWhile isSpace = '"' :: (text ++ '"' :: rest) := rfl
  simp only [readElement, quoted, readQuoted_plain plain, Option.map_some]

variable {text : List Char} {element : Option String} {rest : List Char} {fuel : ℕ}

theorem readElements_last (read : readElement text = some (element, ['}'])) :
    readElements (fuel + 1) text = some [element] := by
  rw [readElements, read]
  rfl

/-- After a comma the elements go on. -/
theorem readElements_comma (read : readElement text = some (element, ',' :: rest)) :
    readElements (fuel + 1) text = (readElements fuel rest).map (element :: ·) := by
  rw [readElements, read]
  rfl

theorem readArray_quoted (text : List Char) :
    readArray ('{' :: '"' :: text) = readElements (text.length + 1) ('"' :: text) :=
  rfl

end Plinth.Core.ArrayLiteral
