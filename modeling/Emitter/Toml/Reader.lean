import Emitter.Text.Digit
import Emitter.Toml.Value

/-! Reading TOML. A document that holds anything but strings, integers, booleans, empty arrays and
tables is refused like one that is badly written. -/

namespace Emitter.Toml.Reader

def isBlank (c : Char) : Bool := c == ' ' || c == '\t'

def skipBlank : List Char → List Char := List.dropWhile isBlank

/-- Allowed in comments and in strings of one line. -/
def isVisible (c : Char) : Bool := c == '\t' || (0x20 ≤ c.toNat && c.toNat != 0x7F)

/-- A text after a line break. -/
def newline? : List Char → Option (List Char)
  | '\n' :: rest => some rest
  | '\r' :: '\n' :: rest => some rest
  | _ => none

/-- Drops a comment; what it holds must be visible. -/
def skipComment : List Char → List Char
  | '#' :: rest => rest.dropWhile isVisible
  | text => text

/-- Nothing more on the line but a comment. -/
def endLine? (text : List Char) : Option (List Char) :=
  match skipComment (skipBlank text) with
  | [] => some []
  | rest => newline? rest

/-- Blanks, line breaks and comments between the items of a value. -/
def skipSpace : Nat → List Char → List Char
  | 0, text => text
  | fuel + 1, text =>
    let rest := skipComment (skipBlank text)
    match newline? rest with
    | some rest => skipSpace fuel rest
    | none => rest

def hexNumber? (digits : List Char) : Option Nat :=
  (digits.mapM Text.hexDigit?).map (Text.number 16)

def charOf? (digits : List Char) : Option Char := do
  let n ← hexNumber? digits
  if n.isValidChar then some (Char.ofNat n) else none

def shortEscape? (c : Char) : Option Char :=
  match c with
  | 'b' => some '\x08'
  | 't' => some '\t'
  | 'n' => some '\n'
  | 'f' => some '\x0c'
  | 'r' => some '\r'
  | 'e' => some '\x1b'
  | '\"' => some '\"'
  | '\\' => some '\\'
  | _ => none

/-- The character of an escape, after its backslash. -/
def escape? : List Char → Option (Char × List Char)
  | 'x' :: rest => (charOf? (rest.take 2)).bind fun c => after 2 c rest
  | 'u' :: rest => (charOf? (rest.take 4)).bind fun c => after 4 c rest
  | 'U' :: rest => (charOf? (rest.take 8)).bind fun c => after 8 c rest
  | c :: rest => (shortEscape? c).map (·, rest)
  | [] => none
where
  after (n : Nat) (c : Char) (rest : List Char) : Option (Char × List Char) :=
    if rest.length < n then none else some (c, rest.drop n)

/-- A string of one line with escapes, after its opening quote. -/
def basic : Nat → List Char → Option (List Char × List Char)
  | 0, _ => none
  | _ + 1, '\"' :: rest => some ([], rest)
  | fuel + 1, '\\' :: rest => do
    let (c, rest) ← escape? rest
    let (cs, rest) ← basic fuel rest
    return (c :: cs, rest)
  | fuel + 1, c :: rest =>
    if isVisible c then (basic fuel rest).map fun (cs, rest) => (c :: cs, rest) else none
  | _ + 1, [] => none

/-- A string of one line without escapes, after its opening quote. -/
def literal : List Char → Option (List Char × List Char)
  | '\'' :: rest => some ([], rest)
  | c :: rest =>
    if isVisible c then (literal rest).map fun (cs, rest) => (c :: cs, rest) else none
  | [] => none

/-- A line break after a backslash hides all blanks up to the next text. -/
def continuation? (fuel : Nat) (text : List Char) : Option (List Char) :=
  (newline? (skipBlank text)).map (skipLines fuel)
where
  skipLines : Nat → List Char → List Char
    | 0, text => text
    | fuel + 1, text =>
      match newline? (skipBlank text) with
      | some rest => skipLines fuel rest
      | none => skipBlank text

/-- The end of a string of many lines: three quotes, with up to two more before them. -/
def closing? (quote : Char) (text : List Char) : Option (List Char × List Char) :=
  let quotes := min 5 (text.takeWhile (· == quote)).length
  if quotes < 3 then none else some (List.replicate (quotes - 3) quote, text.drop quotes)

/-- A string of many lines, after its first line break. Its line breaks stay as they are. -/
def long (quote : Char) : Nat → List Char → Option (List Char × List Char)
  | 0, _ => none
  | fuel + 1, text =>
    match closing? quote text with
    | some found => some found
    | none =>
      match text with
      | [] => none
      | '\n' :: rest => (long quote fuel rest).map fun (cs, rest) => ('\n' :: cs, rest)
      | '\r' :: '\n' :: rest =>
        (long quote fuel rest).map fun (cs, rest) => ('\r' :: '\n' :: cs, rest)
      | c :: rest =>
        if c = '\\' ∧ quote = '\"' then
          match continuation? fuel rest with
          | some rest => long quote fuel rest
          | none => do
            let (c, rest) ← escape? rest
            let (cs, rest) ← long quote fuel rest
            return (c :: cs, rest)
        else if isVisible c then (long quote fuel rest).map fun (cs, rest) => (c :: cs, rest)
        else none

def string? (fuel : Nat) : List Char → Option (List Char × List Char)
  | '\"' :: '\"' :: '\"' :: rest => long '\"' fuel ((newline? rest).getD rest)
  | '\'' :: '\'' :: '\'' :: rest => long '\'' fuel ((newline? rest).getD rest)
  | '\"' :: rest => basic fuel rest
  | '\'' :: rest => literal rest
  | _ => none

def isBare (c : Char) : Bool := c.isAlphanum || c == '_' || c == '-'

def key? (fuel : Nat) (text : List Char) : Option (String × List Char) :=
  match text with
  | '\"' :: rest => (basic fuel rest).map fun (cs, rest) => (String.ofList cs, rest)
  | '\'' :: rest => (literal rest).map fun (cs, rest) => (String.ofList cs, rest)
  | _ =>
    match text.takeWhile isBare with
    | [] => none
    | cs => some (String.ofList cs, text.dropWhile isBare)

/-- A key with the keys after its dots, and the text after it and its blanks. -/
def dotted? : Nat → List Char → Option (List String × List Char)
  | 0, _ => none
  | fuel + 1, text => do
    let (key, rest) ← key? fuel (skipBlank text)
    match skipBlank rest with
    | '.' :: rest => (dotted? fuel rest).map fun (keys, rest) => (key :: keys, rest)
    | rest => some ([key], rest)

def hasPair : List Char → Bool
  | a :: b :: rest => (a == '_' && b == '_') || hasPair (b :: rest)
  | _ => false

/-- Digits with single underscores between them. -/
def plainDigits? (digits : List Char) : Option (List Char) :=
  if digits = [] ∨ digits.head? = some '_' ∨ digits.getLast? = some '_' ∨ hasPair digits then none
  else some (digits.filter (· != '_'))

def inBase? (base : Nat) (digits : List Char) : Option Nat := do
  let ds ← (← plainDigits? digits).mapM Text.hexDigit?
  if ds.all (· < base) then some (Text.number base ds) else none

def decimal? (digits : List Char) : Option Nat :=
  if digits.head? = some '0' ∧ 1 < digits.length then none else inBase? 10 digits

def integer? : List Char → Option Int
  | '0' :: 'x' :: digits => (inBase? 16 digits).map Int.ofNat
  | '0' :: 'o' :: digits => (inBase? 8 digits).map Int.ofNat
  | '0' :: 'b' :: digits => (inBase? 2 digits).map Int.ofNat
  | '+' :: digits => (decimal? digits).map Int.ofNat
  | '-' :: digits => (decimal? digits).map fun n => -Int.ofNat n
  | digits => (decimal? digits).map Int.ofNat

/-- Part of a number or a word. -/
def isWord (c : Char) : Bool := isBare c || c == '+' || c == '.' || c == ':'

def word? (text : List Char) : Option (Item × List Char) :=
  let word := text.takeWhile isWord
  let rest := text.dropWhile isWord
  if word = ['t', 'r', 'u', 'e'] then some (.boolean true, rest)
  else if word = ['f', 'a', 'l', 's', 'e'] then some (.boolean false, rest)
  else (integer? word).map fun n => (.integer n, rest)

mutual

def value? : Nat → List Char → Option (Item × List Char)
  | 0, _ => none
  | fuel + 1, text =>
    match text with
    | '[' :: rest =>
      match skipSpace fuel rest with
      | ']' :: rest => some (.noItems, rest)
      | _ => none
    | '\x7b' :: rest =>
      (entries? fuel [] (skipSpace fuel rest)).map fun (es, rest) => (.table .inline es, rest)
    | c :: _ =>
      if c = '\"' ∨ c = '\'' then
        (string? fuel text).map fun (cs, rest) => (.string (String.ofList cs), rest)
      else word? text
    | [] => none

/-- The entries of a table written as a value, with its closing brace. -/
def entries? : Nat → Entries → List Char → Option (Entries × List Char)
  | 0, _, _ => none
  | fuel + 1, es, text =>
    match text with
    | '\x7d' :: rest => some (es, rest)
    | _ =>
      match entry? fuel (skipSpace fuel) es text with
      | none => none
      | some (es, rest) =>
        match skipSpace fuel rest with
        | ',' :: rest => entries? fuel es (skipSpace fuel rest)
        | '\x7d' :: rest => some (es, rest)
        | _ => none

/-- A key and its value, added to the entries before it. What may stand around the sign between
them is dropped: blanks under a header, and all space between braces. -/
def entry? : Nat → (List Char → List Char) → Entries → List Char → Option (Entries × List Char)
  | 0, _, _, _ => none
  | fuel + 1, skipGap, es, text =>
    match dotted? fuel text with
    | some (keys, rest) =>
      match skipGap rest with
      | '=' :: rest =>
        match value? fuel (skipGap rest) with
        | some (item, rest) =>
          (Entries.put keys.dropLast (keys.getLastD "") item es).map (·, rest)
        | none => none
      | _ => none
    | none => none

end

/-- The entries under one header, and the text from the next header on. -/
def part? : Nat → Entries → List Char → Option (Entries × List Char)
  | 0, _, _ => none
  | fuel + 1, es, text =>
    match skipBlank text with
    | [] => some (es, [])
    | '[' :: rest => some (es, '[' :: rest)
    | rest =>
      match endLine? rest with
      | some rest => part? fuel es rest
      | none => do
        let (es, rest) ← entry? fuel skipBlank es rest
        part? fuel es (← endLine? rest)

/-- The sections after the first one. -/
def parts? : Nat → Entries → List Char → Option Entries
  | 0, _, _ => none
  | fuel + 1, root, text =>
    match text with
    | '[' :: rest =>
      match dotted? fuel rest with
      | some (path, ']' :: rest) => do
        let (es, rest) ← part? fuel [] (← endLine? rest)
        parts? fuel (← Entries.install path es root) rest
      | _ => none
    | _ => some root

/-- A byte order mark at the beginning counts for nothing. -/
def document? (text : List Char) : Option Entries := do
  let text := if text.head? = some '\ufeff' then text.tail else text
  let fuel := 2 * text.length + 3
  let (es, rest) ← part? fuel [] text
  parts? fuel es rest

end Emitter.Toml.Reader
