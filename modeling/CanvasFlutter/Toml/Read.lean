import CanvasFlutter.Decimal.Read
import CanvasFlutter.Json.Read
import CanvasFlutter.Toml.Value

/-!
# `CanvasFlutter.Toml.Read` — reading TOML text

The grammar is that of TOML 1.0. Every reader takes the text in front of it and gives what it read
and the text that follows.

## Contents
- **Blanks.** `skipSpaces`, `skipComment?`, `lineEnd?`, `skipLines?`.
- **Strings.** `readBasic?`, `readLiteral?`, `readLongBasic?`, `readLongLiteral?`.
- **Keys.** `readKey?`, dotted.
- **Scalars.** `integer?`, `isReal`, `isMoment`: bare words are read whole and then told apart.
- **Values.** `readValue?`, by recursion on the depth that is left.
- **Documents.** `parse?`.
-/

namespace CanvasFlutter.Toml

/-! ## Blanks -/

/-- A space or a tab. -/
def isSpace (c : Char) : Bool := c == ' ' || c == '\t'

/-- A control character, which may stand in no comment and no string; a tab is none. -/
def isControl (c : Char) : Bool := (c.toNat < 0x20 && c != '\t') || c.toNat == 0x7F

/-- The text without the spaces and tabs in front. -/
def skipSpaces (t : Text) : Text := t.dropWhile isSpace

/-- What follows a line end. -/
def lineEnd? : Text → Option Text
  | '\n' :: rest => some rest
  | '\r' :: '\n' :: rest => some rest
  | _ => none

/-- What follows a comment, if there is one: the end of its line or of the text. -/
def skipComment? : Text → Option Text
  | '#' :: rest =>
      let after := rest.dropWhile fun c => !isControl c
      if after.isEmpty || (lineEnd? after).isSome then some after else none
  | t => some t

/-- What follows the rest of a line that may hold a comment but nothing else. -/
def endLine? (t : Text) : Option Text := do
  let t ← skipComment? (skipSpaces t)
  if t.isEmpty then return [] else lineEnd? t

/-- What follows spaces, comments and line ends. Each round takes a line end. -/
def skipLines? : (fuel : Nat) → Text → Option Text
  | 0, t => some t
  | fuel + 1, t => do
      let t ← skipComment? (skipSpaces t)
      match lineEnd? t with
      | some rest => skipLines? fuel rest
      | none => return t

/-- What follows the white space between the parts of an array. -/
def skipArrayBlanks? (t : Text) : Option Text := skipLines? t.length t

/-! ## Strings -/

/-- The value of a number of hexadecimal digits in front, as a character. -/
def readScalar? (count : Nat) (t : Text) : Option (Char × Text) := do
  let digits := t.take count
  if digits.length < count then none
  else do
    let values ← digits.mapM Json.hexValue?
    let n := values.foldl (fun n d => 16 * n + d) 0
    if n.isValidChar then return (Char.ofNat n, t.drop count) else none

/-- The character of an escape, given what follows the backslash. -/
def readEscape? : Text → Option (Char × Text)
  | 'b' :: rest => some ('\x08', rest)
  | 't' :: rest => some ('\t', rest)
  | 'n' :: rest => some ('\n', rest)
  | 'f' :: rest => some ('\x0c', rest)
  | 'r' :: rest => some ('\r', rest)
  | '"' :: rest => some ('"', rest)
  | '\\' :: rest => some ('\\', rest)
  | 'u' :: rest => readScalar? 4 rest
  | 'U' :: rest => readScalar? 8 rest
  | _ => none

/-- A string with escapes on one line, after its opening quote. -/
def readBasic? : (fuel : Nat) → Text → Option (Text × Text)
  | 0, _ => none
  | fuel + 1, t =>
      match t with
      | [] => none
      | '"' :: rest => some ([], rest)
      | '\\' :: rest => do
          let (c, rest) ← readEscape? rest
          let (s, rest) ← readBasic? fuel rest
          return (c :: s, rest)
      | c :: rest =>
          if isControl c then none
          else do
            let (s, rest) ← readBasic? fuel rest
            return (c :: s, rest)

/-- A string without escapes on one line, after its opening quote. -/
def readLiteral? (t : Text) : Option (Text × Text) :=
  let s := t.takeWhile fun c => c != '\'' && !isControl c
  match t.drop s.length with
  | '\'' :: rest => some (s, rest)
  | _ => none

/-- What three quotes end, given the text from the first of them: up to two more quotes still
belong to the string. -/
def closeLong? (quote : Char) (t : Text) : Option (Text × Text) :=
  let run := (t.takeWhile (· == quote)).length
  if run < 3 then none
  else
    let kept := min (run - 3) 2
    some (List.replicate kept quote, t.drop (kept + 3))

/-- What follows a backslash at the end of a line: the white space up to the next character. -/
def skipFolded? (t : Text) : Option Text :=
  match lineEnd? (skipSpaces t) with
  | none => none
  | some rest => some (rest.dropWhile fun c => isSpace c || c == '\n' || c == '\r')

/-- A string on several lines, after its opening quotes; with escapes if its quotes are double. -/
def readLong? (quote : Char) : (fuel : Nat) → Text → Option (Text × Text)
  | 0, _ => none
  | fuel + 1, t =>
      match closeLong? quote t with
      | some closed => some closed
      | none =>
          match lineEnd? t with
          | some rest => do
              let (s, rest) ← readLong? quote fuel rest
              return ('\n' :: s, rest)
          | none =>
              match t with
              | [] => none
              | c :: rest =>
                  if c = '\\' ∧ quote = '"' then
                    match skipFolded? rest with
                    | some rest => readLong? quote fuel rest
                    | none => do
                        let (e, rest) ← readEscape? rest
                        let (s, rest) ← readLong? quote fuel rest
                        return (e :: s, rest)
                  else if isControl c then none
                  else do
                    let (s, rest) ← readLong? quote fuel rest
                    return (c :: s, rest)

/-- A string on several lines, after its opening quotes and without a line end right after them. -/
def readLongString? (quote : Char) (t : Text) : Option (Text × Text) :=
  let t := (lineEnd? t).getD t
  readLong? quote (t.length + 1) t

/-- A string of any form. -/
def readString? : Text → Option (Text × Text)
  | '"' :: '"' :: '"' :: rest => readLongString? '"' rest
  | '\'' :: '\'' :: '\'' :: rest => readLongString? '\'' rest
  | '"' :: rest => readBasic? (rest.length + 1) rest
  | '\'' :: rest => readLiteral? rest
  | _ => none

/-! ## Keys -/

/-- A character of a key without quotes. -/
def isKeyChar (c : Char) : Bool := c.isAlphanum || c == '_' || c == '-'

/-- One part of a dotted key. -/
def readKeyPart? : Text → Option (String × Text)
  | '"' :: rest => (readBasic? (rest.length + 1) rest).map fun (s, rest) => (String.ofList s, rest)
  | '\'' :: rest => (readLiteral? rest).map fun (s, rest) => (String.ofList s, rest)
  | t =>
      let s := t.takeWhile isKeyChar
      if s.isEmpty then none else some (String.ofList s, t.drop s.length)

/-- A dotted key and the spaces around its parts. -/
def readKeyParts? : (fuel : Nat) → Text → Option (List String × Text)
  | 0, _ => none
  | fuel + 1, t => do
      let (part, rest) ← readKeyPart? (skipSpaces t)
      match skipSpaces rest with
      | '.' :: rest => do
          let (parts, rest) ← readKeyParts? fuel rest
          return (part :: parts, rest)
      | rest => return ([part], rest)

/-- A dotted key. -/
def readKey? (t : Text) : Option (List String × Text) := readKeyParts? (t.length + 1) t

/-! ## Scalars -/

/-- The digits of a run in which single underscores may stand between digits. -/
def digitRun? (isDigit : Char → Bool) : Text → Option Text
  | [] => none
  | [c] => if isDigit c then some [c] else none
  | c :: '_' :: rest => if isDigit c then (digitRun? isDigit rest).map (c :: ·) else none
  | c :: rest => if isDigit c then (digitRun? isDigit rest).map (c :: ·) else none

/-- The value of digits to a base. -/
def valueTo (base : Nat) (digits : Text) : Nat :=
  digits.foldl (fun n c => base * n + (Json.hexValue? c).getD 0) 0

/-- The value of a decimal integer without its sign: no zeros in front. -/
def decimal? (t : Text) : Option Nat := do
  let digits ← digitRun? Char.isDigit t
  if digits.length > 1 ∧ digits.head? = some '0' then none else return valueTo 10 digits

/-- The value of an integer, of any size. -/
def wholeNumber? : Text → Option Int
  | '0' :: 'x' :: rest =>
      (digitRun? (fun c => (Json.hexValue? c).isSome) rest).map fun d => (valueTo 16 d : Int)
  | '0' :: 'o' :: rest =>
      (digitRun? (fun c => '0' ≤ c && c ≤ '7') rest).map fun d => (valueTo 8 d : Int)
  | '0' :: 'b' :: rest =>
      (digitRun? (fun c => c == '0' || c == '1') rest).map fun d => (valueTo 2 d : Int)
  | '-' :: rest => (decimal? rest).map fun n => -(n : Int)
  | '+' :: rest => (decimal? rest).map fun n => (n : Int)
  | t => (decimal? t).map fun n => (n : Int)

/-- The value of an integer that fits 128 bits, with a sign or without. -/
def integer? (t : Text) : Option Int :=
  match wholeNumber? t with
  | some n =>
      if -170141183460469231731687303715884105728 ≤ n
          ∧ n ≤ 340282366920938463463374607431768211455 then some n
      else none
  | none => none

/-- The text without one sign in front. -/
def dropSign : Text → Text
  | '-' :: rest => rest
  | '+' :: rest => rest
  | t => t

/-- Whether a bare word is a number with a fraction, an exponent or both that is no greater than a
double can be, or a special one. -/
def isReal (t : Text) : Bool :=
  let t := dropSign t
  if t == "inf".toList || t == "nan".toList then true
  else
    let isMark (c : Char) := c == 'e' || c == 'E'
    let mantissa := t.takeWhile fun c => !isMark c
    let exponent := t.drop mantissa.length
    let whole := mantissa.takeWhile (· != '.')
    let fraction := mantissa.drop whole.length
    let fractionOk :=
      match fraction with
      | [] => !exponent.isEmpty
      | _ :: digits => (digitRun? Char.isDigit digits).isSome
    let exponentOk :=
      match exponent with
      | [] => true
      | _ :: digits => (digitRun? Char.isDigit (dropSign digits)).isSome
    (decimal? whole).isSome && fractionOk && exponentOk
      && (Decimal.readFinite? (t.filter (· != '_'))).isSome

/-- The value of a number of digits in front. -/
def readDigits? (count : Nat) (t : Text) : Option (Nat × Text) :=
  let digits := t.take count
  if digits.length = count ∧ digits.all Char.isDigit then some (valueTo 10 digits, t.drop count)
  else none

/-- How many days a month has. -/
def daysIn (year month : Nat) : Nat :=
  if month = 2 then
    if year % 4 = 0 ∧ (year % 100 ≠ 0 ∨ year % 400 = 0) then 29 else 28
  else if month = 4 ∨ month = 6 ∨ month = 9 ∨ month = 11 then 30 else 31

/-- What follows a date. -/
def afterDate? (t : Text) : Option Text := do
  let (year, t) ← readDigits? 4 t
  let t ← Text.after? ['-'] t
  let (month, t) ← readDigits? 2 t
  let t ← Text.after? ['-'] t
  let (day, t) ← readDigits? 2 t
  if 1 ≤ month ∧ month ≤ 12 ∧ 1 ≤ day ∧ day ≤ daysIn year month then return t else none

/-- What follows a time of day. -/
def afterTime? (t : Text) : Option Text := do
  let (hour, t) ← readDigits? 2 t
  let t ← Text.after? [':'] t
  let (minute, t) ← readDigits? 2 t
  let t ← Text.after? [':'] t
  let (second, t) ← readDigits? 2 t
  if hour ≤ 23 ∧ minute ≤ 59 ∧ second ≤ 60 then
    match t with
    | '.' :: rest =>
        let after := rest.dropWhile Char.isDigit
        if after.length < rest.length then return after else none
    | t => return t
  else none

/-- What follows a difference from universal time, if there is one. -/
def afterOffset? : Text → Option Text
  | [] => some []
  | c :: rest =>
      if c = 'Z' ∨ c = 'z' then some rest
      else if c = '+' ∨ c = '-' then do
        let (hour, t) ← readDigits? 2 rest
        let t ← Text.after? [':'] t
        let (minute, t) ← readDigits? 2 t
        if hour ≤ 24 ∧ minute ≤ 59 then return t else none
      else none

/-- Whether a bare word is a date, a time, or a date and a time. -/
def isMoment (t : Text) : Bool :=
  match afterDate? t with
  | some [] => true
  | some (c :: rest) =>
      (c == 'T' || c == 't' || c == ' ')
        && ((afterTime? rest).bind afterOffset?) == some []
  | none => afterTime? t == some []

/-- A character of a bare word. -/
def isBareChar (c : Char) : Bool := c.isAlphanum || "_-+.:".toList.contains c

/-- A bare word. A space belongs to it only between a date and a time. -/
def spanBare (t : Text) : Text × Text :=
  let word := t.takeWhile isBareChar
  let rest := t.drop word.length
  match afterDate? word, rest with
  | some [], ' ' :: c :: more =>
      if c.isDigit then
        let time := (c :: more).takeWhile isBareChar
        (word ++ ' ' :: time, (c :: more).drop time.length)
      else (word, rest)
  | _, _ => (word, rest)

/-- The value of a bare word. -/
def scalar? (word : Text) : Option Value :=
  if word == "true".toList || word == "false".toList then some .plain
  else
    match integer? word with
    | some n => some (.integer n)
    | none =>
        if isReal word then some .plain
        else if isMoment word then some .moment
        else none

/-! ## Values -/

/-- The items of an array after its opening bracket. -/
def readItems? (readItem : Text → Option (Value × Text)) :
    (fuel : Nat) → Text → Option (List Value × Text)
  | 0, _ => none
  | fuel + 1, t => do
      match ← skipArrayBlanks? t with
      | ']' :: rest => return ([], rest)
      | t => do
          let (item, rest) ← readItem t
          match ← skipArrayBlanks? rest with
          | ',' :: rest => do
              let (items, rest) ← readItems? readItem fuel rest
              return (item :: items, rest)
          | ']' :: rest => return ([item], rest)
          | _ => none

/-- A key, an equals sign and a value. -/
def readPair? (readItem : Text → Option (Value × Text)) (t : Text) :
    Option ((List String × Value) × Text) := do
  let (key, rest) ← readKey? t
  let rest ← Text.after? ['='] rest
  let (value, rest) ← readItem (skipSpaces rest)
  return ((key, value), rest)

/-- The members of a table on one line after its opening brace, added to those before them. -/
def readInline? (readItem : Text → Option (Value × Text)) :
    (fuel : Nat) → Members → Text → Option (Members × Text)
  | 0, _, _ => none
  | fuel + 1, before, t => do
      let ((key, value), rest) ← readPair? readItem t
      let members ← insert? key value before
      match skipSpaces rest with
      | ',' :: rest => readInline? readItem fuel members rest
      | '}' :: rest => return (members, rest)
      | _ => none

/-- A value in which arrays and tables on one line nest at most `depth` deep. -/
def readValue? : (depth : Nat) → Text → Option (Value × Text)
  | depth, t =>
      match t with
      | [] => none
      | '[' :: rest =>
          match depth with
          | 0 => none
          | depth + 1 => do
              let (items, rest) ← readItems? (readValue? depth) (rest.length + 1) rest
              return (.array items, rest)
      | '{' :: rest =>
          match depth with
          | 0 => none
          | depth + 1 =>
              match skipSpaces rest with
              | '}' :: rest => some (.table .inline [], rest)
              | rest => do
                  let (members, rest) ← readInline? (readValue? depth) (rest.length + 1) [] rest
                  return (.table .inline members, rest)
      | c :: rest =>
          if c = '"' ∨ c = '\'' then do
            let (s, rest) ← readString? (c :: rest)
            return (.string (String.ofList s), rest)
          else do
            let (word, rest) := spanBare (c :: rest)
            let value ← scalar? word
            return (value, rest)

/-- How deep arrays and tables on one line may nest. -/
def maxDepth : Nat := 80

/-! ## Documents -/

/-- A document while it is read. -/
structure Document where
  members : Members
  /-- The path of the last header. -/
  current : List String

/-- What closes a header. -/
def closing (repeated : Bool) : Text := if repeated then [']', ']'] else [']']

/-- A document after the header in front, given what follows its opening brackets. -/
def readHeader? (repeated : Bool) (d : Document) (t : Text) : Option (Document × Text) := do
  let (path, rest) ← readKey? t
  let rest ← Text.after? (closing repeated) rest
  let members ← open? repeated path d.members
  return (⟨members, path⟩, rest)

/-- A document after the key and value in front. -/
def readAssignment? (d : Document) (t : Text) : Option (Document × Text) := do
  let ((key, value), rest) ← readPair? (readValue? maxDepth) t
  let members ← changeAt? (insert? key value) d.current d.members
  return ({ d with members := members }, rest)

/-- A document after what stands on the lines in front. Each round takes at least one character. -/
def readLines? : (fuel : Nat) → Document → Text → Option Document
  | 0, d, t => if t.isEmpty then some d else none
  | fuel + 1, d, t => do
      match ← skipLines? t.length t with
      | [] => return d
      | '[' :: '[' :: rest => do
          let (d, rest) ← readHeader? true d rest
          readLines? fuel d (← endLine? rest)
      | '[' :: rest => do
          let (d, rest) ← readHeader? false d rest
          readLines? fuel d (← endLine? rest)
      | t => do
          let (d, rest) ← readAssignment? d t
          readLines? fuel d (← endLine? rest)

/-- The text without a byte order mark in front. -/
def dropMark : Text → Text
  | c :: rest => if c.toNat = 0xFEFF then rest else c :: rest
  | [] => []

/-- The members of a whole document. -/
def parse? (text : String) : Option Members :=
  let t := dropMark text.toList
  (readLines? (t.length + 1) ⟨[], []⟩ t).map Document.members

end CanvasFlutter.Toml
