import CanvasFlutter.Decimal.Read
import CanvasFlutter.Json

/-!
# `CanvasFlutter.Json.Read` — reading JSON text

The grammar is that of RFC 8259: no comments, no trailing commas, nothing before or after the
value but spaces, tabs, line feeds and carriage returns. Arrays and objects nest at most 127 deep.
Every reader takes the text in front of it and gives what it read and the text that follows. Fuel
is one more than the length of the whole text, so it outlasts every part of it.

## Contents
- **Characters and strings.** `skipBlanks`, `readHex4?`, `readString?`.
- **Numbers.** `readNumber?`: an integer that fits 64 bits stays one, any other number becomes the
  nearest double, and a number beyond the range of doubles is refused.
- **Values.** `readValue?`, by recursion on the depth that is left; `parse?` reads a whole text.
-/

namespace CanvasFlutter.Json

/-! ## Characters and strings -/

/-- White space between the parts of a value. -/
def isBlankChar (c : Char) : Bool := c == ' ' || c == '\t' || c == '\n' || c == '\r'

/-- The text without the white space in front. -/
def skipBlanks (t : Text) : Text := t.dropWhile isBlankChar

/-- The value of a hexadecimal digit. -/
def hexValue? (c : Char) : Option Nat :=
  if '0' ≤ c ∧ c ≤ '9' then some (c.toNat - '0'.toNat)
  else if 'a' ≤ c ∧ c ≤ 'f' then some (c.toNat - 'a'.toNat + 10)
  else if 'A' ≤ c ∧ c ≤ 'F' then some (c.toNat - 'A'.toNat + 10)
  else none

/-- The value of four hexadecimal digits. -/
def readHex4? : Text → Option (Nat × Text)
  | a :: b :: c :: d :: rest => do
      let a ← hexValue? a
      let b ← hexValue? b
      let c ← hexValue? c
      let d ← hexValue? d
      return (((a * 16 + b) * 16 + c) * 16 + d, rest)
  | _ => none

/-- The character that a one-letter escape stands for. -/
def shortEscape? : Char → Option Char
  | '"' => some '"'
  | '\\' => some '\\'
  | '/' => some '/'
  | 'b' => some '\x08'
  | 'f' => some '\x0c'
  | 'n' => some '\n'
  | 'r' => some '\r'
  | 't' => some '\t'
  | _ => none

/-- The character of a `\u` escape, given what follows the `u`; a surrogate must be the first of
two escapes that make up one character. -/
def readUnicodeEscape? (t : Text) : Option (Char × Text) := do
  let (unit, rest) ← readHex4? t
  if 0xD800 ≤ unit ∧ unit ≤ 0xDBFF then
    let rest ← Text.after? ['\\', 'u'] rest
    let (low, rest) ← readHex4? rest
    if 0xDC00 ≤ low ∧ low ≤ 0xDFFF then
      return (Char.ofNat (0x10000 + (unit - 0xD800) * 0x400 + (low - 0xDC00)), rest)
    else none
  else if 0xDC00 ≤ unit ∧ unit ≤ 0xDFFF then none
  else return (Char.ofNat unit, rest)

/-- The characters of a string up to its closing quote. Each step takes at least one character. -/
def readStringBody? : (fuel : Nat) → Text → Option (Text × Text)
  | 0, _ => none
  | fuel + 1, t =>
      match t with
      | [] => none
      | '"' :: rest => some ([], rest)
      | '\\' :: 'u' :: rest => do
          let (c, rest) ← readUnicodeEscape? rest
          let (s, rest) ← readStringBody? fuel rest
          return (c :: s, rest)
      | '\\' :: e :: rest => do
          let c ← shortEscape? e
          let (s, rest) ← readStringBody? fuel rest
          return (c :: s, rest)
      | c :: rest =>
          if c.toNat < 0x20 ∨ c = '\\' then none
          else do
            let (s, rest) ← readStringBody? fuel rest
            return (c :: s, rest)

/-- A string, given what follows its opening quote. -/
def readString? (fuel : Nat) (t : Text) : Option (String × Text) := do
  let (s, rest) ← readStringBody? fuel t
  return (String.ofList s, rest)

/-! ## Numbers -/

/-- The digits in front of a number's point: a lone zero, or digits that do not begin with one. -/
def readWhole? : Text → Option (Text × Text)
  | '0' :: rest => some (['0'], rest)
  | t =>
      let (digits, rest) := Decimal.spanDigits t
      if digits.isEmpty then none else some (digits, rest)

/-- A point and at least one digit, if there is a point. -/
def readFraction? : Text → Option (Option Text × Text)
  | '.' :: rest =>
      let (digits, rest) := Decimal.spanDigits rest
      if digits.isEmpty then none else some (some digits, rest)
  | t => some (none, t)

/-- An exponent with at least one digit, if there is one. -/
def readExponent? : Text → Option (Option Int × Text)
  | c :: rest =>
      if c = 'e' ∨ c = 'E' then
        let (negative, rest) := Decimal.spanSign rest
        let (digits, rest) := Decimal.spanDigits rest
        let n : Int := Decimal.digitsValue digits
        if digits.isEmpty then none else some (some (if negative then -n else n), rest)
      else some (none, c :: rest)
  | [] => some (none, [])

/-- The greatest integer that is kept as one. -/
def maxUnsigned : Nat := 18446744073709551615

/-- The greatest magnitude of a negative integer that is kept as one. -/
def maxNegated : Nat := 9223372036854775808

/-- The value of a number's parts; `none` beyond the range of doubles. A double is the one nearest
to what is written. A reader that works with rounded powers of ten, as fast ones do, may give its
neighbour instead and refuses some of the greatest numerals that are still in range. -/
def numberValue? (negative : Bool) (whole : Text) (fraction : Option Text)
    (exponent : Option Int) : Option JsonNumber :=
  let n := Decimal.digitsValue whole
  let isWhole := fraction.isNone && exponent.isNone
  if isWhole && !negative && n ≤ maxUnsigned then some (.int n)
  else if isWhole && negative && 0 < n && n ≤ maxNegated then some (.int (-n))
  else
    let fraction := fraction.getD []
    let x := Decimal.nearest (whole ++ fraction) (exponent.getD 0 - fraction.length)
    if x.isInf then none else some (.real (if negative then -x else x))

/-- A number. -/
def readNumber? (t : Text) : Option (JsonNumber × Text) := do
  let (negative, t) :=
    match t with
    | '-' :: rest => (true, rest)
    | _ => (false, t)
  let (whole, t) ← readWhole? t
  let (fraction, t) ← readFraction? t
  let (exponent, t) ← readExponent? t
  let n ← numberValue? negative whole fraction exponent
  return (n, t)

/-! ## Values -/

/-- The items of an array after its opening bracket and the first item's white space. Each item
takes at least one character. -/
def readItems? (readItem : Text → Option (Json × Text)) :
    (fuel : Nat) → Text → Option (List Json × Text)
  | 0, _ => none
  | fuel + 1, t => do
      let (item, rest) ← readItem t
      match skipBlanks rest with
      | ',' :: rest => do
          let (items, rest) ← readItems? readItem fuel rest
          return (item :: items, rest)
      | ']' :: rest => return ([item], rest)
      | _ => none

/-- A member of an object. -/
def readMember? (readItem : Text → Option (Json × Text)) (fuel : Nat) (t : Text) :
    Option ((String × Json) × Text) :=
  match skipBlanks t with
  | '"' :: rest => do
      let (name, rest) ← readString? fuel rest
      match skipBlanks rest with
      | ':' :: rest => do
          let (value, rest) ← readItem rest
          return ((name, value), rest)
      | _ => none
  | _ => none

/-- The members of an object after its opening brace, added to those before them, so that of two
members with one name the last one stays. -/
def readMembers? (readItem : Text → Option (Json × Text)) :
    (fuel : Nat) → List (String × Json) → Text → Option (List (String × Json) × Text)
  | 0, _, _ => none
  | fuel + 1, before, t => do
      let ((name, value), rest) ← readMember? readItem fuel t
      let members := setMember name value before
      match skipBlanks rest with
      | ',' :: rest => readMembers? readItem fuel members rest
      | '}' :: rest => return (members, rest)
      | _ => none

/-- A value in which arrays and objects nest at most `depth` deep. -/
def readValue? (fuel : Nat) : (depth : Nat) → Text → Option (Json × Text)
  | depth, t =>
      match skipBlanks t with
      | [] => none
      | '"' :: rest => do
          let (s, rest) ← readString? fuel rest
          return (.string s, rest)
      | '[' :: rest =>
          match depth with
          | 0 => none
          | depth + 1 =>
              match skipBlanks rest with
              | ']' :: rest => some (.array [], rest)
              | rest => do
                  let (items, rest) ← readItems? (readValue? fuel depth) fuel rest
                  return (.array items, rest)
      | '{' :: rest =>
          match depth with
          | 0 => none
          | depth + 1 =>
              match skipBlanks rest with
              | '}' :: rest => some (.object [], rest)
              | rest => do
                  let (members, rest) ← readMembers? (readValue? fuel depth) fuel [] rest
                  return (.object members, rest)
      | c :: rest =>
          let t := c :: rest
          match Text.after? "null".toList t with
          | some rest => some (.null, rest)
          | none =>
              match Text.after? "true".toList t with
              | some rest => some (.bool true, rest)
              | none =>
                  match Text.after? "false".toList t with
                  | some rest => some (.bool false, rest)
                  | none => do
                      let (n, rest) ← readNumber? t
                      return (.number n, rest)

/-- How deep arrays and objects may nest. -/
def maxDepth : Nat := 127

/-- The value of a whole text. -/
def parse? (text : String) : Option Json := do
  let t := text.toList
  let (value, rest) ← readValue? (t.length + 1) maxDepth t
  if (skipBlanks rest).isEmpty then return value else none

end CanvasFlutter.Json
