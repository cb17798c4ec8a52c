import TextTemplate.Unicode.Printable

/-!
# Quoted texts in messages

Messages show a text between quotes, on one line and in printable characters only. Backslashes and
the quote in use are escaped, and so is every character that is not printable, by a short form or
by its code in hexadecimal digits. Octets are shown alike, with all but printable ASCII escaped.
-/

namespace TextTemplate.Text

/-- Quotes are single, unless the text holds a single quote and no double one. -/
def quoteFor (text : List Char) : Char :=
  if '\x27' ∈ text ∧ '\x22' ∉ text then '\x22' else '\x27'

/-- The lower-case hexadecimal digits of `code`, filled up with zeros in front to `width`. -/
def hexDigits (width code : Nat) : List Char := (Nat.toDigits 16 code).leftpad width '0'

/-- A code written out with the shortest of the three escapes that can hold it. -/
def escapeCode (code : Nat) : List Char :=
  if code < 0x100 then '\\' :: 'x' :: hexDigits 2 code
  else if code < 0x10000 then '\\' :: 'u' :: hexDigits 4 code
  else '\\' :: 'U' :: hexDigits 8 code

/-- One character between quotes, where `plain` says which characters may stand for themselves. -/
def escapeChar (plain : Char → Bool) (quote c : Char) : List Char :=
  if c = quote ∨ c = '\\' then ['\\', c]
  else if c = '\n' then ['\\', 'n']
  else if c = '\r' then ['\\', 'r']
  else if c = '\t' then ['\\', 't']
  else if plain c then [c]
  else escapeCode c.toNat

/-- The quoted form of characters of which the `plain` ones may stand for themselves. -/
def quotedChars (plain : Char → Bool) (text : List Char) : List Char :=
  let quote := quoteFor text
  quote :: text.flatMap (escapeChar plain quote) ++ [quote]

/-- A text between quotes. -/
def quoted (text : String) : String := .ofList (quotedChars Unicode.isPrintable text.toList)

/-- A printable ASCII character. -/
def isPrintableAscii (c : Char) : Bool := 0x20 ≤ c.toNat && c.toNat < 0x7f

/-- A row of octets between quotes, marked by a letter in front. -/
def quotedOctets (octets : List UInt8) : String :=
  .ofList ('b' :: quotedChars isPrintableAscii (octets.map fun octet => .ofNat octet.toNat))

end TextTemplate.Text
