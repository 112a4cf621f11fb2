import DataLake.Text.Printable

/-!
Quoted text: how a text is shown inside a description or a list. It stands in
single quotes unless it holds a single quote and no double quote; the quote in
use and the backslash are escaped, and what is not printable, such as half of a
surrogate pair, is written as an escape of two, four or eight hexadecimal digits.
-/

namespace DataLake.Text

def singleQuote : CodePoint := '\x27'

def doubleQuote : CodePoint := '\x22'

/-- A hexadecimal digit, in lower case. -/
def hexDigit (n : Nat) : CodePoint :=
  if n < 10 then .ofNat (48 + n) else .ofNat (87 + n)

/-- The last `width` hexadecimal digits of a number. -/
def hexPadded : Nat → Nat → Text
  | 0, _ => []
  | width + 1, n => hexPadded width (n / 16) ++ [hexDigit (n % 16)]

def escapePoint (quote c : CodePoint) : Text :=
  if c = quote || c = '\\' then ['\\', c]
  else if c = '\n' then "\\n"
  else if c = '\r' then "\\r"
  else if c = '\t' then "\\t"
  else if isPrintable c then [c]
  else if c.toNat < 0x100 then "\\x" ++ hexPadded 2 c.toNat
  else if c.toNat < 0x10000 then "\\u" ++ hexPadded 4 c.toNat
  else "\\U" ++ hexPadded 8 c.toNat

def quoteFor (t : Text) : CodePoint :=
  if t.contains singleQuote && !t.contains doubleQuote then doubleQuote else singleQuote

def quoted (t : Text) : Text :=
  let quote := quoteFor t
  quote :: (t.flatMap (escapePoint quote) ++ [quote])

end DataLake.Text
