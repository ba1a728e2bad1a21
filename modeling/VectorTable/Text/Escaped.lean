import VectorTable.Text.Unprintable
import VectorTable.Text.Combining

/-!
# VectorTable — text inside messages

Messages show foreign text with its invisible characters spelled out: tab, line feed, carriage
return and NUL as a backslash and a letter, every other unprintable character by its code point
in hexadecimal. A combining character is spelled out where it would join onto the message
rather than onto its own text.
-/

namespace VectorTable.Text

/-- A code point in hexadecimal between `\u` and braces. -/
def codePointEscape (c : Char) : List Char :=
  '\\' :: 'u' :: '\x7b' :: (Nat.toDigits 16 c.toNat ++ ['\x7d'])

/-- The spelling of one character. The characters for which `quote` holds get a backslash;
combining characters are spelled out if `separate` holds. -/
def escapeChar (quote : Char → Bool) (separate : Bool) (c : Char) : List Char :=
  if c = '\x00' then ['\\', '0']
  else if c = '\t' then ['\\', 't']
  else if c = '\n' then ['\\', 'n']
  else if c = '\r' then ['\\', 'r']
  else if c = '\\' || quote c then ['\\', c]
  else if (separate && isCombining c) || isUnprintable c then codePointEscape c
  else [c]

/-- Text that a message puts between quotes of its own: both kinds of quote are escaped, and a
combining character only at the start. -/
def escape (s : String) : String :=
  let quote (c : Char) : Bool := c = '"' || c = '\x27'
  match s.toList with
  | [] => ""
  | c :: r => String.ofList (escapeChar quote true c ++ r.flatMap (escapeChar quote false))

/-- Text in double quotes. -/
def quoted (s : String) : String :=
  String.ofList ('"' :: (s.toList.flatMap (escapeChar (· = '"') true) ++ ['"']))

/-- A list of quoted texts between brackets. -/
def quotedList (texts : List String) : String :=
  "[" ++ ", ".intercalate (texts.map quoted) ++ "]"

end VectorTable.Text
