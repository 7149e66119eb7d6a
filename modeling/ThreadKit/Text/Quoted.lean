import ThreadKit.Text.GraphemeExtend
import ThreadKit.Text.Printable

/-! Quoted strings, as a debugging view writes a name: between double quotes, with a backslash
escape for NUL, tab, carriage return, line feed, backslash and double quote, and an escape
`\u` + braced lower-case hex for every character that extends a grapheme cluster or is unprintable.
Every other character stands for itself; the single quote is not escaped. Quoting works character
by character, so it distributes over concatenation (`escapeAll_append`). -/
namespace ThreadKit.Text

/-- The escape of a character by its code point: backslash, `u`, and the lower-case hexadecimal
digits without leading zeros between braces. -/
def unicodeEscape (c : Char) : List Char :=
  ['\\', 'u', '\x7b'] ++ Nat.toDigits 16 c.toNat ++ ['\x7d']

/-- How one character is written inside a quoted string. -/
def escapeChar (c : Char) : List Char :=
  if c = '\x00' then ['\\', '0']
  else if c = '\t' then ['\\', 't']
  else if c = '\r' then ['\\', 'r']
  else if c = '\n' then ['\\', 'n']
  else if c = '\\' then ['\\', '\\']
  else if c = '"' then ['\\', '"']
  else if isGraphemeExtend c then unicodeEscape c
  else if isPrintable c then [c]
  else unicodeEscape c

/-- The characters of a text with each one escaped. -/
def escapeAll (cs : List Char) : List Char := cs.flatMap escapeChar

/-- The quoted form of a string. -/
def quote (s : String) : String :=
  String.ofList ('"' :: escapeAll s.toList ++ ['"'])

@[simp] theorem escapeAll_nil : escapeAll [] = [] := rfl

@[simp] theorem escapeAll_cons (c : Char) (cs : List Char) :
    escapeAll (c :: cs) = escapeChar c ++ escapeAll cs := by
  simp [escapeAll]

theorem escapeAll_append (xs ys : List Char) :
    escapeAll (xs ++ ys) = escapeAll xs ++ escapeAll ys := by
  simp [escapeAll]

end ThreadKit.Text
