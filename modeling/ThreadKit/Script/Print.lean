import ThreadKit.Script.Value

/-! Writing JSON text. Strings escape the quote, the backslash and the control characters, and
keep every other character as it is; integers are written in decimal and other numbers as they
were read. -/
namespace ThreadKit.Script

namespace Print

/-- The hexadecimal digit of a value below sixteen, in lower case. -/
def hexDigit (n : Nat) : Char := if n < 10 then Char.ofNat (48 + n) else Char.ofNat (87 + n)

/-- A character as it stands inside a JSON string. -/
def escapeChar (c : Char) : List Char :=
  if c = '"' then ['\\', '"']
  else if c = '\\' then ['\\', '\\']
  else if c = '\n' then ['\\', 'n']
  else if c = '\r' then ['\\', 'r']
  else if c = '\t' then ['\\', 't']
  else if c = '\x08' then ['\\', 'b']
  else if c = '\x0c' then ['\\', 'f']
  else if c.toNat < 0x20 then ['\\', 'u', '0', '0', hexDigit (c.toNat / 16), hexDigit (c.toNat % 16)]
  else [c]

/-- A string as a JSON string literal. -/
def quote (s : String) : String := String.ofList ('"' :: s.toList.flatMap escapeChar ++ ['"'])

end Print

mutual

/-- The JSON text of a value, without whitespace. -/
def Value.write : Value → String
  | .null => "null"
  | .bool b => if b then "true" else "false"
  | .int n => toString n
  | .float literal => literal
  | .str s => Print.quote s
  | .arr [] => "[]"
  | .arr (v :: vs) => Value.writeItems vs ("[" ++ v.write) ++ "]"
  | .obj [] => "\x7b\x7d"
  | .obj ((k, v) :: ms) => Value.writeMembers ms ("\x7b" ++ Print.quote k ++ ":" ++ v.write) ++ "\x7d"

/-- The text `acc` followed by the JSON texts of values, each after a comma. -/
def Value.writeItems : List Value → String → String
  | [], acc => acc
  | v :: vs, acc => Value.writeItems vs (acc ++ "," ++ v.write)

/-- The text `acc` followed by the JSON texts of members of an object, each after a comma. -/
def Value.writeMembers : List (String × Value) → String → String
  | [], acc => acc
  | (k, v) :: ms, acc => Value.writeMembers ms (acc ++ "," ++ Print.quote k ++ ":" ++ v.write)

end

end ThreadKit.Script
