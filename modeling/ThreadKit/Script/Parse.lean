import ThreadKit.Script.Value

/-! Reading JSON text. The grammar is the strict one: whitespace is space, tab, line feed and
carriage return; strings hold no raw control characters, escapes are the JSON ones, and a
`\u` escape of a surrogate must be a leading one followed by a trailing one; containers nest at
most `maxDepth` deep; a repeated member name keeps its last value.

Numbers follow the reading of a 64-bit machine. Digits accumulate in an unsigned 64-bit
significand; once the next digit would overflow it, the remaining integer digits only raise the
decimal exponent and the remaining fraction digits are dropped. A plain numeral whose
significand never overflowed is an integer, unless it is negative and below `-2 ^ 63` or is
`-0`. Everything else is a double `significand · 10 ^ exponent`, computed as the significand
rounded to a double times the power of ten rounded to a double; a text whose double would be
infinite is not JSON. -/
namespace ThreadKit.Script

namespace Parse

/-- What reading a prefix of a text gives: the thing read and the text after it, or `none` when
the text does not start with one. -/
abbrev Result (α : Type) := Option (α × List Char)

/-- Whether a character is JSON whitespace. -/
def isSpace (c : Char) : Bool := c = ' ' || c = '\n' || c = '\r' || c = '\t'

/-- A text without its leading whitespace. -/
def skipSpace (cs : List Char) : List Char := cs.dropWhile isSpace

/-- The value of a decimal digit. -/
def digitValue (c : Char) : Nat := c.toNat - '0'.toNat

/-- The value of a hexadecimal digit, in either case. -/
def hexValue? (c : Char) : Option Nat :=
  if c.isDigit then some (digitValue c)
  else if 'a' ≤ c ∧ c ≤ 'f' then some (c.toNat - 'a'.toNat + 10)
  else if 'A' ≤ c ∧ c ≤ 'F' then some (c.toNat - 'A'.toNat + 10)
  else none

/-- The code unit written by four hexadecimal digits. -/
def codeUnit? (a b c d : Char) : Option Nat := do
  let a ← hexValue? a
  let b ← hexValue? b
  let c ← hexValue? c
  let d ← hexValue? d
  pure (((a * 16 + b) * 16 + c) * 16 + d)

/-- Whether a code unit is a leading surrogate. -/
def isLeading (n : Nat) : Bool := 0xD800 ≤ n && n ≤ 0xDBFF

/-- Whether a code unit is a trailing surrogate. -/
def isTrailing (n : Nat) : Bool := 0xDC00 ≤ n && n ≤ 0xDFFF

/-- The character of a leading and a trailing surrogate. -/
def pairChar (hi lo : Nat) : Char := Char.ofNat (0x10000 + (hi - 0xD800) * 0x400 + (lo - 0xDC00))

/-- The rest of a string after its opening quote, up to and past the closing one; `acc` holds
the characters read so far, last first. -/
def stringBody (acc : List Char) : List Char → Result String
  | [] => none
  | '"' :: rest => some (String.ofList acc.reverse, rest)
  | '\\' :: '"' :: rest => stringBody ('"' :: acc) rest
  | '\\' :: '\\' :: rest => stringBody ('\\' :: acc) rest
  | '\\' :: '/' :: rest => stringBody ('/' :: acc) rest
  | '\\' :: 'b' :: rest => stringBody ('\x08' :: acc) rest
  | '\\' :: 'f' :: rest => stringBody ('\x0c' :: acc) rest
  | '\\' :: 'n' :: rest => stringBody ('\n' :: acc) rest
  | '\\' :: 'r' :: rest => stringBody ('\r' :: acc) rest
  | '\\' :: 't' :: rest => stringBody ('\t' :: acc) rest
  | '\\' :: 'u' :: a :: b :: c :: d :: rest =>
    match codeUnit? a b c d with
    | none => none
    | some n =>
      if isTrailing n then none
      else if isLeading n then
        match rest with
        | '\\' :: 'u' :: e :: f :: g :: h :: rest' =>
          match codeUnit? e f g h with
          | some m => if isTrailing m then stringBody (pairChar n m :: acc) rest' else none
          | none => none
        | _ => none
      else stringBody (Char.ofNat n :: acc) rest
  | '\\' :: _ => none
  | c :: rest => if c.toNat < 0x20 then none else stringBody (c :: acc) rest

/-- The largest value of an unsigned 64-bit significand. -/
def significandMax : Nat := Nat.pow 2 64 - 1

/-- The largest value of a signed 32-bit exponent. -/
def exponentMax : Nat := Nat.pow 2 31 - 1

/-- The integer digits after the first: `sig` is the significand so far and `shift` the number
of digits that no longer fit it; once one does not fit, none of the later ones is tried. -/
def integerDigits (sig shift : Nat) (full : Bool) : List Char → Nat × Nat × Bool × List Char
  | c :: rest =>
    if c.isDigit then
      if full || sig * 10 + digitValue c > significandMax then integerDigits sig (shift + 1) true rest
      else integerDigits (sig * 10 + digitValue c) shift false rest
    else (sig, shift, full, c :: rest)
  | [] => (sig, shift, full, [])

/-- The fraction digits: each that fits lowers the exponent `exp` by one, the rest are dropped. -/
def fractionDigits (sig : Nat) (exp : Int) (full : Bool) : List Char → Nat × Int × List Char
  | c :: rest =>
    if c.isDigit then
      if full || sig * 10 + digitValue c > significandMax then fractionDigits sig exp true rest
      else fractionDigits (sig * 10 + digitValue c) (exp - 1) false rest
    else (sig, exp, c :: rest)
  | [] => (sig, exp, [])

/-- The digits of an exponent: its value so far, or `none` once it left the 32-bit range. -/
def exponentDigits : Option Nat → List Char → Option Nat × List Char
  | e, c :: rest =>
    if c.isDigit then
      match e with
      | some e =>
        if e * 10 + digitValue c > exponentMax then exponentDigits none rest
        else exponentDigits (some (e * 10 + digitValue c)) rest
      | none => exponentDigits none rest
    else (e, c :: rest)
  | e, [] => (e, [])

/-- A natural number rounded to the nearest double, ties to even. -/
def roundToDouble (n : Nat) : Nat :=
  let bits := n.log2 + 1
  if bits ≤ 53 then n
  else
    let k := bits - 53
    let q := n / Nat.pow 2 k
    let r := n % Nat.pow 2 k
    let half := Nat.pow 2 (k - 1)
    (if r > half || (r == half && q % 2 == 1) then q + 1 else q) * Nat.pow 2 k

/-- The least magnitude that rounds to an infinite double. -/
def infiniteThreshold : Nat := Nat.pow 2 1024 - Nat.pow 2 970

/-- Whether the double `sig · 10 ^ exp` comes out infinite; a negative exponent never makes it
so, and neither does a zero significand. -/
def overflowsDouble (sig : Nat) (exp : Int) : Bool :=
  sig != 0 && exp ≥ 0 &&
    (exp > 308 || roundToDouble sig * roundToDouble (Nat.pow 10 exp.toNat) ≥ infiniteThreshold)

/-- The number a text starts with once it is read as a double, given its significand and the
exponent before any exponent part; `none` when the double is infinite. `literal` is the number as
written. -/
def double (literal : String) (sig : Nat) (exp : Int) : List Char → Result Value
  | c :: rest =>
    if c = 'e' || c = 'E' then
      let (up, rest) := match rest with
        | '+' :: r => (true, r)
        | '-' :: r => (false, r)
        | r => (true, r)
      match rest with
      | d :: rest =>
        if d.isDigit then
          let (e, after) := exponentDigits (some (digitValue d)) rest
          match e with
          | some e =>
            let exp := if up then exp + e else exp - e
            if overflowsDouble sig exp then none else some (.float literal, after)
          | none => if sig != 0 && up then none else some (.float literal, after)
        else none
      | [] => none
    else if overflowsDouble sig exp then none
    else some (.float literal, c :: rest)
  | [] => if overflowsDouble sig exp then none else some (.float literal, [])

/-- Whether a character can stand in the text of a number. -/
def isNumberChar (c : Char) : Bool := c.isDigit || c = '-' || c = '+' || c = '.' || c = 'e' || c = 'E'

/-- The number a text starts with, after its sign. `literal` is the longest run of characters
that can stand in a number from the sign on: it is the number as written whenever the text is
JSON, since no such character may follow a number. -/
def unsigned (literal : String) (negative : Bool) (cs : List Char) : Result Value :=
  let parts : Option (Nat × Nat × Bool × List Char) :=
    match cs with
    | '0' :: rest =>
      match rest with
      | d :: _ => if d.isDigit then none else some (0, 0, false, rest)
      | [] => some (0, 0, false, [])
    | d :: rest => if d.isDigit && d != '0' then some (integerDigits (digitValue d) 0 false rest)
      else none
    | [] => none
  match parts with
  | none => none
  | some (sig, shift, full, rest) =>
    match rest with
    | '.' :: d :: more =>
      if d.isDigit then
        let (sig, exp, after) := fractionDigits sig shift false (d :: more)
        double literal sig exp after
      else none
    | '.' :: [] => none
    | 'e' :: _ => double literal sig shift rest
    | 'E' :: _ => double literal sig shift rest
    | _ =>
      if full then double literal sig shift rest
      else if !negative then some (.int sig, rest)
      else if 1 ≤ sig ∧ sig ≤ Nat.pow 2 63 then some (.int (-(sig : Int)), rest)
      else some (.float literal, rest)

/-- The number a text starts with. -/
def number (cs : List Char) : Result Value :=
  let literal := String.ofList (cs.takeWhile isNumberChar)
  match cs with
  | '-' :: rest => unsigned literal true rest
  | _ => unsigned literal false cs

/-- The most containers one value may nest, counting itself. -/
def maxDepth : Nat := 127

/-- The items of an array after its opening bracket, each read by `item`, up to and past the
closing bracket; `fuel` bounds the number of items. -/
def elements (item : List Char → Result Value) : Nat → List Value → List Char → Result (List Value)
  | 0, _, _ => none
  | fuel + 1, acc, cs =>
    match item cs with
    | none => none
    | some (v, rest) =>
      match skipSpace rest with
      | ',' :: rest => elements item fuel (v :: acc) rest
      | ']' :: rest => some ((v :: acc).reverse, rest)
      | _ => none

/-- The members of an object after its opening brace, each value read by `item`, up to and past
the closing brace; a repeated name replaces the earlier member. `fuel` bounds the number of
members. -/
def members (item : List Char → Result Value) :
    Nat → List (String × Value) → List Char → Result (List (String × Value))
  | 0, _, _ => none
  | fuel + 1, acc, cs =>
    match skipSpace cs with
    | '"' :: rest =>
      match stringBody [] rest with
      | none => none
      | some (key, rest) =>
        match skipSpace rest with
        | ':' :: rest =>
          match item rest with
          | none => none
          | some (v, rest) =>
            let acc := (key, v) :: acc.filter (·.1 != key)
            match skipSpace rest with
            | ',' :: rest => members item fuel acc rest
            | '}' :: rest => some (acc.reverse, rest)
            | _ => none
        | _ => none
    | _ => none

/-- The value a text starts with, after whitespace, where containers may nest `room` more
levels and hold at most `width` items each; `width` is the length of the whole text, which no
container can exceed. -/
def value (width : Nat) : Nat → List Char → Result Value
  | room, cs =>
    match skipSpace cs with
    | 'n' :: 'u' :: 'l' :: 'l' :: rest => some (.null, rest)
    | 't' :: 'r' :: 'u' :: 'e' :: rest => some (.bool true, rest)
    | 'f' :: 'a' :: 'l' :: 's' :: 'e' :: rest => some (.bool false, rest)
    | '"' :: rest => (stringBody [] rest).map fun r => (.str r.1, r.2)
    | '[' :: rest =>
      match room with
      | 0 => none
      | room + 1 =>
        match skipSpace rest with
        | ']' :: after => some (.arr [], after)
        | _ => (elements (value width room) width [] rest).map fun r => (.arr r.1, r.2)
    | '{' :: rest =>
      match room with
      | 0 => none
      | room + 1 =>
        match skipSpace rest with
        | '}' :: after => some (.obj [], after)
        | _ => (members (value width room) width [] rest).map fun r => (.obj r.1, r.2)
    | other => number other

end Parse

/-- The value a whole text holds, with nothing but whitespace around it; `none` when the text is
not JSON. -/
def parse (text : String) : Option Value :=
  let cs := text.toList
  match Parse.value cs.length Parse.maxDepth cs with
  | some (v, rest) => if Parse.skipSpace rest = [] then some v else none
  | none => none

end ThreadKit.Script
