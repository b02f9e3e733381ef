/-
Reading JSON text. The draft of a text (`Draft.ofChars`): white space is
blank, tab, line feed and carriage return; a number is written without
leading zeros; a text may hold any character but control characters; a
container goes on behind commas. The reader follows the text once. Its
fuel is more than twice the characters that are left, since every
character is looked at by at most two calls.
-/
import ControlPlane.Text.Decimal
import ControlPlane.Text.Json.Draft

namespace ControlPlane.Json

/-- White space between the parts of a JSON text. -/
def isSpace (c : Char) : Bool := c = ' ' || c = '\n' || c = '\t' || c = '\r'

/-- The text behind its leading white space. -/
def skipSpace : List Char → List Char
  | [] => []
  | c :: rest => if isSpace c then skipSpace rest else c :: rest

/-- The value of a decimal digit. -/
def digit? (c : Char) : Option Nat :=
  if '0' ≤ c ∧ c ≤ '9' then some (c.toNat - 48) else none

/-- The value of a digit to base sixteen, in either case. -/
def hexDigit? (c : Char) : Option Nat :=
  if '0' ≤ c ∧ c ≤ '9' then some (c.toNat - 48)
  else if 'a' ≤ c ∧ c ≤ 'f' then some (c.toNat - 87)
  else if 'A' ≤ c ∧ c ≤ 'F' then some (c.toNat - 55)
  else none

-- ================================================================ numbers

/-- The digits at the front of a text, and the text behind them. -/
def takeDigits : List Char → List Nat × List Char
  | [] => ([], [])
  | c :: rest =>
    match digit? c with
    | some d => let (ds, tail) := takeDigits rest; (d :: ds, tail)
    | none => ([], c :: rest)

/-- The bound that significands stay below. -/
def significandBound : Nat := 18446744073709551616

/-- Appends digits to a significand for as long as it fits, and says how
many did not. -/
def appendDigits (s : Nat) : List Nat → Nat × Nat
  | [] => (s, 0)
  | d :: rest =>
    if s * 10 + d < significandBound then appendDigits (s * 10 + d) rest
    else (s, rest.length + 1)

/-- A number as it is written: its sign, its digits before and behind the
point, and its exponent; the last two if they are there. -/
structure Numeral where
  negative : Bool
  whole : List Nat
  fraction : Option (List Nat)
  expo : Option (Bool × List Nat)
  deriving DecidableEq, Repr

/-- The exponents that are told apart; a larger one counts as this one. -/
def expoBound : Nat := 2147483647

/-- The number that a numeral stands for; `none` if it is out of range.
Without point and exponent it is exact if it fits into 64 bits; minus zero
is a double. -/
def Numeral.number (n : Numeral) : Option Number :=
  let (s, dropped) := appendDigits 0 n.whole
  match n.fraction, n.expo with
  | none, none =>
    if dropped = 0 then
      if n.negative then
        if h : 0 < s ∧ s ≤ 9223372036854775808 then
          some (.integer ⟨-(s : Int), by omega, by omega⟩)
        else some (.real (Double.ofNat s).neg)
      else if h : s < 18446744073709551616 then
        some (.integer ⟨s, by omega, by omega⟩)
      else none
    else (Decimal.scaled n.negative s dropped).map .real
  | fraction, expo =>
    let ds := fraction.getD []
    let (s, behind) := appendDigits s ds
    let start : Int := (dropped : Int) - ((ds.length - behind : Nat) : Int)
    match expo with
    | none => (Decimal.scaled n.negative s start).map .real
    | some (down, es) =>
      let e := es.foldl (fun n d => n * 10 + d) 0
      if expoBound < e then
        if s ≠ 0 ∧ ¬ down then none
        else some (.real (.zero n.negative))
      else
        (Decimal.scaled n.negative s
          (if down then start - e else start + e)).map .real

/-- The end of a number that stops behind its sign, its point or its
exponent mark, or has a digit behind a leading zero. When the number is
skipped, the end of the text is not told apart. -/
def numberStop : List Char → Stop
  | [] => ⟨.truncated, .malformed, .malformed⟩
  | _ => .plain .malformed

/-- The exponent of a number, if there is one. -/
def readExponent :
    List Char → Except Stop (Option (Bool × List Nat) × List Char)
  | c :: rest =>
    if c = 'e' ∨ c = 'E' then
      let (down, rest) := match rest with
        | '+' :: tail => (false, tail)
        | '-' :: tail => (true, tail)
        | tail => (false, tail)
      match takeDigits rest with
      | ([], tail) => .error (numberStop tail)
      | (ds, tail) => .ok (some (down, ds), tail)
    else .ok (none, c :: rest)
  | [] => .ok (none, [])

/-- The digits behind a decimal point, if there is one. -/
def readFraction : List Char → Except Stop (Option (List Nat) × List Char)
  | '.' :: rest =>
    match takeDigits rest with
    | ([], tail) => .error (numberStop tail)
    | (ds, tail) => .ok (some ds, tail)
  | rest => .ok (none, rest)

/-- A number behind its sign. -/
def readNumeral (negative : Bool) (cs : List Char) :
    Except Stop (Numeral × List Char) :=
  match takeDigits cs with
  | ([], rest) => .error (numberStop rest)
  | (ds, rest) =>
    if ds.head? = some 0 ∧ 1 < ds.length then .error (.plain .malformed)
    else
      match readFraction rest with
      | .error stop => .error stop
      | .ok (fraction, rest) =>
        match readExponent rest with
        | .error stop => .error stop
        | .ok (expo, rest) => .ok (⟨negative, ds, fraction, expo⟩, rest)

-- ================================================================== texts

/-- A text as far as it was read: its characters in reverse, or `none`
once it held half a surrogate pair. -/
abbrev Spelled := Option (List Char)

/-- The stop of a text that has been spelled so far. -/
def Spelled.stop (s : Spelled) (f : Fault) : Stop :=
  ⟨if s.isSome then f else .malformed, f, if s.isSome then f else .malformed⟩

/-- The four digits of an escaped code unit. A text that ends within them
is truncated. -/
def readUnit : List Char → Except Fault (Nat × List Char)
  | a :: b :: c :: d :: rest =>
    match hexDigit? a, hexDigit? b, hexDigit? c, hexDigit? d with
    | some a, some b, some c, some d =>
      .ok (((a * 16 + b) * 16 + c) * 16 + d, rest)
    | _, _, _, _ => .error .malformed
  | short =>
    -- Four octets may stand in fewer than four characters, none of which
    -- is a digit then.
    if (String.ofList short).utf8ByteSize < 4 then .error .truncated
    else .error .malformed

/-- The character of an escape that is no code unit. -/
def escaped? (c : Char) : Option Char :=
  if c = '"' then some '"'
  else if c = '\\' then some '\\'
  else if c = '/' then some '/'
  else if c = 'b' then some (Char.ofNat 8)
  else if c = 'f' then some (Char.ofNat 12)
  else if c = 'n' then some '\n'
  else if c = 'r' then some '\r'
  else if c = 't' then some '\t'
  else none

/-- The rest of a text behind its opening quotation mark. Escaped code
units of the surrogate range make a character in pairs only; half a pair
spoils the text for a reader. -/
def readText :
    Nat → Spelled → List Char → Except Stop (Option String × List Char)
  | 0, spelled, _ => .error (spelled.stop .truncated)
  | fuel + 1, spelled, cs =>
    match cs with
    | [] => .error (spelled.stop .truncated)
    | '"' :: rest => .ok (spelled.map fun r => String.ofList r.reverse, rest)
    | '\\' :: [] => .error (spelled.stop .truncated)
    | '\\' :: 'u' :: rest =>
      match readUnit rest with
      | .error f => .error (spelled.stop f)
      | .ok (n, rest) =>
        if n < 0xD800 ∨ 0xDFFF < n then
          readText fuel (spelled.map (Char.ofNat n :: ·)) rest
        else if 0xDC00 ≤ n then readText fuel none rest
        else
          match rest with
          | '\\' :: 'u' :: tail =>
            match readUnit tail with
            | .error f => .error (spelled.stop f)
            | .ok (low, tail) =>
              if 0xDC00 ≤ low ∧ low ≤ 0xDFFF then
                let code := 0x10000 + (n - 0xD800) * 0x400 + (low - 0xDC00)
                readText fuel (spelled.map (Char.ofNat code :: ·)) tail
              else readText fuel none rest
          | [] => .error (spelled.stop .truncated)
          | '\\' :: [] => .error (spelled.stop .truncated)
          | _ => readText fuel none rest
    | '\\' :: c :: rest =>
      match escaped? c with
      | some c => readText fuel (spelled.map (c :: ·)) rest
      | none => .error (spelled.stop .malformed)
    | c :: rest =>
      if c.toNat < 32 then .error (spelled.stop .malformed)
      else readText fuel (spelled.map (c :: ·)) rest

-- ================================================================= values

/-- The rest of a word whose first character has been read. -/
def readWord (value : Draft) : List Char → List Char → Draft × List Char
  | [], rest => (value, rest)
  | _ :: _, [] => (.broken ⟨.truncated, .truncated, .malformed⟩, [])
  | w :: word, c :: rest =>
    if c = w then readWord value word rest
    else (.broken (.plain .malformed), [])

/-- A number as a value. -/
def readNumber (negative : Bool) (cs : List Char) : Draft × List Char :=
  match readNumeral negative cs with
  | .error stop => (.broken stop, [])
  | .ok (n, rest) => (.number n.number, rest)

/-- A value that is no container; `none` for the first character of a
container. -/
def readScalar (fuel : Nat) : List Char → Option (Draft × List Char)
  | [] => some (.broken (.plain .truncated), [])
  | 'n' :: rest => some (readWord .null ['u', 'l', 'l'] rest)
  | 't' :: rest => some (readWord (.bool true) ['r', 'u', 'e'] rest)
  | 'f' :: rest => some (readWord (.bool false) ['a', 'l', 's', 'e'] rest)
  | '"' :: rest =>
    match readText fuel (some []) rest with
    | .error stop => some (.broken stop, [])
    | .ok (s, rest) => some (.string s, rest)
  | '-' :: rest => some (readNumber true rest)
  | '[' :: _ => none
  | '{' :: _ => none
  | c :: rest =>
    if (digit? c).isSome then some (readNumber false (c :: rest))
    else some (.broken (.plain .malformed), [])

mutual

/-- The value at the front of a text, and the text behind it. -/
def readValue : Nat → List Char → Draft × List Char
  | 0, _ => (.broken (.plain .truncated), [])
  | fuel + 1, cs =>
    let cs := skipSpace cs
    match readScalar (fuel + 1) cs with
    | some found => found
    | none =>
      match cs with
      | '[' :: rest =>
        match skipSpace rest with
        | ']' :: rest => (.array .closed, rest)
        | [] => (.array (.broken (.plain .truncated)), [])
        | rest =>
          let (items, rest) := readItem fuel rest
          (.array items, rest)
      | '{' :: rest =>
        match skipSpace rest with
        | '}' :: rest => (.object .closed, rest)
        | [] => (.object (.broken (.plain .truncated)), [])
        | '"' :: rest =>
          let (members, rest) := readMember fuel rest
          (.object members, rest)
        | rest =>
          match readScalar (fuel + 1) rest with
          | some (value, _) => (.object (.stray value.refusal), [])
          | none => (.object (.stray .mismatched), [])
      | _ => (.broken (.plain .malformed), [])

/-- An item and those behind it. -/
def readItem : Nat → List Char → Items × List Char
  | 0, _ => (.broken (.plain .truncated), [])
  | fuel + 1, cs =>
    match readValue fuel cs with
    | (value, rest) =>
      match skipSpace rest with
      | ']' :: rest => (.item value .closed, rest)
      | ',' :: rest =>
        match skipSpace rest with
        | ']' :: _ =>
          (.item value (.item (.broken (.plain .malformed)) .closed), [])
        | rest =>
          let (items, rest) := readItem fuel rest
          (.item value items, rest)
      | [] => (.item value (.broken (.plain .truncated)), [])
      | _ => (.item value (.broken (.plain .malformed)), [])

/-- A member, from behind the opening quotation mark of its key, and those
behind it. -/
def readMember : Nat → List Char → Members × List Char
  | 0, _ => (.broken (.plain .truncated), [])
  | fuel + 1, cs =>
    match readText (fuel + 1) (some []) cs with
    | .error stop => (.member (.broken stop) .null .closed, [])
    | .ok (key, rest) =>
      match skipSpace rest with
      | ':' :: rest =>
        match readValue fuel rest with
        | (value, rest) =>
          match skipSpace rest with
          | '}' :: rest => (.member (.name key) value .closed, rest)
          | ',' :: rest =>
            match skipSpace rest with
            | '"' :: rest =>
              let (members, rest) := readMember fuel rest
              (.member (.name key) value members, rest)
            | [] =>
              (.member (.name key) value
                (.member (.broken (.plain .truncated)) .null .closed), [])
            | _ =>
              (.member (.name key) value
                (.member (.broken (.plain .malformed)) .null .closed), [])
          | [] => (.member (.name key) value (.broken (.plain .truncated)), [])
          | _ => (.member (.name key) value (.broken (.plain .malformed)), [])
      | [] => (.member (.name key) (.broken (.plain .truncated)) .closed, [])
      | _ => (.member (.name key) (.broken (.plain .malformed)) .closed, [])

end

/-- The draft of the value at the front of a text, and the text behind it. -/
def Draft.ofChars (cs : List Char) : Draft × List Char :=
  readValue (2 * cs.length + 1) cs

/-- Reads a whole text by the rules of what is expected; nothing but white
space may follow. -/
def readAll {α : Type} (expected : Draft → Except Fault α) (cs : List Char) :
    Except Fault α :=
  match Draft.ofChars cs with
  | (value, rest) =>
    match expected value with
    | .error f => .error f
    | .ok a => if (skipSpace rest).isEmpty then .ok a else .error .malformed

/-- Reads a free-form value. -/
def parse (text : String) : Except Fault Json :=
  readAll (Draft.value maxDepth) text.toList

end ControlPlane.Json
