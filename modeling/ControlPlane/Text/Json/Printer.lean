/-
Compact JSON text. One way of writing each value: no white space, members
in the order in which they are listed, characters as they are except
quotation marks, backslashes and control characters.
-/
import ControlPlane.Text.Json.Basic
import ControlPlane.Text.Decimal

namespace ControlPlane.Json

/-- A digit of a number written to base sixteen, in lower case. -/
def hexDigit (n : Nat) : Char :=
  if n < 10 then Char.ofNat (48 + n) else Char.ofNat (87 + n)

/-- How a character stands inside a quoted text. -/
def escapeChar (c : Char) : List Char :=
  if c = '"' then ['\\', '"']
  else if c = '\\' then ['\\', '\\']
  else if c = '\n' then ['\\', 'n']
  else if c = '\r' then ['\\', 'r']
  else if c = '\t' then ['\\', 't']
  else if c.toNat = 8 then ['\\', 'b']
  else if c.toNat = 12 then ['\\', 'f']
  else if c.toNat < 32 then
    ['\\', 'u', '0', '0', hexDigit (c.toNat / 16), hexDigit (c.toNat % 16)]
  else [c]

/-- The characters of a text as they stand between its quotation marks. -/
def escape : List Char → List Char
  | [] => []
  | c :: rest => escapeChar c ++ escape rest

/-- A quoted text. -/
def quote (s : String) : List Char := '"' :: (escape s.toList ++ ['"'])

/-- A number: whole numbers by their digits, doubles by their shortest text. -/
def Number.chars : Number → List Char
  | .integer n => (toString n.val).toList
  | .real x => (Decimal.render x).toList

mutual

/-- The characters of a value's compact text. -/
def chars : Json → List Char
  | .null => ['n', 'u', 'l', 'l']
  | .bool true => ['t', 'r', 'u', 'e']
  | .bool false => ['f', 'a', 'l', 's', 'e']
  | .number n => n.chars
  | .string s => quote s
  | .array [] => ['[', ']']
  | .array (j :: rest) => '[' :: (chars j ++ itemChars rest)
  | .object [] => ['{', '}']
  | .object ((k, v) :: rest) =>
    '{' :: (quote k ++ ':' :: (chars v ++ memberChars rest))

/-- The items after the first one, each behind a comma, and the closing
bracket. -/
def itemChars : List Json → List Char
  | [] => [']']
  | j :: rest => ',' :: (chars j ++ itemChars rest)

/-- The members after the first one, each behind a comma, and the closing
brace. -/
def memberChars : List (String × Json) → List Char
  | [] => ['}']
  | (k, v) :: rest => ',' :: (quote k ++ ':' :: (chars v ++ memberChars rest))

end

/-- The compact text of a value. -/
def text (j : Json) : String := String.ofList j.chars

end ControlPlane.Json
