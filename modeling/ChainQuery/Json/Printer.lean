import ChainQuery.Json.Basic

/-!
# Writing JSON

Documents are written without blanks. Strings escape the quote, the backslash and the control
characters and nothing else. A number is written as its numeral says.
-/

namespace ChainQuery.Json

/-- A character inside a string. Only quotes, backslashes and control characters are escaped. -/
def stringChar (c : Char) : List Char :=
  if c = '"' then ['\\', '"']
  else if c = '\\' then ['\\', '\\']
  else if c = '\n' then ['\\', 'n']
  else if c = '\r' then ['\\', 'r']
  else if c = '\t' then ['\\', 't']
  else if c = '\x08' then ['\\', 'b']
  else if c = '\x0c' then ['\\', 'f']
  else if c.toNat < 0x20 then
    ['\\', 'u', '0', '0', Text.digitChar (c.toNat / 16), Text.digitChar (c.toNat % 16)]
  else [c]

def stringChars (s : String) : List Char :=
  '"' :: s.toList.flatMap stringChar ++ ['"']

def numeralChars (n : Numeral) : List Char :=
  let sign := if n.negative then ['-'] else []
  let fraction := match n.fraction with
    | some ds => '.' :: ds
    | none => []
  let exponent := match n.exponent with
    | some e => 'e' :: (Text.signedDecimal e).toList
    | none => []
  sign ++ n.whole ++ fraction ++ exponent

mutual

def chars : Json → List Char
  | null => ['n', 'u', 'l', 'l']
  | bool b => if b then ['t', 'r', 'u', 'e'] else ['f', 'a', 'l', 's', 'e']
  | number n => numeralChars n
  | string s => stringChars s
  | unpaired => ['"', '"']
  | array items => '[' :: itemChars items ++ [']']
  | object fields => '\x7b' :: fieldChars fields ++ ['\x7d']

def itemChars : List Json → List Char
  | [] => []
  | [item] => chars item
  | item :: items => chars item ++ ',' :: itemChars items

def fieldChars : List (String × Json) → List Char
  | [] => []
  | [(name, value)] => stringChars name ++ ':' :: chars value
  | (name, value) :: fields => stringChars name ++ ':' :: chars value ++ ',' :: fieldChars fields

end

/-- The document in one line without spaces. -/
def text (j : Json) : String :=
  String.ofList (chars j)

end ChainQuery.Json
