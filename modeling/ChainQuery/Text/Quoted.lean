import ChainQuery.Text.EscapedTable
import ChainQuery.Text.Lowercase
import ChainQuery.Text.Digits

/-!
# Quoted text in messages

A text in double quotes with everything that would not show written as an escape, and a list of
such texts in brackets. Messages about column names are written this way.
-/

namespace ChainQuery.Text

/-- A character written by its number. -/
def numberEscape (c : Char) : List Char :=
  '\\' :: 'u' :: Char.ofNat 0x7B :: render 16 c.toNat ++ [Char.ofNat 0x7D]

def quotedChar (c : Char) : List Char :=
  if c = '"' then ['\\', '"']
  else if c = '\\' then ['\\', '\\']
  else if c = '\n' then ['\\', 'n']
  else if c = '\r' then ['\\', 'r']
  else if c = '\t' then ['\\', 't']
  else if c = Char.ofNat 0 then ['\\', '0']
  else if c.toNat < 0x20 || c.toNat == 0x7F || inRanges escapedRanges c.toNat then numberEscape c
  else [c]

def quoted (s : String) : String :=
  String.ofList ('"' :: s.toList.flatMap quotedChar ++ ['"'])

def quotedList (texts : List String) : String :=
  "[" ++ ", ".intercalate (texts.map quoted) ++ "]"

end ChainQuery.Text
