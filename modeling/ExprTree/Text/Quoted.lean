/-
This file quotes names for display.
-/

import ExprTree.Text.Concealed

namespace ExprTree.Text

def hexadecimal (code : Nat) : List Char := Nat.toDigits 16 code

/-- Every escape starts with a backslash, and the code of a concealed character is enclosed. -/
def escape (character : Char) : List Char :=
  if character = '"' then ['\\', '"']
  else if character = '\\' then ['\\', '\\']
  else if character = '\n' then ['\\', 'n']
  else if character = '\r' then ['\\', 'r']
  else if character = '\t' then ['\\', 't']
  else if character = '\x00' then ['\\', '0']
  else if isConcealed character then '\\' :: 'u' :: '\x7b' :: hexadecimal character.toNat ++ ['\x7d']
  else [character]

/-- A quoted name stands between double quotes. -/
def quote (name : String) : List Char := '"' :: name.toList.flatMap escape ++ ['"']

end ExprTree.Text
