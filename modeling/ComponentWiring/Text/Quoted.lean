import ComponentWiring.Text.HiddenTable

/-! # Text between quotes, as error texts show it

* `quoted`: the text in double quotes, with escapes for quotes, backslashes and everything that
  would not be seen.
-/

namespace ComponentWiring.Text
set_option autoImplicit false

/-- A code point in lower case hexadecimal digits. -/
def hexLower (n : Nat) : List Char := Nat.toDigits 16 n

def quotedChar (c : Char) : List Char :=
  if c = '\x00' then ['\\', '0']
  else if c = '\t' then ['\\', 't']
  else if c = '\r' then ['\\', 'r']
  else if c = '\n' then ['\\', 'n']
  else if c = '\\' then ['\\', '\\']
  else if c = '"' then ['\\', '"']
  else if hidden.has c then ['\\', 'u', '\x7b'] ++ hexLower c.toNat ++ ['\x7d']
  else [c]

def quoted (s : String) : String :=
  String.ofList ('"' :: (s.toList.flatMap quotedChar ++ ['"']))

end ComponentWiring.Text
