import LogTemplate.Text.Basic

/-!
# Writing JSON strings

A string is written between quotes. Quotes, backslashes and control characters are escaped, the
common ones by a letter and the others by four hexadecimal digits; every other character stands
for itself.
-/

namespace LogTemplate.Json

/-- A character inside a string. -/
def escapeChar (c : Char) : Text :=
  if c = '"' then ['\\', '"']
  else if c = '\\' then ['\\', '\\']
  else if c = '\x08' then ['\\', 'b']
  else if c = '\x0c' then ['\\', 'f']
  else if c = '\n' then ['\\', 'n']
  else if c = '\r' then ['\\', 'r']
  else if c = '\t' then ['\\', 't']
  else if c.toNat < 0x20 then '\\' :: 'u' :: Text.hex 4 c.toNat
  else [c]

/-- A string as JSON. -/
def quote (t : Text) : Text := '"' :: t.flatMap escapeChar ++ ['"']

end LogTemplate.Json
