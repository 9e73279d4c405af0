/-!
# JSON strings as text

Quotes, backslashes and control characters stand behind a backslash, the usual controls with a
letter and the others with their code.  Every other character stands for itself.
-/

namespace TestTriage.Json

/-- Two hexadecimal digits. -/
def twoDigits (n : Nat) : List Char := [Nat.digitChar (n / 16), Nat.digitChar (n % 16)]

/-- How a character is written within a string. -/
def writeChar (c : Char) : List Char :=
  if c = '"' then ['\\', '"']
  else if c = '\\' then ['\\', '\\']
  else if c = '\x08' then ['\\', 'b']
  else if c = '\t' then ['\\', 't']
  else if c = '\n' then ['\\', 'n']
  else if c = '\x0c' then ['\\', 'f']
  else if c = '\r' then ['\\', 'r']
  else if c < ' ' then ['\\', 'u', '0', '0'] ++ twoDigits c.toNat
  else [c]

/-- A text as a JSON string. -/
def quoted (s : String) : String := String.ofList ('"' :: s.toList.flatMap writeChar ++ ['"'])

/-- Texts as a JSON list. -/
def quotedList (ss : List String) : String := "[" ++ ",".intercalate (ss.map quoted) ++ "]"

end TestTriage.Json
