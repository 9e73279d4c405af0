import TestTriage.Text.Visible

/-!
# Quoted text

A text in double quotes, for messages: quotes and backslashes stand behind a backslash, the usual
controls have a letter, and hidden characters show their code.
-/

namespace TestTriage.Text

/-- How a character is written within quotes. -/
def quoteChar (c : Char) : List Char :=
  if c == '"' || c == '\\' then ['\\', c]
  else if c == '\n' then ['\\', 'n']
  else if c == '\r' then ['\\', 'r']
  else if c == '\t' then ['\\', 't']
  else if c.toNat == 0 then ['\\', '0']
  else if isVisible c then [c]
  else '\\' :: 'u' :: '\x7b' :: Nat.toDigits 16 c.toNat ++ ['\x7d']

/-- A text in double quotes. -/
def quote (s : String) : String :=
  String.ofList ('"' :: s.toList.flatMap quoteChar ++ ['"'])

end TestTriage.Text
