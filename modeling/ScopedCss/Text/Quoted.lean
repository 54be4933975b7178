import ScopedCss.Text.Unseen

/-!
# Quoted text

Text in double quotes, as log lines show it.  Quotes and backslashes are escaped, and characters
that cannot be seen are written by their code.
-/

namespace ScopedCss.Text

/-- A character between double quotes. -/
def quoteChar (c : Char) : Text :=
  if c = '"' || c = '\\' then ['\\', c]
  else if c = '\n' then ['\\', 'n']
  else if c = '\r' then ['\\', 'r']
  else if c = '\t' then ['\\', 't']
  else if c.toNat = 0 then ['\\', '0']
  else if isUnseen c then '\\' :: 'u' :: '{' :: (Nat.toDigits 16 c.toNat ++ ['}'])
  else [c]

/-- The text in double quotes. -/
def quoted (text : Text) : Text :=
  '"' :: (text.flatMap quoteChar ++ ['"'])

end ScopedCss.Text
