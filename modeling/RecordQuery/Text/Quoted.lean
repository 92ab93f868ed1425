import RecordQuery.Text.Unprintable

/-!
# Quoted Text

Texts shown to a reader stand between double quotes. A quote, a backslash and the common
controls are escaped by a letter, every other character that leaves no mark of its own by
its code point in hexadecimal between braces; all else stands for itself.
-/

namespace RecordQuery.Text

/-- A character as it stands between the quotes. -/
def quoteChar (c : Char) : List Char :=
  if c = '"' then ['\\', '"']
  else if c = '\\' then ['\\', '\\']
  else if c = '\n' then ['\\', 'n']
  else if c = '\r' then ['\\', 'r']
  else if c = '\t' then ['\\', 't']
  else if c.toNat = 0 then ['\\', '0']
  else if isUnprintable c then
    ['\\', 'u', '\x7b'] ++ Nat.toDigits 16 c.toNat ++ ['\x7d']
  else [c]

/-- A text between double quotes. -/
def quoted (text : String) : String :=
  String.ofList ('"' :: (text.toList.flatMap quoteChar ++ ['"']))

-- A line break has a letter, a byte order mark only its code point.
example : quoted "\n'\"" = "\"\\n'\\\"\"" := by decide +kernel
example : quoted "\ufeff" = "\"\\u\x7bfeff\x7d\"" := by decide +kernel

end RecordQuery.Text
