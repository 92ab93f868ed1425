import RecordQuery.Json
import RecordQuery.Number.Layout

/-!
# JSON as Text

Values are written without blanks. Numbers have a point or an exponent exactly when they
are floats: `30.0`, `0.00001`, `1e+16`, `1.5e-7`.
-/

namespace RecordQuery.Json

/-- Floats are positional from `0.00001` up to sixteen digits, always with a point; zero
keeps its sign, and of two equally close shortest decimals the even one is written. -/
def floats : Layout := ⟨.even, -5, 16, true, true, true⟩

-- Whole numbers keep their point, and zero its sign.
example : floats.render (.ofBits 0x403e000000000000 : Binary64) = "30.0" := by decide +kernel
example : floats.render (.ofBits 0x8000000000000000 : Binary64) = "-0.0" := by decide +kernel
example : floats.render (.ofBits 0x4341c37937e08000 : Binary64) = "1e+16" := by
  decide +kernel
example : floats.render (.ofBits 0x3ee4f8b588e368f1 : Binary64) = "0.00001" := by
  decide +kernel

/-- A character as it stands in a JSON string: quotes, backslashes and controls escaped. -/
def escapeChar (c : Char) : List Char :=
  if c = '"' then ['\\', '"']
  else if c = '\\' then ['\\', '\\']
  else if c = '\n' then ['\\', 'n']
  else if c = '\r' then ['\\', 'r']
  else if c = '\t' then ['\\', 't']
  else if c.toNat = 8 then ['\\', 'b']
  else if c.toNat = 12 then ['\\', 'f']
  else if c.toNat < 32 then
    ['\\', 'u', '0', '0', Nat.digitChar (c.toNat / 16), Nat.digitChar (c.toNat % 16)]
  else [c]

/-- A JSON string. -/
def stringText (text : String) : String :=
  String.ofList ('"' :: (text.toList.flatMap escapeChar ++ ['"']))

mutual

/-- The text of a value. -/
def text : Json → String
  | .null => "null"
  | .boolean value => if value then "true" else "false"
  | .integer value => toString value
  | .float value => if value.isFinite then floats.render value else "null"
  | .string value => stringText value
  | .array items => "[" ++ itemsText items ++ "]"
  | .object members => "\x7b" ++ membersText members ++ "\x7d"

/-- Items, separated by commas. -/
def itemsText : List Json → String
  | [] => ""
  | [item] => text item
  | item :: rest => text item ++ "," ++ itemsText rest

/-- Members, separated by commas. -/
def membersText : List (String × Json) → String
  | [] => ""
  | [(name, value)] => stringText name ++ ":" ++ text value
  | (name, value) :: rest => stringText name ++ ":" ++ text value ++ "," ++ membersText rest

end

end RecordQuery.Json
