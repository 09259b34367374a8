import ScriptBlocks.Text.Quoted

/-!
# JSON

The part of JSON that reports need, and its written form with two spaces of indentation for each
level.  Text is written as it is, but for quotes, backslashes and control characters.
-/

namespace ScriptBlocks

/-- A JSON value without truth values, null and fractions. -/
inductive Json where
  | text (s : String)
  | integer (n : Int)
  | array (items : List Json)
  /-- Values by name, in their order. -/
  | object (members : List (String × Json))

namespace Json

/-- The characters that stand for `c` in a JSON text. -/
def escapedChar (c : Char) : List Char :=
  if c = '"' ∨ c = '\\' then ['\\', c]
  else if c = '\n' then ['\\', 'n']
  else if c = '\r' then ['\\', 'r']
  else if c = '\t' then ['\\', 't']
  else if c = '\x08' then ['\\', 'b']
  else if c = '\x0c' then ['\\', 'f']
  else if c.toNat < 0x20 then '\\' :: 'u' :: Text.hexDigits 4 c.toNat
  else [c]

/-- The written form of a text. -/
def renderText (s : String) : String :=
  String.ofList ('"' :: s.toList.flatMap escapedChar ++ ['"'])

/-- A line break and the indentation of a level. -/
def lineBreak (level : Nat) : String := "\n".pushn ' ' (2 * level)

/-- Written parts between brackets, each on a line of its own one level further in. -/
def bracket (left right : String) (level : Nat) (parts : List String) : String :=
  if parts.isEmpty then left ++ right
  else
    let separator := "," ++ lineBreak (level + 1)
    left ++ lineBreak (level + 1) ++ separator.intercalate parts ++ lineBreak level ++ right

mutual

/-- The written form of a value that stands at the given level of indentation. -/
def render (level : Nat) : Json → String
  | text s => renderText s
  | integer n => toString n
  | array items => bracket "[" "]" level (renderItems (level + 1) items)
  | object members => bracket "\x7b" "\x7d" level (renderMembers (level + 1) members)

def renderItems (level : Nat) : List Json → List String
  | [] => []
  | item :: items => render level item :: renderItems level items

def renderMembers (level : Nat) : List (String × Json) → List String
  | [] => []
  | (name, value) :: members =>
    (renderText name ++ ": " ++ render level value) :: renderMembers level members

end

end Json

end ScriptBlocks
