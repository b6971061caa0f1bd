/-!
JSON documents and their indented form: two blanks for each level, a blank after each colon, and
brackets without anything between them where there is nothing to hold.
-/

set_option autoImplicit false

namespace JaiSyntax

/-- A JSON value. The members of a record keep their order. -/
inductive Json where
  | null
  | number (value : Nat)
  | text (characters : List Char)
  | list (items : List Json)
  | record (members : List (String × Json))

namespace Json

def ofString (string : String) : Json := .text string.toList

def hexadecimalPair (value : Nat) : List Char :=
  [Nat.digitChar (value / 16), Nat.digitChar (value % 16)]

/-- A character as it stands in a JSON string. Only what JSON requires is escaped. -/
def escapedCharacter (character : Char) : List Char :=
  match character with
  | '"' => ['\\', '"']
  | '\\' => ['\\', '\\']
  | '\x08' => ['\\', 'b']
  | '\x0c' => ['\\', 'f']
  | '\n' => ['\\', 'n']
  | '\r' => ['\\', 'r']
  | '\t' => ['\\', 't']
  | other =>
      if other.toNat < 32 then ['\\', 'u', '0', '0'] ++ hexadecimalPair other.toNat
      else [other]

def string (characters : List Char) : String :=
  String.ofList ('"' :: (characters.flatMap escapedCharacter ++ ['"']))

def lineBreak (level : Nat) : String := String.ofList ('\n' :: List.replicate (2 * level) ' ')

mutual

/-- The indented form of a value whose first line stands `level` deep. -/
def render (level : Nat) : Json → String
  | .null => "null"
  | .number value => toString value
  | .text characters => string characters
  | .list [] => "[]"
  | .list (first :: rest) =>
      "[" ++ lineBreak (level + 1) ++ render (level + 1) first ++ renderItems (level + 1) rest
        ++ lineBreak level ++ "]"
  | .record [] => "\x7b\x7d"
  | .record ((key, first) :: rest) =>
      "\x7b" ++ lineBreak (level + 1) ++ string key.toList ++ ": " ++ render (level + 1) first
        ++ renderMembers (level + 1) rest ++ lineBreak level ++ "\x7d"

def renderItems (level : Nat) : List Json → String
  | [] => ""
  | item :: rest => "," ++ lineBreak level ++ render level item ++ renderItems level rest

def renderMembers (level : Nat) : List (String × Json) → String
  | [] => ""
  | (key, value) :: rest =>
      "," ++ lineBreak level ++ string key.toList ++ ": " ++ render level value
        ++ renderMembers level rest

end

end Json

end JaiSyntax
