import CallAudit.Json.Text

/-!
# Writing JSON

The indented form puts every item and member on a line of its own, two blanks deeper than what holds
it. An empty array or object stays on one line.
-/

namespace CallAudit.Json

/-- A line break and the blanks of a nesting level. -/
def lineBreak (level : Nat) : List Char :=
  '\n' :: List.replicate (2 * level) ' '

/-- The quoted name of a member. A half-spelt name has no text and is written empty. -/
def quoteName (name : Spelt) : List Char :=
  quote (name.getD "")

mutual

/-- The indented form of a value that stands at a nesting level. -/
def pretty (level : Nat) : Json → List Char
  | null => "null".toList
  | bool true => "true".toList
  | bool false => "false".toList
  | number written => written.toList
  | text value => quote (value.getD "")
  | array [] => "[]".toList
  | array (item :: items) =>
      '[' :: (lineBreak (level + 1) ++ pretty (level + 1) item ++ prettyItems (level + 1) items ++
        lineBreak level ++ [']'])
  | object [] => ['\x7b', '\x7d']
  | object ((name, value) :: members) =>
      '\x7b' :: (lineBreak (level + 1) ++ quoteName name ++ [':', ' '] ++ pretty (level + 1) value ++
        prettyMembers (level + 1) members ++ lineBreak level ++ ['\x7d'])

/-- The items after the first, each on its own line. -/
def prettyItems (level : Nat) : List Json → List Char
  | [] => []
  | item :: items =>
      ',' :: (lineBreak level ++ pretty level item ++ prettyItems level items)

/-- The members after the first, each on its own line. -/
def prettyMembers (level : Nat) : List (Spelt × Json) → List Char
  | [] => []
  | (name, value) :: members =>
      ',' :: (lineBreak level ++ quoteName name ++ [':', ' '] ++ pretty level value ++
        prettyMembers level members)

end

mutual

/-- The form without blanks. -/
def compact : Json → List Char
  | null => "null".toList
  | bool true => "true".toList
  | bool false => "false".toList
  | number written => written.toList
  | text value => quote (value.getD "")
  | array [] => "[]".toList
  | array (item :: items) => '[' :: (compact item ++ compactItems items ++ [']'])
  | object [] => ['\x7b', '\x7d']
  | object ((name, value) :: members) =>
      '\x7b' :: (quoteName name ++ [':'] ++ compact value ++ compactMembers members ++ ['\x7d'])

/-- The items after the first. -/
def compactItems : List Json → List Char
  | [] => []
  | item :: items => ',' :: (compact item ++ compactItems items)

/-- The members after the first. -/
def compactMembers : List (Spelt × Json) → List Char
  | [] => []
  | (name, value) :: members =>
      ',' :: (quoteName name ++ [':'] ++ compact value ++ compactMembers members)

end

/-- The indented form as a text. -/
def prettyText (v : Json) : String := String.ofList (pretty 0 v)

/-- The form without blanks as a text. -/
def compactText (v : Json) : String := String.ofList (compact v)

end CallAudit.Json
