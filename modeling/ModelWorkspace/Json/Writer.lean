import ModelWorkspace.Decimal.Shortest
import ModelWorkspace.Json.Value

/-! Writing values: on one line, or with one member a line and two spaces of indentation a level. -/
namespace ModelWorkspace.Json

/-- Floats are positional from five zeros after the point up to sixteen digits before it. -/
def floatLayout : Decimal.Layout := ⟨-5, 15⟩

def hexDigit (n : Nat) : Char := Nat.digitChar n

/-- A character inside quotes. Quote, backslash and control characters are escaped. -/
def escapeChar (c : Char) : List Char :=
  if c == '"' then ['\\', '"']
  else if c == '\\' then ['\\', '\\']
  else if c == '\x08' then ['\\', 'b']
  else if c == '\x0c' then ['\\', 'f']
  else if c == '\n' then ['\\', 'n']
  else if c == '\r' then ['\\', 'r']
  else if c == '\t' then ['\\', 't']
  else if c.toNat < 0x20 then
    ['\\', 'u', '0', '0', hexDigit (c.toNat / 16), hexDigit (c.toNat % 16)]
  else [c]

def quote (s : List Char) : List Char := '"' :: (s.flatMap escapeChar ++ ['"'])

def intChars (n : Int) : List Char :=
  if n < 0 then '-' :: Text.decimal n.natAbs else Text.decimal n.natAbs

/-- A number; what is no number is written as null. -/
def floatChars (x : Float) : List Char :=
  if x.isFinite then Decimal.floatText floatLayout x else "null".toList

mutual

def Value.compact : Value → List Char
  | .null => ['n', 'u', 'l', 'l']
  | .bool true => ['t', 'r', 'u', 'e']
  | .bool false => ['f', 'a', 'l', 's', 'e']
  | .int n => intChars n
  | .float x => floatChars x
  | .string s => quote s.toList
  | .array items => '[' :: (Value.compactItems items ++ [']'])
  | .object fields => '{' :: (Value.compactFields fields ++ ['}'])

def Value.compactItems : List Value → List Char
  | [] => []
  | [v] => v.compact
  | v :: w :: rest => v.compact ++ ',' :: Value.compactItems (w :: rest)

def Value.compactFields : List (String × Value) → List Char
  | [] => []
  | [(k, v)] => quote k.toList ++ ':' :: v.compact
  | (k, v) :: f :: rest => quote k.toList ++ ':' :: v.compact ++ ',' :: Value.compactFields (f :: rest)

end

def newLine (level : Nat) : List Char := '\n' :: List.replicate (2 * level) ' '

mutual

/-- The value with one member a line, the value itself being at the level. -/
def Value.pretty (level : Nat) : Value → List Char
  | .null => ['n', 'u', 'l', 'l']
  | .bool true => ['t', 'r', 'u', 'e']
  | .bool false => ['f', 'a', 'l', 's', 'e']
  | .int n => intChars n
  | .float x => floatChars x
  | .string s => quote s.toList
  | .array [] => ['[', ']']
  | .array (v :: rest) => '[' :: (Value.prettyItems level (v :: rest) ++ newLine level ++ [']'])
  | .object [] => ['{', '}']
  | .object (f :: rest) => '{' :: (Value.prettyFields level (f :: rest) ++ newLine level ++ ['}'])

def Value.prettyItems (level : Nat) : List Value → List Char
  | [] => []
  | [v] => newLine (level + 1) ++ Value.pretty (level + 1) v
  | v :: w :: rest =>
    newLine (level + 1) ++ Value.pretty (level + 1) v ++ ',' :: Value.prettyItems level (w :: rest)

def Value.prettyFields (level : Nat) : List (String × Value) → List Char
  | [] => []
  | [(k, v)] =>
    newLine (level + 1) ++ quote k.toList ++ ':' :: ' ' :: Value.pretty (level + 1) v
  | (k, v) :: f :: rest =>
    newLine (level + 1) ++ quote k.toList ++ ':' :: ' ' :: Value.pretty (level + 1) v ++
      ',' :: Value.prettyFields level (f :: rest)

end

def Value.text (v : Value) : String := String.ofList v.compact

/-- The text of an object with one field a line, its fields in the order given. -/
def prettyObject (fields : List (String × Value)) : String :=
  String.ofList (Value.pretty 0 (.object fields))

end ModelWorkspace.Json
