import ModelWorkspace.Json.Value

/-! Reading a JSON text. The reader is an automaton: one step per character, on a state that says
what may come next and which arrays and objects are still open. So no text is too deep for it, and
what it does to a text put together from parts is what it does to the parts in turn. -/
namespace ModelWorkspace.Json

open Text (isDigit digitValue)

def isSpace (c : Char) : Bool := c == ' ' || c == '\t' || c == '\n' || c == '\r'

/-- An array or object whose end has not come, with its members so far, the last one first. -/
inductive Open
  | array (items : List Tree)
  | object (fields : List (List Piece × Tree))
  /-- An object whose next value belongs to the key. -/
  | field (fields : List (List Piece × Tree)) (key : List Piece)

/-- How far a numeral has been read. -/
inductive NumeralPart
  | minus | zero | whole | point | fraction | mark | sign | exponent
  deriving DecidableEq

def NumeralPart.isFinal : NumeralPart → Bool
  | .zero | .whole | .fraction | .exponent => true
  | .minus | .point | .mark | .sign => false

/-- The quoted text that is being read: a value, or a key. -/
inductive Quoted
  | value
  | key
  deriving DecidableEq

/-- What may come next. -/
inductive Expect
  | value
  | firstItem
  | firstKey
  | nextKey
  | colon (key : List Piece)
  /-- The rest of one of the three words, and the tree that it stands for. -/
  | letters (rest : List Char) (tree : Tree)
  | numeral (part : NumeralPart) (n : Numeral)
  /-- The pieces so far, the last one first. -/
  | piece (quoted : Quoted) (pieces : List Piece)
  | escape (quoted : Quoted) (pieces : List Piece)
  /-- The code unit so far, and how many hexadecimal digits are still to come. -/
  | hex (quoted : Quoted) (pieces : List Piece) (unit : Nat) (missing : Nat)
  | itemEnd
  | fieldEnd
  | nothing (tree : Tree)

/-- What may come next, inside which arrays and objects, the innermost one first. -/
structure State where
  expect : Expect := .value
  inside : List Open := []

def State.afterValue (tree : Tree) : List Open → Option State
  | [] => some ⟨.nothing tree, []⟩
  | .array items :: rest => some ⟨.itemEnd, .array (tree :: items) :: rest⟩
  | .field fields key :: rest => some ⟨.fieldEnd, .object ((key, tree) :: fields) :: rest⟩
  | .object _ :: _ => none

def State.afterQuoted (quoted : Quoted) (pieces : List Piece) (inside : List Open) : Option State :=
  match quoted with
  | .value => State.afterValue (.string pieces.reverse) inside
  | .key => some ⟨.colon pieces.reverse, inside⟩

def State.close (c : Char) : List Open → Option State
  | .array items :: rest => if c == ']' then State.afterValue (.array items.reverse) rest else none
  | .object fields :: rest =>
    if c == '}' then State.afterValue (.object fields.reverse) rest else none
  | _ => none

def State.begin (c : Char) (inside : List Open) : Option State :=
  if c == '"' then some ⟨.piece .value [], inside⟩
  else if c == '[' then some ⟨.firstItem, .array [] :: inside⟩
  else if c == '{' then some ⟨.firstKey, .object [] :: inside⟩
  else if c == '-' then some ⟨.numeral .minus { negative := true }, inside⟩
  else if c == '0' then some ⟨.numeral .zero { whole := [c] }, inside⟩
  else if isDigit c then some ⟨.numeral .whole { whole := [c] }, inside⟩
  else if c == 't' then some ⟨.letters ['r', 'u', 'e'] (.bool true), inside⟩
  else if c == 'f' then some ⟨.letters ['a', 'l', 's', 'e'] (.bool false), inside⟩
  else if c == 'n' then some ⟨.letters ['u', 'l', 'l'] .null, inside⟩
  else none

def escaped? : Char → Option Char
  | '"' => some '"'
  | '\\' => some '\\'
  | '/' => some '/'
  | 'b' => some '\x08'
  | 'f' => some '\x0c'
  | 'n' => some '\n'
  | 'r' => some '\r'
  | 't' => some '\t'
  | _ => none

def hexValue? (c : Char) : Option Nat :=
  if isDigit c then some (digitValue c)
  else if 'a' ≤ c && c ≤ 'f' then some (c.toNat - 'a'.toNat + 10)
  else if 'A' ≤ c && c ≤ 'F' then some (c.toNat - 'A'.toNat + 10)
  else none

/-- The numeral with one more character, if the character belongs to it. -/
def NumeralPart.extend (part : NumeralPart) (n : Numeral) (c : Char) :
    Option (NumeralPart × Numeral) :=
  let digitOfExponent : Numeral :=
    { n with exponent := n.exponent.map fun (negative, digits) => (negative, digits ++ [c]) }
  match part with
  | .minus =>
    if c == '0' then some (.zero, { n with whole := [c] })
    else if isDigit c then some (.whole, { n with whole := [c] }) else none
  | .zero =>
    if c == '.' then some (.point, n)
    else if c == 'e' || c == 'E' then some (.mark, { n with exponent := some (false, []) })
    else none
  | .whole =>
    if isDigit c then some (.whole, { n with whole := n.whole ++ [c] })
    else if c == '.' then some (.point, n)
    else if c == 'e' || c == 'E' then some (.mark, { n with exponent := some (false, []) })
    else none
  | .point => if isDigit c then some (.fraction, { n with fraction := [c] }) else none
  | .fraction =>
    if isDigit c then some (.fraction, { n with fraction := n.fraction ++ [c] })
    else if c == 'e' || c == 'E' then some (.mark, { n with exponent := some (false, []) })
    else none
  | .mark =>
    if isDigit c then some (.exponent, digitOfExponent)
    else if c == '+' then some (.sign, n)
    else if c == '-' then some (.sign, { n with exponent := some (true, []) })
    else none
  | .sign => if isDigit c then some (.exponent, digitOfExponent) else none
  | .exponent => if isDigit c then some (.exponent, digitOfExponent) else none

def State.stepBetween (s : State) (c : Char) : Option State :=
  if isSpace c then some s
  else
    match s.expect with
    | .value => State.begin c s.inside
    | .firstItem => if c == ']' then State.close c s.inside else State.begin c s.inside
    | .firstKey =>
      if c == '}' then State.close c s.inside
      else if c == '"' then some ⟨.piece .key [], s.inside⟩ else none
    | .nextKey => if c == '"' then some ⟨.piece .key [], s.inside⟩ else none
    | .colon key =>
      match s.inside with
      | .object fields :: rest => if c == ':' then some ⟨.value, .field fields key :: rest⟩ else none
      | _ => none
    | .itemEnd => if c == ',' then some { s with expect := .value } else State.close c s.inside
    | .fieldEnd => if c == ',' then some { s with expect := .nextKey } else State.close c s.inside
    | _ => none

/-- One step of the reader, or `none` where the text is refused. -/
def State.step (s : State) (c : Char) : Option State :=
  match s.expect with
  | .letters [] _ => none
  | .letters [last] tree => if c == last then State.afterValue tree s.inside else none
  | .letters (next :: rest) tree =>
    if c == next then some { s with expect := .letters rest tree } else none
  | .numeral part n =>
    match part.extend n c with
    | some (part, n) => some { s with expect := .numeral part n }
    | none =>
      if part.isFinal then do (← State.afterValue (.number n) s.inside).stepBetween c else none
  | .piece quoted pieces =>
    if c == '"' then State.afterQuoted quoted pieces s.inside
    else if c == '\\' then some { s with expect := .escape quoted pieces }
    else if c.toNat < 0x20 then none
    else some { s with expect := .piece quoted (.char c :: pieces) }
  | .escape quoted pieces =>
    if c == 'u' then some { s with expect := .hex quoted pieces 0 4 }
    else (escaped? c).map fun d => { s with expect := .piece quoted (.char d :: pieces) }
  | .hex quoted pieces unit missing =>
    (hexValue? c).map fun d =>
      if missing ≤ 1 then { s with expect := .piece quoted (.unit (16 * unit + d) :: pieces) }
      else { s with expect := .hex quoted pieces (16 * unit + d) (missing - 1) }
  | _ => s.stepBetween c

def State.finish (s : State) : Option Tree :=
  match s.expect, s.inside with
  | .nothing tree, _ => some tree
  | .numeral part n, [] => if part.isFinal then some (.number n) else none
  | _, _ => none

def State.run (s : State) (text : List Char) : Option State := text.foldlM State.step s

@[simp] theorem State.run_nil (s : State) : s.run [] = some s := rfl

@[simp] theorem State.run_cons (s : State) (c : Char) (text : List Char) :
    s.run (c :: text) = (s.step c).bind fun t => t.run text := rfl

def Tree.read (text : List Char) : Option Tree := do (← State.run {} text).finish

def Value.read (text : List Char) : Option Value := do Value.ofTree depthLimit (← Tree.read text)

end ModelWorkspace.Json
