import ModelWorkspace.Json.Value

/-! Records: values of a known shape. A record is written as an object, whose unknown fields do not
matter, or as an array of its fields in their order. -/
namespace ModelWorkspace.Json

abbrev FieldNames := List String

def fillSlot (slots : List (Option Tree)) (i : Nat) (t : Tree) : Option (List (Option Tree)) :=
  match slots[i]? with
  | some none => some (slots.set i (some t))
  | _ => none

/-- The fields of an object, one place a known field. An unknown field is skipped; a known one that
comes twice, under the same or another of its names, is refused. -/
def fieldSlots (names : List FieldNames) :
    List (Option Tree) → List (List Piece × Tree) → Option (List (Option Tree))
  | slots, [] => some slots
  | slots, (key, t) :: rest => do
    let key ← decode key
    match names.findIdx? (fun known => known.contains (String.ofList key)) with
    | some i => fieldSlots names (← fillSlot slots i t) rest
    | none => fieldSlots names slots rest

/-- The fields of a record in their order, absent ones as `none`. An array must have one item a
field, or at most that many if later fields may be left out. -/
def Tree.record? (names : List FieldNames) (mayEndEarly : Bool) :
    Tree → Option (List (Option Tree))
  | .object fields => fieldSlots names (List.replicate names.length none) fields
  | .array items =>
    if items.length = names.length || (mayEndEarly && items.length < names.length) then
      some (items.map some ++ List.replicate (names.length - items.length) none)
    else none
  | _ => none

def optional {α : Type} (read : Tree → Option α) : Option Tree → Option (Option α)
  | none => some none
  | some .null => some none
  | some t => (read t).map some

/-- The value of a field that may be absent, when it has a default. -/
def withDefault {α : Type} (default : α) (read : Tree → Option α) : Option Tree → Option α
  | none => some default
  | some t => read t

def required {α : Type} (read : Tree → Option α) : Option Tree → Option α
  | none => none
  | some t => read t

def Tree.word32? : Tree → Option UInt32
  | .number n => n.word32?
  | _ => none

end ModelWorkspace.Json
