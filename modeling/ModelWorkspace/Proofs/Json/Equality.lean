import ModelWorkspace.Json.Value

/-! Values that are equal to themselves. The numbers of a JSON text are finite, and among numbers only
one that is none differs from itself. -/
namespace ModelWorkspace.Json

theorem compare_self_of_isFinite {x : Float.Model.UnpackedFloat} (finite : x.isFinite = true) :
    x.compare x = some .eq := by
  cases x with
  | infinity sign => cases finite
  | notANumber => cases finite
  | zero sign => cases sign <;> rfl
  | finite sign mantissa exponent positive =>
    have same : (compare exponent exponent).then (compare mantissa mantissa) = .eq := by
      rw [Std.compare_self, Std.compare_self]
      rfl
    cases sign with
    | positive => exact congrArg some same
    | negative => exact congrArg (fun o : Ordering => some o.swap) same

theorem float_beq_self {x : Float} (finite : x.isFinite = true) : (x == x) = true := by
  obtain ⟨m⟩ := x
  have same : m.unpack.compare m.unpack = some .eq := compare_self_of_isFinite finite
  change (m.unpack.compare m.unpack == some Ordering.eq) = true
  rw [same]
  rfl

mutual

/-- Whether all numbers in a value are finite. -/
def Value.isFinite : Value → Bool
  | .float x => x.isFinite
  | .array items => Value.areFinite items
  | .object fields => Value.haveFinite fields
  | .null | .bool _ | .int _ | .string _ => true

def Value.areFinite : List Value → Bool
  | [] => true
  | v :: rest => Value.isFinite v && Value.areFinite rest

def Value.haveFinite : List (String × Value) → Bool
  | [] => true
  | (_, v) :: rest => Value.isFinite v && Value.haveFinite rest

end

mutual

theorem Value.same_self (v : Value) (finite : v.isFinite = true) : v.same v = true := by
  cases v with
  | float x => exact float_beq_self finite
  | array items => exact Value.sameItems_self items finite
  | object fields => exact Value.sameFields_self fields finite
  | null => rfl
  | bool b => exact beq_self_eq_true b
  | int n => exact beq_self_eq_true n
  | string s => exact beq_self_eq_true s

theorem Value.sameItems_self (items : List Value) (finite : Value.areFinite items = true) :
    Value.sameItems items items = true := by
  cases items with
  | nil => rfl
  | cons v rest =>
    rw [Value.areFinite, Bool.and_eq_true] at finite
    rw [Value.sameItems, Value.same_self v finite.1, Value.sameItems_self rest finite.2, Bool.and_self]

theorem Value.sameFields_self (fields : List (String × Value))
    (finite : Value.haveFinite fields = true) : Value.sameFields fields fields = true := by
  cases fields with
  | nil => rfl
  | cons field rest =>
    obtain ⟨k, v⟩ := field
    rw [Value.haveFinite, Bool.and_eq_true] at finite
    rw [Value.sameFields, Value.same_self v finite.1, Value.sameFields_self rest finite.2,
      beq_self_eq_true, Bool.and_self, Bool.and_self]

end

end ModelWorkspace.Json
