import ModelWorkspace.Json.Value
import ModelWorkspace.Setting.Key

/-! The values of the settings, in the order in which the settings were first set. -/
namespace ModelWorkspace.Setting

open ModelWorkspace.Json (Value)

/-- Settings with their values, each setting once. -/
abbrev Values := List (Key × Value)

namespace Values

def get? (values : Values) (key : Key) : Option Value := values.lookup key

/-- Sets a value. A setting that has one keeps its place, another one goes last. -/
def insert (values : Values) (key : Key) (value : Value) : Values :=
  match values with
  | [] => [(key, value)]
  | (k, v) :: rest => if k = key then (k, value) :: rest else (k, v) :: Values.insert rest key value

def has (values : Values) (key : Key) (value : Value) : Bool :=
  (values.get? key).any fun v => v.same value

def same (values others : Values) : Bool :=
  values.length == others.length && values.all fun (key, value) => others.has key value

@[simp] theorem get?_nil (key : Key) : get? [] key = none := rfl

@[simp] theorem get?_cons (k key : Key) (v : Value) (rest : Values) :
    get? ((k, v) :: rest) key = if key = k then some v else get? rest key := by
  by_cases h : key = k
  · simp [get?, h]
  · have hb : (key == k) = false := by simp [h]
    simp [get?, List.lookup_cons, h, hb]

@[simp] theorem get?_insert (values : Values) (key other : Key) (value : Value) :
    (values.insert key value).get? other =
      if other = key then some value else values.get? other := by
  induction values with
  | nil => simp [insert]
  | cons entry rest ih =>
    obtain ⟨k, v⟩ := entry
    by_cases hk : k = key
    · by_cases h : other = key <;> simp_all [insert]
    · have hk' : key ≠ k := fun h => hk h.symm
      by_cases h : other = key <;> simp_all [insert]

/-- The keys after setting a value: a new one goes last. -/
theorem map_fst_insert (values : Values) (key : Key) (value : Value) :
    (values.insert key value).map Prod.fst =
      if key ∈ values.map Prod.fst then values.map Prod.fst
      else values.map Prod.fst ++ [key] := by
  induction values with
  | nil => simp [insert]
  | cons entry rest ih =>
    obtain ⟨k, v⟩ := entry
    by_cases hk : k = key
    · simp [insert, hk]
    · have hk' : key ≠ k := fun h => hk h.symm
      by_cases hm : key ∈ rest.map Prod.fst <;> simp_all [insert]

end Values

end ModelWorkspace.Setting
