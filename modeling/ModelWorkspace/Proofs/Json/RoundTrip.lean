import ModelWorkspace.Proofs.Json.Written

/-! Values that survive printing and reading. They are the values that a text can stand for, without
its floats: what the reader makes of a text is exact, and an exact value is what the reader makes of
its printed text. -/
namespace ModelWorkspace.Json

mutual

/-- Whether a value has integers of 64 bits and no floats, each object has its keys in order, and
arrays and objects are nested at most this deep. -/
def Value.isExact (depth : Nat) : Value → Bool
  | .null | .bool _ | .string _ => true
  | .int n => -((UInt64.size / 2 : Nat) : Int) ≤ n && n < (UInt64.size : Nat)
  | .float _ => false
  | .array items =>
    match depth with
    | 0 => false
    | d + 1 => Value.itemsAreExact d items
  | .object fields =>
    match depth with
    | 0 => false
    | d + 1 =>
      decide (fields.Pairwise fun f g => compare f.1 g.1 = .lt) && Value.fieldsAreExact d fields

def Value.itemsAreExact (depth : Nat) : List Value → Bool
  | [] => true
  | v :: rest => Value.isExact depth v && Value.itemsAreExact depth rest

def Value.fieldsAreExact (depth : Nat) : List (String × Value) → Bool
  | [] => true
  | (_, v) :: rest => Value.isExact depth v && Value.fieldsAreExact depth rest

end

namespace Value

theorem fieldsAreExact_iff {depth : Nat} (fields : List (String × Value)) :
    fieldsAreExact depth fields = true ↔ ∀ f ∈ fields, f.2.isExact depth = true := by
  induction fields with
  | nil => simp [fieldsAreExact]
  | cons f rest ih => simp [fieldsAreExact, ih]

theorem fieldsHaveFloat_eq_false_iff (fields : List (String × Value)) :
    fieldsHaveFloat fields = false ↔ ∀ f ∈ fields, f.2.hasFloat = false := by
  induction fields with
  | nil => simp [fieldsHaveFloat]
  | cons f rest ih => simp [fieldsHaveFloat, ih]

end Value

mutual

theorem Value.hasFloat_of_isExact {depth : Nat} (v : Value) (exact : v.isExact depth = true) :
    v.hasFloat = false := by
  cases v with
  | null => rfl
  | bool b => rfl
  | int n => rfl
  | float x => cases exact
  | string s => rfl
  | array items =>
    cases depth with
    | zero => cases exact
    | succ d => exact Value.itemsHaveFloat_of_exact items exact
  | object fields =>
    cases depth with
    | zero => cases exact
    | succ d =>
      rw [Value.isExact, Bool.and_eq_true] at exact
      exact Value.fieldsHaveFloat_of_exact fields exact.2

theorem Value.itemsHaveFloat_of_exact {depth : Nat} (items : List Value)
    (exact : Value.itemsAreExact depth items = true) : Value.itemsHaveFloat items = false := by
  cases items with
  | nil => rfl
  | cons v rest =>
    rw [Value.itemsAreExact, Bool.and_eq_true] at exact
    rw [Value.itemsHaveFloat, Value.hasFloat_of_isExact v exact.1,
      Value.itemsHaveFloat_of_exact rest exact.2, Bool.or_self]

theorem Value.fieldsHaveFloat_of_exact {depth : Nat} (fields : List (String × Value))
    (exact : Value.fieldsAreExact depth fields = true) : Value.fieldsHaveFloat fields = false := by
  cases fields with
  | nil => rfl
  | cons f rest =>
    obtain ⟨k, v⟩ := f
    rw [Value.fieldsAreExact, Bool.and_eq_true] at exact
    rw [Value.fieldsHaveFloat, Value.hasFloat_of_isExact v exact.1,
      Value.fieldsHaveFloat_of_exact rest exact.2, Bool.or_self]

end

/-! ### From a value to its tree and back -/

theorem decode_unit {n : Nat} (scalar : n < 0xd800) (rest : List Piece) :
    decode (.unit n :: rest) = (decode rest).map (Char.ofNat n :: ·) := by
  have high : isHighSurrogate n = false := by
    simp only [isHighSurrogate, Bool.and_eq_false_iff, decide_eq_false_iff_not]
    omega
  have low : isLowSurrogate n = false := by
    simp only [isLowSurrogate, Bool.and_eq_false_iff, decide_eq_false_iff_not]
    omega
  obtain _ | ⟨_ | _, rest⟩ := rest <;> simp [decode, high, low]

theorem decode_written (s : List Char) : decode (s.map Piece.written) = some s := by
  induction s with
  | nil => rfl
  | cons c rest ih =>
    rw [List.map_cons]
    obtain ⟨e, text, -⟩ | ⟨control, text⟩ | ⟨-, -, -, text⟩ := escapeChar_cases c
    · simp [Piece.written, text, decode, ih]
    · have unit : Piece.written c = .unit c.toNat := by simp [Piece.written, text]
      rw [unit, decode_unit (by omega), ih, Char.ofNat_toNat]
      rfl
    · simp [Piece.written, text, decode, ih]

theorem decode_ofString (s : String) :
    (decode (Piece.ofString s)).map String.ofList = some s := by
  rw [Piece.ofString, decode_written, Option.map_some, String.ofList_toList]

theorem Numeral.value?_ofInt {n : Int} {depth : Nat} (exact : (Value.int n).isExact depth = true) :
    (Numeral.ofInt n).value? = some (.int n) := by
  have range : -((UInt64.size / 2 : Nat) : Int) ≤ n ∧ n < (UInt64.size : Nat) := by
    simpa [Value.isExact] using exact
  have written : (Numeral.ofInt n).integer? = some n := by
    simp only [Numeral.integer?, Numeral.ofInt, Numeral.isWhole, Text.valueOf_decimal,
      List.isEmpty_nil, Option.isNone_none, Bool.and_self, Bool.not_true, Bool.false_eq_true,
      if_false, decide_eq_true_eq, Bool.or_eq_true]
    by_cases negative : n < 0
    · rw [if_pos negative, if_neg (by omega)]
      exact congrArg some (by omega)
    · rw [if_neg negative, if_pos (by omega)]
      exact congrArg some (by omega)
  rw [Numeral.value?, written]

theorem insertField_of_last {key : String} {value : Value} {done : List (String × Value)}
    (last : ∀ f ∈ done, compare f.1 key = .lt) :
    insertField key value done = done ++ [(key, value)] := by
  induction done with
  | nil => rfl
  | cons f rest ih =>
    obtain ⟨k, v⟩ := f
    have later : compare key k = .gt := Std.OrientedCmp.gt_of_lt (last (k, v) List.mem_cons_self)
    rw [insertField, later, ih fun f mem => last f (List.mem_cons_of_mem _ mem)]
    rfl

mutual

/-- The tree of an exact value stands for the value. -/
theorem Value.ofTree_ofValue {depth : Nat} (v : Value) (exact : v.isExact depth = true) :
    Value.ofTree depth (Tree.ofValue v) = some v := by
  cases v with
  | null => rfl
  | bool b => rfl
  | int n => exact Numeral.value?_ofInt exact
  | float x => cases exact
  | string s =>
    have text := congrArg (Option.map Value.string) (decode_ofString s)
    rwa [Option.map_map] at text
  | array items =>
    cases depth with
    | zero => cases exact
    | succ d =>
      rw [Tree.ofValue, Value.ofTree, Value.ofItems_ofItems items exact]
      rfl
  | object fields =>
    cases depth with
    | zero => cases exact
    | succ d =>
      rw [Value.isExact, Bool.and_eq_true, decide_eq_true_eq] at exact
      rw [Tree.ofValue, Value.ofTree, Value.ofFields_ofFields fields exact.2 [] exact.1]
      rfl

theorem Value.ofItems_ofItems {depth : Nat} (items : List Value)
    (exact : Value.itemsAreExact depth items = true) :
    Value.ofItems depth (Tree.ofItems items) = some items := by
  cases items with
  | nil => rfl
  | cons v rest =>
    rw [Value.itemsAreExact, Bool.and_eq_true] at exact
    rw [Tree.ofItems, Value.ofItems, Value.ofTree_ofValue v exact.1,
      Value.ofItems_ofItems rest exact.2]
    rfl

/-- Fields that come in the order of their keys are put one behind the other. -/
theorem Value.ofFields_ofFields {depth : Nat} (fields : List (String × Value))
    (exact : Value.fieldsAreExact depth fields = true) (done : List (String × Value))
    (ordered : (done ++ fields).Pairwise fun f g => compare f.1 g.1 = .lt) :
    Value.ofFields depth done (Tree.ofFields fields) = some (done ++ fields) := by
  cases fields with
  | nil => simp [Tree.ofFields, Value.ofFields]
  | cons f rest =>
    obtain ⟨k, v⟩ := f
    rw [Value.fieldsAreExact, Bool.and_eq_true] at exact
    have last : ∀ f ∈ done, compare f.1 k = .lt := fun f mem =>
      (List.pairwise_append.1 ordered).2.2 f mem (k, v) List.mem_cons_self
    have next := Value.ofFields_ofFields rest exact.2 (done ++ [(k, v)]) (by simpa using ordered)
    rw [List.append_assoc, List.singleton_append] at next
    rw [Tree.ofFields, Value.ofFields, Piece.ofString, decode_written]
    simp only [bind, Option.bind_some, Value.ofTree_ofValue v exact.1, String.ofList_toList,
      insertField_of_last last]
    exact next

end

/-! ### What the reader makes of a text -/

theorem mem_insertField {key : String} {value : Value} {done : List (String × Value)}
    {f : String × Value} (mem : f ∈ insertField key value done) : f = (key, value) ∨ f ∈ done := by
  induction done with
  | nil => exact .inl (List.mem_singleton.1 mem)
  | cons g rest ih =>
    obtain ⟨k, v⟩ := g
    unfold insertField at mem
    split at mem
    · exact List.mem_cons.1 mem
    · obtain same | mem := List.mem_cons.1 mem
      · exact .inl same
      · exact .inr (List.mem_cons_of_mem _ mem)
    · obtain same | mem := List.mem_cons.1 mem
      · exact .inr (same ▸ List.mem_cons_self)
      · exact (ih mem).imp_right (List.mem_cons_of_mem _)

/-- Fields stay in the order of their keys. -/
theorem pairwise_insertField (key : String) (value : Value) {done : List (String × Value)}
    (ordered : done.Pairwise fun f g => compare f.1 g.1 = .lt) :
    (insertField key value done).Pairwise fun f g => compare f.1 g.1 = .lt := by
  induction done with
  | nil => exact List.pairwise_singleton _ _
  | cons g rest ih =>
    obtain ⟨k, v⟩ := g
    obtain ⟨first, ordered'⟩ := List.pairwise_cons.1 ordered
    unfold insertField
    split
    · rename_i before
      refine List.pairwise_cons.2 ⟨fun f mem => ?_, ordered⟩
      obtain rfl | mem := List.mem_cons.1 mem
      · exact before
      · exact Std.TransCmp.lt_trans before (first f mem)
    · rename_i same
      rw [Std.LawfulEqOrd.compare_eq_iff_eq] at same
      subst same
      exact List.pairwise_cons.2 ⟨first, ordered'⟩
    · rename_i after
      refine List.pairwise_cons.2 ⟨fun f mem => ?_, ih ordered'⟩
      obtain rfl | mem := mem_insertField mem
      · exact Std.OrientedCmp.lt_of_gt after
      · exact first f mem

theorem Numeral.isExact_of_value? {n : Numeral} {v : Value} {depth : Nat}
    (read : n.value? = some v) (plain : v.hasFloat = false) : v.isExact depth = true := by
  unfold Numeral.value? at read
  split at read
  · rename_i i integer
    cases read
    unfold Numeral.integer? at integer
    simp only [Bool.not_eq_true', Bool.or_eq_true, decide_eq_true_eq] at integer
    simp only [Value.isExact, Bool.and_eq_true, decide_eq_true_eq]
    split at integer
    · cases integer
    · split at integer
      · split at integer
        · cases integer
        · cases integer
          omega
      · split at integer
        · cases integer
          omega
        · cases integer
  · obtain ⟨x, -, rfl⟩ := Option.map_eq_some_iff.1 read
    cases plain

mutual

/-- What the reader makes of a text is exact, but for its floats. -/
theorem Value.isExact_of_ofTree {depth : Nat} (t : Tree) {v : Value}
    (read : Value.ofTree depth t = some v) (plain : v.hasFloat = false) :
    v.isExact depth = true := by
  cases t with
  | null =>
    cases read
    rfl
  | bool b =>
    cases read
    rfl
  | number n => exact Numeral.isExact_of_value? read plain
  | string pieces =>
    obtain ⟨s, -, rfl⟩ := Option.map_eq_some_iff.1 read
    rfl
  | array items =>
    cases depth with
    | zero => cases read
    | succ d =>
      obtain ⟨values, members, rfl⟩ := Option.map_eq_some_iff.1 read
      exact Value.itemsAreExact_of_ofItems items members plain
  | object fields =>
    cases depth with
    | zero => cases read
    | succ d =>
      obtain ⟨values, members, rfl⟩ := Option.map_eq_some_iff.1 read
      obtain ⟨ordered, exact⟩ :=
        Value.fieldsAreExact_of_ofFields fields members List.Pairwise.nil (by simp)
      rw [Value.isExact, Bool.and_eq_true, decide_eq_true_eq, Value.fieldsAreExact_iff]
      rw [Value.hasFloat, Value.fieldsHaveFloat_eq_false_iff] at plain
      exact ⟨ordered, fun f mem => exact f mem (plain f mem)⟩

theorem Value.itemsAreExact_of_ofItems {depth : Nat} (items : List Tree) {values : List Value}
    (read : Value.ofItems depth items = some values)
    (plain : Value.itemsHaveFloat values = false) : Value.itemsAreExact depth values = true := by
  cases items with
  | nil =>
    cases read
    rfl
  | cons t rest =>
    simp only [Value.ofItems, bind, pure, Option.bind_eq_some_iff, Option.some.injEq] at read
    obtain ⟨v, first, values, others, rfl⟩ := read
    rw [Value.itemsHaveFloat, Bool.or_eq_false_iff] at plain
    rw [Value.itemsAreExact, Value.isExact_of_ofTree t first plain.1,
      Value.itemsAreExact_of_ofItems rest others plain.2, Bool.and_self]

/-- A float that is overwritten does not count. -/
theorem Value.fieldsAreExact_of_ofFields {depth : Nat} (fields : List (List Piece × Tree))
    {done values : List (String × Value)} (read : Value.ofFields depth done fields = some values)
    (ordered : done.Pairwise fun f g => compare f.1 g.1 = .lt)
    (exact : ∀ f ∈ done, f.2.hasFloat = false → f.2.isExact depth = true) :
    values.Pairwise (fun f g => compare f.1 g.1 = .lt) ∧
      ∀ f ∈ values, f.2.hasFloat = false → f.2.isExact depth = true := by
  cases fields with
  | nil =>
    cases read
    exact ⟨ordered, exact⟩
  | cons field rest =>
    obtain ⟨key, t⟩ := field
    simp only [Value.ofFields, bind, Option.bind_eq_some_iff] at read
    obtain ⟨key, -, v, value, read⟩ := read
    refine Value.fieldsAreExact_of_ofFields rest read (pairwise_insertField _ _ ordered) ?_
    intro f mem plain
    obtain rfl | mem := mem_insertField mem
    · exact Value.isExact_of_ofTree t value plain
    · exact exact f mem plain

end

end ModelWorkspace.Json
