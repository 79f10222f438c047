import ModelWorkspace.Catalogue

/-! The precedence of versions. It is a total preorder. Two versions have the same precedence exactly
if they differ in their builds at most, so nothing that looks at precedence only can tell them apart. -/
namespace ModelWorkspace

theorem Identifier.order_self (i : Identifier) : i.order i = .eq := by
  cases i with
  | numeric n => exact Std.compare_self
  | word w => exact Std.compare_self

theorem Identifier.eq_of_order {i j : Identifier} (same : i.order j = .eq) : i = j := by
  cases i with
  | numeric m =>
    cases j with
    | numeric n => rw [Std.compare_eq_iff_eq.1 same]
    | word w => cases same
  | word v =>
    cases j with
    | numeric n => cases same
    | word w =>
      obtain ⟨chars, valid⟩ := v
      obtain ⟨chars', valid'⟩ := w
      obtain rfl : chars = chars' := Std.compare_eq_iff_eq.1 same
      rfl

instance : Std.LawfulEqCmp Identifier.order where
  compare_self := Identifier.order_self _
  eq_of_compare := Identifier.eq_of_order

instance : Std.OrientedCmp Identifier.order where
  eq_swap {i j} := by
    cases i <;> cases j
    · exact Std.OrientedOrd.eq_swap
    · rfl
    · rfl
    · exact Std.OrientedOrd.eq_swap

instance : Std.TransCmp Identifier.order where
  isLE_trans {i j k} first second := by
    cases i with
    | numeric l =>
      cases k with
      | word w => rfl
      | numeric n =>
        cases j with
        | numeric m => exact Std.TransOrd.isLE_trans first second
        | word v => cases second
    | word u =>
      cases j with
      | numeric m => cases first
      | word v =>
        cases k with
        | numeric n => cases second
        | word w => exact Std.TransOrd.isLE_trans first second

namespace Version

/-- A release comes after its pre-releases, so first it matters whether there are identifiers. -/
theorem preOrder_eq : preOrder =
    compareLex (compareOn List.isEmpty) (List.compareLex Identifier.order) := by
  funext p q
  cases p <;> cases q <;> rfl

instance : Std.TransCmp preOrder := by
  rw [preOrder_eq]
  infer_instance

instance : Std.TransCmp fun a b : Version => preOrder a.pre b.pre where
  eq_swap {_ _} := @Std.OrientedCmp.eq_swap _ preOrder _ _ _
  isLE_trans {_ _ _} := @Std.TransCmp.isLE_trans _ preOrder _ _ _ _

theorem precedence_eq : precedence =
    compareLex (compareOn major) (compareLex (compareOn minor)
      (compareLex (compareOn patch) fun a b => preOrder a.pre b.pre)) := rfl

/-- Precedence is a total preorder. -/
instance : Std.TransCmp precedence := by
  rw [precedence_eq]
  infer_instance

theorem preOrder_eq_iff {p q : List Identifier} : preOrder p q = .eq ↔ p = q := by
  cases p with
  | nil => cases q <;> simp [preOrder]
  | cons i p =>
    cases q with
    | nil => simp [preOrder]
    | cons j q =>
      change List.compareLex Identifier.order (i :: p) (j :: q) = .eq ↔ i :: p = j :: q
      exact Std.LawfulEqCmp.compare_eq_iff_eq

/-- Versions of the same precedence differ in their builds at most. -/
theorem sameAs_iff {a b : Version} :
    a.sameAs b = true ↔
      a.major = b.major ∧ a.minor = b.minor ∧ a.patch = b.patch ∧ a.pre = b.pre := by
  rw [sameAs, beq_iff_eq, precedence, Ordering.then_eq_eq, Ordering.then_eq_eq, Ordering.then_eq_eq,
    Std.compare_eq_iff_eq, Std.compare_eq_iff_eq, Std.compare_eq_iff_eq, preOrder_eq_iff]

theorem sameAs_self (v : Version) : v.sameAs v = true := sameAs_iff.2 ⟨rfl, rfl, rfl, rfl⟩

theorem sameAs_symm {a b : Version} (same : a.sameAs b = true) : b.sameAs a = true := by
  obtain ⟨major, minor, patch, pre⟩ := sameAs_iff.1 same
  exact sameAs_iff.2 ⟨major.symm, minor.symm, patch.symm, pre.symm⟩

theorem precedence_congr {a b : Version} (same : a.sameAs b = true) (v : Version) :
    a.precedence v = b.precedence v ∧ v.precedence a = v.precedence b := by
  obtain ⟨major, minor, patch, pre⟩ := sameAs_iff.1 same
  simp only [precedence, major, minor, patch, pre, and_self]

theorem sameAs_congr {a b : Version} (same : a.sameAs b = true) (v : Version) :
    v.sameAs a = v.sameAs b := by
  rw [sameAs, (precedence_congr same v).2, sameAs]

theorem atLeast_iff {a b : Version} : a.atLeast b = true ↔ (b.precedence a).isLE = true := by
  have swap : a.precedence b = (b.precedence a).swap := Std.OrientedCmp.eq_swap
  rw [atLeast, swap]
  cases b.precedence a <;> decide

theorem atLeast_self (v : Version) : v.atLeast v = true := by
  rw [atLeast_iff, beq_iff_eq.1 (sameAs_self v)]
  rfl

theorem atLeast_trans {a b c : Version} (first : a.atLeast b = true) (second : b.atLeast c = true) :
    a.atLeast c = true := by
  rw [atLeast_iff] at *
  exact Std.TransCmp.isLE_trans second first

end Version

theorem Range.accepts_congr (r : Range) {v w : Version} (same : v.sameAs w = true) :
    r.accepts v = r.accepts w := by
  obtain ⟨major, minor, -⟩ := Version.sameAs_iff.1 same
  cases r with
  | exact base =>
    simp only [accepts, Version.atLeast, Version.sameAs, (Version.precedence_congr same base).1,
      major, minor]
  | atLeast base => simp only [accepts, Version.atLeast, (Version.precedence_congr same base).1]

end ModelWorkspace
