import ModelWorkspace.Proofs.Version.Precedence

/-! What ranges are as sets of versions. A range has no gaps in the order of precedence, has its base,
and goes on as far as its line does, unless it stands for a single pre-release; so whatever a platform
accepts it accepts with all later patches. -/
namespace ModelWorkspace

namespace Version

/-- The second version is a release of the same line, with the same patch or a later one. -/
structure IsContinuedBy (v w : Version) : Prop where
  major : w.major = v.major
  minor : w.minor = v.minor
  patch : v.patch ≤ w.patch
  release : w.pre = []

section Components

variable {a b c : Version}

theorem major_le_of_isLE (order : (a.precedence b).isLE = true) : a.major ≤ b.major := by
  rw [precedence, Ordering.isLE_then_iff_and] at order
  exact Std.isLE_compare.1 order.1

theorem minor_le_of_isLE (order : (a.precedence b).isLE = true) (major : a.major = b.major) :
    a.minor ≤ b.minor := by
  rw [precedence, major, Std.compare_self, Ordering.eq_then, Ordering.isLE_then_iff_and] at order
  exact Std.isLE_compare.1 order.1

/-- What lies between two versions of one line is in that line. -/
theorem line_of_between (first : (a.precedence b).isLE = true) (second : (b.precedence c).isLE = true)
    (major : a.major = c.major) (minor : a.minor = c.minor) :
    b.major = c.major ∧ b.minor = c.minor := by
  have same : a.major = b.major := by
    have low := major_le_of_isLE first
    have high := major_le_of_isLE second
    rw [← major] at high
    exact Std.le_antisymm low high
  have low := minor_le_of_isLE first same
  have high := minor_le_of_isLE second (same.symm.trans major)
  rw [← minor] at high
  exact ⟨same.symm.trans major, (Std.le_antisymm high low).trans minor⟩

theorem isLE_preOrder_nil (p : List Identifier) : (preOrder p []).isLE = true := by
  cases p <;> rfl

theorem IsContinuedBy.isLE (continued : a.IsContinuedBy b) : (a.precedence b).isLE = true := by
  obtain ⟨major, minor, patch, release⟩ := continued
  rw [precedence, major, minor, release, Std.compare_self, Ordering.eq_then, Std.compare_self,
    Ordering.eq_then, Ordering.isLE_then_iff_and]
  exact ⟨Std.isLE_compare.2 patch, .inr (isLE_preOrder_nil a.pre)⟩

end Components

end Version

namespace Range

open Version (IsContinuedBy)

/-- The same range, with another build behind its base. -/
def withBuild : Range → List BuildIdentifier → Range
  | exact base, build => exact { base with build }
  | atLeast base, build => atLeast { base with build }

def isPreRelease : Range → Bool
  | exact base => !base.pre.isEmpty
  | atLeast _ => false

/-- What holds of the versions that are accepted by a range. -/
structure Governs (r : Range) (accepted : Version → Prop) : Prop where
  build : ∀ v build, accepted { v with build } ↔ accepted v
  baseBuild : ∀ v build, v ∈ r.withBuild build ↔ accepted v
  convex : ∀ a b c, accepted a → accepted c → (a.precedence b).isLE = true →
    (b.precedence c).isLE = true → accepted b
  upward : ∀ base, r = atLeast base → ∀ v w, accepted v → (v.precedence w).isLE = true → accepted w
  base : accepted r.base
  continues : r.isPreRelease = false → ∀ v w, accepted v → v.IsContinuedBy w → accepted w
  alone : r.isPreRelease = true → ∀ v, accepted v ↔ v.precedence r.base = .eq

section Members

variable {base v w : Version}

theorem mem_atLeast_iff : v ∈ atLeast base ↔ (base.precedence v).isLE = true := Version.atLeast_iff

theorem mem_exact_iff_of_pre (pre : base.pre ≠ []) :
    v ∈ exact base ↔ v.precedence base = .eq := by
  rw [mem_iff, accepts, if_neg (by simpa using pre), Version.sameAs, beq_iff_eq]

theorem mem_exact_iff_of_release (release : base.pre = []) :
    v ∈ exact base ↔
      v.major = base.major ∧ v.minor = base.minor ∧ (base.precedence v).isLE = true := by
  rw [mem_iff, accepts, release, List.isEmpty_nil, if_pos rfl, Bool.and_eq_true, Bool.and_eq_true,
    beq_iff_eq, beq_iff_eq, Version.atLeast_iff, and_assoc]

end Members

section Laws

variable (r : Range)

theorem isPreRelease_exact (base : Version) : (exact base).isPreRelease = true ↔ base.pre ≠ [] := by
  simp [isPreRelease]

theorem mem_withBuild (v : Version) (build : List BuildIdentifier) :
    v ∈ r.withBuild build ↔ v ∈ r := by
  cases r with
  | exact base => exact Iff.rfl
  | atLeast base => exact Iff.rfl

theorem mem_base : r.base ∈ r := by
  have self (v : Version) : (v.precedence v).isLE = true := Std.ReflCmp.isLE_rfl
  cases r with
  | atLeast base => exact mem_atLeast_iff.2 (self base)
  | exact base =>
    by_cases pre : base.pre = []
    · exact (mem_exact_iff_of_release pre).2 ⟨rfl, rfl, self base⟩
    · exact (mem_exact_iff_of_pre pre).2 Std.ReflCmp.compare_self

variable {r}

theorem mem_of_between {a b c : Version} (low : a ∈ r) (high : c ∈ r)
    (first : (a.precedence b).isLE = true) (second : (b.precedence c).isLE = true) : b ∈ r := by
  cases r with
  | atLeast base =>
    exact mem_atLeast_iff.2 (Std.TransCmp.isLE_trans (mem_atLeast_iff.1 low) first)
  | exact base =>
    by_cases pre : base.pre = []
    · obtain ⟨major, minor, above⟩ := (mem_exact_iff_of_release pre).1 low
      obtain ⟨major', minor', -⟩ := (mem_exact_iff_of_release pre).1 high
      obtain ⟨inMajor, inMinor⟩ := Version.line_of_between first second
        (major.trans major'.symm) (minor.trans minor'.symm)
      exact (mem_exact_iff_of_release pre).2 ⟨inMajor.trans major', inMinor.trans minor',
        Std.TransCmp.isLE_trans above first⟩
    · -- Both ends have the precedence of the base, and so has what lies between them.
      rw [mem_exact_iff_of_pre pre] at low high ⊢
      have below : (b.precedence base).isLE = true := by
        rw [← Std.TransCmp.congr_right high]
        exact second
      have above : (base.precedence b).isLE = true := by
        rw [← Std.TransCmp.congr_left low]
        exact first
      exact Std.OrientedCmp.isLE_antisymm below above

/-- A range that is more than one pre-release goes on with the line of each of its members. -/
theorem mem_of_isContinuedBy {v w : Version} (more : r.isPreRelease = false) (mem : v ∈ r)
    (continued : v.IsContinuedBy w) : w ∈ r := by
  cases r with
  | atLeast base =>
    exact mem_atLeast_iff.2 (Std.TransCmp.isLE_trans (mem_atLeast_iff.1 mem) continued.isLE)
  | exact base =>
    have release : base.pre = [] := by simpa [isPreRelease] using more
    obtain ⟨major, minor, above⟩ := (mem_exact_iff_of_release release).1 mem
    exact (mem_exact_iff_of_release release).2 ⟨continued.major.trans major,
      continued.minor.trans minor, Std.TransCmp.isLE_trans above continued.isLE⟩

theorem mem_iff_of_isPreRelease (single : r.isPreRelease = true) (v : Version) :
    v ∈ r ↔ v.precedence r.base = .eq := by
  cases r with
  | atLeast base => cases single
  | exact base => exact mem_exact_iff_of_pre ((isPreRelease_exact base).1 single)

end Laws

theorem governs_mem (r : Range) : r.Governs (· ∈ r) where
  build v build := by
    have same : ({ v with build } : Version).sameAs v = true :=
      Version.sameAs_iff.2 ⟨rfl, rfl, rfl, rfl⟩
    rw [mem_iff, mem_iff, r.accepts_congr same]
  baseBuild := r.mem_withBuild
  convex _ _ _ := mem_of_between
  upward := by
    rintro base rfl v w mem later
    exact mem_atLeast_iff.2 (Std.TransCmp.isLE_trans (mem_atLeast_iff.1 mem) later)
  base := r.mem_base
  continues more _ _ := mem_of_isContinuedBy more
  alone := mem_iff_of_isPreRelease

end Range

/-- Each range governs its members, and what a platform version accepts is governed by its range. -/
theorem Catalogue.ranges_govern :
    (∀ r : Range, r.Governs (· ∈ r)) ∧
      ∀ platform, (rangeFor platform).Governs fun model => isCompatible model platform = true :=
  ⟨Range.governs_mem, fun platform => (rangeFor platform).governs_mem⟩

/-- A pre-release of a later patch is accepted, and so is that patch; the pre-releases of the base are
not, nor is anything of the next line. -/
theorem Catalogue.ranges_govern_patches :
    let next := Catalogue.letter 4 0 1 ⟨['a'], by decide⟩
    isCompatible next (release 6 1 0) = true ∧ isCompatible (release 4 0 1) (release 6 1 0) = true ∧
      isCompatible (letter 4 0 0 ⟨['a'], by decide⟩) (release 6 1 0) = false ∧
      isCompatible (letter 4 1 0 ⟨['a'], by decide⟩) (release 6 1 0) = false := by
  have range : rangeFor (release 6 1 0) = .exact (release 4 0 0) := by decide
  have more : (rangeFor (release 6 1 0)).isPreRelease = false := by
    rw [range]
    rfl
  have accepted : isCompatible (letter 4 0 1 ⟨['a'], by decide⟩) (release 6 1 0) = true := by
    decide
  refine ⟨accepted, ?_, by decide, by decide⟩
  exact (ranges_govern.2 (release 6 1 0)).continues more _ (release 4 0 1) accepted
    ⟨rfl, rfl, by decide, rfl⟩

end ModelWorkspace
