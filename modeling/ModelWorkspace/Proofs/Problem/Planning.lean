import ModelWorkspace.Proofs.Problem.Surface

/-! The plan of a pass in full. It replaces the diagnostics of each document where something fails, in
the order in which the documents fail first, and clears those that failed before and do no more. So it
leaves nothing to do: planned again for what it leaves behind, it clears nothing. -/
namespace ModelWorkspace

namespace Failure

/-- Whether a failure has a place in the editor: it names its file by an absolute path. -/
def isLocated (f : Failure) : Bool := f.path?.any Path.isAbsolute

theorem isSome_uri? (f : Failure) : f.uri?.isSome = f.isLocated := by
  cases path : f.path? with
  | none => simp [uri?, isLocated, path]
  | some p => by_cases absolute : p.isAbsolute = true <;>
      simp [uri?, isLocated, path, Uri.ofPath?, absolute]

theorem toNat_columnAfter (column length : UInt32) :
    (columnAfter column length).toNat = min (column.toNat + length.toNat) (UInt32.size - 1) := by
  apply UInt32.toNat_ofNat_of_lt'
  simp only [UInt32.size]
  omega

/-- How a failure shows: on its line, from its column to the end of its token or to the last column
there is, as a warning only if that is its category. What is missing counts as zero. -/
structure IsShownBy (f : Failure) (d : Diagnostic) : Prop where
  line : d.span.start.line = f.line?.getD 0
  oneLine : d.span.stop.line = d.span.start.line
  start : d.span.start.column = f.column?.getD 0
  stop : d.span.stop.column.toNat =
    min ((f.column?.getD 0).toNat + (f.length?.getD 0).toNat) (UInt32.size - 1)
  ordered : d.span.start.column ≤ d.span.stop.column
  warning : d.severity = .warning ↔ f.category = "warning"
  message : d.message = f.message

theorem isShownBy_diagnostic (f : Failure) : f.IsShownBy f.diagnostic where
  line := rfl
  oneLine := rfl
  start := rfl
  stop := toNat_columnAfter _ _
  ordered := by
    have last := (f.column?.getD 0).toNat_lt_size
    change f.column?.getD 0 ≤ columnAfter (f.column?.getD 0) (f.length?.getD 0)
    rw [UInt32.le_iff_toNat_le, toNat_columnAfter]
    omega
  warning := by
    change f.severity = .warning ↔ _
    by_cases category : f.category = "warning" <;> simp [severity, warningCategory, category]
  message := rfl

end Failure

namespace Plan

open Failure (diagnosticsOf)

theorem diagnosticsFor_of_mem {ps : List Publication} (different : (ps.map (·.uri)).Nodup)
    {p : Publication} (mem : p ∈ ps) : diagnosticsFor ps p.uri = p.diagnostics := by
  induction ps with
  | nil => cases mem
  | cons q rest ih =>
    obtain ⟨fresh, different⟩ := List.nodup_cons.1 different
    obtain rfl | mem := List.mem_cons.1 mem
    · simp [diagnosticsFor]
    · have other : q.uri ≠ p.uri := by
        intro same
        exact fresh (List.mem_map.2 ⟨p, mem, same.symm⟩)
      rw [← ih different mem]
      simp [diagnosticsFor, other]

/-- The documents of a plan are those of the failures, each where it is met first. -/
theorem documents_eq (failures : List Failure) :
    documents failures = (failures.filterMap Failure.uri?).eraseDups := by
  induction failures using List.reverseRecOn with
  | nil => rfl
  | append_singleton failures f ih =>
    rw [documents] at ih ⊢
    rw [byDocument_concat, addFailure, List.filterMap_append]
    generalize failures.filterMap Failure.uri? = places at ih ⊢
    cases place : f.uri? with
    | none => simpa [place] using ih
    | some uri =>
      simp only [map_uri_addDiagnostic, ih, List.filterMap_cons, place, List.filterMap_nil]
      rw [List.eraseDups_append]
      by_cases known : uri ∈ places <;> simp [List.removeAll, known, List.eraseDups_cons]

/-- Failures without a place leave no trace. -/
theorem byDocument_filter (failures : List Failure) :
    byDocument (failures.filter Failure.isLocated) = byDocument failures := by
  induction failures using List.reverseRecOn with
  | nil => rfl
  | append_singleton failures f ih =>
    rw [List.filter_append, byDocument_concat, ← ih]
    cases located : f.isLocated with
    | true => simp [located, byDocument_concat]
    | false =>
      have nowhere : f.uri? = none := by simpa [located] using f.isSome_uri?
      simp [located, addFailure, nowhere]

/-- A plan does what the failures of a pass call for, after one in which the previous documents
failed: each failing document is replaced, and each one that fails no more is cleared. -/
structure IsExact (failures : List Failure) (previous : List Uri) (p : Plan) : Prop where
  /-- The failing documents, in the order of their first failures. -/
  replaced : p.publish.map (·.uri) = (failures.filterMap Failure.uri?).eraseDups
  different : (p.publish.map (·.uri)).Nodup
  /-- All the failures in a document, in their order. -/
  diagnostics : ∀ q ∈ p.publish, q.diagnostics = diagnosticsOf failures q.uri
  nonempty : ∀ q ∈ p.publish, q.diagnostics ≠ []
  /-- In the order in which they failed before, each once. -/
  cleared : p.clear.Sublist previous ∧ p.clear.Nodup
  mem_clear : ∀ u, u ∈ p.clear ↔ u ∈ previous ∧ u ∉ failures.filterMap Failure.uri?
  apart : List.Disjoint (p.publish.map (·.uri)) p.clear
  kept : p.snapshot = p.publish.map (·.uri)
  operations : p.operations = p.publish ++ p.clear.map fun uri => ⟨uri, []⟩

theorem isExact_of {previous : List Uri} (once : previous.Nodup) (failures : List Failure) :
    (of failures previous).IsExact failures previous := by
  have mem_clear (u : Uri) : u ∈ (of failures previous).clear ↔
      u ∈ previous ∧ u ∉ failures.filterMap Failure.uri? := by
    rw [mem_clear_of, documents_eq, List.mem_eraseDups]
  have diagnostics : ∀ q ∈ byDocument failures, q.diagnostics = diagnosticsOf failures q.uri := by
    intro q mem
    rw [← diagnosticsFor_of_mem (nodup_byDocument failures) mem, diagnosticsFor_byDocument]
  exact {
    replaced := documents_eq failures
    different := nodup_byDocument failures
    diagnostics
    nonempty := by
      intro q mem
      rw [diagnostics q mem, ← mem_documents]
      exact List.mem_map_of_mem mem
    cleared := ⟨List.filter_sublist, once.filter _⟩
    mem_clear
    apart := by
      intro u fails cleared
      rw [mem_clear_of] at cleared
      exact cleared.2 fails
    kept := rfl
    operations := rfl }

/-- The plan of a pass is exact. Failures without an absolute path have no part in it, and each other
one is shown on one line. Planned again after itself it clears nothing and publishes the same. -/
theorem exact_and_stable {previous : List Uri} (once : previous.Nodup) (failures : List Failure) :
    (of failures previous).IsExact failures previous ∧
      (∀ f : Failure, f.uri?.isSome = f.isLocated) ∧
      of (failures.filter Failure.isLocated) previous = of failures previous ∧
      (∀ f : Failure, f.IsShownBy f.diagnostic) ∧
      (of failures (of failures previous).snapshot).clear = [] ∧
      (of failures (of failures previous).snapshot).publish = (of failures previous).publish := by
  refine ⟨isExact_of once failures, Failure.isSome_uri?, ?_, Failure.isShownBy_diagnostic, ?_, rfl⟩
  · simp only [of, byDocument_filter]
  · rw [List.eq_nil_iff_forall_not_mem]
    intro u cleared
    rw [mem_clear_of, snapshot_of] at cleared
    exact cleared.2 cleared.1

/-- Failures in two files, one of them under two spellings, and one failure without a place. -/
def respelled : List Failure :=
  [ (Failure.new "error" "first").locate ⟨"/p/b"⟩ 3 0,
    (Failure.new "error" "loose").locate ⟨"p/b"⟩ 0 0,
    (Failure.new "info" "other").locate ⟨"/p/c d"⟩ 1 0,
    ((Failure.new "warning" "last").locate ⟨"/p//./b/"⟩ 1 4294967290).withLength 7 ]

/-- Both spellings are one document, and the other document that failed before is cleared. -/
theorem exact_and_stable_respelled :
    [Uri.mk "file:///p/a", ⟨"file:///p/b"⟩].Nodup ∧
      (of respelled [⟨"file:///p/a"⟩, ⟨"file:///p/b"⟩]).IsExact respelled
        [⟨"file:///p/a"⟩, ⟨"file:///p/b"⟩] ∧
      (of respelled [⟨"file:///p/a"⟩, ⟨"file:///p/b"⟩]).clear = [⟨"file:///p/a"⟩] ∧
      (of respelled [⟨"file:///p/a"⟩, ⟨"file:///p/b"⟩]).publish.map
        (fun p => (p.uri.text, p.diagnostics.length)) =
          [("file:///p/b", 2), ("file:///p/c%20d", 1)] := by
  have once : [Uri.mk "file:///p/a", ⟨"file:///p/b"⟩].Nodup := by decide
  exact ⟨once, (exact_and_stable once respelled).1, by decide +kernel, by decide +kernel⟩

end Plan

end ModelWorkspace
