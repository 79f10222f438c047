import Mathlib.Data.List.Induction
import ModelWorkspace.Problem.Reconciler

/-! The problem surface of the editor. A publication replaces the diagnostics of one document; after
the publications of a plan the surface shows the failures that the plan is for, and nothing of those
before. -/
namespace ModelWorkspace

namespace Uri

def isFile (u : Uri) : Bool := "file://".toList.isPrefixOf u.text.toList

theorem isFile_of_ofPath? {p : Path} {u : Uri} (address : ofPath? p = some u) : u.isFile = true := by
  unfold ofPath? at address
  split at address
  · cases address
    simp [isFile]
  · cases address

end Uri

/-- What the editor shows for each document. -/
abbrev Surface := Uri → List Diagnostic

namespace Surface

def empty : Surface := fun _ => []

def publish (s : Surface) (p : Publication) : Surface :=
  fun u => if u = p.uri then p.diagnostics else s u

def publishAll (s : Surface) (ps : List Publication) : Surface := ps.foldl publish s

theorem publishAll_append (s : Surface) (ps qs : List Publication) :
    s.publishAll (ps ++ qs) = (s.publishAll ps).publishAll qs := List.foldl_append

/-- What is shown for a document depends on the publications of documents of its kind alone. -/
theorem publishAll_filter (kind : Uri → Bool) {u : Uri} (own : kind u = true) (s : Surface)
    (ps : List Publication) : s.publishAll (ps.filter fun p => kind p.uri) u = s.publishAll ps u := by
  induction ps using List.reverseRecOn with
  | nil => rfl
  | append_singleton ps p ih =>
    rw [List.filter_append, publishAll_append, publishAll_append]
    by_cases same : u = p.uri
    · have mine : kind p.uri = true := same ▸ own
      simp [publishAll, publish, mine, same]
    · cases mine : kind p.uri <;> simpa [publishAll, publish, mine, same] using ih

end Surface

/-- The diagnostics of the failures in a document, in their order. -/
def Failure.diagnosticsOf (failures : List Failure) (u : Uri) : List Diagnostic :=
  (failures.filter fun f => f.uri? == some u).map Failure.diagnostic

theorem Failure.diagnosticsOf_concat (failures : List Failure) (f : Failure) (u : Uri) :
    diagnosticsOf (failures ++ [f]) u =
      if f.uri? = some u then diagnosticsOf failures u ++ [f.diagnostic]
      else diagnosticsOf failures u := by
  rw [diagnosticsOf, List.filter_append, List.map_append]
  by_cases here : f.uri? = some u <;> simp [here, diagnosticsOf]

namespace Plan

open Failure (diagnosticsOf)

def diagnosticsFor (ps : List Publication) (u : Uri) : List Diagnostic :=
  ((ps.find? fun p => p.uri == u).map (·.diagnostics)).getD []

theorem diagnosticsFor_addDiagnostic (done : List Publication) (uri : Uri) (d : Diagnostic)
    (u : Uri) :
    diagnosticsFor (addDiagnostic done uri d) u =
      if u = uri then diagnosticsFor done u ++ [d] else diagnosticsFor done u := by
  induction done with
  | nil =>
    by_cases same : u = uri
    · simp [addDiagnostic, diagnosticsFor, same]
    · simp [addDiagnostic, diagnosticsFor, same, Ne.symm same]
  | cons p rest ih =>
    unfold diagnosticsFor at ih ⊢
    by_cases here : p.uri = uri
    · by_cases same : u = uri
      · simp [addDiagnostic, here, same]
      · simp [addDiagnostic, here, same, Ne.symm same]
    · by_cases found : p.uri = u
      · have other : u ≠ uri := found ▸ here
        simp [addDiagnostic, found, other]
      · simpa [addDiagnostic, here, found] using ih

theorem byDocument_concat (failures : List Failure) (f : Failure) :
    byDocument (failures ++ [f]) = addFailure (byDocument failures) f := by
  simp [byDocument]

theorem diagnosticsFor_byDocument (failures : List Failure) (u : Uri) :
    diagnosticsFor (byDocument failures) u = diagnosticsOf failures u := by
  induction failures using List.reverseRecOn with
  | nil => rfl
  | append_singleton failures f ih =>
    rw [byDocument_concat, addFailure, Failure.diagnosticsOf_concat]
    cases place : f.uri? with
    | none => simpa using ih
    | some uri =>
      simp only [diagnosticsFor_addDiagnostic, Option.some.injEq, ih, eq_comm]

theorem mem_byDocument (failures : List Failure) (u : Uri) :
    u ∈ (byDocument failures).map (·.uri) ↔ ∃ f ∈ failures, f.uri? = some u := by
  induction failures using List.reverseRecOn with
  | nil => simp [byDocument]
  | append_singleton failures f ih =>
    rw [byDocument_concat, addFailure]
    cases place : f.uri? with
    | none => simp [ih, or_and_right, exists_or, place]
    | some uri =>
      simp only [map_uri_addDiagnostic]
      split
      · rename_i known
        rw [ih]
        simp only [List.mem_append, List.mem_singleton, or_and_right, exists_or, exists_eq_left,
          place, Option.some.injEq]
        refine (or_iff_left_of_imp ?_).symm
        rintro rfl
        exact ih.1 known
      · simp [ih, or_and_right, exists_or, place, eq_comm]

theorem nodup_byDocument (failures : List Failure) :
    ((byDocument failures).map (·.uri)).Nodup := by
  induction failures using List.reverseRecOn with
  | nil => simp [byDocument]
  | append_singleton failures f ih =>
    rw [byDocument_concat, addFailure]
    cases f.uri? with
    | none => exact ih
    | some uri =>
      simp only [map_uri_addDiagnostic]
      split
      · exact ih
      · rename_i fresh
        refine List.nodup_append.2 ⟨ih, List.pairwise_singleton _ _, fun u mem v same => ?_⟩
        rintro rfl
        obtain rfl := List.mem_singleton.1 same
        exact fresh mem

/-- The documents where failures are located, in the order of their first failures. -/
def documents (failures : List Failure) : List Uri := (byDocument failures).map (·.uri)

@[simp] theorem publish_of (failures : List Failure) (previous : List Uri) :
    (of failures previous).publish = byDocument failures := rfl

theorem mem_clear_of (failures : List Failure) (previous : List Uri) (u : Uri) :
    u ∈ (of failures previous).clear ↔ u ∈ previous ∧ u ∉ documents failures := by
  simp [of, documents]

@[simp] theorem snapshot_of (failures : List Failure) (previous : List Uri) :
    (of failures previous).snapshot = documents failures := rfl

theorem mem_documents (failures : List Failure) (u : Uri) :
    u ∈ documents failures ↔ diagnosticsOf failures u ≠ [] := by
  rw [documents, mem_byDocument, diagnosticsOf, ne_eq, List.map_eq_nil_iff, List.filter_eq_nil_iff]
  simp

theorem isFile_of_mem_documents {failures : List Failure} {u : Uri} (mem : u ∈ documents failures) :
    u.isFile = true := by
  obtain ⟨f, -, place⟩ := (mem_byDocument failures u).1 mem
  obtain ⟨p, -, address⟩ := Option.bind_eq_some_iff.1 place
  exact Uri.isFile_of_ofPath? address

theorem isFile_of_mem_operations {failures before : List Failure} {p : Publication}
    (mem : p ∈ (of failures (documents before)).operations) : p.uri.isFile = true := by
  obtain mem | mem := List.mem_append.1 mem
  · exact isFile_of_mem_documents (List.mem_map_of_mem mem)
  · obtain ⟨u, cleared, rfl⟩ := List.mem_map.1 mem
    exact isFile_of_mem_documents ((mem_clear_of ..).1 cleared).1

theorem publishAll_of_nodup {ps : List Publication} (different : (ps.map (·.uri)).Nodup)
    (s : Surface) (u : Uri) :
    s.publishAll ps u = if u ∈ ps.map (·.uri) then diagnosticsFor ps u else s u := by
  induction ps generalizing s with
  | nil => rfl
  | cons p rest ih =>
    obtain ⟨fresh, different⟩ := List.nodup_cons.1 different
    change (s.publish p).publishAll rest u = _
    rw [ih different]
    by_cases same : u = p.uri
    · subst same
      simp [fresh, Surface.publish, diagnosticsFor]
    · simp [same, Surface.publish, diagnosticsFor, Ne.symm same]

theorem publishAll_clear (uris : List Uri) (s : Surface) (u : Uri) :
    s.publishAll (uris.map fun uri => ⟨uri, []⟩) u = if u ∈ uris then [] else s u := by
  induction uris generalizing s with
  | nil => rfl
  | cons uri rest ih =>
    change (s.publish ⟨uri, []⟩).publishAll _ u = _
    rw [ih]
    by_cases same : u = uri <;> simp [same, Surface.publish]

end Plan

namespace Surface

open Failure (diagnosticsOf)

/-- In files nothing but the failures is shown. -/
def Shows (s : Surface) (failures : List Failure) : Prop :=
  ∀ u, u.isFile = true → s u = diagnosticsOf failures u

theorem shows_empty : Surface.empty.Shows [] := fun _ _ => rfl

theorem shows_iff_of_filter {s : Surface} {ps : List Publication} {failures : List Failure} :
    (s.publishAll (ps.filter (·.uri.isFile))).Shows failures ↔
      (s.publishAll ps).Shows failures := by
  refine forall₂_congr fun u file => ?_
  rw [publishAll_filter Uri.isFile file]

/-- After a pass its failures are shown in the place of those before. -/
theorem Shows.pass {s : Surface} {before : List Failure} (shows : s.Shows before)
    (failures : List Failure) :
    (s.publishAll (Plan.of failures (Plan.documents before)).operations).Shows failures := by
  intro u file
  rw [Plan.operations, publishAll_append, Plan.publishAll_clear, Plan.publish_of,
    Plan.publishAll_of_nodup (Plan.nodup_byDocument failures), ← Plan.documents,
    Plan.diagnosticsFor_byDocument, shows u file]
  simp only [Plan.mem_clear_of]
  by_cases fails : u ∈ Plan.documents failures
  · rw [if_neg fun cleared => cleared.2 fails, if_pos fails]
  · -- Without a failure there is nothing to show: it was cleared, or had nothing before.
    have now : diagnosticsOf failures u = [] := by
      rw [Plan.mem_documents, ne_eq, not_not] at fails
      exact fails
    rw [if_neg fails, now]
    split
    · rfl
    · rename_i kept
      have unknown : u ∉ Plan.documents before := fun known => kept ⟨known, fails⟩
      rw [Plan.mem_documents, ne_eq, not_not] at unknown
      exact unknown

end Surface

/-! ### Passes in a row -/

namespace Plan

/-- The plans of passes one after the other, each made for what the one before it leaves behind. -/
def inTurn (before : List Failure) : List (List Failure) → List Plan
  | [] => []
  | failures :: rest => of failures (documents before) :: inTurn failures rest

def publications (before : List Failure) (passes : List (List Failure)) : List Publication :=
  (inTurn before passes).flatMap operations

@[simp] theorem publications_nil (before : List Failure) : publications before [] = [] := rfl

theorem publications_cons (before failures : List Failure) (rest : List (List Failure)) :
    publications before (failures :: rest) =
      (of failures (documents before)).operations ++ publications failures rest := rfl

theorem publications_concat (before : List Failure) (passes : List (List Failure))
    (failures : List Failure) :
    publications before (passes ++ [failures]) = publications before passes ++
      (of failures (documents (passes.getLastD before))).operations := by
  induction passes generalizing before with
  | nil => simp [publications_cons]
  | cons first rest ih =>
    rw [List.cons_append, publications_cons, publications_cons, ih, List.append_assoc]
    cases rest <;> rfl

end Plan

/-- After passes one after the other the failures of the last one are shown. -/
theorem Surface.Shows.passes {s : Surface} {before : List Failure} (shows : s.Shows before)
    (passes : List (List Failure)) :
    (s.publishAll (Plan.publications before passes)).Shows (passes.getLastD before) := by
  induction passes generalizing s before with
  | nil => exact shows
  | cons failures rest ih =>
    rw [Plan.publications_cons, publishAll_append]
    have done := ih (shows.pass failures)
    cases rest <;> exact done

end ModelWorkspace
