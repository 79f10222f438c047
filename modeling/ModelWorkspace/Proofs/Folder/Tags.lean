import ModelWorkspace.Folder
import Mathlib.Data.List.Induction

/-! The model tag over a run of requests. A request that inserts tagged folders decides all the tags of
the list after it; one that inserts none can only take tags away. So a run keeps to one tag as long
as no accepted request brings two. -/
namespace ModelWorkspace.FolderList

/-- A request to replace `count` folders from `start` on. -/
structure Request where
  start : Nat
  count : Nat
  insert : List Folder

/-- The list with which a request is accepted. -/
def answer? (l : FolderList) (r : Request) : Option FolderList := l.update r.start r.count r.insert

/-- The list after some requests. One that is refused has no part in it. -/
def after (l : FolderList) (requests : List Request) : FolderList :=
  requests.foldl (fun m r => (m.answer? r).getD m) l

def tagged (folders : List Folder) : List Folder := folders.filter (·.isModel)

@[simp] theorem after_nil (l : FolderList) : l.after [] = l := rfl

@[simp] theorem after_concat (l : FolderList) (before : List Request) (r : Request) :
    l.after (before ++ [r]) = ((l.after before).answer? r).getD (l.after before) := by
  simp [after]

@[simp] theorem tagged_append (xs ys : List Folder) : tagged (xs ++ ys) = tagged xs ++ tagged ys := by
  simp [tagged]

@[simp] theorem tagged_map_untag (folders : List Folder) : tagged (folders.map Folder.untag) = [] := by
  simp [tagged, Folder.untag]

theorem any_isModel_iff (folders : List Folder) :
    folders.any (·.isModel) = true ↔ tagged folders ≠ [] := by
  simp [tagged]

/-- What stays of the list loses its tags to those that come in. -/
theorem tagged_splice (folders insert : List Folder) (start count : Nat) (tag : tagged insert ≠ []) :
    tagged (splice folders start count insert) = tagged insert := by
  have takes : insert.any (·.isModel) = true := (any_isModel_iff insert).mpr tag
  simp only [splice, takes, if_true, tagged_append]
  rw [tagged_map_untag, tagged_map_untag, List.nil_append, List.append_nil]

/-- Without a tag among those that come in, the tags are some of those there were. -/
theorem tagged_splice_sublist (folders insert : List Folder) (start count : Nat)
    (plain : tagged insert = []) :
    (tagged (splice folders start count insert)).Sublist (tagged folders) := by
  have keeps : insert.any (·.isModel) = false := by
    rw [Bool.eq_false_iff, ne_eq, any_isModel_iff]
    exact fun tag => tag plain
  have rest : (folders.take start ++ folders.drop (start + count)).Sublist folders := by
    conv_rhs => rw [← List.take_append_drop start folders]
    apply List.Sublist.append (List.Sublist.refl _)
    rw [← List.drop_drop]
    exact List.drop_sublist count _
  unfold splice
  simp only [keeps, Bool.false_eq_true, if_false, List.map_id', tagged_append, plain,
    List.append_nil]
  rw [← tagged_append]
  exact rest.filter _

theorem length_tagged_splice_le (folders insert : List Folder) (start count : Nat)
    (there : (tagged folders).length ≤ 1) (comes : (tagged insert).length ≤ 1) :
    (tagged (splice folders start count insert)).length ≤ 1 := by
  by_cases tag : tagged insert = []
  · exact Nat.le_trans (tagged_splice_sublist folders insert start count tag).length_le there
  · rw [tagged_splice folders insert start count tag]
    exact comes

/-- Those that come in stand where they were asked to, with their own tags. -/
theorem inserted_splice {folders insert : List Folder} {start count : Nat}
    (there : start + count ≤ folders.length) :
    ((splice folders start count insert).drop start).take insert.length = insert := by
  have first : (folders.take start).length = start := by
    rw [List.length_take]
    omega
  unfold splice
  dsimp only
  rw [List.append_assoc, List.drop_left' (by rw [List.length_map, first]), List.take_left]

variable {l m : FolderList} {r : Request}

theorem answer?_eq_some (accepted : l.answer? r = some m) :
    r.start + r.count ≤ l.toList.length ∧ m.toList = splice l.toList r.start r.count r.insert := by
  refine ⟨?_, toList_update accepted⟩
  by_contra beyond
  have refused := (update_eq_none_iff l r.start r.count r.insert).mpr (by omega)
  rw [answer?, refused] at accepted
  cases accepted

/-- The runs that never show two tags are those in which no accepted request brings two. In every
run, what an accepted request inserts stands at its place and has all the tags as soon as it has
one, and a refused request leaves the list as it was. -/
theorem model_tags_of_requests (l : FolderList) (one : (tagged l.toList).length ≤ 1)
    (requests : List Request) :
    ((∀ before, before <+: requests → (tagged (l.after before).toList).length ≤ 1) ↔
      ∀ before r, before ++ [r] <+: requests → ((l.after before).answer? r).isSome →
        (tagged r.insert).length ≤ 1) ∧
    ∀ before r, before ++ [r] <+: requests →
      (∀ m, (l.after before).answer? r = some m → l.after (before ++ [r]) = m ∧
        (m.toList.drop r.start).take r.insert.length = r.insert ∧
        (tagged r.insert ≠ [] → tagged m.toList = tagged r.insert)) ∧
      ((l.after before).answer? r = none → l.after (before ++ [r]) = l.after before) := by
  refine ⟨⟨?_, ?_⟩, ?_⟩
  · intro never before r part accepted
    obtain ⟨m, accepted⟩ := Option.isSome_iff_exists.mp accepted
    have shown := never (before ++ [r]) part
    rw [after_concat, accepted, Option.getD_some, (answer?_eq_some accepted).2] at shown
    by_cases tag : tagged r.insert = []
    · simp [tag]
    · rwa [tagged_splice _ _ _ _ tag] at shown
  · intro brings before
    induction before using List.reverseRecOn with
    | nil => exact fun _ => one
    | append_singleton before r ih =>
      intro part
      have earlier := ih ((List.prefix_append before [r]).trans part)
      rw [after_concat]
      cases accepted : (l.after before).answer? r with
      | none => exact earlier
      | some m =>
        rw [Option.getD_some, (answer?_eq_some accepted).2]
        exact length_tagged_splice_le _ _ _ _ earlier (brings before r part (by simp [accepted]))
  · intro before r _
    refine ⟨?_, ?_⟩
    · intro m accepted
      obtain ⟨there, after⟩ := answer?_eq_some accepted
      refine ⟨by simp [accepted], ?_, ?_⟩
      · rw [after]
        exact inserted_splice there
      · intro tag
        rw [after]
        exact tagged_splice _ _ _ _ tag
    · intro refused
      simp [refused]

/-- The tag goes to a folder put behind the tagged one, and a request beyond the end is refused. -/
theorem model_tags_of_requests_moved :
    let l : FolderList := ⟨some [Folder.model "a" ⟨"/a"⟩]⟩
    let requests : List Request := [⟨1, 0, [Folder.model "b" ⟨"/b"⟩]⟩, ⟨2, 1, []⟩]
    (tagged l.toList).length ≤ 1 ∧ (tagged (l.after requests).toList).length ≤ 1 ∧
      l.after requests = ⟨some [⟨"a", ⟨"/a"⟩, false⟩, Folder.model "b" ⟨"/b"⟩]⟩ := by
  refine ⟨by decide, ?_, by decide⟩
  apply (model_tags_of_requests _ (by decide) _).1.mpr _ _ (List.prefix_refl _)
  intro before r part _
  have brought : r ∈ [(⟨1, 0, [Folder.model "b" ⟨"/b"⟩]⟩ : Request), ⟨2, 1, []⟩] :=
    part.subset (by simp)
  simp only [List.mem_cons, List.not_mem_nil, or_false] at brought
  rcases brought with rfl | rfl <;> decide

/-- One accepted request that brings two tags leaves two. -/
theorem two_models_inserted_at_once :
    ¬ ∀ (l : FolderList) (requests : List Request), (tagged l.toList).length ≤ 1 →
      (tagged (l.after requests).toList).length ≤ 1 := by
  intro always
  have shown := always ⟨none⟩
    [⟨0, 0, [Folder.model "a" ⟨"/a"⟩, Folder.model "b" ⟨"/b"⟩]⟩] (by decide)
  exact absurd shown (by decide)

end ModelWorkspace.FolderList
