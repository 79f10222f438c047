import ModelWorkspace.FileTree

/-! What is written into a file can be read again by the same path. A file that is written stands
where no folder is, so it is in the way of no walk. -/
namespace ModelWorkspace.FileTree

theorem hasFolder_put {t : FileTree} {k l : Location} (e : Entry) (leaf : t.hasFolder k = false)
    (folder : t.hasFolder l = true) : (t.put k e).hasFolder l = true := by
  have other : l ≠ k := by
    rintro rfl
    cases leaf.symm.trans folder
  rw [hasFolder, entryAt?_put, if_neg other]
  exact folder

theorem isSome_entryAt?_put {t : FileTree} (k : Location) {l : Location} (e : Entry)
    (there : (t.entryAt? l).isSome = true) : ((t.put k e).entryAt? l).isSome = true := by
  rw [entryAt?_put]
  split
  · rfl
  · exact there

theorem step_put {t : FileTree} {k l m : Location} {segment : String} (e : Entry)
    (leaf : t.hasFolder k = false) (step : t.step l segment = .ok m) :
    (t.put k e).step l segment = .ok m := by
  unfold FileTree.step at step ⊢
  cases folder : t.hasFolder l with
  | false => simp [folder] at step
  | true =>
    simp only [folder, hasFolder_put e leaf folder, Bool.not_true, Bool.false_eq_true,
      if_false] at step ⊢
    split at step
    · rename_i stays
      rw [if_pos stays]
      exact step
    · rename_i moves
      rw [if_neg moves]
      split at step
      · rename_i up
        rw [if_pos up]
        exact step
      · rename_i down
        rw [if_neg down]
        split at step
        · cases step
        · rename_i short
          rw [if_neg short]
          split at step
          · rename_i there
            rw [if_pos (isSome_entryAt?_put k e there)]
            exact step
          · cases step

/-- A walk that has been possible still is with a file in a place where no folder was. -/
theorem walk_put {t : FileTree} {k l m : Location} {segments : List String} (e : Entry)
    (leaf : t.hasFolder k = false) (walk : t.walk l segments = .ok m) :
    (t.put k e).walk l segments = .ok m := by
  induction segments generalizing l with
  | nil => exact walk
  | cons segment rest ih =>
    rw [FileTree.walk, List.foldlM_cons] at walk ⊢
    cases step : t.step l segment with
    | error fault => simp [step, bind, Except.bind] at walk
    | ok next =>
      rw [step] at walk
      rw [step_put e leaf step]
      exact ih walk

theorem eq_of_splitLast {segments before : List String} {last : String}
    (split : splitLast segments = some (before, last, false)) : segments = before ++ [last] := by
  unfold splitLast at split
  cases rest : segments.reverse.dropWhile (· == "") with
  | nil => simp [rest] at split
  | cons first others =>
    simp only [rest, Option.some.injEq, Prod.mk.injEq, decide_eq_false_iff_not, Nat.not_lt] at split
    obtain ⟨rfl, rfl, long⟩ := split
    have whole : segments.reverse.dropWhile (· == "") = segments.reverse := by
      refine (List.dropWhile_suffix _).eq_of_length_le ?_
      rw [rest, List.length_reverse]
      exact long
    rw [← List.reverse_cons, ← rest, whole, List.reverse_reverse]

theorem put_of_writeAt {t u : FileTree} {l : Location} {c : Content}
    (written : t.writeAt l c = .ok u) :
    ∃ mode, u = t.put l ⟨mode, c⟩ ∧ t.hasFolder l = false ∧
      (⟨mode, c⟩ : Entry).isWritable = true := by
  unfold writeAt at written
  split at written
  · rename_i e there
    split at written
    · cases written
    · rename_i file
      split at written
      · rename_i admits
        cases written
        exact ⟨e.mode, rfl, by simpa [hasFolder, there] using file, admits⟩
      · cases written
  · rename_i nothing
    split at written
    · cases written
      have admits : (fileMode &&& 0o200 != 0) = true := by decide
      exact ⟨fileMode, rfl, by simp [hasFolder, nothing], admits⟩
    · cases written

theorem current_put (t : FileTree) (l : Location) (e : Entry) : (t.put l e).current = t.current := by
  unfold put
  split <;> rfl

/-- A step down to what stands in a folder. -/
theorem step_name {t : FileTree} {l : Location} {name : String} (folder : t.hasFolder l = true)
    (isName : isName name = true) (short : isTooLong name = false)
    (there : (t.entryAt? (l ++ [name])).isSome = true) : t.step l name = .ok (l ++ [name]) := by
  simp only [FileTree.isName, Bool.and_eq_true, bne_iff_ne] at isName
  obtain ⟨⟨nonempty, notHere⟩, notUp⟩ := isName
  simp [FileTree.step, folder, nonempty, notHere, notUp, short, there]

/-- Where a file is written that can be written. -/
theorem write_cases {t u : FileTree} {p : Path} {c : Content} (written : t.write p c = .ok u) :
    ∃ before last l, check p = .ok () ∧ stepsOf p = before ++ [last] ∧
      t.walk (t.start p) before = .ok l ∧ t.hasFolder l = true ∧ isName last = true ∧
      isTooLong last = false ∧ t.writeAt (l ++ [last]) c = .ok u := by
  unfold FileTree.write at written
  cases checked : check p with
  | error fault => simp [checked, bind, Except.bind] at written
  | ok _ =>
    simp only [checked, bind, Except.bind] at written
    split at written
    · cases written
    · rename_i before last hasSlash split
      cases walk : t.walk (t.start p) before with
      | error fault => simp [walk] at written
      | ok l =>
        simp only [walk, throw, throwThe, MonadExceptOf.throw] at written
        split at written
        · cases written
        · rename_i folder
          split at written
          · cases written
          · rename_i named
            split at written
            · cases written
            · rename_i short
              simp only [Bool.or_eq_true, not_or, Bool.not_eq_true, Bool.not_eq_false'] at named
              obtain ⟨rfl, name⟩ := named
              exact ⟨before, last, l, rfl, eq_of_splitLast split, walk, by simpa using folder, name,
                by simpa using short, written⟩

/-- A text that was written is what can be read. -/
theorem read_write {t u : FileTree} {p : Path} {s : String}
    (written : t.write p (.text s) = .ok u) : u.read p = .ok s := by
  obtain ⟨before, last, l, checked, steps, walk, folder, name, short, written⟩ := write_cases written
  obtain ⟨mode, rfl, leaf, -⟩ := put_of_writeAt written
  have start : (t.put (l ++ [last]) ⟨mode, .text s⟩).start p = t.start p := by
    rw [FileTree.start, current_put, FileTree.start]
  have there : (t.put (l ++ [last]) ⟨mode, .text s⟩).entryAt? (l ++ [last]) =
      some ⟨mode, .text s⟩ := by
    rw [entryAt?_put, if_pos rfl]
  have arrives : (t.put (l ++ [last]) ⟨mode, .text s⟩).resolve p = .ok (l ++ [last]) := by
    have step := step_name (hasFolder_put ⟨mode, .text s⟩ leaf folder) name short
      (there ▸ rfl : Option.isSome _ = true)
    have walk := walk_put ⟨mode, .text s⟩ leaf walk
    rw [FileTree.walk] at walk
    simp only [resolve, checked, start, steps, FileTree.walk, List.foldlM_append, walk,
      List.foldlM_cons, List.foldlM_nil, step, bind, Except.bind, pure, Except.pure]
  simp only [read, arrives, bind, Except.bind, there]

theorem splitLast_concat (before : List String) {last : String} (nonempty : last ≠ "") :
    splitLast (before ++ [last]) = some (before, last, false) := by
  simp [splitLast, nonempty]

/-- Where the way to the place of a file is free, it is written there. -/
theorem write_eq_writeAt {t : FileTree} {p : Path} {before : List String} {last : String}
    {l : Location} (c : Content) (checked : check p = .ok ()) (steps : stepsOf p = before ++ [last])
    (walk : t.walk (t.start p) before = .ok l) (folder : t.hasFolder l = true)
    (name : isName last = true) (short : isTooLong last = false) :
    t.write p c = t.writeAt (l ++ [last]) c := by
  have nonempty : last ≠ "" := by
    rintro rfl
    cases name
  simp [FileTree.write, checked, steps, splitLast_concat before nonempty, walk, folder, name, short,
    bind, Except.bind]

/-- What was written once can be written again. -/
theorem write_again {t u : FileTree} {p : Path} {s : String}
    (written : t.write p (.text s) = .ok u) (c : Content) : ∃ v, u.write p c = .ok v := by
  obtain ⟨before, last, l, checked, steps, walk, folder, name, short, written⟩ := write_cases written
  obtain ⟨mode, rfl, leaf, admits⟩ := put_of_writeAt written
  have start : (t.put (l ++ [last]) ⟨mode, .text s⟩).start p = t.start p := by
    rw [FileTree.start, current_put, FileTree.start]
  rw [write_eq_writeAt c checked steps (start ▸ walk_put ⟨mode, .text s⟩ leaf walk)
    (hasFolder_put ⟨mode, .text s⟩ leaf folder) name short]
  have there : (t.put (l ++ [last]) ⟨mode, .text s⟩).entryAt? (l ++ [last]) =
      some ⟨mode, .text s⟩ := by
    rw [entryAt?_put, if_pos rfl]
  simp only [writeAt, there, reduceCtorEq, if_false]
  exact ⟨_, if_pos admits⟩

end ModelWorkspace.FileTree
