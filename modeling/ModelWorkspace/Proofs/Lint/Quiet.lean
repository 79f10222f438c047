import Mathlib.Data.List.Infix
import Mathlib.Tactic.SplitIfs
import ModelWorkspace.Lint.QuietPeriod

/-! When quiet periods end. The times at which relevant triggers came say it all: a period ends where
no other trigger came into it. What a quiet period does step by step comes to just these times. -/
namespace ModelWorkspace.QuietPeriod

/-- The ends of quiet periods up to now, if relevant triggers came at these times. -/
def ends (now : Nat) : List Nat → List Nat
  | [] => []
  | t :: later =>
    if t + length ≤ now ∧ ∀ u ∈ later, t + length ≤ u then (t + length) :: ends now later
    else ends now later

/-- The end of the period that the last trigger has started. -/
def lastEnd? (arrived : List Nat) : Option Nat := arrived.getLast?.map (· + length)

theorem ends_cons (now t : Nat) (later : List Nat) :
    ends now (t :: later) =
      if t + length ≤ now ∧ ∀ u ∈ later, t + length ≤ u then (t + length) :: ends now later
      else ends now later := rfl

/-- A period ends at a time if it has come and no trigger came between the start of the period and
that time. -/
theorem mem_ends {now due : Nat} {arrived : List Nat} :
    due ∈ ends now arrived ↔
      due ≤ now ∧ ∃ t later, t :: later <:+ arrived ∧ due = t + length ∧ ∀ u ∈ later, due ≤ u := by
  induction arrived with
  | nil => simp [ends]
  | cons t later ih =>
    have split : (∃ u after, u :: after <:+ t :: later ∧ due = u + length ∧ ∀ v ∈ after, due ≤ v) ↔
        (due = t + length ∧ ∀ v ∈ later, due ≤ v) ∨
          ∃ u after, u :: after <:+ later ∧ due = u + length ∧ ∀ v ∈ after, due ≤ v := by
      simp only [List.suffix_cons_iff, List.cons.injEq, or_and_right, exists_or, and_assoc,
        exists_and_left, exists_eq_left]
    rw [split, ends_cons]
    split_ifs with quiet
    · rw [List.mem_cons, ih, and_or_left]
      refine or_congr_left ⟨?_, fun last => last.2.1⟩
      rintro rfl
      exact ⟨quiet.1, rfl, quiet.2⟩
    · rw [ih, and_or_left, or_iff_right]
      rintro ⟨past, rfl, none⟩
      exact quiet ⟨past, none⟩

/-- No two periods end at the same time. -/
theorem pairwise_ends (now : Nat) (arrived : List Nat) : (ends now arrived).Pairwise (· < ·) := by
  induction arrived with
  | nil => exact .nil
  | cons t later ih =>
    rw [ends_cons]
    split_ifs with quiet
    · refine .cons (fun due mem => ?_) ih
      obtain ⟨-, u, after, inside, rfl, -⟩ := mem_ends.1 mem
      have late := quiet.2 u (inside.subset (List.mem_cons_self ..))
      have positive : 0 < length := by decide
      omega
    · exact ih

/-- A trigger that comes now ends no period that has ended already. -/
theorem ends_concat (now : Nat) (arrived : List Nat) :
    ends now (arrived ++ [now]) = ends now arrived := by
  induction arrived with
  | nil =>
    have positive : 0 < length := by decide
    rw [List.nil_append, ends_cons, if_neg (by omega)]
  | cons t later ih =>
    have same : (t + length ≤ now ∧ ∀ u ∈ later ++ [now], t + length ≤ u) ↔
        t + length ≤ now ∧ ∀ u ∈ later, t + length ≤ u := by
      simp only [List.forall_mem_append, List.forall_mem_singleton]
      exact ⟨fun ⟨past, quiet, _⟩ => ⟨past, quiet⟩, fun ⟨past, quiet⟩ => ⟨past, quiet, past⟩⟩
    simp only [List.cons_append, ends_cons, same, ih]

/-- While nothing comes only the last period can end. -/
theorem ends_later {now later : Nat} {arrived : List Nat} (past : ∀ t ∈ arrived, t ≤ now)
    (after : now ≤ later) :
    ends later arrived =
      ends now arrived ++ (lastEnd? arrived).toList.filter fun due => now < due ∧ due ≤ later := by
  induction arrived with
  | nil => rfl
  | cons t rest ih =>
    have ih := ih fun u mem => past u (List.mem_cons_of_mem t mem)
    cases rest with
    | nil =>
      simp only [ends, lastEnd?, List.getLast?_singleton, Option.map_some, Option.toList_some,
        List.not_mem_nil, false_implies, implies_true, and_true]
      by_cases elapsed : t + length ≤ now
      · rw [if_pos (Nat.le_trans elapsed after), if_pos elapsed]
        simp [Nat.not_lt.2 elapsed]
      · rw [if_neg elapsed]
        by_cases ended : t + length ≤ later
        · simp [ended, Nat.lt_of_not_le elapsed]
        · simp [ended]
    | cons u rest =>
      have same : (t + length ≤ later ∧ ∀ v ∈ u :: rest, t + length ≤ v) ↔
          t + length ≤ now ∧ ∀ v ∈ u :: rest, t + length ≤ v := by
        refine and_congr_left fun quiet => ⟨fun _ => ?_, fun elapsed => Nat.le_trans elapsed after⟩
        have next : t + length ≤ u := quiet u (List.mem_cons_self ..)
        exact Nat.le_trans next (past u (by simp))
      have last : lastEnd? (t :: u :: rest) = lastEnd? (u :: rest) := by
        simp [lastEnd?, List.getLast?_cons_cons]
      rw [ends_cons later, ends_cons now t, last, ih]
      simp only [same]
      split_ifs <;> rfl

/-! ### What a quiet period comes to -/

/-- The period after the triggers of a queue have been received. -/
def receiveAll (q : QuietPeriod) (queue : List Trigger) (now : Nat) : QuietPeriod :=
  queue.foldl (fun q t => q.receive t now) q

theorem receiveAll_concat (q : QuietPeriod) (queue : List Trigger) (t : Trigger) (now : Nat) :
    q.receiveAll (queue ++ [t]) now = (q.receiveAll queue now).receive t now := by
  simp [receiveAll]

theorem receiveAll_cases (q : QuietPeriod) (queue : List Trigger) (now : Nat) :
    q.receiveAll queue now = q ∨ q.receiveAll queue now = ⟨some (now + length)⟩ := by
  induction queue generalizing q with
  | nil => exact .inl rfl
  | cons t queue ih =>
    have first : q.receive t now = q ∨ q.receive t now = ⟨some (now + length)⟩ := by
      unfold receive
      split_ifs
      · exact .inr rfl
      · exact .inl rfl
    have rest : q.receiveAll (t :: queue) now = (q.receive t now).receiveAll queue now := rfl
    obtain same | same := first <;> rw [rest, same]
    · exact ih q
    · exact .inr ((ih _).elim id id)

/-- The end of the period, if that has come. -/
def due (q : QuietPeriod) (now : Nat) : List Nat := q.deadline?.toList.filter (· ≤ now)

theorem due_of_ahead {q : QuietPeriod} {now : Nat}
    (ahead : ∀ deadline, q.deadline? = some deadline → now < deadline) : q.due now = [] := by
  rw [due, List.filter_eq_nil_iff]
  intro deadline mem
  have late := ahead deadline (by simpa using mem)
  simpa using late

/-- The account of a quiet period: when relevant triggers came, when it was found over, and what it is
now. -/
structure Account (arrived fired : List Nat) (now : Nat) (q : QuietPeriod) : Prop where
  past : ∀ t ∈ arrived, t ≤ now
  ends : fired ++ q.due now = ends now arrived
  running : ∀ deadline, q.deadline? = some deadline → lastEnd? arrived = some deadline
  elapsed : q.deadline? = none → ∀ deadline, lastEnd? arrived = some deadline → deadline ≤ now

theorem account_new (now : Nat) : Account [] [] now {} := ⟨nofun, rfl, nofun, fun _ => nofun⟩

namespace Account

variable {arrived fired : List Nat} {now : Nat} {q : QuietPeriod}

/-- A relevant trigger comes while the period is not over. -/
theorem arrive (account : Account arrived fired now q)
    (ahead : ∀ deadline, q.deadline? = some deadline → now < deadline) :
    Account (arrived ++ [now]) fired now ⟨some (now + length)⟩ where
  past t mem := by
    obtain mem | mem := List.mem_append.1 mem
    · exact account.past t mem
    · exact Nat.le_of_eq (List.mem_singleton.1 mem)
  ends := by
    have positive : 0 < length := by decide
    have none : (⟨some (now + length)⟩ : QuietPeriod).due now = [] :=
      due_of_ahead fun deadline same => by cases same; omega
    rw [ends_concat, ← account.ends, none, due_of_ahead ahead]
  running deadline same := by
    cases same
    simp [lastEnd?]
  elapsed := nofun

/-- The period is found over at its end. -/
theorem finish (account : Account arrived fired now q) (ended : q.deadline? = some now) :
    Account arrived (fired ++ [now]) now q.finish where
  past := account.past
  ends := by
    have due : q.due now = [now] := by simp [due, ended]
    rw [← account.ends, due]
    exact List.append_nil _
  running := nofun
  elapsed _ deadline last := by
    rw [account.running now ended] at last
    exact Nat.le_of_eq (Option.some.inj last).symm

/-- Time passes up to the end of the period. -/
theorem wait (account : Account arrived fired now q) {later : Nat} (after : now ≤ later)
    (ahead : ∀ deadline, q.deadline? = some deadline → now < deadline) :
    Account arrived fired later q where
  past t mem := Nat.le_trans (account.past t mem) after
  ends := by
    have before : fired = QuietPeriod.ends now arrived := by
      rw [← account.ends, due_of_ahead ahead, List.append_nil]
    rw [ends_later account.past after, before]
    congr 1
    cases deadline : q.deadline? with
    | some deadline' =>
      have late := ahead deadline' deadline
      rw [due, deadline, account.running deadline' deadline]
      refine List.filter_congr fun other mem => ?_
      obtain rfl : other = deadline' := by simpa using mem
      simp [late]
    | none =>
      rw [due, deadline, Option.toList_none, List.filter_nil, eq_comm, List.filter_eq_nil_iff]
      intro deadline' mem
      have elapsed := account.elapsed deadline deadline' (by simpa using mem)
      simp [Nat.not_lt.2 elapsed]
  running := account.running
  elapsed none deadline last := Nat.le_trans (account.elapsed none deadline last) after

/-- While the period is not over, it is the one that the last trigger has started. -/
theorem deadline (account : Account arrived fired now q)
    (ahead : ∀ deadline, q.deadline? = some deadline → now < deadline) :
    q.deadline? = (lastEnd? arrived).filter (now < ·) := by
  cases running : q.deadline? with
  | some deadline =>
    rw [account.running deadline running, Option.filter_some_pos]
    simpa using ahead deadline running
  | none =>
    cases last : lastEnd? arrived with
    | none => rfl
    | some deadline =>
      have elapsed := account.elapsed running deadline last
      rw [Option.filter_some_neg]
      simpa using elapsed

end Account

end ModelWorkspace.QuietPeriod
