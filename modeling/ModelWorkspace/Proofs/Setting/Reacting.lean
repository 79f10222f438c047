import ModelWorkspace.Proofs.Setting.Following

/-! The account of a follower: what was changed, what the follower read of it, and when it reacted. No
change of its setting is lost, however many changes come between two looks at the feed: the last one
is either still to be read, or a reaction began after it. -/
namespace ModelWorkspace.Setting

namespace Feed

/-- What a feed has become is what it was and the changes after that. -/
theorem since_later {f g : Feed} (more : f.events <+: g.events) {position : Nat}
    (seen : position ≤ f.size) : g.since position = f.since position ++ g.since f.size := by
  obtain ⟨news, whole⟩ := more
  rw [since, since, since, ← whole, List.drop_append_of_le_length seen, size, List.drop_left]

end Feed

/-- Something that can be seen of a follower, or of the settings that it reads about. -/
inductive Mark
  /-- A setting was changed. -/
  | changed (key : Key)
  /-- The follower received a change. -/
  | received (key : Key)
  /-- The follower was told that it missed so many changes. -/
  | missed (count : Nat)
  /-- The follower began to react. -/
  | began
  /-- The follower has reacted. -/
  | ended
  deriving DecidableEq

namespace Mark

def change? : Mark → Option Key
  | changed key => some key
  | _ => none

/-- How many changes the reader is further after it. -/
def weight : Mark → Nat
  | received _ => 1
  | missed count => count
  | _ => 0

end Mark

/-- The settings that were changed, in order. -/
def changes (marks : List Mark) : List Key := marks.filterMap Mark.change?

/-- How many changes the follower has received or missed. -/
def taken : List Mark → Nat
  | [] => 0
  | m :: marks => m.weight + taken marks

@[simp] theorem changes_append (marks more : List Mark) :
    changes (marks ++ more) = changes marks ++ changes more := List.filterMap_append

@[simp] theorem taken_append (marks more : List Mark) :
    taken (marks ++ more) = taken marks + taken more := by
  induction marks with
  | nil => simp [taken]
  | cons m marks ih => rw [List.cons_append, taken, ih, taken, Nat.add_assoc]

@[simp] theorem changes_map_changed (keys : List Key) : changes (keys.map .changed) = keys := by
  induction keys with
  | nil => rfl
  | cons key keys ih => simpa [changes, Mark.change?] using ih

@[simp] theorem taken_map_changed (keys : List Key) : taken (keys.map .changed) = 0 := by
  induction keys with
  | nil => rfl
  | cons key keys ih => simpa [taken, Mark.weight] using ih

theorem mem_changes {marks : List Mark} {key : Key} : key ∈ changes marks ↔ .changed key ∈ marks := by
  rw [changes, List.mem_filterMap]
  refine ⟨fun ⟨m, mem, same⟩ => ?_, fun mem => ⟨_, mem, rfl⟩⟩
  cases m <;> cases same
  exact mem

/-- What is received is the first change that was not taken before. Changes are missed only by a
reader with more of them ahead than are kept, and as many as are kept are left to it. -/
def Mark.Fits (earlier : List Mark) : Mark → Prop
  | received key => (changes earlier)[taken earlier]? = some key
  | missed count => 0 < count ∧ taken earlier + count + Feed.capacity = (changes earlier).length
  | _ => False

/-- The last thing that the follower did was to read this. -/
def LastRead (marks : List Mark) (m : Mark) : Prop :=
  ∃ earlier later, marks = earlier ++ m :: later ∧ m.Fits earlier ∧
    ∀ other ∈ later, ∃ key, other = .changed key

/-- The follower of this setting has to react to what it has read last. -/
def Calls (key : Key) (marks : List Mark) : Prop :=
  LastRead marks (.received key) ∨ ∃ count, LastRead marks (.missed count)

/-- Reactions come one after the other, and none comes without a reason. -/
structure Orderly (key : Key) (marks : List Mark) : Prop where
  serial : ∀ before during after, marks = before ++ .began :: (during ++ .began :: after) →
    .ended ∈ during
  called : ∀ before after, marks = before ++ .began :: after → Calls key before

/-- Every reaction that began has ended. -/
def Settled (marks : List Mark) : Prop :=
  ∀ before after, marks = before ++ .began :: after → .ended ∈ after

/-- A reaction began and there was no change of the setting after that. -/
def Covered (key : Key) (marks : List Mark) : Prop :=
  ∃ before after, marks = before ++ .began :: after ∧ .changed key ∉ after

/-- A reaction began after the last change of the setting, and it has ended. -/
def Answered (key : Key) (marks : List Mark) : Prop :=
  ∃ before during after, marks = before ++ .began :: (during ++ .ended :: after) ∧
    .began ∉ during ∧ .ended ∉ during ∧ .changed key ∉ during ++ after

/-! ### Accounts that grow -/

theorem lastRead_last {marks : List Mark} {m : Mark} (fits : m.Fits marks) :
    LastRead (marks ++ [m]) m := ⟨marks, [], rfl, fits, nofun⟩

theorem LastRead.append {marks : List Mark} {m : Mark} (read : LastRead marks m) (keys : List Key) :
    LastRead (marks ++ keys.map .changed) m := by
  obtain ⟨earlier, later, rfl, fits, changed⟩ := read
  refine ⟨earlier, later ++ keys.map .changed, by simp, fits, fun other mem => ?_⟩
  obtain mem | mem := List.mem_append.1 mem
  · exact changed other mem
  · obtain ⟨key, -, same⟩ := List.mem_map.1 mem
    exact ⟨key, same.symm⟩

/-- A mark that is not among the new ones is among the old ones. -/
theorem split_of_append {marks more before after : List Mark} {m : Mark}
    (split : marks ++ more = before ++ m :: after) (old : m ∉ more) :
    ∃ between, marks = before ++ m :: between ∧ after = between ++ more := by
  obtain ⟨between, here, there⟩ | ⟨between, here, there⟩ := List.append_eq_append_iff.1 split
  · exact absurd (there ▸ by simp) old
  · cases between with
    | nil => exact absurd (by simp at there; simp [← there]) old
    | cons first between =>
      obtain ⟨rfl, rest⟩ := List.cons.inj there
      exact ⟨between, here, rest⟩

/-- A mark is the one that came last, or one of those before. -/
theorem split_of_snoc {marks before after : List Mark} {m : Mark}
    (split : marks ++ [m] = before ++ m :: after) :
    (before = marks ∧ after = []) ∨
      ∃ between, marks = before ++ m :: between ∧ after = between ++ [m] := by
  obtain rfl | ⟨between, last, rfl⟩ := List.eq_nil_or_concat after
  · exact .inl ⟨(List.append_inj_left' split rfl).symm, rfl⟩
  · refine .inr ⟨between, ?_⟩
    have whole : marks ++ [m] = (before ++ m :: between) ++ [last] := by simpa using split
    obtain ⟨same, ends⟩ := List.append_inj' whole rfl
    obtain rfl := List.singleton_inj.1 ends
    exact ⟨same, List.concat_eq_append⟩

theorem Orderly.append {key : Key} {marks more : List Mark} (orderly : Orderly key marks)
    (none : .began ∉ more) : Orderly key (marks ++ more) where
  serial before during after split := by
    obtain ⟨between, here, there⟩ := split_of_append split none
    obtain ⟨rest, here', -⟩ := split_of_append there.symm none
    exact orderly.serial before during rest (by rw [here, here'])
  called before after split := by
    obtain ⟨between, here, -⟩ := split_of_append split none
    exact orderly.called before between here

/-- The follower begins to react, for a reason and while no reaction goes on. -/
theorem Orderly.begin {key : Key} {marks : List Mark} (orderly : Orderly key marks)
    (settled : Settled marks) (calls : Calls key marks) : Orderly key (marks ++ [.began]) where
  serial before during after split := by
    obtain ⟨-, nothing⟩ | ⟨between, here, there⟩ := split_of_snoc split
    · simp at nothing
    · obtain ⟨rfl, -⟩ | ⟨rest, here', -⟩ := split_of_snoc there.symm
      · exact settled before during here
      · exact orderly.serial before during rest (by rw [here, here'])
  called before after split := by
    obtain ⟨rfl, -⟩ | ⟨between, here, -⟩ := split_of_snoc split
    · exact calls
    · exact orderly.called before between here

theorem Settled.append {marks more : List Mark} (settled : Settled marks) (none : .began ∉ more) :
    Settled (marks ++ more) := by
  intro before after split
  obtain ⟨between, here, rfl⟩ := split_of_append split none
  exact List.mem_append_left _ (settled before between here)

theorem settled_ended (marks : List Mark) : Settled (marks ++ [.ended]) := by
  intro before after split
  obtain ⟨between, -, rfl⟩ := split_of_append split (by simp)
  simp

theorem Covered.append {key : Key} {marks more : List Mark} (covered : Covered key marks)
    (unchanged : .changed key ∉ more) : Covered key (marks ++ more) := by
  obtain ⟨before, after, rfl, late⟩ := covered
  exact ⟨before, after ++ more, by simp, by simp [late, unchanged]⟩

theorem covered_began (key : Key) (marks : List Mark) : Covered key (marks ++ [.began]) :=
  ⟨marks, [], rfl, nofun⟩

/-- In order, the reaction that began after the last change is the one that ended next. -/
theorem Covered.answered {key : Key} {marks : List Mark} (covered : Covered key marks)
    (orderly : Orderly key marks) (settled : Settled marks) : Answered key marks := by
  obtain ⟨before, after, rfl, unchanged⟩ := covered
  obtain ⟨during, after, rfl, running⟩ := List.eq_append_cons_of_mem (settled before after rfl)
  refine ⟨before, during, after, rfl, fun again => ?_, running, by simp_all⟩
  obtain ⟨first, second, rfl⟩ := List.append_of_mem again
  have between := orderly.serial before first (second ++ .ended :: after) (by simp)
  exact running (List.mem_append_left _ between)

/-! ### What a follower does -/

namespace Follower

variable {σ : Type}

/-- What can be seen of a follower from one time to another, with one unit of its work between them
at most. -/
def shows (f g : Follower σ) : List Mark :=
  match f.phase, g.phase with
  | .listening, .noticed key => [.received key]
  | .listening, .handling _ => [.missed (g.position - f.position), .began]
  | .noticed _, .handling _ => [.began]
  | .handling _, .listening => [.ended]
  | _, _ => []

/-- What a follower and the feed that it reads become: others raise changes, or the follower goes on.
What it does in its handler can raise changes too. -/
inductive Turns (feed : Feed) (f : Follower σ) : Feed → Follower σ → Prop
  | meanwhile {after : Feed} (more : feed.events <+: after.events) : Turns feed f after f
  | receive {g : Follower σ} (phase : f.phase = .listening) (received : f.receive? feed = some g) :
      Turns feed f feed g
  | consider {key : Key} (phase : f.phase = .noticed key) : Turns feed f feed (f.consider key)
  | proceed {rest : List σ} {after : Feed} (phase : f.phase = .handling rest) (stages : List σ)
      (more : feed.events <+: after.events) : Turns feed f after (f.proceed stages)

/-- All that can be seen from one time to another: first what was changed, then the follower. -/
def seen (feed after : Feed) (f g : Follower σ) : List Mark :=
  (after.since feed.size).map .changed ++ f.shows g

theorem shows_self (f : Follower σ) : f.shows f = [] := by
  cases phase : f.phase <;> simp [shows, phase]

theorem seen_same (feed : Feed) (f g : Follower σ) : seen feed feed f g = f.shows g := by
  rw [seen, Feed.since_size, List.map_nil, List.nil_append]

/-- The account of the follower of a setting that reads the feed from the base on. -/
structure Account (own : Key) (base : Nat) (marks : List Mark) (feed : Feed) (f : Follower σ) :
    Prop where
  key : f.key = own
  going : f.phase ≠ .stopped
  changes : changes marks = feed.since base
  position : f.position = base + taken marks
  inside : f.position ≤ feed.size
  noticed : ∀ key, f.phase = .noticed key → LastRead marks (.received key)
  settled : (∀ rest, f.phase ≠ .handling rest) → Settled marks
  orderly : Orderly own marks
  covered : f.HasUnread feed ∨ f.phase = .noticed own ∨ .changed own ∉ marks ∨ Covered own marks

theorem account_attend (feed : Feed) (key : Key) (handler : List σ) :
    Account key feed.size [] feed (attend feed key handler) where
  key := rfl
  going := nofun
  changes := (Feed.since_size feed).symm
  position := rfl
  inside := Nat.le_refl _
  noticed := nofun
  settled _ before after split := by simp at split
  orderly :=
    ⟨fun before during after split => by simp at split, fun before after split => by simp at split⟩
  covered := .inr (.inr (.inl List.not_mem_nil))

namespace Account

variable {own : Key} {base : Nat} {marks : List Mark} {feed : Feed} {f : Follower σ}

theorem begun (account : Account own base marks feed f) : base ≤ feed.size := by
  have position := account.position
  have inside := account.inside
  omega

theorem length_changes (account : Account own base marks feed f) :
    (Setting.changes marks).length + base = feed.size := by
  have begun := account.begun
  rw [account.changes, Feed.since, List.length_drop, ← Feed.size]
  omega

/-- Others raise changes. -/
theorem meanwhile (account : Account own base marks feed f) {after : Feed}
    (more : feed.events <+: after.events) :
    Account own base (marks ++ (after.since feed.size).map .changed) after f where
  key := account.key
  going := account.going
  changes := by
    rw [changes_append, account.changes, changes_map_changed, Feed.since_later more account.begun]
  position := by simp [account.position]
  inside := Nat.le_trans account.inside more.length_le
  noticed key phase := (account.noticed key phase).append _
  settled free := (account.settled free).append (by simp)
  orderly := account.orderly.append (by simp)
  covered := by
    by_cases changed : own ∈ after.since feed.size
    · refine .inl ?_
      rw [HasUnread, Feed.since_later more account.inside, account.key]
      exact List.mem_append_right _ changed
    · have unchanged : .changed own ∉ (after.since feed.size).map Mark.changed := by
        simpa using changed
      obtain unread | noticed | never | covered := account.covered
      · refine .inl ?_
        rw [HasUnread, Feed.since_later more account.inside]
        exact List.mem_append_left _ unread
      · exact .inr (.inl noticed)
      · exact .inr (.inr (.inl (List.not_mem_append never unchanged)))
      · exact .inr (.inr (.inr (covered.append unchanged)))

/-- The follower receives a change. -/
theorem received (account : Account own base marks feed f) (listening : f.phase = .listening)
    {key : Key} (event : feed.events[f.position]? = some key) :
    Account own base (marks ++ [.received key]) feed
      { f with position := f.position + 1, phase := .noticed key } where
  key := account.key
  going := nofun
  changes := by
    rw [changes_append, account.changes]
    exact List.append_nil _
  position := by
    rw [taken_append, ← Nat.add_assoc, ← account.position]
    rfl
  inside := by
    obtain ⟨inside, -⟩ := List.getElem?_eq_some_iff.1 event
    exact inside
  noticed other phase := by
    obtain rfl : key = other := Phase.noticed.inj phase
    refine lastRead_last ?_
    rw [Mark.Fits, account.changes, Feed.since, List.getElem?_drop, ← account.position]
    exact event
  settled _ := (account.settled (by simp [listening])).append (by simp)
  orderly := account.orderly.append (by simp)
  covered := by
    obtain unread | noticed | never | covered := account.covered
    · obtain rfl | ahead := hasUnread_of_event unread event
      · exact .inr (.inl (congrArg Phase.noticed account.key))
      · exact .inl ahead
    · rw [listening] at noticed
      cases noticed
    · exact .inr (.inr (.inl (List.not_mem_append never (by simp))))
    · exact .inr (.inr (.inr (covered.append (by simp))))

/-- The follower is told that it missed changes, and begins to react. -/
theorem missed (account : Account own base marks feed f) (listening : f.phase = .listening)
    (far : f.position + Feed.capacity < feed.size) :
    Account own base (marks ++ [.missed (feed.size - Feed.capacity - f.position), .began]) feed
      { f with position := feed.size - Feed.capacity, phase := .handling f.handler } := by
  have read : LastRead (marks ++ [.missed (feed.size - Feed.capacity - f.position)])
      (.missed (feed.size - Feed.capacity - f.position)) := by
    refine lastRead_last ⟨by omega, ?_⟩
    have position := account.position
    have length := account.length_changes
    omega
  have settled : Settled (marks ++ [.missed (feed.size - Feed.capacity - f.position)]) :=
    (account.settled (by simp [listening])).append (by simp)
  have orderly := (account.orderly.append (by simp)).begin settled (.inr ⟨_, read⟩)
  rw [List.append_cons]
  exact {
    key := account.key
    going := nofun
    changes := by
      rw [changes_append, changes_append, account.changes]
      simp [Setting.changes, Mark.change?]
    position := by
      rw [taken_append, taken_append, ← Nat.add_assoc, ← Nat.add_assoc, ← account.position]
      simp only [taken, Mark.weight]
      omega
    inside := Nat.sub_le _ _
    noticed := nofun
    settled := fun free => absurd rfl (free f.handler)
    orderly
    covered := .inr (.inr (.inr (covered_began own _))) }

/-- The follower looks whether the change that it received is one of its setting. -/
theorem consider (account : Account own base marks feed f) {key : Key}
    (phase : f.phase = .noticed key) :
    Account own base (marks ++ f.shows (f.consider key)) feed (f.consider key) := by
  have settled := account.settled (by simp [phase])
  by_cases same : key = f.key
  · have seen : f.shows (f.consider key) = [.began] := by simp [shows, Follower.consider, phase, same]
    obtain rfl : key = own := same.trans account.key
    rw [seen, Follower.consider, if_pos same]
    exact {
      key := account.key
      going := nofun
      changes := by
        rw [changes_append, account.changes]
        exact List.append_nil _
      position := by
        rw [taken_append]
        exact account.position
      inside := account.inside
      noticed := nofun
      settled := fun free => absurd rfl (free f.handler)
      orderly := account.orderly.begin settled (.inl (account.noticed key phase))
      covered := .inr (.inr (.inr (covered_began key _))) }
  · have seen : f.shows (f.consider key) = [] := by simp [shows, Follower.consider, phase, same]
    rw [seen, List.append_nil, Follower.consider, if_neg same]
    exact { account with
      going := nofun
      noticed := nofun
      settled := fun _ => settled
      covered := by
        obtain unread | noticed | rest := account.covered
        · exact .inl unread
        · rw [phase] at noticed
          exact absurd ((Phase.noticed.inj noticed).trans account.key.symm) same
        · exact .inr (.inr rest) }

/-- The follower goes on with its handler, or has come to its end. -/
theorem proceed (account : Account own base marks feed f) {rest : List σ}
    (phase : f.phase = .handling rest) (stages : List σ) :
    Account own base (marks ++ f.shows (f.proceed stages)) feed (f.proceed stages) := by
  have covered : f.HasUnread feed ∨ .changed own ∉ marks ∨ Covered own marks := by
    refine account.covered.imp_right fun late => late.resolve_left ?_
    simp [phase]
  cases stages with
  | nil =>
    have seen : f.shows (f.proceed []) = [.ended] := by simp [shows, Follower.proceed, phase]
    rw [seen]
    exact {
      key := account.key
      going := nofun
      changes := by
        rw [changes_append, account.changes]
        exact List.append_nil _
      position := by
        rw [taken_append]
        exact account.position
      inside := account.inside
      noticed := nofun
      settled := fun _ => settled_ended marks
      orderly := account.orderly.append (by simp)
      covered := by
        obtain unread | never | covered := covered
        · exact .inl unread
        · exact .inr (.inr (.inl (List.not_mem_append never (by simp))))
        · exact .inr (.inr (.inr (covered.append (by simp)))) }
  | cons s stages =>
    have seen : f.shows (f.proceed (s :: stages)) = [] := by simp [shows, Follower.proceed, phase]
    rw [seen, List.append_nil]
    exact { account with
      going := nofun
      noticed := nofun
      settled := fun free => absurd rfl (free (s :: stages))
      covered := covered.imp_right .inr }

theorem turns (account : Account own base marks feed f) {after : Feed} {g : Follower σ}
    (turns : Turns feed f after g) : Account own base (marks ++ seen feed after f g) after g := by
  cases turns with
  | meanwhile more =>
    rw [seen, shows_self, List.append_nil]
    exact account.meanwhile more
  | receive phase received =>
    rw [seen_same]
    obtain ⟨key, event, rfl⟩ | ⟨far, rfl⟩ := receive?_cases received
    · rw [Follower.shows, phase]
      exact account.received phase event
    · rw [Follower.shows, phase]
      exact account.missed phase far
  | consider phase =>
    rw [seen_same]
    exact account.consider phase
  | proceed phase stages more =>
    rw [seen, ← List.append_assoc]
    exact (account.meanwhile more).proceed phase stages

/-- Once the follower waits with nothing left to read, the last change of its setting is answered. -/
theorem answered (account : Account own base marks feed f) (waits : f.waits feed = true)
    (changed : .changed own ∈ marks) : Answered own marks := by
  obtain ⟨listening, read⟩ := idle_of_waits waits
  obtain unread | noticed | never | covered := account.covered
  · exact absurd unread read
  · rw [listening] at noticed
    cases noticed
  · exact absurd changed never
  · exact covered.answered account.orderly (account.settled (by simp [listening]))

end Account

end Follower

end ModelWorkspace.Setting
