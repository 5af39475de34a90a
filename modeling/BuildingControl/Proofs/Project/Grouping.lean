/-
  BuildingControl.Proofs.Project.Grouping

  The calling managers of scheduled programs, written down as a whole: one for each
  name, at the place where the name is mentioned first, with every program that
  mentions it, in order (`grouped`).  Putting programs into managers one by one
  leads to these groups (`managers_of_each`), which lose no program and repeat none
  (`grouped_perm`).
-/
import BuildingControl.Proofs.Project.Declared

namespace BuildingControl

open Erl Model

namespace Project

/-! ## Groups -/

/-- What the spellings of the name of a schedule's manager have in common. -/
def Schedule.key (s : Schedule) : String := Text.asciiUpper s.managerName

/-- The schedules that mention their managers first, in order. -/
def firstMentions : List Schedule → List Schedule
  | [] => []
  | s :: rest => s :: (firstMentions rest).filter fun t => t.key ≠ s.key

/-- Scheduled programs by their managers: the schedule that mentions a manager first, and the
    programs of all schedules that mention it, in order. -/
def grouped {α : Type} (done : List (α × Schedule)) : List (Schedule × List α) :=
  (firstMentions (done.map Prod.snd)).map fun s =>
    (s, (done.filter fun e => e.2.key = s.key).map Prod.fst)

/-! ## First mentions -/

theorem firstMentions_sublist (l : List Schedule) : (firstMentions l).Sublist l := by
  induction l with
  | nil => exact .slnil
  | cons s rest ih => exact (List.filter_sublist.trans ih).cons_cons s

/-- No manager is mentioned first twice. -/
theorem pairwise_firstMentions (l : List Schedule) :
    (firstMentions l).Pairwise fun s t => s.key ≠ t.key := by
  induction l with
  | nil => exact .nil
  | cons s rest ih =>
    refine List.pairwise_cons.2 ⟨fun t ht => ?_, ih.filter _⟩
    have other := (List.mem_filter.1 ht).2
    exact Ne.symm (by simpa using other)

/-- Every manager that is mentioned is mentioned first somewhere. -/
theorem exists_firstMention {l : List Schedule} {s : Schedule} (h : s ∈ l) :
    ∃ t ∈ firstMentions l, s.key = t.key := by
  induction l with
  | nil => cases h
  | cons r rest ih =>
    rcases List.mem_cons.1 h with rfl | h
    · exact ⟨s, List.mem_cons_self, rfl⟩
    · obtain ⟨t, ht, same⟩ := ih h
      by_cases first : t.key = r.key
      · exact ⟨r, List.mem_cons_self, same.trans first⟩
      · exact ⟨t, List.mem_cons_of_mem r (List.mem_filter.2 ⟨ht, by simpa using first⟩), same⟩

/-- One more schedule at the end is a first mention unless its manager was mentioned before. -/
theorem firstMentions_concat (l : List Schedule) (s : Schedule) :
    firstMentions (l ++ [s]) =
      if s.key ∈ l.map Schedule.key then firstMentions l else firstMentions l ++ [s] := by
  induction l with
  | nil => rfl
  | cons r rest ih =>
    rw [List.cons_append, firstMentions, ih, firstMentions, List.map_cons]
    by_cases before : s.key ∈ rest.map Schedule.key
    · rw [if_pos before, if_pos (List.mem_cons_of_mem _ before)]
    · rw [if_neg before, List.filter_append]
      by_cases same : s.key = r.key
      · rw [if_pos (same ▸ List.mem_cons_self)]
        simp [same]
      · rw [if_neg (by simpa [same] using before)]
        simp [same]

/-! ## Programs that come last -/

section Groups

variable {α β : Type} {done : List (α × Schedule)}

/-- Groups do not depend on how the programs are written down. -/
theorem grouped_map (f : α → β) (done : List (α × Schedule)) :
    grouped (done.map fun e => (f e.1, e.2)) = (grouped done).map fun g => (g.1, g.2.map f) := by
  simp only [grouped, List.map_map, List.filter_map, Function.comp_def]

/-- A program whose manager was mentioned before comes last in its group. -/
theorem grouped_concat_of_mentioned {s : Schedule} (x : α)
    (h : s.key ∈ done.map fun e => e.2.key) : grouped (done ++ [(x, s)]) =
      (grouped done).map fun g => (g.1, if s.key = g.1.key then g.2 ++ [x] else g.2) := by
  have before : s.key ∈ (done.map Prod.snd).map Schedule.key := by rwa [List.map_map]
  rw [grouped, List.map_append, List.map_singleton, firstMentions_concat, if_pos before, grouped,
    List.map_map]
  refine List.map_congr_left fun t _ => ?_
  by_cases same : s.key = t.key <;> simp [same, List.filter_append]

/-- Any other program gets a group of its own. -/
theorem grouped_concat_of_new {s : Schedule} (x : α) (h : s.key ∉ done.map fun e => e.2.key) :
    grouped (done ++ [(x, s)]) = grouped done ++ [(s, [x])] := by
  have before : s.key ∉ (done.map Prod.snd).map Schedule.key := by rwa [List.map_map]
  have none : (done.filter fun e => e.2.key = s.key) = [] :=
    List.filter_eq_nil_iff.2 fun e he same => h (List.mem_map.2 ⟨e, he, by simpa using same⟩)
  rw [grouped, List.map_append, List.map_singleton, firstMentions_concat, if_neg before,
    List.map_append, grouped]
  refine congrArg₂ (· ++ ·) (List.map_congr_left fun t ht => ?_) ?_
  · have mentioned := List.mem_map_of_mem (f := Schedule.key) ((firstMentions_sublist _).subset ht)
    have other : s.key ≠ t.key := fun same => before (same ▸ mentioned)
    simp [List.filter_append, other]
  · simp [List.filter_append, none]

/-! ## Every program once -/

/-- Programs told apart by schedules that mention different managers, all of those mentioned. -/
theorem flatMap_filter_perm {mentions : List Schedule}
    (apart : mentions.Pairwise fun s t => s.key ≠ t.key)
    (all : ∀ e ∈ done, ∃ s ∈ mentions, e.2.key = s.key) :
    (mentions.flatMap fun s => done.filter fun e => e.2.key = s.key).Perm done := by
  induction mentions generalizing done with
  | nil =>
    cases done with
    | nil => exact .refl _
    | cons e rest =>
      obtain ⟨s, hs, -⟩ := all e List.mem_cons_self
      cases hs
  | cons s mentions ih =>
    obtain ⟨first, apart⟩ := List.pairwise_cons.1 apart
    -- the other schedules find their programs among those that do not mention the first manager
    have others : (mentions.flatMap fun t => done.filter fun e => e.2.key = t.key) =
        mentions.flatMap fun t =>
          (done.filter fun e => ¬ e.2.key = s.key).filter fun e => e.2.key = t.key := by
      refine List.flatMap_congr fun t ht => ?_
      rw [List.filter_filter]
      refine List.filter_congr fun e _ => ?_
      by_cases same : e.2.key = t.key
      · simp [same, Ne.symm (first t ht)]
      · simp [same]
    have mentioned : ∀ e ∈ done.filter fun e => ¬ e.2.key = s.key,
        ∃ t ∈ mentions, e.2.key = t.key := by
      intro e he
      obtain ⟨he, other⟩ := List.mem_filter.1 he
      obtain ⟨t, ht, same⟩ := all e he
      rcases List.mem_cons.1 ht with rfl | ht
      · exact absurd same (by simpa using other)
      · exact ⟨t, ht, same⟩
    rw [List.flatMap_cons, others]
    refine ((ih apart mentioned).append_left _).trans ?_
    simpa using List.filter_append_perm (fun e => decide (e.2.key = s.key)) done

/-- Every program is in one group. -/
theorem grouped_perm (done : List (α × Schedule)) :
    ((grouped done).flatMap Prod.snd).Perm (done.map Prod.fst) := by
  have mentioned : ∀ e ∈ done, ∃ s ∈ firstMentions (done.map Prod.snd), e.2.key = s.key :=
    fun e he => exists_firstMention (List.mem_map_of_mem he)
  have perm := (flatMap_filter_perm (pairwise_firstMentions _) mentioned).map Prod.fst
  rw [List.map_flatMap] at perm
  rw [grouped, List.flatMap_map]
  exact perm

/-- The group of a program. -/
theorem exists_group {e : α × Schedule} (h : e ∈ done) :
    ∃ g ∈ grouped done, e.1 ∈ g.2 ∧ e.2.key = g.1.key ∧ g.1 ∈ done.map Prod.snd := by
  obtain ⟨t, ht, same⟩ := exists_firstMention (List.mem_map_of_mem (f := Prod.snd) h)
  refine ⟨_, List.mem_map_of_mem ht, ?_, same, (firstMentions_sublist _).subset ht⟩
  exact List.mem_map_of_mem (List.mem_filter.2 ⟨h, by simpa using same⟩)

end Groups

/-! ## Managers -/

/-- The calling manager of a group, named and placed by the schedule that mentions it first. -/
def managerOf (g : Schedule × List Name) : CallingManager :=
  ⟨g.1.managerName, g.1.callingPoint, g.2⟩

theorem nodup_managers (done : List (Name × Schedule)) :
    (((grouped done).map managerOf).map fun c => Text.asciiUpper c.name).Nodup := by
  have keys : ((grouped done).map managerOf).map (fun c => Text.asciiUpper c.name) =
      (firstMentions (done.map Prod.snd)).map Schedule.key := by
    rw [grouped, List.map_map, List.map_map]
    rfl
  rw [keys]
  exact List.pairwise_map.2 (pairwise_firstMentions _)

/-- Scheduling one more program keeps the managers those of the groups. -/
theorem scheduleProgram_grouped {done : List (Name × Schedule)} {s : Schedule} {n : Name}
    {after : List CallingManager}
    (h : scheduleProgram s n ((grouped done).map managerOf) = .ok after) :
    after = (grouped (done ++ [(n, s)])).map managerOf := by
  rcases scheduleProgram_eq_ok (nodup_managers done) h with ⟨⟨c, hc, joins⟩, rfl⟩ | ⟨new, rfl⟩
  · -- a manager is a group, so the schedule of an earlier program mentions it
    obtain ⟨g, hg, rfl⟩ := List.mem_map.1 hc
    obtain ⟨t, ht, rfl⟩ := List.mem_map.1 hg
    have mentioned : s.key ∈ done.map fun e => e.2.key := by
      obtain ⟨e, he, rfl⟩ := List.mem_map.1 ((firstMentions_sublist _).subset ht)
      exact List.mem_map.2 ⟨e, he, joins.name.symm⟩
    rw [grouped_concat_of_mentioned n mentioned, List.map_map, List.map_map]
    refine List.map_congr_left fun g _ => ?_
    show s.add n (managerOf g) = managerOf (g.1, if s.key = g.1.key then g.2 ++ [n] else g.2)
    unfold Schedule.add
    split
    · next same =>
      rw [if_pos (show s.key = g.1.key from same)]
      rfl
    · next other => rw [if_neg (show ¬ s.key = g.1.key from other)]
  · have unmentioned : s.key ∉ done.map fun e => e.2.key := by
      intro mentioned
      obtain ⟨e, he, same⟩ := List.mem_map.1 mentioned
      obtain ⟨g, hg, -, key, -⟩ := exists_group he
      exact new _ (List.mem_map_of_mem hg) (same.symm.trans key)
    rw [grouped_concat_of_new n unmentioned, List.map_append]
    rfl

/-- A run over the programs leaves the managers of their groups. -/
theorem managers_of_each {g last : Progress} {steps : List (Except Erl.Fault Item)}
    {xs : List Item} {done : List (Name × Schedule)}
    (start : g.managers = (grouped done).map managerOf) (read : AllOk steps xs)
    (h : Progress.each Progress.addItem g steps = .ok last) :
    last.managers = (grouped (done ++ xs.filterMap Item.scheduled?)).map managerOf := by
  induction steps generalizing g done xs with
  | nil =>
    cases h
    obtain rfl := allOk_nil_iff.1 read
    rw [start, List.filterMap_nil, List.append_nil]
  | cons step steps ih =>
    cases xs with
    | nil => cases read
    | cons x xs =>
      obtain ⟨rfl, later⟩ := List.cons.inj read
      rw [Progress.each] at h
      split at h
      · cases h
      · next next added =>
        -- one program is added; with a schedule it moves on to what was done
        simp only [Progress.addItem, bind_eq_ok_iff, mapError_eq_ok_iff] at added
        obtain ⟨_, own, model, -, managers, scheduled, added⟩ := added
        cases own
        cases added
        rw [start] at scheduled
        unfold scheduleIfAny at scheduled
        cases hs : x.schedule with
        | none =>
          rw [hs] at scheduled
          cases scheduled
          have none : x.scheduled? = none := by rw [Item.scheduled?, hs]; rfl
          rw [List.filterMap_cons_none none]
          exact ih rfl later h
        | some s =>
          rw [hs] at scheduled
          have some : x.scheduled? = some (x.program.name, s) := by rw [Item.scheduled?, hs]; rfl
          rw [List.filterMap_cons_some some, List.append_cons]
          exact ih (scheduleProgram_grouped scheduled) later h

end Project

end BuildingControl
