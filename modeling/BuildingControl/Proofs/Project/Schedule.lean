/-
  BuildingControl.Proofs.Project.Schedule

  Which calling manager a scheduled program ends up in.  Programs are put
  together by the names of their managers, in which the case of ASCII letters
  does not matter (`Managed`).  A model tells managers apart by their upper case
  in all alphabets, so it takes the managers exactly when no two schedules name
  managers that are one to the model and two here (`nodup_iff_not_clash`).
-/
import BuildingControl.Project.Build
import BuildingControl.Proofs.Checking
import BuildingControl.Proofs.Text.Letter
import Mathlib.Data.List.Nodup

namespace BuildingControl

open Erl Model

namespace Project

/-! ## Names of managers -/

/-- No two of these schedules name one manager and two calling points. -/
def OnePoint (schedules : List Schedule) : Prop :=
  ∀ s ∈ schedules, ∀ t ∈ schedules, Text.sameLetters s.managerName t.managerName = true →
    s.callingPoint = t.callingPoint

/-- Two of these schedules name managers that are one to a model and two to a project. -/
def Clash (schedules : List Schedule) : Prop :=
  ∃ s ∈ schedules, ∃ t ∈ schedules, Text.upper s.managerName = Text.upper t.managerName ∧
    Text.sameLetters s.managerName t.managerName = false

/-! ## Joining a manager -/

/-- Whether a schedule names a calling manager and its calling point. -/
structure Schedule.Joins (s : Schedule) (c : CallingManager) : Prop where
  name : Text.asciiUpper s.managerName = Text.asciiUpper c.name
  point : s.callingPoint = c.callingPoint

/-- The one thing that can go wrong: the manager runs at another point. -/
theorem scheduleProgram_eq_error {s : Schedule} {n : Name} {cs : List CallingManager}
    {d : Defect} (h : scheduleProgram s n cs = .error d) :
    ∃ c ∈ cs, Text.asciiUpper s.managerName = Text.asciiUpper c.name ∧
      s.callingPoint ≠ c.callingPoint ∧
      d = .invalid (.callingPoint n.text) (.otherPoint s.callingPoint c.name c.callingPoint) := by
  induction cs with
  | nil => cases h
  | cons c cs ih =>
    rw [scheduleProgram] at h
    split at h
    · next same =>
      split at h
      · cases h
      · next other =>
        cases h
        exact ⟨c, List.mem_cons_self, (Text.sameLetters_iff.1 same).symm, Ne.symm other, rfl⟩
    · cases hr : scheduleProgram s n cs with
      | ok rest =>
        rw [hr] at h
        cases h
      | error fault =>
        rw [hr] at h
        cases h
        obtain ⟨m, hm, rest⟩ := ih hr
        exact ⟨m, List.mem_cons_of_mem c hm, rest⟩

/-- The manager with one more program, if it is the one the schedule names. -/
def Schedule.add (s : Schedule) (n : Name) (c : CallingManager) : CallingManager :=
  if Text.asciiUpper s.managerName = Text.asciiUpper c.name then
    { c with programs := c.programs ++ [n] }
  else c

@[simp] theorem Schedule.add_name (s : Schedule) (n : Name) (c : CallingManager) :
    (s.add n c).name = c.name := by
  unfold add
  split <;> rfl

@[simp] theorem Schedule.add_callingPoint (s : Schedule) (n : Name) (c : CallingManager) :
    (s.add n c).callingPoint = c.callingPoint := by
  unfold add
  split <;> rfl

theorem Schedule.mem_add {s : Schedule} {n k : Name} {c : CallingManager} :
    k ∈ (s.add n c).programs ↔
      k ∈ c.programs ∨ (k = n ∧ Text.asciiUpper s.managerName = Text.asciiUpper c.name) := by
  unfold add
  split <;> simp_all

theorem Schedule.joins_add {s t : Schedule} {n : Name} {c : CallingManager} :
    t.Joins (s.add n c) ↔ t.Joins c := by
  constructor
  · rintro ⟨name, point⟩
    exact ⟨by simpa using name, by simpa using point⟩
  · rintro ⟨name, point⟩
    exact ⟨by simpa using name, by simpa using point⟩

/-- A program joins the manager that its schedule names, or gets one of its own behind the
    others. -/
theorem scheduleProgram_eq_ok {s : Schedule} {n : Name} {cs after : List CallingManager}
    (apart : (cs.map fun c => Text.asciiUpper c.name).Nodup)
    (h : scheduleProgram s n cs = .ok after) :
    ((∃ c ∈ cs, s.Joins c) ∧ after = cs.map (s.add n)) ∨
    ((∀ c ∈ cs, Text.asciiUpper s.managerName ≠ Text.asciiUpper c.name) ∧
      after = cs ++ [⟨s.managerName, s.callingPoint, [n]⟩]) := by
  induction cs generalizing after with
  | nil =>
    cases h
    exact .inr ⟨nofun, rfl⟩
  | cons c cs ih =>
    obtain ⟨new, apart⟩ := List.nodup_cons.1 apart
    rw [scheduleProgram] at h
    split at h
    · next same =>
      have name : Text.asciiUpper s.managerName = Text.asciiUpper c.name :=
        (Text.sameLetters_iff.1 same).symm
      split at h
      · next point =>
        cases h
        -- no other manager has this name
        have others : cs.map (s.add n) = cs := by
          refine (List.map_congr_left fun m hm => if_neg fun same => ?_).trans (List.map_id cs)
          exact new (List.mem_map.2 ⟨m, hm, same.symm.trans name⟩)
        refine .inl ⟨⟨c, List.mem_cons_self, name, point.symm⟩, ?_⟩
        rw [List.map_cons, others, Schedule.add, if_pos name]
      · cases h
    · next other =>
      have name : Text.asciiUpper s.managerName ≠ Text.asciiUpper c.name :=
        fun same => other (Text.sameLetters_iff.2 same.symm)
      obtain ⟨rest, hr, rfl⟩ := map_eq_ok_iff.1 h
      rcases ih apart hr with ⟨⟨m, hm, joins⟩, rfl⟩ | ⟨new, rfl⟩
      · refine .inl ⟨⟨m, List.mem_cons_of_mem c hm, joins⟩, ?_⟩
        rw [List.map_cons, Schedule.add, if_neg name]
      · exact .inr ⟨List.forall_mem_cons.2 ⟨name, new⟩, rfl⟩

/-! ## Programs put into managers -/

/-- The calling managers that these programs have been put into. -/
structure Managed (done : List (Name × Schedule)) (cs : List CallingManager) : Prop where
  apart : (cs.map fun c => Text.asciiUpper c.name).Nodup
  programs : ∀ c ∈ cs, ∀ n, n ∈ c.programs ↔ ∃ s, (n, s) ∈ done ∧ s.Joins c
  named : ∀ c ∈ cs, ∃ e ∈ done, e.2.managerName = c.name ∧ e.2.callingPoint = c.callingPoint
  found : ∀ e ∈ done, ∃ c ∈ cs, e.2.Joins c

namespace Managed

variable {done : List (Name × Schedule)} {cs : List CallingManager}

theorem nil : Managed [] [] where
  apart := List.nodup_nil
  programs := nofun
  named := nofun
  found := nofun

/-- One name, one manager. -/
theorem eq_of_name (h : Managed done cs) {c m : CallingManager} (hc : c ∈ cs) (hm : m ∈ cs)
    (same : Text.asciiUpper c.name = Text.asciiUpper m.name) : c = m :=
  List.inj_on_of_nodup_map h.apart hc hm same

/-- Putting one more program into a manager. -/
theorem schedule (h : Managed done cs) {s : Schedule} {n : Name} {after : List CallingManager}
    (scheduled : scheduleProgram s n cs = .ok after) : Managed (done ++ [(n, s)]) after := by
  have more (k : Name) (c : CallingManager) : (∃ t, (k, t) ∈ done ++ [(n, s)] ∧ t.Joins c) ↔
      (∃ t, (k, t) ∈ done ∧ t.Joins c) ∨ (k = n ∧ s.Joins c) := by
    simp only [List.mem_append, List.mem_singleton, Prod.mk.injEq, or_and_right, exists_or,
      and_assoc, exists_and_left, exists_eq_left]
  rcases scheduleProgram_eq_ok h.apart scheduled with ⟨⟨m, hm, joins⟩, rfl⟩ | ⟨new, rfl⟩
  · refine ⟨?_, ?_, ?_, ?_⟩
    · simpa [List.map_map, Function.comp_def] using h.apart
    · intro _ mem k
      obtain ⟨c, hc, rfl⟩ := List.mem_map.1 mem
      simp only [Schedule.joins_add, Schedule.mem_add, more, h.programs c hc k]
      refine or_congr_right (and_congr_right fun _ => ⟨fun name => ?_, fun joins => joins.name⟩)
      rwa [h.eq_of_name hc hm (name.symm.trans joins.name)]
    · intro _ mem
      obtain ⟨c, hc, rfl⟩ := List.mem_map.1 mem
      obtain ⟨e, he, name, point⟩ := h.named c hc
      exact ⟨e, List.mem_append_left _ he, by simpa using name, by simpa using point⟩
    · intro e he
      have joined : ∃ c ∈ cs, e.2.Joins c := by
        rcases List.mem_append.1 he with he | he
        · exact h.found e he
        · rw [List.mem_singleton.1 he]
          exact ⟨m, hm, joins⟩
      obtain ⟨c, hc, joins⟩ := joined
      exact ⟨s.add n c, List.mem_map_of_mem hc, Schedule.joins_add.2 joins⟩
  · -- the new manager is joined by `s` alone, and `s` joins no other
    have own : s.Joins ⟨s.managerName, s.callingPoint, [n]⟩ := ⟨rfl, rfl⟩
    have alone (k : Name) (t : Schedule) (ht : (k, t) ∈ done) :
        ¬ t.Joins ⟨s.managerName, s.callingPoint, [n]⟩ := by
      intro joins
      obtain ⟨c, hc, old⟩ := h.found (k, t) ht
      exact new c hc (joins.name.symm.trans old.name)
    refine ⟨?_, ?_, ?_, ?_⟩
    · rw [List.map_append, List.map_singleton, ← List.concat_eq_append, List.nodup_concat]
      refine ⟨fun mem => ?_, h.apart⟩
      obtain ⟨c, hc, name⟩ := List.mem_map.1 mem
      exact new c hc name.symm
    · intro c hc k
      rw [more]
      rcases List.mem_append.1 hc with hc | hc
      · rw [h.programs c hc k, or_iff_left fun both => new c hc both.2.name]
      · rw [List.mem_singleton.1 hc, List.mem_singleton]
        constructor
        · exact fun same => .inr ⟨same, own⟩
        · rintro (⟨t, ht, joins⟩ | ⟨same, -⟩)
          · exact absurd joins (alone k t ht)
          · exact same
    · intro c hc
      rcases List.mem_append.1 hc with hc | hc
      · obtain ⟨e, he, same⟩ := h.named c hc
        exact ⟨e, List.mem_append_left _ he, same⟩
      · rw [List.mem_singleton.1 hc]
        exact ⟨(n, s), by simp, rfl, rfl⟩
    · intro e he
      rcases List.mem_append.1 he with he | he
      · obtain ⟨c, hc, joins⟩ := h.found e he
        exact ⟨c, List.mem_append_left _ hc, joins⟩
      · rw [List.mem_singleton.1 he]
        exact ⟨_, by simp, own⟩

/-- Programs that have been put into managers run at one point for each manager. -/
theorem onePoint (h : Managed done cs) : OnePoint (done.map Prod.snd) := by
  intro s hs t ht same
  obtain ⟨e, he, rfl⟩ := List.mem_map.1 hs
  obtain ⟨f, hf, rfl⟩ := List.mem_map.1 ht
  obtain ⟨c, hc, first⟩ := h.found e he
  obtain ⟨m, hm, second⟩ := h.found f hf
  have name : Text.asciiUpper c.name = Text.asciiUpper m.name := by
    rw [← first.name, ← second.name, Text.sameLetters_iff.1 same]
  rw [first.point, second.point, h.eq_of_name hc hm name]

/-- A program that cannot be put into a manager meets a schedule at another point. -/
theorem exists_of_eq_error (h : Managed done cs) {s : Schedule} {n : Name} {d : Defect}
    (failed : scheduleProgram s n cs = .error d) : ∃ t ∈ done.map Prod.snd,
      Text.sameLetters s.managerName t.managerName = true ∧ s.callingPoint ≠ t.callingPoint := by
  obtain ⟨c, hc, name, point, -⟩ := scheduleProgram_eq_error failed
  obtain ⟨e, he, same, at_⟩ := h.named c hc
  refine ⟨e.2, List.mem_map_of_mem he, Text.sameLetters_iff.2 ?_, ?_⟩
  · rw [name, same]
  · rwa [at_]

/-! ## Managers of a model -/

/-- A model takes the managers exactly when no two of their schedules clash. -/
theorem nodup_iff_not_clash (h : Managed done cs) :
    (cs.map fun c => Text.upper c.name).Nodup ↔ ¬ Clash (done.map Prod.snd) := by
  have upper {e : Name × Schedule} {c : CallingManager} (joins : e.2.Joins c) :
      Text.upper e.2.managerName = Text.upper c.name := Text.upper_eq_of_asciiUpper joins.name
  constructor
  · rintro nodup ⟨s, hs, t, ht, same, differ⟩
    obtain ⟨e, he, rfl⟩ := List.mem_map.1 hs
    obtain ⟨f, hf, rfl⟩ := List.mem_map.1 ht
    obtain ⟨c, hc, first⟩ := h.found e he
    obtain ⟨m, hm, second⟩ := h.found f hf
    have one : c = m := List.inj_on_of_nodup_map nodup hc hm
      ((upper first).symm.trans (same.trans (upper second)))
    rw [one] at first
    have letters : Text.sameLetters e.2.managerName f.2.managerName = true :=
      Text.sameLetters_iff.2 (first.name.trans second.name.symm)
    rw [letters] at differ
    cases differ
  · intro clear
    refine List.Nodup.map_on (fun c hc m hm same => ?_) h.apart.of_map
    obtain ⟨e, he, first, -⟩ := h.named c hc
    obtain ⟨f, hf, second, -⟩ := h.named m hm
    refine h.eq_of_name hc hm ?_
    by_contra differ
    refine clear ⟨e.2, List.mem_map_of_mem he, f.2, List.mem_map_of_mem hf, ?_, ?_⟩
    · rw [first, second, same]
    · rw [first, second]
      simpa [Text.sameLetters] using differ

/-- Without a clash programs share a manager exactly when the names of their managers are one to a
    model. -/
theorem shared_iff (h : Managed done cs) (once : (done.map Prod.fst).Nodup)
    (clear : ¬ Clash (done.map Prod.snd)) {e f : Name × Schedule} (he : e ∈ done) (hf : f ∈ done) :
    (∃ c ∈ cs, e.1 ∈ c.programs ∧ f.1 ∈ c.programs) ↔
      Text.upper e.2.managerName = Text.upper f.2.managerName := by
  -- a program has one schedule
  have own {e : Name × Schedule} (he : e ∈ done) {c : CallingManager} (hc : c ∈ cs)
      (mem : e.1 ∈ c.programs) : e.2.Joins c := by
    obtain ⟨s, hs, joins⟩ := (h.programs c hc e.1).1 mem
    have same : (e.1, s) = e := List.inj_on_of_nodup_map once hs he rfl
    rw [← same]
    exact joins
  constructor
  · rintro ⟨c, hc, first, second⟩
    exact Text.upper_eq_of_asciiUpper ((own he hc first).name.trans (own hf hc second).name.symm)
  · intro same
    obtain ⟨c, hc, first⟩ := h.found e he
    obtain ⟨m, hm, second⟩ := h.found f hf
    have one : c = m := by
      have nodup := h.nodup_iff_not_clash.2 clear
      refine List.inj_on_of_nodup_map nodup hc hm ?_
      rw [← Text.upper_eq_of_asciiUpper first.name, ← Text.upper_eq_of_asciiUpper second.name, same]
    refine ⟨c, hc, (h.programs c hc e.1).2 ⟨e.2, he, first⟩, ?_⟩
    rw [one]
    exact (h.programs m hm f.1).2 ⟨f.2, hf, second⟩

end Managed

end Project

end BuildingControl
