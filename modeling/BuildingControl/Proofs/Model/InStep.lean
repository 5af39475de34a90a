/-
  BuildingControl.Proofs.Model.InStep

  The lists of a model against the names in use.  Adding an object looks at the
  names in use only, so these have to say of every name what the lists say: a name
  is looked up as what the object that carries it is (`Coherent.lookup?_eq_some_iff`),
  a program is found where the lookup says that it is one (`Coherent.isSome_findProgram?_iff`),
  and managers and outputs are known by their upper case.  `InStep` is all of this,
  and every coherent model has it.
-/
import BuildingControl.Proofs.Model.Join
import Mathlib.Data.List.Nodup

namespace BuildingControl.Model

open Erl

/-! ## Spaces of names -/

/-- The spaces of names, in each of which a name can be taken once. -/
inductive Space
  | objects
  | managers
  | outputs

/-- The slot of a key in a space of names. -/
def Space.slot : Space → String → Slot
  | .objects => .name
  | .managers => .manager
  | .outputs => .output

/-- The key of a slot, if the slot is in this space of names. -/
def Slot.key? : Space → Slot → Option String
  | .objects, .name key => some key
  | .managers, .manager key => some key
  | .outputs, .output key => some key
  | _, _ => none

theorem Slot.key?_eq_some_iff {space : Space} {s : Slot} {key : String} :
    s.key? space = some key ↔ s = space.slot key := by
  cases space <;> cases s <;> simp [key?, Space.slot]

/-- The keys of the objects that have a name in a space, kind by kind. -/
def keys (m : Model) : Space → List String
  | .objects => m.declared.map fun e => e.1.key
  | .managers => m.managers.map fun c => Text.upper c.name
  | .outputs => m.outputs.map fun o => Text.upper o.name

theorem filterMap_key? (m : Model) (space : Space) :
    (m.declarations.filterMap Declaration.slot?).filterMap (Slot.key? space) = m.keys space := by
  cases space <;>
    simp [keys, declarations, declared, List.filterMap_append, List.filterMap_map,
      Function.comp_def, Declaration.slot?, Declaration.binding?, Slot.key?]

namespace Coherent

variable {m : Model} (h : Coherent m)

include h

/-- The keys in a space of names are pairwise different. -/
theorem nodup_keys (space : Space) : (m.keys space).Nodup := by
  rw [← filterMap_key?]
  refine List.Nodup.filterMap (fun s t key hs ht => ?_) h.apart
  rw [Slot.key?_eq_some_iff.1 hs, Slot.key?_eq_some_iff.1 ht]

/-- The keys in a space of names are those of the slots taken there. -/
theorem mem_keys_iff (space : Space) (key : String) :
    key ∈ m.keys space ↔ m.taken (space.slot key) = true := by
  simp only [← filterMap_key?, List.mem_filterMap, Slot.key?_eq_some_iff, exists_eq_right, h.taken]

/-! ## Names -/

/-- A name stands for what an object that carries it is, in any spelling. -/
theorem lookup?_eq_some_iff {text : String} {cls : NameClass} :
    m.lookup? text = some cls ↔
      ∃ e ∈ m.declared, Text.sameLetters e.1.text text = true ∧ e.2 = cls := by
  have meaning {e : Name × NameClass} (he : e ∈ m.declared) : m.names.find? e.1.key = some e.2 := by
    obtain ⟨d, hd, binding⟩ := mem_declared.1 he
    exact h.names d hd e binding
  simp only [Text.sameLetters_iff]
  constructor
  · intro found
    have taken : m.taken (.name (Text.asciiUpper text)) = true := Option.isSome_of_eq_some found
    obtain ⟨d, hd, slot⟩ := (h.taken _).1 taken
    obtain ⟨e, binding, key⟩ := Declaration.binding?_of_slot? slot
    have declared : e ∈ m.declared := mem_declared.2 ⟨d, hd, binding⟩
    have same : some e.2 = some cls := by
      rw [← meaning declared, key]
      exact found
    exact ⟨e, declared, key, Option.some.inj same⟩
  · rintro ⟨e, he, key, rfl⟩
    rw [lookup?, ← key]
    exact meaning he

/-! ## Programs by name -/

/-- Programs and subroutines have names of their own. -/
theorem nodup_bodies : ((m.programs ++ m.subroutines).map fun p => p.name.key).Nodup := by
  refine (h.nodup_keys .objects).sublist ?_
  simp only [keys, declared, List.map_append, List.map_map]
  -- the six kinds of variables stand in front
  iterate 6 refine List.Sublist.trans ?_ (List.sublist_append_right _ _)
  exact .refl _

/-- A program is the only one of its name among those that it is listed with. -/
theorem find?_of_mem {bodies : List Program} (sub : bodies.Sublist (m.programs ++ m.subroutines))
    {p : Program} (hp : p ∈ bodies) {key : String} (named : p.name.key = key) :
    bodies.find? (fun q => q.name.key = key) = some p := by
  have finds : (bodies.find? fun q => q.name.key = key).isSome = true := by
    rw [List.find?_isSome]
    exact ⟨p, hp, by simpa using named⟩
  obtain ⟨q, found⟩ := Option.isSome_iff_exists.1 finds
  have same : q.name.key = p.name.key := by simpa [named] using List.find?_some found
  have apart : (bodies.map fun p => p.name.key).Nodup := h.nodup_bodies.sublist (sub.map _)
  rw [found, List.inj_on_of_nodup_map apart (List.mem_of_find?_eq_some found) hp same]

/-- Names of one class stand for the programs or subroutines that are declared in this class. -/
theorem lookup?_body_iff {cls : NameClass} {bodies : List Program}
    (declared : ∀ n, (n, cls) ∈ m.declared ↔ ∃ p ∈ bodies, p.name = n) {text : String} :
    m.lookup? text = some cls ↔ ∃ p ∈ bodies, Text.sameLetters p.name.text text = true := by
  rw [h.lookup?_eq_some_iff]
  constructor
  · rintro ⟨⟨n, _⟩, he, same, rfl⟩
    obtain ⟨p, hp, rfl⟩ := (declared n).1 he
    exact ⟨p, hp, same⟩
  · rintro ⟨p, hp, same⟩
    exact ⟨(p.name, cls), (declared _).2 ⟨p, hp, rfl⟩, same, rfl⟩

theorem lookup?_program_iff {text : String} :
    m.lookup? text = some .program ↔
      ∃ p ∈ m.programs, Text.sameLetters p.name.text text = true :=
  h.lookup?_body_iff fun n => by simp [declared]

theorem lookup?_subroutine_iff {text : String} :
    m.lookup? text = some .subroutine ↔
      ∃ p ∈ m.subroutines, Text.sameLetters p.name.text text = true :=
  h.lookup?_body_iff fun n => by simp [declared]

/-- A program is found exactly where the name stands for one. -/
theorem isSome_findProgram?_iff {text : String} :
    (m.findProgram? text).isSome = true ↔
      m.lookup? text = some .program ∨ m.lookup? text = some .subroutine := by
  rw [h.lookup?_program_iff, h.lookup?_subroutine_iff, findProgram?, List.find?_isSome]
  simp only [List.mem_append, or_and_right, exists_or]

/-- The program that is found is the one of this name. -/
theorem findProgram?_eq_some_iff {text : String} {p : Program} :
    m.findProgram? text = some p ↔
      p ∈ m.programs ++ m.subroutines ∧ Text.sameLetters p.name.text text = true := by
  have named {q : Program} (found : m.findProgram? text = some q) :
      q ∈ m.programs ++ m.subroutines ∧ Text.sameLetters q.name.text text = true := by
    rw [findProgram?] at found
    have same := List.find?_some found
    exact ⟨List.mem_of_find?_eq_some found, same⟩
  constructor
  · exact named
  · rintro ⟨hp, same⟩
    have finds : (m.findProgram? text).isSome = true := by
      rw [findProgram?, List.find?_isSome]
      exact ⟨p, hp, same⟩
    obtain ⟨q, found⟩ := Option.isSome_iff_exists.1 finds
    obtain ⟨hq, sameAsFound⟩ := named found
    -- both names have the key of the text, and names are apart
    have keys : q.name.key = p.name.key :=
      (Text.sameLetters_iff.1 sameAsFound).trans (Text.sameLetters_iff.1 same).symm
    rw [found, List.inj_on_of_nodup_map h.nodup_bodies hq hp keys]

/-! ## Trends -/

/-- Every trend logs something. -/
theorem timesteps_pos {t : Trend} (ht : t ∈ m.trends) : 1 ≤ t.timesteps := by
  have logged := (h.valid (.trend t) (mem_declarations.2 (List.mem_map_of_mem ht))).logged t rfl
  exact Nat.one_le_iff_ne_zero.2 logged

end Coherent

/-! ## Lists and names in step -/

/-- The lists of a model and its names in use say the same. -/
structure InStep (m : Model) : Prop where
  /-- No two variables, programs or subroutines have one name, in any spelling. -/
  names : m.declared.Pairwise fun a b => Text.sameLetters a.1.text b.1.text = false
  /-- A name stands for what the object is that carries it. -/
  lookup : ∀ text cls, m.lookup? text = some cls ↔
    ∃ e ∈ m.declared, Text.sameLetters e.1.text text = true ∧ e.2 = cls
  /-- What is found under a name is the program or subroutine of this name. -/
  found : ∀ text p, m.findProgram? text = some p ↔
    Text.sameLetters p.name.text text = true ∧
      (p ∈ m.programs ∧ m.lookup? text = some .program ∨
        p ∈ m.subroutines ∧ m.lookup? text = some .subroutine)
  /-- Something is found under every name that stands for a program or subroutine. -/
  finds : ∀ text, (m.findProgram? text).isSome = true ↔
    m.lookup? text = some .program ∨ m.lookup? text = some .subroutine
  managers : (m.managers.map fun c => Text.upper c.name).Nodup
  managerNames : ∀ key, m.managerNames.contains key = true ↔
    key ∈ m.managers.map fun c => Text.upper c.name
  outputs : (m.outputs.map fun o => Text.upper o.name).Nodup
  outputNames : ∀ key, m.outputNames.contains key = true ↔
    key ∈ m.outputs.map fun o => Text.upper o.name
  /-- Nothing is requested twice. -/
  requests : m.requests.Pairwise fun a b => a.sameAs b = false
  /-- Every trend logs something. -/
  trends : ∀ t ∈ m.trends, 1 ≤ t.timesteps

/-- A coherent model has its lists and its names in step. -/
theorem Coherent.inStep {m : Model} (h : Coherent m) : m.InStep where
  names := by
    have apart : m.declared.Pairwise fun a b => a.1.key ≠ b.1.key :=
      List.pairwise_map.1 (h.nodup_keys .objects)
    exact apart.imp fun ne => by simpa [Text.sameLetters, Name.key] using ne
  lookup _ _ := h.lookup?_eq_some_iff
  found text p := by
    rw [h.findProgram?_eq_some_iff, List.mem_append, and_comm]
    refine and_congr_right fun same => or_congr ?_ ?_
    · exact (and_iff_left_of_imp fun hp => h.lookup?_program_iff.2 ⟨p, hp, same⟩).symm
    · exact (and_iff_left_of_imp fun hp => h.lookup?_subroutine_iff.2 ⟨p, hp, same⟩).symm
  finds _ := h.isSome_findProgram?_iff
  managers := h.nodup_keys .managers
  managerNames key := (h.mem_keys_iff .managers key).symm
  outputs := h.nodup_keys .outputs
  outputNames key := (h.mem_keys_iff .outputs key).symm
  requests := h.requests
  trends _ := h.timesteps_pos

end BuildingControl.Model
