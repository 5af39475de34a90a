/-
  BuildingControl.Proofs.Checking

  Lists of steps that can fail.  A check on every element succeeds with the
  results of the single checks, in order; a list that was put together from
  parts is free of faults exactly when its parts are.  Where several steps are taken one after the other,
  the first of their faults is the fault of the whole.
-/
import BuildingControl.Checking
import Mathlib.Data.List.Forall2

namespace BuildingControl

variable {ε α β : Type}

theorem exists_of_isOk {x : Except ε α} (h : x.isOk = true) : ∃ a, x = .ok a := by
  cases x with
  | error fault => cases h
  | ok a => exact ⟨a, rfl⟩

theorem eq_ok_of_toOption {x : Except ε α} {a : α} (h : x.toOption = some a) : x = .ok a := by
  cases x with
  | error fault => cases h
  | ok b =>
    cases h
    rfl

/-- A step behind a guard. -/
theorem guard_eq_ok_iff {c : Prop} [Decidable c] {fault : ε} {f : PUnit → Except ε β}
    {x : Except ε β} {b : β} :
    (if c then throw fault >>= f else x) = .ok b ↔ ¬ c ∧ x = .ok b := by
  by_cases h : c
  · rw [if_pos h]
    exact ⟨nofun, fun both => absurd h both.1⟩
  · rw [if_neg h]
    exact ⟨fun step => ⟨h, step⟩, And.right⟩

/-- A list of results comes from the results for its elements, one by one. -/
theorem eachOk_eq_ok_iff {f : α → Except ε β} {xs : List α} {ys : List β} :
    eachOk f xs = .ok ys ↔ List.Forall₂ (fun x y => f x = .ok y) xs ys := by
  induction xs generalizing ys with
  | nil => cases ys <;> simp [eachOk]
  | cons x xs ih =>
    rw [eachOk, List.forall₂_cons_left_iff]
    cases hx : f x with
    | error fault => simp
    | ok y =>
      simp only [map_eq_ok_iff, ih, Except.ok.injEq]
      constructor
      · rintro ⟨zs, hzs, rfl⟩
        exact ⟨y, zs, rfl, hzs, rfl⟩
      · rintro ⟨_, zs, rfl, hzs, rfl⟩
        exact ⟨zs, hzs, rfl⟩

/-- Every element on the left of a pointwise relation has its partner on the right. -/
theorem exists_of_mem_forall₂ {R : α → β → Prop} {xs : List α} {ys : List β}
    (h : List.Forall₂ R xs ys) {x : α} (hx : x ∈ xs) : ∃ y ∈ ys, R x y := by
  induction h with
  | nil => cases hx
  | cons first _ ih =>
    rcases List.mem_cons.1 hx with rfl | hx
    · exact ⟨_, List.mem_cons_self, first⟩
    · obtain ⟨y, hy, hxy⟩ := ih hx
      exact ⟨y, List.mem_cons_of_mem _ hy, hxy⟩

/-- Folding over elements with a step that can fail first is folding over the results. -/
theorem foldlM_map_eq {γ : Type} (f : α → Except ε β) (g : γ → β → γ) (c : γ) (xs : List α) :
    xs.foldlM (fun acc x => (f x).map (g acc)) c = (eachOk f xs).map fun ys => ys.foldl g c := by
  induction xs generalizing c with
  | nil => rfl
  | cons x xs ih =>
    rw [List.foldlM_cons, eachOk]
    cases f x with
    | error fault => rfl
    | ok y =>
      show xs.foldlM (fun acc x => (f x).map (g acc)) (g c y) = _
      rw [ih]
      cases eachOk f xs <;> rfl

/-- The results for two lists in a row are those for the first, then those for the second. -/
theorem eachOk_append_eq_ok_iff {f : α → Except ε β} {xs ys : List α} {zs : List β} :
    eachOk f (xs ++ ys) = .ok zs ↔
      ∃ us vs, eachOk f xs = .ok us ∧ eachOk f ys = .ok vs ∧ us ++ vs = zs := by
  induction xs generalizing zs with
  | nil => simp [eachOk]
  | cons x xs ih =>
    rw [List.cons_append, eachOk, eachOk]
    cases f x with
    | error fault => simp
    | ok z =>
      simp only [map_eq_ok_iff, ih]
      constructor
      · rintro ⟨_, ⟨us, vs, hus, hvs, rfl⟩, rfl⟩
        exact ⟨z :: us, vs, ⟨us, hus, rfl⟩, hvs, rfl⟩
      · rintro ⟨_, vs, ⟨us, hus, rfl⟩, hvs, rfl⟩
        exact ⟨us ++ vs, ⟨us, vs, hus, hvs, rfl⟩, rfl⟩

/-- A function of the results is a function of each result. -/
theorem map_eachOk {γ : Type} (f : α → Except ε β) (g : β → γ) (xs : List α) :
    (eachOk f xs).map (List.map g) = eachOk (fun x => (f x).map g) xs := by
  induction xs with
  | nil => rfl
  | cons x xs ih =>
    rw [eachOk, eachOk]
    cases f x with
    | error fault => rfl
    | ok y =>
      show ((eachOk f xs).map (y :: ·)).map (List.map g) =
        (eachOk (fun x => (f x).map g) xs).map (g y :: ·)
      rw [← ih]
      cases eachOk f xs <;> rfl

/-! ## Faults -/

/-- What holds of the fault of a step, if it has one. -/
def OnFault (P : ε → Prop) (x : Except ε α) : Prop :=
  ∀ fault, x = .error fault → P fault

section OnFault

variable {P : ε → Prop}

@[simp] theorem onFault_ok (a : α) : OnFault P (.ok a : Except ε α) := nofun

@[simp] theorem onFault_error {fault : ε} : OnFault P (.error fault : Except ε α) ↔ P fault :=
  ⟨fun h => h fault rfl, fun h _ same => by cases same; exact h⟩

theorem OnFault.imp {Q : ε → Prop} {x : Except ε α} (h : OnFault P x)
    (weaker : ∀ fault, P fault → Q fault) : OnFault Q x :=
  fun fault failed => weaker fault (h fault failed)

/-- Of two steps the first fault counts. -/
theorem OnFault.bind {x : Except ε α} {f : α → Except ε β} (first : OnFault P x)
    (later : ∀ a, x = .ok a → OnFault P (f a)) : OnFault P (x >>= f) := by
  cases x with
  | error fault => exact onFault_error.2 (onFault_error.1 first)
  | ok a => exact later a rfl

theorem OnFault.map {x : Except ε α} (h : OnFault P x) (f : α → β) : OnFault P (x.map f) := by
  cases x with
  | error fault => exact onFault_error.2 (onFault_error.1 h)
  | ok a => exact onFault_ok _

theorem onFault_mapError_iff {δ : Type} {x : Except δ α} {f : δ → ε} :
    OnFault P (x.mapError f) ↔ OnFault (fun fault => P (f fault)) x := by
  cases x with
  | error fault =>
    show OnFault P (.error (f fault) : Except ε α) ↔ _
    rw [onFault_error, onFault_error]
  | ok a => exact iff_of_true (onFault_ok a) (onFault_ok a)

/-- A step whose faults are put in other words. -/
theorem OnFault.mapError {δ : Type} {x : Except δ α} {f : δ → ε} (h : ∀ fault, P (f fault)) :
    OnFault P (x.mapError f) :=
  onFault_mapError_iff.2 fun fault _ => h fault

/-- The first of two steps fails in no other way than both. -/
theorem OnFault.of_bind {x : Except ε α} {f : α → Except ε β} (h : OnFault P (x >>= f)) :
    OnFault P x := by
  cases x with
  | error fault => exact onFault_error.2 (onFault_error.1 h)
  | ok a => exact onFault_ok a

theorem OnFault.eachOk {f : α → Except ε β} {xs : List α} (h : ∀ x ∈ xs, OnFault P (f x)) :
    OnFault P (eachOk f xs) := by
  induction xs with
  | nil => exact onFault_ok _
  | cons x xs ih =>
    obtain ⟨first, rest⟩ := List.forall_mem_cons.1 h
    rw [BuildingControl.eachOk]
    cases hx : f x with
    | error fault => exact onFault_error.2 (first fault hx)
    | ok y => exact (ih rest).map _

theorem OnFault.allOk {f : α → Except ε Unit} {xs : List α} (h : ∀ x ∈ xs, OnFault P (f x)) :
    OnFault P (allOk f xs) := by
  induction xs with
  | nil => exact onFault_ok _
  | cons x xs ih =>
    obtain ⟨first, rest⟩ := List.forall_mem_cons.1 h
    rw [BuildingControl.allOk]
    cases hx : f x with
    | error fault => exact onFault_error.2 (first fault hx)
    | ok u => exact ih rest

theorem OnFault.foldlM {f : β → α → Except ε β} (h : ∀ b a, OnFault P (f b a)) (b : β)
    (xs : List α) : OnFault P (xs.foldlM f b) := by
  induction xs generalizing b with
  | nil => exact onFault_ok _
  | cons x xs ih =>
    rw [List.foldlM_cons]
    exact (h b x).bind fun next _ => ih next

/-- What holds of the faults of all steps. -/
def OnFaults (P : ε → Prop) (steps : List (Except ε α)) : Prop :=
  ∀ step ∈ steps, OnFault P step

@[simp] theorem onFaults_nil : OnFaults P ([] : List (Except ε α)) :=
  List.forall_mem_nil _

@[simp] theorem onFaults_singleton {step : Except ε α} : OnFaults P [step] ↔ OnFault P step :=
  List.forall_mem_singleton

@[simp] theorem onFaults_append {steps more : List (Except ε α)} :
    OnFaults P (steps ++ more) ↔ OnFaults P steps ∧ OnFaults P more :=
  List.forall_mem_append

theorem onFaults_flatMap {f : β → List (Except ε α)} {bs : List β} :
    OnFaults P (bs.flatMap f) ↔ ∀ b ∈ bs, OnFaults P (f b) := by
  constructor
  · intro h b hb step mem
    exact h step (List.mem_flatMap.2 ⟨b, hb, mem⟩)
  · intro h step mem
    obtain ⟨b, hb, within⟩ := List.mem_flatMap.1 mem
    exact h b hb step within

end OnFault

/-! ## The first fault -/

section FirstOf

variable {faults more : List ε}

/-- A step fails with the first of these faults, and does not fail if there is none. -/
def FirstOf (faults : List ε) (x : Except ε α) : Prop :=
  ∀ fault, x = .error fault ↔ faults.head? = some fault

theorem firstOf_ok (a : α) : FirstOf [] (.ok a : Except ε α) := fun fault => by simp

theorem firstOf_error (fault : ε) (more : List ε) :
    FirstOf (fault :: more) (.error fault : Except ε α) := fun other => by simp

/-- A step succeeds exactly when there is no fault. -/
theorem FirstOf.exists_ok_iff {x : Except ε α} (h : FirstOf faults x) :
    (∃ a, x = .ok a) ↔ faults = [] := by
  cases x with
  | ok a =>
    have none : faults.head? = none := by
      cases first : faults.head? with
      | none => rfl
      | some fault => exact nomatch (h fault).2 first
    exact iff_of_true ⟨a, rfl⟩ (List.head?_eq_none_iff.1 none)
  | error fault =>
    refine iff_of_false nofun ?_
    rintro rfl
    exact nomatch (h fault).1 rfl

/-- The faults of two steps, the second of which is taken only after the first. -/
theorem FirstOf.bind {x : Except ε α} {f : α → Except ε β} (first : FirstOf faults x)
    (later : ∀ a, x = .ok a → FirstOf more (f a)) : FirstOf (faults ++ more) (x >>= f) := by
  cases x with
  | ok a =>
    obtain rfl := first.exists_ok_iff.1 ⟨a, rfl⟩
    exact later a rfl
  | error fault =>
    intro other
    rw [List.head?_append, (first fault).1 rfl, Option.some_or]
    show (Except.error fault : Except ε β) = _ ↔ _
    simp

theorem FirstOf.map {x : Except ε α} (h : FirstOf faults x) (f : α → β) :
    FirstOf faults (x.map f) := by
  cases x with
  | ok a =>
    obtain rfl := h.exists_ok_iff.1 ⟨a, rfl⟩
    exact firstOf_ok (f a)
  | error fault =>
    intro other
    rw [← h other]
    simp [Except.map]

/-- The faults of a list of steps, element by element. -/
theorem FirstOf.eachOk {f : α → Except ε β} {faultsOf : α → List ε} {xs : List α}
    (h : ∀ x ∈ xs, FirstOf (faultsOf x) (f x)) : FirstOf (xs.flatMap faultsOf) (eachOk f xs) := by
  induction xs with
  | nil => exact firstOf_ok []
  | cons x xs ih =>
    obtain ⟨first, rest⟩ := List.forall_mem_cons.1 h
    have steps : BuildingControl.eachOk f (x :: xs) =
        f x >>= fun y => (BuildingControl.eachOk f xs).map (y :: ·) := by
      rw [BuildingControl.eachOk]
      cases f x <;> rfl
    rw [steps, List.flatMap_cons]
    exact first.bind fun y _ => (ih rest).map _

theorem FirstOf.foldlM {f : β → α → Except ε β} {faultsOf : α → List ε} {xs : List α}
    (h : ∀ b, ∀ x ∈ xs, FirstOf (faultsOf x) (f b x)) (b : β) :
    FirstOf (xs.flatMap faultsOf) (xs.foldlM f b) := by
  induction xs generalizing b with
  | nil => exact firstOf_ok b
  | cons x xs ih =>
    rw [List.foldlM_cons, List.flatMap_cons]
    exact (h b x List.mem_cons_self).bind fun next _ =>
      ih (fun c y hy => h c y (List.mem_cons_of_mem x hy)) next

end FirstOf

/-! ## Lists without faults -/

/-- The steps are free of faults and have these results. -/
def AllOk (steps : List (Except ε α)) (xs : List α) : Prop :=
  steps = xs.map .ok

@[simp] theorem allOk_nil_iff {xs : List α} : AllOk ([] : List (Except ε α)) xs ↔ xs = [] := by
  cases xs <;> simp [AllOk]

@[simp] theorem allOk_singleton_iff {step : Except ε α} {xs : List α} :
    AllOk [step] xs ↔ ∃ x, step = .ok x ∧ [x] = xs := by
  rcases xs with _ | ⟨x, _ | ⟨y, ys⟩⟩ <;> simp [AllOk]

theorem exists_allOk_iff {steps : List (Except ε α)} :
    (∃ xs, AllOk steps xs) ↔ ∀ step ∈ steps, ∃ x, step = .ok x := by
  constructor
  · rintro ⟨xs, rfl⟩ step mem
    obtain ⟨x, -, rfl⟩ := List.mem_map.1 mem
    exact ⟨x, rfl⟩
  · intro all
    induction steps with
    | nil => exact ⟨[], rfl⟩
    | cons step steps ih =>
      obtain ⟨⟨x, rfl⟩, rest⟩ := List.forall_mem_cons.1 all
      obtain ⟨xs, rfl⟩ := ih rest
      exact ⟨x :: xs, rfl⟩

theorem allOk_append_iff {steps more : List (Except ε α)} {xs : List α} :
    AllOk (steps ++ more) xs ↔ ∃ ys zs, AllOk steps ys ∧ AllOk more zs ∧ ys ++ zs = xs := by
  unfold AllOk
  constructor
  · intro h
    obtain ⟨ys, zs, rfl, hy, hz⟩ := List.append_eq_map_iff.1 h
    exact ⟨ys, zs, hy.symm, hz.symm, rfl⟩
  · rintro ⟨ys, zs, rfl, rfl, rfl⟩
    rw [List.map_append]

/-- Steps have one list of results. -/
theorem AllOk.unique {steps : List (Except ε α)} {xs ys : List α} (h : AllOk steps xs)
    (again : AllOk steps ys) : xs = ys := by
  rw [AllOk, h] at again
  exact List.map_injective_iff.2 (fun _ _ => Except.ok.inj) again

/-- The steps themselves have no fault to speak of. -/
theorem AllOk.onFaults {P : ε → Prop} {steps : List (Except ε α)} {xs : List α}
    (h : AllOk steps xs) : OnFaults P steps := by
  intro step mem
  obtain ⟨x, rfl⟩ := exists_allOk_iff.1 ⟨xs, h⟩ step mem
  exact onFault_ok x

/-- Steps that are made element by element. -/
theorem allOk_flatMap_iff {f : β → List (Except ε α)} {bs : List β} {xs : List α} :
    AllOk (bs.flatMap f) xs ↔
      ∃ parts, List.Forall₂ (fun b part => AllOk (f b) part) bs parts ∧ parts.flatten = xs := by
  induction bs generalizing xs with
  | nil => simp [eq_comm]
  | cons b bs ih =>
    rw [List.flatMap_cons, allOk_append_iff]
    simp only [ih, List.forall₂_cons_left_iff]
    constructor
    · rintro ⟨part, _, hb, ⟨parts, hbs, rfl⟩, rfl⟩
      exact ⟨part :: parts, ⟨part, parts, hb, hbs, rfl⟩, rfl⟩
    · rintro ⟨_, ⟨part, parts, hb, hbs, rfl⟩, rfl⟩
      exact ⟨part, parts.flatten, hb, ⟨parts, hbs, rfl⟩, rfl⟩

/-- What is collected from steps that are made element by element. -/
theorem AllOk.filterMap_flatMap {γ : Type} {f : β → List (Except ε α)} {g : α → Option γ}
    {h : β → List γ} {bs : List β} {xs : List α} (all : AllOk (bs.flatMap f) xs)
    (each : ∀ b ∈ bs, ∀ part, AllOk (f b) part → part.filterMap g = h b) :
    xs.filterMap g = bs.flatMap h := by
  obtain ⟨parts, ofParts, rfl⟩ := allOk_flatMap_iff.1 all
  clear all
  induction ofParts with
  | nil => rfl
  | cons first _ ih =>
    obtain ⟨here, rest⟩ := List.forall_mem_cons.1 each
    rw [List.flatMap_cons, List.flatten_cons, List.filterMap_append, here _ first, ih rest]

/-- The same where only a part of what is collected is known. -/
theorem AllOk.sublist_flatMap {γ : Type} {f : β → List (Except ε α)} {g : α → Option γ}
    {h : β → List γ} {bs : List β} {xs : List α} (all : AllOk (bs.flatMap f) xs)
    (each : ∀ b ∈ bs, ∀ part, AllOk (f b) part → (h b).Sublist (part.filterMap g)) :
    (bs.flatMap h).Sublist (xs.filterMap g) := by
  obtain ⟨parts, ofParts, rfl⟩ := allOk_flatMap_iff.1 all
  clear all
  induction ofParts with
  | nil => exact .slnil
  | cons first _ ih =>
    obtain ⟨here, rest⟩ := List.forall_mem_cons.1 each
    rw [List.flatMap_cons, List.flatten_cons, List.filterMap_append]
    exact (here _ first).append (ih rest)

/-- What is left of steps that are made element by element, where one result of each is left. -/
theorem AllOk.forall₂_filter {f : β → List (Except ε α)} {p : α → Bool}
    {R : β → α → Prop} {bs : List β} {xs : List α} (all : AllOk (bs.flatMap f) xs)
    (each : ∀ b part, AllOk (f b) part → ∃ x, part.filter p = [x] ∧ R b x) :
    List.Forall₂ R bs (xs.filter p) := by
  obtain ⟨parts, ofParts, rfl⟩ := allOk_flatMap_iff.1 all
  clear all
  induction ofParts with
  | nil => exact .nil
  | cons first _ ih =>
    obtain ⟨x, here, related⟩ := each _ _ first
    rw [List.flatten_cons, List.filter_append, here]
    exact .cons related ih

end BuildingControl
