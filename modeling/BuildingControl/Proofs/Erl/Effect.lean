/-
  BuildingControl.Proofs.Erl.Effect

  What the lines of a draft do when they run.  The lines of a draft without faults
  take the state in front of them to the state behind them (`Draft.Takes`), whatever
  follows; what parts of a program do is put together from what its lines do.  Units
  that write to variables of their own do not disturb each other
  (`Draft.takes_flatMap_of_apart`).
-/
import BuildingControl.Proofs.Erl.Formula
import BuildingControl.Proofs.Erl.Reference
import BuildingControl.Proofs.Erl.RuleTable
import Mathlib.Data.Set.Function

namespace BuildingControl.Erl

/-! ## Texts of expressions -/

section Yields

variable {V : Type} {A : Arithmetic V} {σ : Store V}

/-- The expression with this text, if there is one, comes to a value. -/
def Arithmetic.Yields (A : Arithmetic V) (σ : Store V) (text : String) (v : V) : Prop :=
  ∀ x, Expression.ofText? text = .ok x → A.value x σ = v

/-- A text that is put together of tokens yields what the tokens mean. -/
theorem Arithmetic.yields_of_means {text : String} (ts : List Token) {v : V}
    (spelled : text.toList = ts.flatMap Token.chars) (cut : isCut ts = true)
    (means : A.Means σ .sum (significant ts) [v]) : A.Yields σ text v := by
  intro x hx
  apply Arithmetic.value_of_means
  rw [Expression.significant_of_ofText? hx spelled cut]
  exact means

/-- A word other than the null value is a variable. -/
theorem Arithmetic.means_word {w : String} (h : Text.asciiUpper w ≠ nullKey) :
    A.Means σ .operand [.name w.toList] [σ (Text.asciiUpper w)] := by
  have named : A.word σ w.toList = σ (Text.asciiUpper w) := by
    rw [Arithmetic.word, String.ofList_toList]
    exact if_neg h
  rw [← named]
  exact .word w.toList

theorem Arithmetic.yields_word {w : String} (word : isWord w.toList = true)
    (h : Text.asciiUpper w ≠ nullKey) : A.Yields σ w (σ (Text.asciiUpper w)) :=
  yields_of_means [.name w.toList] (List.append_nil _).symm
    (by simp [isCut, word, startsMark]) (.term (.single (.alone (means_word h))))

/-- The text of a finite number is the number that it reads back as. -/
theorem Arithmetic.yields_format {x y : Float} (finite : x.isFinite = true)
    (reads : Decimal.read (Number.format x) = .ok y) :
    A.Yields σ (Number.format x) (A.number y) := by
  intro e he
  apply Arithmetic.value_of_means
  obtain ⟨cs, ⟨only, written⟩ | ⟨signed, written⟩⟩ := Expression.significant_of_format finite he
  · rw [only]
    refine .term (.single (.alone (.numeral ?_)))
    rw [← written]
    exact reads
  · rw [signed]
    refine .term (.single (.negative ?_))
    rw [← written]
    exact reads

end Yields

/-! ## Lines -/

namespace Draft

section Takes

variable {S : Type} {m : Machine S} {call : Name → S → Option S} {branches : List Branch}

/-- The lines of a draft, if they have no fault, take one state to another inside these branches,
    whatever follows them. -/
def Takes (m : Machine S) (call : Name → S → Option S) (branches : List Branch) (d : Draft)
    (s t : S) : Prop :=
  ∀ ss, AllOk d ss → ∀ rest, m.run call branches (ss ++ rest) s = m.run call branches rest t

/-- The lines of a draft do nothing inside a branch that does not run. -/
def Skips (m : Machine S) (call : Name → S → Option S) (d : Draft) : Prop :=
  ∀ branches, active branches = false → ∀ s, d.Takes m call branches s s

theorem takes_nil (s : S) : Takes m call branches [] s s := by
  intro ss all rest
  rw [allOk_nil_iff.1 all]
  rfl

theorem Takes.append {d e : Draft} {s t u : S} (first : d.Takes m call branches s t)
    (second : e.Takes m call branches t u) : (d ++ e).Takes m call branches s u := by
  intro ss all rest
  obtain ⟨ys, zs, hy, hz, rfl⟩ := allOk_append_iff.1 all
  rw [List.append_assoc, first ys hy, second zs hz]

theorem Skips.append {d e : Draft} (first : d.Skips m call) (second : e.Skips m call) :
    (d ++ e).Skips m call :=
  fun branches closed s => (first branches closed s).append (second branches closed s)

theorem skips_flatMap {α : Type} {xs : List α} {lines : α → Draft}
    (h : ∀ x ∈ xs, (lines x).Skips m call) : Skips m call (xs.flatMap lines) := by
  induction xs with
  | nil => exact fun branches _ s => takes_nil s
  | cons x xs ih =>
    obtain ⟨first, rest⟩ := List.forall_mem_cons.1 h
    rw [List.flatMap_cons]
    exact first.append (ih rest)

/-- The lines of a whole program. -/
theorem Takes.run {d : Draft} {s t : S} (h : d.Takes m call [] s t) {c : Code}
    (built : d.build = .ok c) : m.run call [] c.statements s = some t := by
  have whole := h c.statements (statements_of_build built) []
  rw [List.append_nil] at whole
  rw [whole, Machine.run]

theorem allOk_set_iff {target value : String} {ss : List Statement} :
    AllOk (set target value) ss ↔ ∃ (n : Name) (x : Expression), n.text = target ∧
      Expression.ofText? value = .ok x ∧ [.assign n x] = ss := by
  rw [set, allOk_singleton_iff]
  simp [bind_eq_ok_iff, Name.ofText?_eq_ok_iff, pure, Except.pure]

theorem skips_set {target value : String} : (set target value).Skips m call := by
  intro branches closed s ss all rest
  obtain ⟨n, x, -, -, rfl⟩ := allOk_set_iff.1 all
  exact m.run_skipped_action call closed ⟨n, x⟩ rest s

theorem allOk_ifCompare {subject : String} {comparison : Comparison} {limit : Float}
    {ss : List Statement} (all : AllOk (ifCompare subject comparison limit) ss) :
    ∃ (n : Name) (b : Boundary), n.text = subject ∧ b.value = limit ∧
      [.ifThen (.compare n comparison b)] = ss := by
  rw [ifCompare, compare, allOk_singleton_iff] at all
  obtain ⟨x, hx, rfl⟩ := all
  obtain ⟨n, hn, hx⟩ := bind_eq_ok_iff.1 hx
  obtain ⟨condition, hc, hx⟩ := bind_eq_ok_iff.1 hx
  obtain ⟨b, hb, rfl⟩ := map_eq_ok_iff.1 hc
  have value : b.value = limit := by
    unfold Boundary.ofFloat? at hb
    split at hb
    · cases hb
      rfl
    · cases hb
  cases hx
  exact ⟨n, b, Name.ofText?_eq_ok_iff.1 hn, value, rfl⟩

theorem allOk_push_iff {s : Statement} {ss : List Statement} : AllOk (push s) ss ↔ [s] = ss := by
  simp [push]

end Takes

/-! ## Lines over an arithmetic -/

section Arithmetic

variable {V : Type} {A : Arithmetic V} {call : Name → Store V → Option (Store V)}
  {branches : List Branch} {σ τ : Store V}

theorem takes_set (reached : active branches = true) {target value : String} {v : V}
    (h : A.Yields σ value v) :
    (set target value).Takes A.evaluation.machine call branches σ
      (Function.update σ (Text.asciiUpper target) v) := by
  intro ss all rest
  obtain ⟨n, x, rfl, hx, rfl⟩ := allOk_set_iff.1 all
  have assigned := A.evaluation.machine.run_action call reached ⟨n, x⟩ rest σ
  rw [← h x hx]
  exact assigned

/-- A branch runs when its comparison holds. -/
theorem takes_ifCompare (reached : active branches = true) {subject : String}
    {comparison : Comparison} {limit : Float} {body : Draft}
    (skips : body.Skips A.evaluation.machine call)
    (runs : A.compares comparison (σ (Text.asciiUpper subject)) limit = true →
      body.Takes A.evaluation.machine call (.running :: branches) σ τ)
    (stays : A.compares comparison (σ (Text.asciiUpper subject)) limit = false → τ = σ) :
    (ifCompare subject comparison limit ++ body ++ push .endIf).Takes A.evaluation.machine call
      branches σ τ := by
  intro ss all rest
  obtain ⟨_, ends, upToLast, last, rfl⟩ := allOk_append_iff.1 all
  obtain ⟨ifs, lines, first, inside, rfl⟩ := allOk_append_iff.1 upToLast
  obtain ⟨n, b, rfl, rfl, rfl⟩ := allOk_ifCompare first
  obtain rfl := allOk_push_iff.1 last
  have holds : A.evaluation.machine.holds (.compare n comparison b) σ =
      A.compares comparison (σ n.key) b.value := rfl
  rw [List.append_assoc, List.append_assoc, List.singleton_append, Machine.run, holds, reached]
  cases hc : A.compares comparison (σ n.key) b.value with
  | true =>
    rw [Branch.enter, if_pos rfl, if_pos rfl, runs hc lines inside]
    rfl
  | false =>
    have closed : active (.waiting :: branches) = false := by simp
    rw [Branch.enter, if_pos rfl, if_neg (by simp), skips _ closed σ lines inside, stays hc]
    rfl

/-- Of two branches the first runs when its comparison holds, and else the second. -/
theorem takes_ifElse (reached : active branches = true) {subject : String}
    {comparison : Comparison} {limit : Float} {yes no : Draft}
    (skipsYes : yes.Skips A.evaluation.machine call)
    (skipsNo : no.Skips A.evaluation.machine call)
    (runs : A.compares comparison (σ (Text.asciiUpper subject)) limit = true →
      yes.Takes A.evaluation.machine call (.running :: branches) σ τ)
    (otherwise : A.compares comparison (σ (Text.asciiUpper subject)) limit = false →
      no.Takes A.evaluation.machine call (.running :: branches) σ τ) :
    (ifCompare subject comparison limit ++ yes ++ push .otherwise ++ no ++ push .endIf).Takes
      A.evaluation.machine call branches σ τ := by
  intro ss all rest
  obtain ⟨_, ends, upToLast, last, rfl⟩ := allOk_append_iff.1 all
  obtain ⟨_, second, upToElse, inside', rfl⟩ := allOk_append_iff.1 upToLast
  obtain ⟨_, elses, upToFirst, middle, rfl⟩ := allOk_append_iff.1 upToElse
  obtain ⟨ifs, lines, first, inside, rfl⟩ := allOk_append_iff.1 upToFirst
  obtain ⟨n, b, rfl, rfl, rfl⟩ := allOk_ifCompare first
  obtain rfl := allOk_push_iff.1 last
  obtain rfl := allOk_push_iff.1 middle
  have holds : A.evaluation.machine.holds (.compare n comparison b) σ =
      A.compares comparison (σ n.key) b.value := rfl
  simp only [List.append_assoc, List.cons_append, List.nil_append]
  rw [Machine.run, holds, reached]
  cases hc : A.compares comparison (σ n.key) b.value with
  | true =>
    have closed : active (.over :: branches) = false := by simp
    rw [Branch.enter, if_pos rfl, if_pos rfl, runs hc lines inside, Machine.run, Branch.next,
      skipsNo _ closed τ second inside']
    rfl
  | false =>
    have closed : active (.waiting :: branches) = false := by simp
    rw [Branch.enter, if_pos rfl, if_neg (by simp), skipsYes _ closed σ lines inside, Machine.run,
      Branch.next, if_pos rfl, otherwise hc second inside']
    rfl

/-! ## Units -/

/-- Units that write to variables of their own do not disturb each other.  What each unit brings
    about speaks of its own variables and of variables that no unit writes to. -/
theorem takes_flatMap_of_apart {α : Type} {units : List α} {lines : α → Draft}
    (own : α → Set String) (shared : Set String) (Result : α → Store V → Store V → Prop)
    (apart : units.Pairwise fun u v => ∀ k ∈ own u, k ∉ own v)
    (kept : ∀ u ∈ units, ∀ k ∈ own u, k ∉ shared)
    (step : ∀ u ∈ units, ∀ σ, ∃ τ,
      (lines u).Takes A.evaluation.machine call branches σ τ ∧ Set.EqOn τ σ (own u)ᶜ ∧
        Result u σ τ)
    (congr : ∀ u ∈ units, ∀ σ σ' τ τ', Set.EqOn σ σ' (own u ∪ shared) → Set.EqOn τ τ' (own u) →
      Result u σ τ → Result u σ' τ')
    (σ : Store V) : ∃ τ, Takes A.evaluation.machine call branches (units.flatMap lines) σ τ ∧
      (∀ k, (∀ u ∈ units, k ∉ own u) → τ k = σ k) ∧ ∀ u ∈ units, Result u σ τ := by
  induction units generalizing σ with
  | nil => exact ⟨σ, takes_nil σ, fun _ _ => rfl, nofun⟩
  | cons u units ih =>
    obtain ⟨headApart, apart⟩ := List.pairwise_cons.1 apart
    obtain ⟨headKept, kept⟩ := List.forall_mem_cons.1 kept
    obtain ⟨headStep, step⟩ := List.forall_mem_cons.1 step
    obtain ⟨headCongr, congr⟩ := List.forall_mem_cons.1 congr
    obtain ⟨τ, takes, frame, result⟩ := headStep σ
    obtain ⟨υ, takesRest, frameRest, resultRest⟩ := ih apart kept step congr τ
    refine ⟨υ, takes.append takesRest, fun k hk => ?_, List.forall_mem_cons.2 ⟨?_, fun v hv => ?_⟩⟩
    · obtain ⟨first, rest⟩ := List.forall_mem_cons.1 hk
      rw [frameRest k rest, frame first]
    · -- later units leave the variables of the first alone
      refine headCongr σ σ τ υ (fun k _ => rfl) (fun k hk => ?_) result
      exact (frameRest k fun v hv => headApart v hv k hk).symm
    · -- the first unit leaves what a later one reads alone
      refine congr v hv τ σ υ υ (fun k hk => ?_) (fun k _ => rfl) (resultRest v hv)
      refine frame fun mine => ?_
      rcases hk with hk | hk
      · exact headApart v hv k mine hk
      · exact headKept k mine hk

end Arithmetic

end Draft

/-! ## Assignments of known values -/

/-- An assignment with the value that its text comes to. -/
structure Setting (V : Type) where
  target : String
  text : String
  value : V

namespace Setting

variable {V : Type}

/-- The key of the variable that is assigned to. -/
def key (s : Setting V) : String := Text.asciiUpper s.target

/-- The line of an assignment. -/
def line (s : Setting V) : Draft := Draft.set s.target s.text

/-- The state after assignments, one after the other. -/
def perform (settings : List (Setting V)) (σ : Store V) : Store V :=
  settings.foldl (fun σ s => Function.update σ s.key s.value) σ

theorem perform_of_not_mem {settings : List (Setting V)} {k : String}
    (other : ∀ s ∈ settings, k ≠ s.key) (σ : Store V) : perform settings σ k = σ k := by
  induction settings generalizing σ with
  | nil => rfl
  | cons s rest ih =>
    obtain ⟨first, later⟩ := List.forall_mem_cons.1 other
    have kept := ih later (Function.update σ s.key s.value)
    rw [Function.update_of_ne first] at kept
    exact kept

/-- Assignments that agree on the variables they share leave each variable at its value. -/
theorem perform_key {settings : List (Setting V)}
    (agree : ∀ s ∈ settings, ∀ t ∈ settings, s.key = t.key → s.value = t.value) {s : Setting V}
    (hs : s ∈ settings) (σ : Store V) : perform settings σ s.key = s.value := by
  induction settings generalizing s σ with
  | nil => cases hs
  | cons first rest ih =>
    have agreeRest : ∀ t ∈ rest, ∀ u ∈ rest, t.key = u.key → t.value = u.value := fun t ht u hu =>
      agree t (List.mem_cons_of_mem first ht) u (List.mem_cons_of_mem first hu)
    show perform rest (Function.update σ first.key first.value) s.key = s.value
    by_cases again : ∃ t ∈ rest, s.key = t.key
    · -- the last assignment to the variable decides
      obtain ⟨t, ht, same⟩ := again
      rw [same, ih agreeRest ht]
      exact (agree s hs t (List.mem_cons_of_mem first ht) same).symm
    · have only : ∀ t ∈ rest, s.key ≠ t.key := fun t ht same => again ⟨t, ht, same⟩
      have here : s = first :=
        (List.mem_cons.1 hs).resolve_right fun later => only s later rfl
      rw [perform_of_not_mem only, here, Function.update_self]

/-- The lines of assignments.  Their texts come to the given values as long as nothing but the
    variables that are assigned to has changed. -/
theorem takes_settings {A : Arithmetic V} {call : Name → Store V → Option (Store V)}
    {branches : List Branch} (reached : active branches = true) {settings : List (Setting V)}
    (own : Set String) {σ : Store V} (mine : ∀ s ∈ settings, s.key ∈ own)
    (yields : ∀ s ∈ settings, ∀ τ : Store V, Set.EqOn τ σ ownᶜ → A.Yields τ s.text s.value) :
    Draft.Takes A.evaluation.machine call branches (settings.flatMap line) σ
      (perform settings σ) := by
  induction settings generalizing σ with
  | nil => exact Draft.takes_nil σ
  | cons s rest ih =>
    obtain ⟨here, mine⟩ := List.forall_mem_cons.1 mine
    obtain ⟨first, later⟩ := List.forall_mem_cons.1 yields
    have step : s.line.Takes A.evaluation.machine call branches σ
        (Function.update σ s.key s.value) := Draft.takes_set reached (first σ (Set.eqOn_refl σ _))
    rw [List.flatMap_cons]
    refine step.append (ih mine fun t ht τ same => later t ht τ fun k hk => ?_)
    have other : k ≠ s.key := by
      rintro rfl
      exact hk here
    rw [same hk]
    exact Function.update_of_ne other s.value σ

/-- The lines of assignments assign to their variables and to no others. -/
theorem exists_of_target {settings : List (Setting V)} {ss : List Statement}
    (all : AllOk (settings.flatMap line) ss) {statement : Statement} (mem : statement ∈ ss)
    {n : Name} (target : statement.target? = some n) : ∃ s ∈ settings, n.text = s.target := by
  obtain ⟨parts, ofParts, rfl⟩ := allOk_flatMap_iff.1 all
  obtain ⟨part, hpart, mem⟩ := List.mem_flatten.1 mem
  obtain ⟨s, hs, ofLine⟩ := exists_of_mem_forall₂ ofParts.flip hpart
  obtain ⟨k, x, hk, -, rfl⟩ := Draft.allOk_set_iff.1 ofLine
  rw [List.mem_singleton.1 mem] at target
  cases target
  exact ⟨s, hs, hk⟩

end Setting

end BuildingControl.Erl
