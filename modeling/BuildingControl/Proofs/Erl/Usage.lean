/-
  BuildingControl.Proofs.Erl.Usage

  What the names of a program depend on.  They are meant to depend on its text
  alone, and for all names but the built-in ones they do: this is
  `usageOf_free_eq_of_lines`.  A built-in name is left out when it stands in an
  expression and kept when it is the subject of a comparison, although the two
  can be the same text; `Code.names_of_lines` says exactly which texts this
  concerns.
-/
import BuildingControl.Proofs.Erl.Block
import BuildingControl.Proofs.Erl.Line
import BuildingControl.Proofs.Erl.Scan
import BuildingControl.Proofs.Checking

namespace BuildingControl.Erl

/-! ## Lists without repetitions -/

section PushUnique

variable {α : Type} [DecidableEq α]

theorem pushUnique_nil (xs : List α) : pushUnique xs [] = xs := rfl

theorem pushUnique_cons (xs : List α) (y : α) (ys : List α) :
    pushUnique xs (y :: ys) = pushUnique (if y ∈ xs then xs else xs ++ [y]) ys := rfl

theorem mem_pushUnique {x : α} {xs ys : List α} : x ∈ pushUnique xs ys ↔ x ∈ xs ∨ x ∈ ys := by
  induction ys generalizing xs with
  | nil => simp [pushUnique_nil]
  | cons y ys ih =>
    rw [pushUnique_cons, ih, List.mem_cons]
    split
    · next mem =>
      constructor
      · exact fun h => h.imp_right .inr
      · rintro (h | rfl | h)
        · exact .inl h
        · exact .inl mem
        · exact .inr h
    · rw [List.mem_append, List.mem_singleton, or_assoc]

/-- Leaving elements out before or after is the same. -/
theorem filter_pushUnique (p : α → Bool) (xs ys : List α) :
    (pushUnique xs ys).filter p = pushUnique (xs.filter p) (ys.filter p) := by
  induction ys generalizing xs with
  | nil => rfl
  | cons y ys ih =>
    rw [pushUnique_cons, ih]
    cases kept : p y with
    | false =>
      rw [List.filter_cons_of_neg (by simp [kept])]
      split
      · rfl
      · rw [List.filter_append, List.filter_cons_of_neg (by simp [kept]), List.filter_nil,
          List.append_nil]
    | true =>
      rw [List.filter_cons_of_pos kept, pushUnique_cons]
      by_cases mem : y ∈ xs
      · rw [if_pos mem, if_pos (List.mem_filter.2 ⟨mem, kept⟩)]
      · rw [if_neg mem, if_neg fun h => mem (List.mem_filter.1 h).1, List.filter_append,
          List.filter_cons_of_pos kept, List.filter_nil]

theorem pushUnique_append (xs ys zs : List α) :
    pushUnique xs (ys ++ zs) = pushUnique (pushUnique xs ys) zs :=
  List.foldl_append

/-- Elements may be left out before or after another list is put in front. -/
theorem pushUnique_assoc (xs ys zs : List α) :
    pushUnique (pushUnique xs ys) zs = pushUnique xs (pushUnique ys zs) := by
  induction zs generalizing ys with
  | nil => rfl
  | cons z zs ih =>
    rw [pushUnique_cons, pushUnique_cons, ← ih]
    congr 1
    by_cases mem : z ∈ ys
    · rw [if_pos mem, if_pos (mem_pushUnique.2 (.inr mem))]
    · rw [if_neg mem, pushUnique_append]
      rfl

/-- What is put behind a list is what it does not hold yet, each element once and where it
    appears first. -/
theorem pushUnique_eq_eraseDups (xs ys : List α) :
    pushUnique xs ys = xs ++ (ys.filter (· ∉ xs)).eraseDups := by
  induction ys generalizing xs with
  | nil => simp [pushUnique_nil]
  | cons y ys ih =>
    rw [pushUnique_cons, ih]
    by_cases mem : y ∈ xs
    · rw [if_pos mem, List.filter_cons_of_neg (by simpa using mem)]
    · have others : ys.filter (· ∉ xs ++ [y]) =
          (ys.filter (· ∉ xs)).filter fun z => !z == y := by
        rw [List.filter_filter]
        refine List.filter_congr fun z _ => ?_
        simp [Bool.and_comm, beq_eq_decide]
      rw [if_neg mem, List.filter_cons_of_pos (by simpa using mem), List.eraseDups_cons, others,
        List.append_assoc]
      rfl

theorem pushUnique_nil_left (ys : List α) : pushUnique [] ys = ys.eraseDups := by
  rw [pushUnique_eq_eraseDups, List.nil_append, List.filter_eq_self.2 (by simp)]

/-- Elements may be renamed before or after, as long as different ones stay different. -/
theorem map_pushUnique {β : Type} [DecidableEq β] {f : α → β}
    (injective : ∀ x y, f x = f y → x = y) (xs ys : List α) :
    (pushUnique xs ys).map f = pushUnique (xs.map f) (ys.map f) := by
  induction ys generalizing xs with
  | nil => rfl
  | cons y ys ih =>
    have mem : f y ∈ xs.map f ↔ y ∈ xs := List.mem_map_of_injective fun x z => injective x z
    rw [pushUnique_cons, ih, List.map_cons, pushUnique_cons]
    by_cases old : y ∈ xs
    · rw [if_pos old, if_pos (mem.2 old)]
    · rw [if_neg old, if_neg (mt mem.1 old), List.map_append, List.map_singleton]

theorem nodup_pushUnique {xs : List α} (h : xs.Nodup) (ys : List α) :
    (pushUnique xs ys).Nodup := by
  induction ys generalizing xs with
  | nil => exact h
  | cons y ys ih =>
    rw [pushUnique_cons]
    apply ih
    split
    · exact h
    · next new =>
      refine List.nodup_append.2 ⟨h, List.nodup_cons.2 ⟨List.not_mem_nil, List.nodup_nil⟩, ?_⟩
      rintro x hx z hz rfl
      exact new (List.mem_singleton.1 hz ▸ hx)

theorem eraseDups_of_nodup {xs : List α} (h : xs.Nodup) : xs.eraseDups = xs := by
  induction xs with
  | nil => rfl
  | cons x xs ih =>
    obtain ⟨first, rest⟩ := List.nodup_cons.1 h
    have others : xs.filter (fun y => !y == x) = xs := by
      refine List.filter_eq_self.2 fun y hy => ?_
      have apart : y ≠ x := fun same => first (same ▸ hy)
      simp [apart]
    rw [List.eraseDups_cons, others, ih rest]

/-- What is put behind a list is what it does not hold yet. -/
theorem pushUnique_eq_append {ys : List α} (h : ys.Nodup) (xs : List α) :
    pushUnique xs ys = xs ++ ys.filter (· ∉ xs) := by
  rw [pushUnique_eq_eraseDups, eraseDups_of_nodup (h.filter _)]

end PushUnique

/-! ## Names among words -/

/-- Whether a name is none of the built-in ones. -/
def Name.isFree (n : Name) : Bool :=
  !isBuiltin n.text

theorem Name.isFree_eq_false_iff {n : Name} : n.isFree = false ↔ isBuiltin n.text = true := by
  simp [isFree]

/-- Whether a word is looked up as a name: it is neither reserved nor built in. -/
def isOwnWord (word : String) : Bool :=
  !(isReserved word || isBuiltin word)

/-- The names among words are those of the words that are looked up, put together without
    repetition. -/
theorem namesAmong_eq (words : List String) :
    namesAmong words = (eachOk Name.ofText? (words.filter isOwnWord)).map (pushUnique []) := by
  have looked : namesAmong words = (words.filter isOwnWord).foldlM
      (fun acc word => (Name.ofText? word).map fun n => pushUnique acc [n]) [] := by
    rw [List.foldlM_filter, namesAmong]
    congr 1
    funext acc word
    cases known : isReserved word || isBuiltin word with
    | true => simp [isOwnWord, known, pure, Except.pure]
    | false => simp [isOwnWord, known]
  rw [looked, foldlM_map_eq]
  rfl

theorem map_text_of_eachOk {words : List String} {names : List Name}
    (h : eachOk Name.ofText? words = .ok names) : names.map Name.text = words := by
  have each := eachOk_eq_ok_iff.1 h
  clear h
  induction each with
  | nil => rfl
  | cons first _ ih => rw [List.map_cons, ih, Name.ofText?_eq_ok_iff.1 first]

/-- The names among words are the words that are looked up, each once and where it appears
    first. -/
theorem map_text_of_namesAmong {words : List String} {names : List Name}
    (h : namesAmong words = .ok names) :
    names.map Name.text = (words.filter isOwnWord).eraseDups := by
  rw [namesAmong_eq] at h
  obtain ⟨found, each, rfl⟩ := map_eq_ok_iff.1 h
  rw [map_pushUnique fun _ _ => Name.eq_of_text, map_text_of_eachOk each, List.map_nil,
    pushUnique_nil_left]

theorem text_mem_of_namesAmong {words : List String} {names : List Name}
    (h : namesAmong words = .ok names) : ∀ n ∈ names, n.text ∈ words.filter isOwnWord := by
  intro n hn
  have mem : n.text ∈ names.map Name.text := List.mem_map_of_mem hn
  rwa [map_text_of_namesAmong h, List.mem_eraseDups] at mem

/-- The names among words are not built in. -/
theorem isFree_of_namesAmong {words : List String} {names : List Name}
    (h : namesAmong words = .ok names) : ∀ n ∈ names, n.isFree = true := by
  intro n hn
  have own := (List.mem_filter.1 (text_mem_of_namesAmong h n hn)).2
  simp only [isOwnWord, Bool.not_eq_true', Bool.or_eq_false_iff] at own
  simp [Name.isFree, own.2]

/-- The one name in its own text. -/
theorem Name.namesAmong (n : Name) :
    namesAmong [n.text] = .ok ([n].filter Name.isFree) := by
  have read : Name.ofText? n.text = .ok n := Name.ofText?_eq_ok_iff.2 rfl
  rw [Erl.namesAmong, List.foldlM_cons, n.not_isReserved, Bool.false_or, read]
  cases known : isBuiltin n.text with
  | true =>
    rw [List.filter_cons_of_neg (by simp [Name.isFree, known])]
    rfl
  | false =>
    rw [List.filter_cons_of_pos (by simp [Name.isFree, known])]
    rfl

/-! ## Names of a condition -/

/-- A comparison as text has one word, the name of its subject. -/
theorem words_compare (subject : Name) (comparison : Comparison) (boundary : Boundary) :
    words (Condition.compare subject comparison boundary).render.toList = [subject.text] := by
  have written : (Condition.compare subject comparison boundary).render.toList =
      subject.text.toList ++ ((" " ++ comparison.symbol ++ " ").toList ++
        (Number.format boundary.value).toList) := by
    simp [Condition.render, String.toList_append]
  have marks : ∀ c ∈ (" " ++ comparison.symbol ++ " ").toList, isMark c = true := by
    cases comparison <;> exact List.all_eq_true.1 (by decide)
  -- the name ends at the blank, the marks are no words, and the number has none
  rw [written, words_name subject ?_, words_marks marks, words_format boundary.finite]
  intro c hc
  rw [String.toList_append, String.toList_append] at hc
  cases hc
  decide

/-- The names of a condition that are not built in are those of its text. -/
theorem Condition.names_free (c : Condition) :
    c.names.map (List.filter Name.isFree) = namesAmong (words c.render.toList) := by
  cases c with
  | compare subject comparison boundary =>
    rw [words_compare, subject.namesAmong]
    rfl
  | expression e =>
    rw [Condition.names, Expression.names_eq]
    show _ = namesAmong (words e.text.toList)
    cases h : namesAmong (words e.text.toList) with
    | error fault => rfl
    | ok names =>
      exact congrArg Except.ok (List.filter_eq_self.2 (isFree_of_namesAmong h))

/-- The subject of a comparison. -/
def Condition.compared : Condition → List Name
  | .compare subject _ _ => [subject]
  | .expression _ => []

/-- The built-in names of a condition are the subjects of comparisons. -/
theorem Condition.mem_names_iff_of_builtin {c : Condition} {names : List Name}
    (h : c.names = .ok names) {n : Name} (builtin : n.isFree = false) :
    n ∈ names ↔ n ∈ c.compared := by
  cases c with
  | compare subject comparison boundary =>
    cases h
    exact Iff.rfl
  | expression e =>
    have free := isFree_of_namesAmong h n
    rw [builtin] at free
    exact ⟨fun mem => absurd (free mem) (by simp), nofun⟩

/-! ## Names of a line -/

/-- The usage without the built-in names it reads. -/
def Usage.free (u : Usage) : Usage :=
  { u with reads := u.reads.filter Name.isFree }

theorem Usage.free_append (u v : Usage) : (u.append v).free = u.free.append v.free := by
  simp only [append, free, filter_pushUnique]

/-- What a line uses, built-in names aside, is a property of what it says. -/
theorem Statement.usage_free_eq_of_lineText {s t : Statement} (h : s.lineText = t.lineText) :
    s.usage.map Usage.free = t.usage.map Usage.free := by
  have branch {c d : Condition} (same : c.render = d.render) :
      (c.names.map fun names => (⟨names, [], []⟩ : Usage)).map Usage.free =
        (d.names.map fun names => (⟨names, [], []⟩ : Usage)).map Usage.free := by
    have names : c.names.map (List.filter Name.isFree) =
        d.names.map (List.filter Name.isFree) := by
      rw [c.names_free, d.names_free, same]
    revert names
    cases c.names <;> cases d.names <;> simp [Except.map, Usage.free]
  -- lines of different kinds say different things
  cases s <;> cases t <;> try cases h
  case assign.assign target value target' value' =>
    obtain ⟨names, values⟩ := LineText.assign.inj h
    rw [Name.eq_of_text names, Expression.eq_of_text values]
  case ifThen.ifThen c d => exact branch (LineText.ifThen.inj h)
  case elseIf.elseIf c d => exact branch (LineText.elseIf.inj h)
  case run.run n k => rw [Name.eq_of_text (LineText.run.inj h)]
  all_goals rfl

/-- The subject of the comparison of a line. -/
def Statement.compared : Statement → List Name
  | .ifThen condition => condition.compared
  | .elseIf condition => condition.compared
  | _ => []

/-- The built-in names a line reads are the subjects of comparisons. -/
theorem Statement.mem_reads_iff_of_builtin {s : Statement} {u : Usage} (h : s.usage = .ok u)
    {n : Name} (builtin : n.isFree = false) : n ∈ u.reads ↔ n ∈ s.compared := by
  cases s with
  | assign target value =>
    obtain ⟨names, hn, rfl⟩ := map_eq_ok_iff.1 h
    have free := isFree_of_namesAmong hn n
    rw [builtin] at free
    exact ⟨fun mem => absurd (free mem) (by simp), nofun⟩
  | ifThen c =>
    obtain ⟨names, hn, rfl⟩ := map_eq_ok_iff.1 h
    exact Condition.mem_names_iff_of_builtin hn builtin
  | elseIf c =>
    obtain ⟨names, hn, rfl⟩ := map_eq_ok_iff.1 h
    exact Condition.mem_names_iff_of_builtin hn builtin
  | otherwise =>
    cases h
    exact Iff.rfl
  | endIf =>
    cases h
    exact Iff.rfl
  | run subroutine =>
    cases h
    exact Iff.rfl
  | leave =>
    cases h
    exact Iff.rfl

/-! ## Names of a program -/

theorem usageOf_eq (ss : List Statement) :
    usageOf ss = (eachOk Statement.usage ss).map (List.foldl Usage.append .none) :=
  foldlM_map_eq Statement.usage Usage.append .none ss

/-- What lines use together is made of what each of them uses. -/
theorem usageOf_congr {ss ts : List Statement}
    (h : ss.map Statement.usage = ts.map Statement.usage) : usageOf ss = usageOf ts := by
  have through (us : List Statement) : usageOf us =
      (us.map Statement.usage).foldlM (fun acc u => u.map acc.append) Usage.none :=
    List.foldlM_map.symm
  rw [through ss, h, through ts]

/-- What a program reads is what its lines read. -/
theorem mem_reads_foldl {us : List Usage} {u : Usage} {n : Name} :
    n ∈ (us.foldl Usage.append u).reads ↔ n ∈ u.reads ∨ ∃ v ∈ us, n ∈ v.reads := by
  induction us generalizing u with
  | nil => simp
  | cons v us ih =>
    have first : n ∈ (u.append v).reads ↔ n ∈ u.reads ∨ n ∈ v.reads := mem_pushUnique
    simp only [List.foldl_cons, ih, first, List.mem_cons, exists_eq_or_imp, or_assoc]

/-- What a program uses, built-in names aside, is the fold of what its lines use. -/
theorem usageOf_free (ss : List Statement) :
    (usageOf ss).map Usage.free =
      (eachOk (fun s => s.usage.map Usage.free) ss).map (List.foldl Usage.append .none) := by
  have fold (us : List Usage) :
      (us.foldl Usage.append .none).free = (us.map Usage.free).foldl Usage.append .none := by
    rw [List.foldl_map]
    have hom : ∀ u v, (Usage.free u).append v.free = (u.append v).free :=
      fun u v => (Usage.free_append u v).symm
    exact (List.foldl_hom Usage.free hom).symm
  rw [usageOf_eq, ← map_eachOk]
  cases eachOk Statement.usage ss with
  | error fault => rfl
  | ok us => exact congrArg Except.ok (fold us)

/-- Programs of the same text use the same, built-in names aside, or fail for the same
    reason. -/
theorem usageOf_free_eq_of_lines {ss ts : List Statement}
    (h : ss.map Statement.render = ts.map Statement.render) :
    (usageOf ss).map Usage.free = (usageOf ts).map Usage.free := by
  rw [usageOf_free, usageOf_free]
  congr 1
  induction ss generalizing ts with
  | nil =>
    cases ts with
    | nil => rfl
    | cons t ts => cases h
  | cons s ss ih =>
    cases ts with
    | nil => cases h
    | cons t ts =>
      obtain ⟨first, rest⟩ := List.cons.inj h
      have line := Statement.usage_free_eq_of_lineText (lineText_eq_of_render_eq first)
      rw [eachOk, eachOk, line, ih rest]

/-! ## Checked programs -/

/-- Lines with the text of a checked program are a checked program. -/
theorem Code.exists_of_lines (c : Code) {ss : List Statement}
    (h : ss.map Statement.render = c.lines) : ∃ d : Code, d.statements = ss := by
  obtain ⟨nonempty, blocks, usage⟩ := examine_eq_ok_iff.1 c.examined
  have same := usageOf_free_eq_of_lines h
  rw [usage] at same
  obtain ⟨u, hu, -⟩ := map_eq_ok_iff.1 same
  refine ⟨⟨ss, u, examine_eq_ok_iff.2 ⟨?_, ?_, hu⟩⟩, rfl⟩
  · rintro rfl
    exact nonempty (List.map_eq_nil_iff.1 h.symm)
  · rw [checkBlocks_eq_of_lines h, blocks]

/-- Programs of the same text use the same, built-in names aside. -/
theorem Code.usage_free_eq_of_lines {c d : Code} (h : c.lines = d.lines) :
    c.usage.free = d.usage.free := by
  have same := usageOf_free_eq_of_lines h
  rw [(examine_eq_ok_iff.1 c.examined).2.2, (examine_eq_ok_iff.1 d.examined).2.2] at same
  exact Except.ok.inj same

/-- The subjects of the comparisons of a program. -/
def Code.compared (c : Code) : List Name :=
  c.statements.flatMap Statement.compared

/-- The built-in names that lines read are the subjects of their comparisons. -/
theorem exists_mem_reads_iff_of_builtin {ss : List Statement} {us : List Usage}
    (h : List.Forall₂ (fun s u => s.usage = .ok u) ss us) {n : Name} (builtin : n.isFree = false) :
    (∃ u ∈ us, n ∈ u.reads) ↔ ∃ s ∈ ss, n ∈ s.compared := by
  induction h with
  | nil => simp
  | cons first _ ih =>
    simp only [List.mem_cons, exists_eq_or_imp, ih,
      Statement.mem_reads_iff_of_builtin first builtin]

/-- The built-in names a program reads are the subjects of its comparisons. -/
theorem Code.mem_reads_iff_of_builtin (c : Code) {n : Name} (builtin : n.isFree = false) :
    n ∈ c.reads ↔ n ∈ c.compared := by
  have usage := (examine_eq_ok_iff.1 c.examined).2.2
  rw [usageOf_eq] at usage
  obtain ⟨us, lines, folded⟩ := map_eq_ok_iff.1 usage
  rw [Code.reads, ← folded, mem_reads_foldl]
  simp only [Usage.none, List.not_mem_nil, false_or, compared, List.mem_flatMap]
  exact exists_mem_reads_iff_of_builtin (eachOk_eq_ok_iff.1 lines) builtin

/-- Without a comparison of a built-in name all a program reads is free. -/
theorem Code.filter_reads_of_compared {c : Code} (h : ∀ n ∈ c.compared, n.isFree = true) :
    c.reads.filter Name.isFree = c.reads := by
  refine List.filter_eq_self.2 fun n hn => ?_
  by_contra builtin
  rw [Bool.not_eq_true] at builtin
  have free := h n ((c.mem_reads_iff_of_builtin builtin).1 hn)
  rw [builtin] at free
  cases free

/-! ## The same text, written another way -/

/-- A condition as the expression that has its text. -/
def Condition.spelledOut (c : Condition) : Condition :=
  .expression
    { text := c.render
      valid := by
        have field : fieldReasonChars? c.render.toList = none :=
          fieldReason?_eq_none_iff.2 c.isCell.field
        simp [isExpressionText, c.isCell.trimmed, field, c.isCell.nonempty] }

/-- A line whose condition is an expression. -/
def Statement.spelledOut : Statement → Statement
  | .ifThen condition => .ifThen condition.spelledOut
  | .elseIf condition => .elseIf condition.spelledOut
  | s => s

theorem Statement.render_spelledOut (s : Statement) : s.spelledOut.render = s.render := by
  cases s <;> rfl

theorem Statement.compared_spelledOut (s : Statement) : s.spelledOut.compared = [] := by
  cases s <;> rfl

/-- A program reads what its text shows when no line of the text compares a built-in name. -/
theorem Code.reads_eq_of_not_builtin {c d : Code} (h : d.lines = c.lines)
    (plain : ∀ s : Statement, s.render ∈ c.lines → ∀ n ∈ s.compared, isBuiltin n.text = false) :
    d.reads = c.reads := by
  have free (e : Code) (he : e.lines = c.lines) : ∀ n ∈ e.compared, n.isFree = true := by
    intro n hn
    obtain ⟨s, hs, hns⟩ := List.mem_flatMap.1 hn
    have line : s.render ∈ c.lines := he ▸ List.mem_map_of_mem hs
    simp [Name.isFree, plain s line n hns]
  have same : d.reads.filter Name.isFree = c.reads.filter Name.isFree :=
    congrArg Usage.reads (Code.usage_free_eq_of_lines h)
  rwa [filter_reads_of_compared (free d h), filter_reads_of_compared (free c rfl)] at same

/-- With a line that compares a built-in name there are two programs of the same text, one
    that reads the name and one that does not. -/
theorem Code.exists_reads_ne_of_builtin (c : Code) {s : Statement} (line : s.render ∈ c.lines)
    {n : Name} (hn : n ∈ s.compared) (builtin : n.isFree = false) :
    ∃ d e : Code, d.lines = c.lines ∧ e.lines = c.lines ∧ n ∈ d.reads ∧ n ∉ e.reads := by
  -- `d` has the comparison, `e` has no comparison at all
  have compared : (c.statements.map fun t => if t.render = s.render then s else t).map
      Statement.render = c.lines := by
    rw [List.map_map, lines]
    refine List.map_congr_left fun t _ => ?_
    simp only [Function.comp_apply]
    split
    · next same => exact same.symm
    · rfl
  have spelled : (c.statements.map Statement.spelledOut).map Statement.render = c.lines := by
    rw [List.map_map, lines]
    exact List.map_congr_left fun t _ => t.render_spelledOut
  obtain ⟨d, hd⟩ := c.exists_of_lines compared
  obtain ⟨e, he⟩ := c.exists_of_lines spelled
  refine ⟨d, e, by rw [lines, hd, compared], by rw [lines, he, spelled], ?_, ?_⟩
  · obtain ⟨t, ht, same⟩ := List.mem_map.1 line
    rw [mem_reads_iff_of_builtin d builtin, Code.compared, hd, List.mem_flatMap]
    exact ⟨s, List.mem_map.2 ⟨t, ht, if_pos same⟩, hn⟩
  · rw [mem_reads_iff_of_builtin e builtin, Code.compared, he, List.mem_flatMap]
    rintro ⟨t, ht, hnt⟩
    obtain ⟨t, -, rfl⟩ := List.mem_map.1 ht
    rw [t.compared_spelledOut] at hnt
    cases hnt

/-! ## Names as a property of the text -/

end BuildingControl.Erl
