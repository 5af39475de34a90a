/-
  BuildingControl.Proofs.Erl.Reading

  A reader of program lines, and the round trip through it.  The reader knows the
  keywords and where an assignment is cut; it does not read conditions or
  right-hand sides any further.

  What a line says is therefore a property of its text, except for one thing the
  text does not show: whether a condition was put together from a variable and a
  boundary or given as an expression.
-/
import BuildingControl.Erl.Code
import BuildingControl.Proofs.Erl.Name

namespace BuildingControl.Erl

/-! ## The reader -/

/-- What a line says, as far as its text shows it. -/
inductive LineText
  | assign (target value : String)
  | ifThen (condition : String)
  | elseIf (condition : String)
  | otherwise
  | endIf
  | run (subroutine : String)
  | leave
  deriving DecidableEq

/-- What stands before and after the first occurrence of a separator. -/
def splitFirst (separator : List Char) : List Char → Option (List Char × List Char)
  | [] => none
  | c :: cs =>
    if separator <+: c :: cs then some ([], (c :: cs).drop separator.length)
    else (splitFirst separator cs).map fun parts => (c :: parts.1, parts.2)

/-- What a line says that has this keyword and this text behind it. -/
def LineText.ofParts? (keyword : String) (rest : List Char) : Option LineText :=
  match keyword with
  | "SET" =>
    (splitFirst [' ', '=', ' '] rest).map fun parts =>
      .assign (String.ofList parts.1) (String.ofList parts.2)
  | "IF" => some (.ifThen (String.ofList rest))
  | "ELSEIF" => some (.elseIf (String.ofList rest))
  | "ELSE" => some .otherwise
  | "ENDIF" => some .endIf
  | "RUN" => some (.run (String.ofList rest))
  | "RETURN" => some .leave
  | _ => none

/-- What a line says: the keyword is what stands before the first blank. -/
def readLine (line : List Char) : Option LineText :=
  LineText.ofParts? (String.ofList (line.takeWhile (· != ' ')))
    ((line.dropWhile (· != ' ')).drop 1)

/-- What a statement says in its line. -/
def Statement.lineText : Statement → LineText
  | .assign target value => .assign target.text value.text
  | .ifThen condition => .ifThen condition.render
  | .elseIf condition => .elseIf condition.render
  | .otherwise => .otherwise
  | .endIf => .endIf
  | .run subroutine => .run subroutine.text
  | .leave => .leave

/-! ## Round trip -/

/-- A front without the first character of the separator is cut off whole. -/
theorem splitFirst_append {d : Char} {ds front : List Char} (h : d ∉ front) (back : List Char) :
    splitFirst (d :: ds) (front ++ (d :: ds ++ back)) = some (front, back) := by
  induction front with
  | nil =>
    have here : d :: ds <+: d :: (ds ++ back) := ⟨back, rfl⟩
    show splitFirst (d :: ds) (d :: (ds ++ back)) = _
    rw [splitFirst, if_pos here]
    simp
  | cons c front ih =>
    rw [List.mem_cons, not_or] at h
    obtain ⟨first, others⟩ := h
    have elsewhere : ¬ d :: ds <+: c :: (front ++ (d :: ds ++ back)) := fun starts =>
      first (List.cons_prefix_cons.1 starts).1
    rw [List.cons_append, splitFirst, if_neg elsewhere, ih others]
    rfl

/-- A line is cut behind its keyword. -/
theorem readLine_keyword {keyword : String} (h : keyword.toList.all (· != ' ') = true)
    (rest : String) :
    readLine (keyword ++ " " ++ rest).toList = LineText.ofParts? keyword rest.toList := by
  have line : (keyword ++ " " ++ rest).toList = keyword.toList ++ ' ' :: rest.toList := by
    simp [String.toList_append]
  have front : (keyword.toList ++ ' ' :: rest.toList).takeWhile (· != ' ') = keyword.toList := by
    rw [List.takeWhile_append_of_pos (List.all_eq_true.1 h)]
    simp
  have back : ((keyword.toList ++ ' ' :: rest.toList).dropWhile (· != ' ')).drop 1 =
      rest.toList := by
    rw [List.dropWhile_append_of_pos (List.all_eq_true.1 h)]
    simp
  rw [line, readLine, front, back, String.ofList_toList]

theorem blank_not_mem_name (n : Name) : ' ' ∉ n.text.toList := by
  intro mem
  have name := n.isNameChar ' ' mem
  cases name

/-- An assignment is cut between its target, which has no blanks, and its value. -/
theorem splitFirst_assign (target : Name) (value : String) :
    splitFirst [' ', '=', ' '] (target.text ++ " = " ++ value).toList =
      some (target.text.toList, value.toList) := by
  have sides : (target.text ++ " = " ++ value).toList =
      target.text.toList ++ ([' ', '=', ' '] ++ value.toList) := by
    simp [String.toList_append]
  rw [sides]
  exact splitFirst_append (blank_not_mem_name target) value.toList

/-- The reader gets back what a line says. -/
theorem readLine_render (s : Statement) : readLine s.render.toList = some s.lineText := by
  cases s with
  | assign target value =>
    have written : (Statement.assign target value).render =
        "SET" ++ " " ++ (target.text ++ " = " ++ value.text) := by
      simp [Statement.render, String.append_assoc]
    rw [written, readLine_keyword (by decide), LineText.ofParts?, splitFirst_assign]
    simp [Statement.lineText]
  | ifThen c =>
    show readLine ("IF" ++ " " ++ c.render).toList = _
    rw [readLine_keyword (by decide), LineText.ofParts?, String.ofList_toList]
    rfl
  | elseIf c =>
    show readLine ("ELSEIF" ++ " " ++ c.render).toList = _
    rw [readLine_keyword (by decide), LineText.ofParts?, String.ofList_toList]
    rfl
  | otherwise => rfl
  | endIf => rfl
  | run subroutine =>
    show readLine ("RUN" ++ " " ++ subroutine.text).toList = _
    rw [readLine_keyword (by decide), LineText.ofParts?, String.ofList_toList]
    rfl
  | leave => rfl

/-- Lines with the same text say the same. -/
theorem lineText_eq_of_render_eq {s t : Statement} (h : s.render = t.render) :
    s.lineText = t.lineText := by
  have read := readLine_render s
  rw [h, readLine_render t] at read
  exact (Option.some.inj read).symm

/-! ## Branches -/

/-- How a line changes the open branches is a property of what it says. -/
theorem stepBlock_eq_of_lineText {s t : Statement} (h : s.lineText = t.lineText) (line : Nat)
    (openIfs : List Bool) : stepBlock line openIfs s = stepBlock line openIfs t := by
  cases s <;> cases t <;> first | rfl | cases h

theorem runBlocks_eq_of_lines {ss ts : List Statement}
    (h : ss.map Statement.render = ts.map Statement.render) (line : Nat) (openIfs : List Bool) :
    runBlocks line openIfs ss = runBlocks line openIfs ts := by
  induction ss generalizing ts line openIfs with
  | nil =>
    cases ts with
    | nil => rfl
    | cons t ts => cases h
  | cons s ss ih =>
    cases ts with
    | nil => cases h
    | cons t ts =>
      obtain ⟨first, rest⟩ := List.cons.inj h
      have step := stepBlock_eq_of_lineText (lineText_eq_of_render_eq first) line openIfs
      simp only [runBlocks, step, ih rest]

/-- Whether the branches of a program match is a property of its text. -/
theorem checkBlocks_eq_of_lines {ss ts : List Statement}
    (h : ss.map Statement.render = ts.map Statement.render) :
    checkBlocks ss = checkBlocks ts := by
  rw [checkBlocks, runBlocks_eq_of_lines h, checkBlocks]

end BuildingControl.Erl
