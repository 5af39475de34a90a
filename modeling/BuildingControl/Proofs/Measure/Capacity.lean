/-
  BuildingControl.Proofs.Measure.Capacity

  What the program for capacity curves computes.  Each unit has variables of its own,
  numbered names of finitely many stems, and no two of them share a key
  (`Variable.key_inj`); so a straight line of assignments acts on the variables of a
  unit as on a function of finitely many arguments (`perform`), and units do not
  disturb each other.  After the program every unit has the value of its curve, with
  the other coefficients where it is warmer outside than the threshold, and keeps the
  value with its own coefficients beside it (`runProgram_capacity`).
-/
import BuildingControl.Proofs.Erl.Arithmetic
import BuildingControl.Proofs.Erl.Numbered
import BuildingControl.Proofs.Measure.Curve
import BuildingControl.Proofs.Measure.Host
import Mathlib.Tactic.Ring

namespace BuildingControl.Measure

open Erl Model

/-! ## Curves -/

namespace Biquadratic

/-- The coefficient at a place. -/
def coefficient (q : Biquadratic) (k : Fin 6) : Float :=
  q.toList.get k

/-- The value of the curve. -/
def value {K : Type} [Field K] (q : Biquadratic) (x y : K) : K :=
  Number.exact q.a + Number.exact q.b * x + Number.exact q.c * x ^ 2 + Number.exact q.d * y +
    Number.exact q.e * y ^ 2 + Number.exact q.f * x * y

end Biquadratic

namespace Curve

/-! ## The variables of a unit -/

/-- The variables of one unit. -/
inductive Variable
  | overwrite
  | previous
  | pressure
  | inlet
  | humidity
  | outdoor
  | temperature
  | ratio
  | barometer
  | wetBulb
  | one
  | two
  | three
  | left
  | right
  | result
  | coefficient (source : Source) (k : Fin 6)
  deriving DecidableEq

namespace Variable

/-- Every variable. -/
def all : List Variable :=
  [overwrite, previous, pressure, inlet, humidity, outdoor, temperature, ratio, barometer, wetBulb,
   one, two, three, left, right, result] ++
  ((List.finRange 6).map (coefficient .own) ++ (List.finRange 6).map (coefficient .alternate))

theorem mem_all (v : Variable) : v ∈ all := by
  cases v with
  | coefficient source k => cases source <;> simp [all]
  | _ => simp [all]

/-- The name of a variable without the number of its unit. -/
def stem : Variable → String
  | overwrite => "CurveOverwrite"
  | previous => "CurveInput2_"
  | pressure => "Pressure"
  | inlet => "CoilInletDBT"
  | humidity => "CoilInletW"
  | outdoor => "OAT"
  | temperature => "TTmp_"
  | ratio => "WTmp_"
  | barometer => "PTmp_"
  | wetBulb => "MyWB_"
  | one => "IVOnea_"
  | two => "IVTwo_"
  | three => "IVThree_"
  | left => "LeftCurveInput_"
  | right => "RightCurveInput_"
  | result => "CurveInput_"
  | coefficient .own k => "C" ++ toString (k.val + 1) ++ "_"
  | coefficient .alternate k => "C" ++ toString (k.val + 1) ++ "_a"

/-- The name of a variable of unit `n`. -/
def name (v : Variable) (n : Nat) : String := v.stem ++ toString n

/-- The key of a variable of unit `n`. -/
def key (v : Variable) (n : Nat) : String := Text.asciiUpper (v.name n)

theorem stem_shape (v : Variable) : endsOpen v.stem = true ∧ isWord v.stem.toList = true := by
  have shapes : ∀ w ∈ all, endsOpen w.stem = true ∧ isWord w.stem.toList = true := by
    decide +kernel
  exact shapes v v.mem_all

theorem eq_of_stem {v w : Variable} (h : Text.asciiUpper v.stem = Text.asciiUpper w.stem) :
    v = w := by
  have apart : (all.map fun v => Text.asciiUpper v.stem).Nodup := by decide +kernel
  exact List.inj_on_of_nodup_map apart v.mem_all w.mem_all h

/-- No two variables of units share a key. -/
theorem key_inj {v w : Variable} {n k : Nat} : v.key n = w.key k ↔ v = w ∧ n = k := by
  rw [key, key, name, name, asciiUpper_numbered_iff v.stem_shape.1 w.stem_shape.1]
  constructor
  · rintro ⟨stems, rfl⟩
    exact ⟨eq_of_stem stems, rfl⟩
  · rintro ⟨rfl, rfl⟩
    exact ⟨rfl, rfl⟩

theorem isWord_name (v : Variable) (n : Nat) : isWord (v.name n).toList = true :=
  isWord_numbered v.stem_shape.2 n

theorem key_ne_null (v : Variable) (n : Nat) : v.key n ≠ nullKey := by
  have null : Text.asciiUpper "NULL" = nullKey := by decide
  rw [← null]
  exact asciiUpper_numbered_ne v.stem n (by decide)

/-- The token that a variable of unit `n` is. -/
def token (n : Nat) (v : Variable) : Token := .name (v.name n).toList

theorem isCut_token (n : Nat) (v : Variable) (ts : List Token) :
    isCut (v.token n :: ts) = (startsMark ts && isCut ts) := by
  rw [token, isCut, v.isWord_name n, Bool.true_and]

end Variable

/-! ## Straight lines -/

section Lines

variable {V : Type}

/-- The keys of the variables of unit `n`. -/
def keys (n : Nat) : Set String :=
  Set.range fun v : Variable => v.key n

/-- The values of the variables of unit `n`. -/
def view (n : Nat) (σ : Store V) : Variable → V := fun v => σ (v.key n)

theorem view_update (n : Nat) (σ : Store V) (v : Variable) (x : V) :
    view n (Function.update σ (v.key n) x) = Function.update (view n σ) v x := by
  funext w
  by_cases same : w = v
  · subst same
    rw [view, Function.update_self, Function.update_self]
  · have apart : w.key n ≠ v.key n := fun keys => same (Variable.key_inj.1 keys).1
    rw [view, Function.update_of_ne apart, Function.update_of_ne same, view]

/-- An assignment to a variable of a unit: its text, and what it comes to. -/
structure Line (V : Type) where
  target : Variable
  text : Nat → String
  value : (Variable → V) → V

/-- The lines of unit `n`. -/
def draft (n : Nat) (lines : List (Line V)) : Draft :=
  lines.flatMap fun l => Draft.set (l.target.name n) (l.text n)

/-- What lines do to the variables of their unit. -/
def perform (lines : List (Line V)) (s : Variable → V) : Variable → V :=
  lines.foldl (fun s l => Function.update s l.target (l.value s)) s

/-- The text of a line yields its value, in every state. -/
def Line.Right (A : Arithmetic V) (n : Nat) (l : Line V) : Prop :=
  ∀ σ, A.Yields σ (l.text n) (l.value (view n σ))

variable {A : Arithmetic V} {call : Name → Store V → Option (Store V)} {branches : List Branch}

variable (call) in
/-- Lines take a state to one where the variables of their unit are as performed, and no others
    have changed. -/
theorem takes_draft (reached : active branches = true) {n : Nat} {lines : List (Line V)}
    (right : ∀ l ∈ lines, l.Right A n) (σ : Store V) :
    ∃ τ, (draft n lines).Takes A.evaluation.machine call branches σ τ ∧
      view n τ = perform lines (view n σ) ∧ Set.EqOn τ σ (keys n)ᶜ := by
  induction lines generalizing σ with
  | nil => exact ⟨σ, Draft.takes_nil σ, rfl, Set.eqOn_refl σ _⟩
  | cons l lines ih =>
    obtain ⟨first, rest⟩ := List.forall_mem_cons.1 right
    obtain ⟨τ, takes, ends, frame⟩ :=
      ih rest (Function.update σ (l.target.key n) (l.value (view n σ)))
    rw [view_update] at ends
    refine ⟨τ, ?_, ends, fun k hk => ?_⟩
    · rw [draft, List.flatMap_cons]
      exact (Draft.takes_set reached (first σ)).append takes
    · rw [frame hk]
      exact Function.update_of_ne (fun same => hk ⟨l.target, same.symm⟩) _ _

theorem skips_draft {S : Type} {m : Machine S} {call : Name → S → Option S} {n : Nat}
    {lines : List (Line V)} : (draft n lines).Skips m call :=
  Draft.skips_flatMap fun _ _ => Draft.skips_set

end Lines

/-! ## The lines of a unit -/

section Means

variable {V : Type} (A : Arithmetic V) (n : Nat) (σ : Store V)

theorem means_token (v : Variable) : A.Means σ .operand [v.token n] [view n σ v] :=
  Arithmetic.means_word (v.key_ne_null n)

/-- A product of two variables. -/
theorem means_times (u v : Variable) :
    A.Means σ .product [u.token n, .other '*', v.token n]
      [A.operate .multiply (view n σ u) (view n σ v)] :=
  .product .multiply rfl (.single (.alone (means_token A n σ u))) (.alone (means_token A n σ v))

/-- A product of three. -/
theorem means_times_times (u v w : Variable) :
    A.Means σ .product [u.token n, .other '*', v.token n, .other '*', w.token n]
      [A.operate .multiply (A.operate .multiply (view n σ u) (view n σ v)) (view n σ w)] :=
  .product .multiply rfl (means_times A n σ u v) (.alone (means_token A n σ w))

end Means

/-- The marks of the generated expressions. -/
theorem isMark_of_mem {c : Char} (h : c ∈ ['+', '*', '(', ')', ' ']) : isMark c = true := by
  have marks : ['+', '*', '(', ')', ' '].all isMark = true := by decide
  exact List.all_eq_true.1 marks c h

section Lines

variable {K : Type} [Field K] (calls : String → List K → K)

/-- A variable takes the value of another. -/
def copy (target source : Variable) : Line K :=
  ⟨target, source.name, fun s => s source⟩

/-- A coefficient takes its value. -/
def constant (target : Variable) (x : Float) : Line K :=
  ⟨target, fun _ => Number.format x, fun _ => (Number.exact x : K)⟩

/-- The wet-bulb temperature from three readings. -/
def wetBulbLine : Line K where
  target := .wetBulb
  text n := "@TwbFnTdbWPb " ++ Variable.temperature.name n ++ " " ++ Variable.ratio.name n ++ " " ++
    Variable.barometer.name n
  value s := calls "TWBFNTDBWPB" [s .temperature, s .ratio, s .barometer]

/-- The product of the two temperatures. -/
def productLine : Line K where
  target := .three
  text n := Variable.one.name n ++ "*" ++ Variable.two.name n
  value s := s .one * s .two

/-- The terms in the first temperature alone. -/
def leftLine (source : Source) : Line K where
  target := .left
  text n :=
    let k := fun i => (Variable.coefficient source i).name n
    let x := Variable.one.name n
    k 0 ++ "+(" ++ k 1 ++ "*" ++ x ++ ")+(" ++ k 2 ++ "*" ++ x ++ "*" ++ x ++ ")"
  value s :=
    let k := fun i => s (.coefficient source i)
    k 0 + k 1 * s .one + k 2 * s .one * s .one

/-- The other terms. -/
def rightLine (source : Source) : Line K where
  target := .right
  text n :=
    let k := fun i => (Variable.coefficient source i).name n
    let y := Variable.two.name n
    "(" ++ k 3 ++ "*" ++ y ++ ")+(" ++ k 4 ++ "*" ++ y ++ "*" ++ y ++ ")+(" ++ k 5 ++ "*" ++
      Variable.three.name n ++ ")"
  value s :=
    let k := fun i => s (.coefficient source i)
    k 3 * s .two + k 4 * s .two * s .two + k 5 * s .three

/-- The value of the curve. -/
def resultLine : Line K where
  target := .result
  text n := Variable.left.name n ++ " + " ++ Variable.right.name n
  value s := s .left + s .right

/-- The lines that set coefficients. -/
def coefficientLines (source : Source) (q : Biquadratic) : List (Line K) :=
  (List.finRange 6).map fun k => constant (.coefficient source k) (q.coefficient k)

/-- The lines that compute a curve. -/
def evaluateLines (source : Source) : List (Line K) :=
  [leftLine source, rightLine source, resultLine]

/-- The lines that read the sensors. -/
def readingLines (calls : String → List K → K) : List (Line K) :=
  [copy .temperature .inlet, copy .ratio .humidity, copy .barometer .pressure, wetBulbLine calls,
   copy .one .wetBulb, copy .two .outdoor, productLine]

theorem coefficientName_eq (source : Source) (n : Nat) (k : Fin 6) :
    coefficientName source n (k.val + 1) = (Variable.coefficient source k).name n := by
  cases source <;> rfl

theorem setCoefficients_eq (source : Source) (n : Nat) (q : Biquadratic) :
    setCoefficients source n q = draft n (coefficientLines (K := K) source q) := by
  have places : q.toList.zipIdx 1 =
      (List.finRange 6).map fun k => (q.coefficient k, k.val + 1) := rfl
  rw [setCoefficients, places, draft, coefficientLines, List.flatMap_map, List.flatMap_map]
  refine congrArg (List.flatMap · _) (funext fun k => ?_)
  rw [coefficientName_eq]
  rfl

theorem evaluate_eq (source : Source) (n : Nat) :
    evaluate source n = draft n (evaluateLines (K := K) source) := by
  -- the texts differ in how they are put together; the names of coefficients, in the case split
  let k := coefficientName source n
  let x := s!"IVOnea_{n}"
  let y := s!"IVTwo_{n}"
  have left : k 1 ++ "+(" ++ k 2 ++ "*" ++ x ++ ")+(" ++ k 3 ++ "*" ++ x ++ "*" ++ x ++ ")" =
      (leftLine (K := K) source).text n := by
    cases source <;> rfl
  have three : s!"*IVThree_{n})" = "*" ++ Variable.three.name n ++ ")" := by
    apply String.toList_injective
    simp [Variable.name, Variable.stem, toString]
  have right : "(" ++ k 4 ++ "*" ++ y ++ ")+(" ++ k 5 ++ "*" ++ y ++ "*" ++ y ++ ")+(" ++ k 6 ++
      s!"*IVThree_{n})" = (rightLine (K := K) source).text n := by
    rw [three, ← String.append_assoc, ← String.append_assoc]
    cases source <;> rfl
  have sum : s!"LeftCurveInput_{n} + RightCurveInput_{n}" = (resultLine (K := K)).text n := by
    apply String.toList_injective
    simp [resultLine, Variable.name, Variable.stem, toString]
  simp only [evaluate, sum]
  rw [left, right, draft, evaluateLines, List.flatMap_cons, List.flatMap_cons,
    List.flatMap_singleton, List.append_assoc]
  rfl

/-- The lines of a unit in front of its branch. -/
def frontLines (calls : String → List K → K) (c : Curve) (u : CurveUnit) : List (Line K) :=
  readingLines calls ++ coefficientLines .own u.coefficients ++
    coefficientLines .alternate c.alternate ++ evaluateLines .own ++ [copy .previous .result]

/-- The lines of a unit: those in front of its branch, the branch, and the result. -/
theorem unitBody_eq (calls : String → List K → K) (c : Curve) (threshold : Float) (u : CurveUnit)
    (n : Nat) : c.unitBody threshold u n = draft n (frontLines calls c u) ++
      (Draft.ifCompare (outdoorName n) .gt threshold ++
        draft n (evaluateLines (K := K) .alternate) ++ Draft.push .endIf) ++
      draft n [copy (K := K) .overwrite .result] := by
  have wetBulb : s!"@TwbFnTdbWPb TTmp_{n} WTmp_{n} PTmp_{n}" = (wetBulbLine calls).text n := by
    apply String.toList_injective
    simp [wetBulbLine, Variable.name, Variable.stem, toString]
  have product : s!"IVOnea_{n}*IVTwo_{n}" = (productLine (K := K)).text n := by
    apply String.toList_injective
    simp [productLine, Variable.name, Variable.stem, toString]
  rw [unitBody, wetBulb, product, setCoefficients_eq (K := K), setCoefficients_eq (K := K),
    evaluate_eq (K := K), evaluate_eq (K := K)]
  simp only [draft, frontLines, readingLines, List.flatMap_append, List.flatMap_cons,
    List.flatMap_nil, List.append_nil, List.append_assoc]
  rfl

/-! ## What the lines come to -/

/-- The variables hold what a curve is computed from. -/
structure Holds (q : Biquadratic) (source : Source) (x y : K) (s : Variable → K) : Prop where
  one : s .one = x
  two : s .two = y
  three : s .three = x * y
  coefficient : ∀ k, s (.coefficient source k) = (Number.exact (q.coefficient k) : K)

/-- Computing a curve in two halves gives its value. -/
theorem perform_evaluateLines {q : Biquadratic} {source : Source} {x y : K} {s : Variable → K}
    (h : Holds q source x y s) : perform (evaluateLines source) s .result = q.value x y := by
  have sum : perform (evaluateLines source) s .result =
      s (.coefficient source 0) + s (.coefficient source 1) * s .one +
        s (.coefficient source 2) * s .one * s .one +
        (s (.coefficient source 3) * s .two + s (.coefficient source 4) * s .two * s .two +
          s (.coefficient source 5) * s .three) := rfl
  have value : q.value x y = Number.exact (q.coefficient 0) + Number.exact (q.coefficient 1) * x +
      Number.exact (q.coefficient 2) * x ^ 2 + Number.exact (q.coefficient 3) * y +
      Number.exact (q.coefficient 4) * y ^ 2 + Number.exact (q.coefficient 5) * x * y := rfl
  simp only [sum, value, h.one, h.two, h.three, h.coefficient]
  ring

/-- In front of the branch the value with the unit's own coefficients is there, and what the value
    with the others is computed from. -/
theorem perform_frontLines (c : Curve) (u : CurveUnit) (s : Variable → K) {x : K}
    (wetBulb : calls "TWBFNTDBWPB" [s .inlet, s .humidity, s .pressure] = x) :
    Holds c.alternate .alternate x (s .outdoor) (perform (frontLines calls c u) s) ∧
      perform (frontLines calls c u) s .previous = u.coefficients.value x (s .outdoor) ∧
      perform (frontLines calls c u) s .result = u.coefficients.value x (s .outdoor) ∧
      perform (frontLines calls c u) s .outdoor = s .outdoor := by
  -- the lines run by computation: a variable has the value of the last line that sets it
  let ready := perform (readingLines calls ++ coefficientLines .own u.coefficients ++
    coefficientLines .alternate c.alternate) s
  have times := congrArg (· * s .outdoor) wetBulb
  have own : Holds u.coefficients .own x (s .outdoor) ready :=
    ⟨wetBulb, rfl, times, fun | 0 | 1 | 2 | 3 | 4 | 5 => rfl⟩
  have value : perform (evaluateLines .own) ready .result = u.coefficients.value x (s .outdoor) :=
    perform_evaluateLines own
  -- computing the first value has changed none of what the second is computed from
  exact ⟨⟨wetBulb, rfl, times, fun | 0 | 1 | 2 | 3 | 4 | 5 => rfl⟩, value, value, rfl⟩

end Lines

/-! ## The lines are right -/

section Right

variable {K : Type} [Field K] [LinearOrder K] {calls : String → List K → K}
  {test : Expression → Store K → Bool} {n : Nat}

theorem right_copy (target source : Variable) :
    (copy target source).Right (Arithmetic.exact calls test) n :=
  fun _ => Arithmetic.yields_word (source.isWord_name n) (source.key_ne_null n)

theorem right_constant (target : Variable) {x : Float} (finite : x.isFinite = true)
    (reads : Number.ReadsBack x) : (constant target x).Right (Arithmetic.exact calls test) n :=
  fun _ => Arithmetic.yields_format_exact finite reads

theorem right_wetBulb : (wetBulbLine calls).Right (Arithmetic.exact calls test) n := by
  intro σ
  have token := means_token (Arithmetic.exact calls test) n σ
  have means : (Arithmetic.exact calls test).Means σ .factor [.function "TwbFnTdbWPb".toList,
      Variable.temperature.token n, Variable.ratio.token n, Variable.barometer.token n] _ :=
    .call _ (.more (token .temperature) (.more (token .ratio) (.more (token .barometer) .none)))
  have function : Text.asciiUpper (String.ofList "TwbFnTdbWPb".toList) = "TWBFNTDBWPB" := by decide
  have called : "TwbFnTdbWPb".toList.all isNameChar = true := by decide
  rw [function] at means
  refine Arithmetic.yields_of_means [.function "TwbFnTdbWPb".toList, .other ' ',
    Variable.temperature.token n, .other ' ', Variable.ratio.token n, .other ' ',
    Variable.barometer.token n] ?_ ?_ (.term (.single means))
  · simp [wetBulbLine, Token.chars, Variable.token]
  · rw [isCut, called]
    simp [isCut, Variable.isCut_token, startsMark, isMark_of_mem]

theorem right_product : (productLine (K := K)).Right (Arithmetic.exact calls test) n := by
  intro σ
  refine Arithmetic.yields_of_means [Variable.one.token n, .other '*', Variable.two.token n] ?_ ?_
    (.term (means_times (Arithmetic.exact calls test) n σ .one .two))
  · simp [productLine, Token.chars, Variable.token]
  · simp [isCut, Variable.isCut_token, startsMark, isMark_of_mem]

theorem right_left (source : Source) :
    (leftLine (K := K) source).Right (Arithmetic.exact calls test) n := by
  intro σ
  let A := Arithmetic.exact calls test
  let k := fun i => Variable.token n (.coefficient source i)
  let x := Variable.one.token n
  have first := means_token A n σ (.coefficient source 0)
  have linear := means_times A n σ (.coefficient source 1) .one
  have square := means_times_times A n σ (.coefficient source 2) .one .one
  refine Arithmetic.yields_of_means [k 0, .other '+', .other '(', k 1, .other '*', x, .other ')',
    .other '+', .other '(', k 2, .other '*', x, .other '*', x, .other ')'] ?_ ?_
    (.sum .add rfl (.sum .add rfl (.term (.single (.alone first)))
      (.single (.alone (.group (.term linear))))) (.single (.alone (.group (.term square)))))
  · simp [leftLine, Token.chars, Variable.token, k, x]
  · simp [isCut, Variable.isCut_token, startsMark, isMark_of_mem, k, x]

theorem right_right (source : Source) :
    (rightLine (K := K) source).Right (Arithmetic.exact calls test) n := by
  intro σ
  let A := Arithmetic.exact calls test
  let k := fun i => Variable.token n (.coefficient source i)
  let y := Variable.two.token n
  have linear := means_times A n σ (.coefficient source 3) .two
  have square := means_times_times A n σ (.coefficient source 4) .two .two
  have mixed := means_times A n σ (.coefficient source 5) .three
  refine Arithmetic.yields_of_means [.other '(', k 3, .other '*', y, .other ')', .other '+',
    .other '(', k 4, .other '*', y, .other '*', y, .other ')', .other '+', .other '(', k 5,
    .other '*', Variable.three.token n, .other ')'] ?_ ?_
    (.sum .add rfl (.sum .add rfl (.term (.single (.alone (.group (.term linear)))))
      (.single (.alone (.group (.term square))))) (.single (.alone (.group (.term mixed)))))
  · simp [rightLine, Token.chars, Variable.token, k, y]
  · simp [isCut, Variable.isCut_token, startsMark, isMark_of_mem, k, y]

theorem right_result : (resultLine (K := K)).Right (Arithmetic.exact calls test) n := by
  intro σ
  have token := means_token (Arithmetic.exact calls test) n σ
  refine Arithmetic.yields_of_means [Variable.left.token n, .other ' ', .other '+', .other ' ',
    Variable.right.token n] ?_ ?_
    (.sum .add rfl (.term (.single (.alone (token .left)))) (.single (.alone (token .right))))
  · simp [resultLine, Token.chars, Variable.token]
  · simp [isCut, Variable.isCut_token, startsMark, isMark_of_mem]

theorem right_coefficientLines (source : Source) {q : Biquadratic}
    (finite : ∀ x ∈ q.toList, x.isFinite = true) (reads : ∀ x ∈ q.toList, Number.ReadsBack x) :
    ∀ l ∈ coefficientLines source q, l.Right (Arithmetic.exact calls test) n := by
  intro l hl
  obtain ⟨k, -, rfl⟩ := List.mem_map.1 hl
  have given : q.coefficient k ∈ q.toList := List.get_mem ..
  exact right_constant _ (finite _ given) (reads _ given)

theorem right_evaluateLines (source : Source) :
    ∀ l ∈ evaluateLines (K := K) source, l.Right (Arithmetic.exact calls test) n := by
  simp only [evaluateLines, List.forall_mem_cons]
  exact ⟨right_left source, right_right source, right_result, nofun⟩

theorem right_frontLines {c : Curve} {u : CurveUnit}
    (own : ∀ l ∈ coefficientLines (K := K) .own u.coefficients,
      l.Right (Arithmetic.exact calls test) n)
    (others : ∀ l ∈ coefficientLines (K := K) .alternate c.alternate,
      l.Right (Arithmetic.exact calls test) n) :
    ∀ l ∈ frontLines calls c u, l.Right (Arithmetic.exact calls test) n := by
  have readings : ∀ l ∈ readingLines calls, l.Right (Arithmetic.exact calls test) n := by
    simp only [readingLines, List.forall_mem_cons]
    exact ⟨right_copy _ _, right_copy _ _, right_copy _ _, right_wetBulb, right_copy _ _,
      right_copy _ _, right_product, nofun⟩
  simp only [frontLines, List.forall_mem_append, List.forall_mem_singleton]
  exact ⟨⟨⟨⟨readings, own⟩, others⟩, right_evaluateLines .own⟩, right_copy _ _⟩

end Right

/-! ## Units -/

section Units

variable {K : Type} [Field K] [LinearOrder K] {calls : String → List K → K}
  {test : Expression → Store K → Bool} {call : Name → Store K → Option (Store K)}

/-- The wet-bulb temperature at the coil of unit `n`. -/
def wetBulb (calls : String → List K → K) (n : Nat) (σ : Store K) : K :=
  calls "TWBFNTDBWPB" [σ (Text.asciiUpper (inletName n)), σ (Text.asciiUpper (humidityName n)),
    σ (Text.asciiUpper (pressureName n))]

/-- The dry-bulb temperature outside of unit `n`. -/
def dryBulb (n : Nat) (σ : Store K) : K :=
  σ (Text.asciiUpper (outdoorName n))

/-- What the program leaves for a unit: the value of its curve, with the other coefficients above
    the threshold, and the value with its own. -/
structure Computed (calls : String → List K → K) (c : Curve) (threshold : Float)
    (u : CurveUnit × Nat) (σ τ : Store K) : Prop where
  overwrite : τ (Text.asciiUpper (overwriteName u.2)) =
    (if Number.exact threshold < dryBulb u.2 σ then c.alternate else u.1.coefficients).value
      (wetBulb calls u.2 σ) (dryBulb u.2 σ)
  previous : τ (Text.asciiUpper (previousName u.2)) =
    u.1.coefficients.value (wetBulb calls u.2 σ) (dryBulb u.2 σ)

variable (call) in
/-- The branch of a unit computes the value anew where it is warm, and else leaves everything as it
    is. -/
theorem takes_branch {c : Curve} (threshold : Float) {u : CurveUnit × Nat} {x y : K} {σ : Store K}
    (holds : Holds c.alternate .alternate x y (view u.2 σ)) (outdoor : view u.2 σ .outdoor = y)
    (result : view u.2 σ .result = u.1.coefficients.value x y) :
    ∃ τ, (Draft.ifCompare (outdoorName u.2) .gt threshold ++
        draft u.2 (evaluateLines (K := K) .alternate) ++ Draft.push .endIf).Takes
          (Arithmetic.exact calls test).evaluation.machine call [] σ τ ∧
      view u.2 τ .result =
        (if Number.exact threshold < y then c.alternate else u.1.coefficients).value x y ∧
      view u.2 τ .previous = view u.2 σ .previous ∧ Set.EqOn τ σ (keys u.2)ᶜ := by
  have lines : ∀ l ∈ evaluateLines .alternate, l.Right (Arithmetic.exact calls test) u.2 :=
    right_evaluateLines .alternate
  have reached : active [] = true ∧ active [.running] = true := by decide
  have compares : (Arithmetic.exact calls test).compares .gt
      (σ (Text.asciiUpper (outdoorName u.2))) threshold = decide (Number.exact threshold < y) :=
    congrArg (fun t => decide ((Number.exact threshold : K) < t)) outdoor
  by_cases warm : (Number.exact threshold : K) < y
  · obtain ⟨τ, inside, ends, frame⟩ := takes_draft call reached.2 lines σ
    refine ⟨τ, Draft.takes_ifCompare reached.1 skips_draft (fun _ => inside) fun cold => ?_, ?_, ?_,
      frame⟩
    · exact absurd warm (of_decide_eq_false (compares.symm.trans cold))
    · rw [ends, if_pos warm]
      exact perform_evaluateLines holds
    · rw [ends]
      rfl
  · refine ⟨σ, Draft.takes_ifCompare reached.1 skips_draft (fun above => ?_) fun _ => rfl, ?_, rfl,
      Set.eqOn_refl σ _⟩
    · exact absurd (of_decide_eq_true (compares.symm.trans above)) warm
    · rw [if_neg warm]
      exact result

variable (call) in
/-- The lines of a unit compute its values and touch no variable of another. -/
theorem takes_unitBody {c : Curve} (threshold : Float) {u : CurveUnit × Nat}
    (right : ∀ l ∈ frontLines calls c u.1, l.Right (Arithmetic.exact calls test) u.2)
    (σ : Store K) :
    ∃ τ, (c.unitBody threshold u.1 u.2).Takes (Arithmetic.exact calls test).evaluation.machine
        call [] σ τ ∧ Set.EqOn τ σ (keys u.2)ᶜ ∧ Computed calls c threshold u σ τ := by
  have reached : active [] = true := by decide
  obtain ⟨σ₁, front, ends₁, frame₁⟩ := takes_draft call reached right σ
  have ready := perform_frontLines calls c u.1 (view u.2 σ) (x := wetBulb calls u.2 σ) rfl
  rw [← ends₁] at ready
  obtain ⟨holds, previous, result, outdoor⟩ := ready
  obtain ⟨σ₂, branch, value, kept, frame₂⟩ := takes_branch call threshold holds outdoor result
  have last : ∀ l ∈ [copy .overwrite .result], l.Right (Arithmetic.exact calls test) u.2 :=
    List.forall_mem_singleton.2 (right_copy _ _)
  obtain ⟨τ, back, ends₃, frame₃⟩ := takes_draft call reached last σ₂
  refine ⟨τ, ?_, frame₃.trans (frame₂.trans frame₁), ?_, ?_⟩
  · rw [unitBody_eq calls]
    exact (front.append branch).append back
  · exact (congrFun ends₃ .overwrite).trans value
  · exact (congrFun ends₃ .previous).trans (kept.trans previous)

variable (call) in
/-- The lines of all units. -/
theorem takes_body {c : Curve} (threshold : Float) (a : Numbering)
    (right : ∀ u ∈ c.units.zipIdx a.next,
      ∀ l ∈ frontLines calls c u.1, l.Right (Arithmetic.exact calls test) u.2) (σ : Store K) :
    ∃ τ, (c.body threshold a).Takes (Arithmetic.exact calls test).evaluation.machine call [] σ τ ∧
      ∀ u ∈ c.units.zipIdx a.next, Computed calls c threshold u σ τ := by
  have apart : (c.units.zipIdx a.next).Pairwise fun u v => ∀ k ∈ keys u.2, k ∉ keys v.2 := by
    have numbers : ((c.units.zipIdx a.next).map Prod.snd).Nodup := by
      rw [List.zipIdx_map_snd]
      exact List.nodup_range'
    refine (List.pairwise_map.1 numbers).imp fun different => ?_
    rintro _ ⟨v, rfl⟩ ⟨w, same⟩
    exact different (Variable.key_inj.1 same).2.symm
  -- what is left for a unit depends on its variables alone
  have congr (u : CurveUnit × Nat) {σ σ' τ τ' : Store K} (before : Set.EqOn σ σ' (keys u.2 ∪ ∅))
      (after : Set.EqOn τ τ' (keys u.2)) (h : Computed calls c threshold u σ τ) :
      Computed calls c threshold u σ' τ' := by
    have read (v : Variable) : σ' (v.key u.2) = σ (v.key u.2) := (before (.inl ⟨v, rfl⟩)).symm
    have left (v : Variable) : τ' (v.key u.2) = τ (v.key u.2) := (after ⟨v, rfl⟩).symm
    have coil : wetBulb calls u.2 σ' = wetBulb calls u.2 σ := by
      show calls "TWBFNTDBWPB" [σ' (Variable.inlet.key u.2), σ' (Variable.humidity.key u.2),
        σ' (Variable.pressure.key u.2)] = _
      rw [read, read, read]
      rfl
    have outside : dryBulb u.2 σ' = dryBulb u.2 σ := read .outdoor
    exact {
      overwrite := by
        rw [coil, outside]
        exact (left .overwrite).trans h.overwrite
      previous := by
        rw [coil, outside]
        exact (left .previous).trans h.previous }
  have step (u : CurveUnit × Nat) (hu : u ∈ c.units.zipIdx a.next) :=
    takes_unitBody call threshold (right u hu)
  obtain ⟨τ, takes, -, results⟩ := Draft.takes_flatMap_of_apart
    (fun u : CurveUnit × Nat => keys u.2) ∅ (Computed calls c threshold) apart
    (fun _ _ k _ => Set.notMem_empty k) step (fun u _ _ _ _ _ => congr u) σ
  exact ⟨τ, takes, results⟩

end Units

/-! ## The measure -/

/-- A model has a sensor of this name for an output variable. -/
def Reads (m : Model) (name key output : String) : Prop :=
  ∃ s ∈ m.sensors, s.name.text = name ∧ s.key = key ∧ s.output = output

/-- A model declares what the program reads and leaves for a unit: sensors at the nodes of its heat
    pump, the actuator of its curve, and a global. -/
structure Declares (m : Model) (u : CurveUnit × Nat) : Prop where
  overwrite : ∃ x ∈ m.actuators, x.name.text = overwriteName u.2 ∧ x.component = u.1.curve ∧
    x.componentType = "Curve" ∧ x.control = "Curve Result"
  previous : ∃ g ∈ m.globals, g.text = previousName u.2
  inlet : Reads m (inletName u.2) (u.1.heatPump ++ " Mixed Air Node") "System Node Temperature"
  humidity : Reads m (humidityName u.2) (u.1.heatPump ++ " Mixed Air Node")
    "System Node Humidity Ratio"
  pressure : Reads m (pressureName u.2) (u.1.heatPump ++ " OA Node") "System Node Pressure"
  outdoor : Reads m (outdoorName u.2) (u.1.heatPump ++ " OA Node") "System Node Temperature"

section Measure

variable {c : Curve} {a : Numbering} {m : Model} (h : (c.script a).run .empty = .ok m)

include h

theorem declares_unit {u : CurveUnit × Nat} (hu : u ∈ c.units.zipIdx a.next) : Declares m u := by
  have sub := unitScript_subset h hu
  have sensor {name key output : String} (part : ∀ x ∈ Script.sensor name key output,
      x ∈ c.unitScript u.1 u.2) : Reads m name key output :=
    Script.exists_sensor_of_part h fun x hx => sub (part x hx)
  have part : Script.actuator (overwriteName u.2) u.1.curve .curve "Curve Result" ⊆ c.script a :=
    fun x hx => sub (by simp only [unitScript, List.mem_append, hx, true_or])
  obtain ⟨x, hx, name, offered⟩ := Script.exists_actuator_of_part h part
  have control : ComponentKind.curve.control? "Curve Result" = some "Curve Result" := by decide
  have actuator := Script.eq_of_ofComponent offered rfl control
  exact {
    overwrite := ⟨x, hx, name, by rw [actuator], by rw [actuator], by rw [actuator]⟩
    previous := Script.exists_global_of_part h
      fun x hx => sub (by simp only [unitScript, List.mem_append, hx, true_or, or_true])
    inlet := sensor fun x hx => by simp only [unitScript, List.mem_append, hx, true_or, or_true]
    humidity := sensor fun x hx => by simp only [unitScript, List.mem_append, hx, true_or, or_true]
    pressure := sensor fun x hx => by simp only [unitScript, List.mem_append, hx, true_or, or_true]
    outdoor := sensor fun x hx => by simp only [unitScript, List.mem_append, hx, true_or, or_true] }

theorem finite_coefficients {u : CurveUnit × Nat} (hu : u ∈ c.units.zipIdx a.next) :
    (∀ x ∈ u.1.coefficients.toList, x.isFinite = true) ∧
      ∀ x ∈ c.alternate.toList, x.isFinite = true := by
  have sub := unitScript_subset h hu
  exact ⟨finite_of_subset h fun x hx =>
      sub (by simp only [unitScript, List.mem_append, hx, true_or, or_true]),
    finite_of_subset h fun x hx => sub (by simp only [unitScript, List.mem_append, hx, or_true])⟩

/-- The program of the measure is the only program of its model. -/
theorem exists_program : ∃ threshold p, c.thresholdCelsius = .ok threshold ∧ m.programs = [p] ∧
    p.name.text = c.program ∧ (c.body threshold a).build = .ok p.body := by
  obtain ⟨threshold, limit, shape⟩ := outline h
  obtain ⟨p, programs, name, body⟩ := Script.exists_programs_eq h Script.isProgram_program
    shape (Script.bodies_flatMap_of_none fun u => by simp [unitScript, report]) (by simp)
  exact ⟨threshold, p, limit, programs, name, body⟩

end Measure

/-- What the measure does for any number of units, wherever their numbers start: each of them gets
    the value of its curve at its own readings. -/
theorem runProgram_capacity {K : Type} [Field K] [LinearOrder K] {c : Curve} {a next : Numbering}
    {m : Model} (built : (Measure.curveResultOverride c).build a = .ok (m, next))
    (own : ∀ u ∈ c.units, ∀ x ∈ u.coefficients.toList, Number.ReadsBack x)
    (others : ∀ x ∈ c.alternate.toList, Number.ReadsBack x)
    (calls : String → List K → K) (test : Expression → Store K → Bool) (depth : Nat)
    (σ : Store K) :
    ∃ threshold, c.thresholdCelsius = .ok threshold ∧
      (∀ u ∈ c.units.zipIdx a.next, Declares m u) ∧
      ∃ τ, m.runProgram (Arithmetic.exact calls test).evaluation.machine (depth + 1) c.program σ =
          some τ ∧
        ∀ u ∈ c.units.zipIdx a.next, Computed calls c threshold u σ τ := by
  have ran : (c.script a).run .empty = .ok m := (build_eq_ok_iff.1 built).1
  obtain ⟨threshold, p, limit, programs, name, body⟩ := exists_program ran
  have right : ∀ u ∈ c.units.zipIdx a.next,
      ∀ l ∈ frontLines calls c u.1, l.Right (Arithmetic.exact calls test) u.2 := by
    intro u hu
    obtain ⟨ownFinite, otherFinite⟩ := finite_coefficients ran hu
    exact right_frontLines
      (right_coefficientLines .own ownFinite (own u.1 (List.fst_mem_of_mem_zipIdx hu)))
      (right_coefficientLines .alternate otherFinite others)
  obtain ⟨τ, takes, results⟩ := takes_body
    (m.call (Arithmetic.exact calls test).evaluation.machine depth) threshold a right σ
  refine ⟨threshold, limit, fun u hu => declares_unit ran hu, τ, ?_, results⟩
  rw [runProgram_of_programs programs name]
  exact takes.run body

/-- One heat pump, numbered from seven. -/
def onePump : Curve where
  units := [⟨"H", "C", ⟨1, 0.5, 0, 0.25, 0, 0⟩⟩]
  threshold := "30 C"
  alternate := ⟨0.5, 0, 0.125, 0, 0, -0.5⟩
  program := "P"
  manager := "M"

/-- Readings at the heat pump: 20 degrees at its coil, and 32 degrees outside. -/
def hotReadings : Store ℚ := fun k =>
  if k = "OAT7" then 32 else if k = "COILINLETDBT7" then 20 else 0

/-- A wet-bulb temperature that is half the dry-bulb temperature. -/
def half (_ : String) (arguments : List ℚ) : ℚ := arguments.headD 0 / 2

/-- The curve gets the value with the other coefficients, and the value with its own is kept. -/
theorem runProgram_capacity_onePump : ∃ m next τ,
    (Measure.curveResultOverride onePump).build ⟨7, by decide, by decide⟩ = .ok (m, next) ∧
      (∀ u ∈ onePump.units, ∀ x ∈ u.coefficients.toList, Number.ReadsBack x) ∧
      (∀ x ∈ onePump.alternate.toList, Number.ReadsBack x) ∧
      m.runProgram (Arithmetic.exact half fun _ _ => false).evaluation.machine 1 "P" hotReadings =
        some τ ∧
      τ (Text.asciiUpper (overwriteName 7)) = -147 ∧ τ (Text.asciiUpper (previousName 7)) = 14 := by
  have builds : ((Measure.curveResultOverride onePump).build ⟨7, by decide, by decide⟩).isOk =
      true := by
    decide +kernel
  obtain ⟨⟨m, next⟩, built⟩ := exists_of_isOk builds
  have own : ∀ u ∈ onePump.units, ∀ x ∈ u.coefficients.toList, Number.ReadsBack x := by
    decide +kernel
  have others : ∀ x ∈ onePump.alternate.toList, Number.ReadsBack x := by decide +kernel
  obtain ⟨threshold, limit, -, τ, ran, results⟩ :=
    runProgram_capacity built own others half (fun _ _ => false) 0 hotReadings
  have thirty : onePump.thresholdCelsius.toOption.map Number.exact = some 30 := by decide +kernel
  rw [limit] at thirty
  have value : Number.exact threshold = 30 := Option.some.inj thirty
  obtain ⟨overwrite, previous⟩ :=
    results (⟨"H", "C", ⟨1, 0.5, 0, 0.25, 0, 0⟩⟩, 7) List.mem_cons_self
  rw [value] at overwrite
  refine ⟨m, next, τ, built, own, others, ran, overwrite.trans ?_, previous.trans ?_⟩
  · decide +kernel
  · decide +kernel

end Curve

end BuildingControl.Measure
