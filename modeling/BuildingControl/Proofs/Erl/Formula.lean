/-
  BuildingControl.Proofs.Erl.Formula

  What expressions come to.  The language is that of sums, products, brackets,
  variables, numerals and calls, with the usual precedence and grouped to the left
  (`Arithmetic.Means`); what numbers, operations and functions are is a parameter
  (`Arithmetic`).  An expression is worked out in one pass over its tokens, with one
  frame per open bracket (`Arithmetic.step`), and what it means is what it comes to
  (`Arithmetic.value_of_means`).
-/
import BuildingControl.Proofs.Erl.Spelling
import BuildingControl.Proofs.Model.Execution

namespace BuildingControl.Erl

/-! ## Arithmetic -/

/-- The operations of expressions. -/
inductive Operator
  | add
  | subtract
  | multiply
  | divide
  deriving DecidableEq

namespace Operator

/-- The operation as program text. -/
def mark : Operator → Char
  | add => '+'
  | subtract => '-'
  | multiply => '*'
  | divide => '/'

/-- The operation that a character stands for. -/
def ofMark? : Char → Option Operator
  | '+' => some add
  | '-' => some subtract
  | '*' => some multiply
  | '/' => some divide
  | _ => none

@[simp] theorem ofMark?_mark (op : Operator) : ofMark? op.mark = some op := by
  cases op <;> rfl

/-- Whether the operation is between the terms of a sum, and not between factors. -/
def isAdditive : Operator → Bool
  | add => true
  | subtract => true
  | multiply => false
  | divide => false

end Operator

/-- What numbers, the null value, operations, functions and conditions come to.  Functions go by
    their names in upper case. -/
structure Arithmetic (V : Type) where
  number : Float → V
  null : V
  operate : Operator → V → V → V
  call : String → List V → V
  compares : Comparison → V → Float → Bool
  test : Expression → Store V → Bool

variable {V : Type}

/-- The name of the null value, in upper case. -/
def nullKey : String := "NULL"

/-- What a word comes to: the value of the variable, or the null value. -/
def Arithmetic.word (A : Arithmetic V) (σ : Store V) (text : List Char) : V :=
  let key := Text.asciiUpper (String.ofList text)
  if key = nullKey then A.null else σ key

/-! ## The grammar -/

/-- The parts of an expression, from the inside out. -/
inductive Level
  | operand
  | operands
  | factor
  | product
  | sum

/-- The tokens, blanks left out, are a part of an expression of this level, and these are the
    values of its operands.  All levels but `operands` have one value. -/
inductive Arithmetic.Means (A : Arithmetic V) (σ : Store V) : Level → List Token → List V → Prop
  | numeral {digits : List Char} {x : Float} (h : Decimal.readChars digits = .ok x) :
      Means A σ .operand [.number digits] [A.number x]
  | word (text : List Char) : Means A σ .operand [.name text] [A.word σ text]
  | group {ts : List Token} {v : V} (inside : Means A σ .sum ts [v]) :
      Means A σ .operand (.other '(' :: (ts ++ [.other ')'])) [v]
  | none : Means A σ .operands [] []
  | more {ts us : List Token} {v : V} {vs : List V} (first : Means A σ .operand ts [v])
      (rest : Means A σ .operands us vs) : Means A σ .operands (ts ++ us) (v :: vs)
  | alone {ts : List Token} {v : V} (h : Means A σ .operand ts [v]) : Means A σ .factor ts [v]
  | negative {digits : List Char} {x : Float} (h : Decimal.readChars ('-' :: digits) = .ok x) :
      Means A σ .factor [.other '-', .number digits] [A.number x]
  | call (function : List Char) {ts : List Token} {vs : List V}
      (arguments : Means A σ .operands ts vs) :
      Means A σ .factor (.function function :: ts)
        [A.call (Text.asciiUpper (String.ofList function)) vs]
  | single {ts : List Token} {v : V} (h : Means A σ .factor ts [v]) : Means A σ .product ts [v]
  | product (op : Operator) (level : op.isAdditive = false) {ts us : List Token} {v w : V}
      (left : Means A σ .product ts [v]) (right : Means A σ .factor us [w]) :
      Means A σ .product (ts ++ .other op.mark :: us) [A.operate op v w]
  | term {ts : List Token} {v : V} (h : Means A σ .product ts [v]) : Means A σ .sum ts [v]
  | sum (op : Operator) (level : op.isAdditive = true) {ts us : List Token} {v w : V}
      (left : Means A σ .sum ts [v]) (right : Means A σ .product us [w]) :
      Means A σ .sum (ts ++ .other op.mark :: us) [A.operate op v w]

/-! ## Working out -/

/-- What was read last inside a bracket. -/
inductive Last (V : Type)
  | nothing
  | minus
  | value (v : V)
  | call (function : String) (arguments : List V)

/-- How far the tokens inside a bracket have been worked out: what is still to be done with the
    next product and with the next factor, and what was read last. -/
structure Frame (V : Type) where
  onProduct : V → V
  onFactor : V → V
  last : Last V

namespace Frame

/-- The frame of a bracket that was just opened. -/
def opened : Frame V := ⟨id, id, .nothing⟩

/-- The frame with one more operand. -/
def push (f : Frame V) (v : V) : Option (Frame V) :=
  match f.last with
  | .nothing => some { f with last := .value v }
  | .call function arguments => some { f with last := .call function (arguments ++ [v]) }
  | .minus => none
  | .value _ => none

/-- The frame with more operands. -/
def pushAll (f : Frame V) (vs : List V) : Option (Frame V) :=
  vs.foldlM push f

end Frame

namespace Arithmetic

variable (A : Arithmetic V)

/-- The factor that was read last. -/
def factor? (f : Frame V) : Option V :=
  match f.last with
  | .value v => some v
  | .call function arguments => some (A.call function arguments)
  | .nothing => none
  | .minus => none

/-- The product that ends with the last factor. -/
def product? (f : Frame V) : Option V :=
  (A.factor? f).map f.onFactor

/-- The sum that ends with the last product. -/
def sum? (f : Frame V) : Option V :=
  (A.product? f).map f.onProduct

/-- The frame after the mark of an operation. -/
def operator? (f : Frame V) (op : Operator) : Option (Frame V) :=
  if op.isAdditive then (A.sum? f).map fun v => ⟨A.operate op v, id, .nothing⟩
  else (A.product? f).map fun v => ⟨f.onProduct, A.operate op v, .nothing⟩

/-- The frame after a numeral, which takes along a minus in front of it. -/
def numeral? (f : Frame V) (digits : List Char) : Option (Frame V) :=
  match f.last with
  | .minus =>
    (Decimal.readChars ('-' :: digits)).toOption.map fun x => { f with last := .value (A.number x) }
  | _ => (Decimal.readChars digits).toOption.bind fun x => f.push (A.number x)

/-- The frame after another character. -/
def mark? (f : Frame V) (c : Char) : Option (Frame V) :=
  match c, f.last with
  | '-', .nothing => some { f with last := .minus }
  | c, _ => (Operator.ofMark? c).bind (A.operator? f)

/-- The frames after one more token, the innermost first. -/
def step (σ : Store V) : List (Frame V) → Token → Option (List (Frame V))
  | f :: outer, .number digits => (A.numeral? f digits).map (· :: outer)
  | f :: outer, .name text => (f.push (A.word σ text)).map (· :: outer)
  | f :: outer, .function name =>
    match f.last with
    | .nothing =>
      some ({ f with last := .call (Text.asciiUpper (String.ofList name)) [] } :: outer)
    | _ => none
  | f :: outer, .other '(' => some (Frame.opened :: f :: outer)
  | f :: g :: outer, .other ')' => ((A.sum? f).bind g.push).map (· :: outer)
  | f :: outer, .other c => (A.mark? f c).map (· :: outer)
  | [], _ => none

/-- The frames after some tokens. -/
def steps (σ : Store V) (frames : List (Frame V)) (ts : List Token) : Option (List (Frame V)) :=
  ts.foldlM (A.step σ) frames

/-- What some tokens come to. -/
def read (σ : Store V) (ts : List Token) : Option V :=
  match A.steps σ [Frame.opened] ts with
  | some [f] => A.sum? f
  | _ => none

/-- What an expression comes to; one that has no meaning comes to the null value. -/
def value (x : Expression) (σ : Store V) : V :=
  (A.read σ (significant (tokens x.text.toList))).getD A.null

/-- The conventions of program text over this arithmetic. -/
def evaluation : Evaluation V := ⟨A.value, A.compares, A.test⟩

end Arithmetic

/-! ## What an expression means is what it comes to -/

namespace Arithmetic

variable {A : Arithmetic V} {σ : Store V}

theorem steps_append (frames : List (Frame V)) (ts us : List Token) :
    A.steps σ frames (ts ++ us) = (A.steps σ frames ts).bind fun fs => A.steps σ fs us :=
  List.foldlM_append

theorem steps_cons (frames : List (Frame V)) (t : Token) (ts : List Token) :
    A.steps σ frames (t :: ts) = (A.step σ frames t).bind fun fs => A.steps σ fs ts :=
  List.foldlM_cons

/-- What a part of an expression does to the frames where it may stand. -/
def Arrives (A : Arithmetic V) (σ : Store V) (ts : List Token) (vs : List V) : Level → Prop
  | .operand => ∀ f g outer, Frame.pushAll f vs = some g →
      A.steps σ (f :: outer) ts = some (g :: outer)
  | .operands => ∀ f g outer, Frame.pushAll f vs = some g →
      A.steps σ (f :: outer) ts = some (g :: outer)
  | .factor => ∀ p q outer, ∃ last, A.factor? ⟨p, q, last⟩ = vs.head? ∧
      A.steps σ (⟨p, q, .nothing⟩ :: outer) ts = some (⟨p, q, last⟩ :: outer)
  | .product => ∀ p outer, ∃ f : Frame V, f.onProduct = p ∧ A.product? f = vs.head? ∧
      A.steps σ (⟨p, id, .nothing⟩ :: outer) ts = some (f :: outer)
  | .sum => ∀ outer, ∃ f, A.sum? f = vs.head? ∧
      A.steps σ (Frame.opened :: outer) ts = some (f :: outer)

@[simp] theorem steps_nil (frames : List (Frame V)) : A.steps σ frames [] = some frames := rfl

theorem steps_singleton (frames : List (Frame V)) (t : Token) :
    A.steps σ frames [t] = A.step σ frames t := by
  rw [steps_cons]
  cases A.step σ frames t <;> rfl

@[simp] theorem pushAll_singleton (f : Frame V) (v : V) : f.pushAll [v] = f.push v := by
  exact Option.bind_fun_some _

/-- A call takes any number of operands. -/
theorem pushAll_call (p q : V → V) (function : String) (arguments vs : List V) :
    (⟨p, q, .call function arguments⟩ : Frame V).pushAll vs =
      some ⟨p, q, .call function (arguments ++ vs)⟩ := by
  induction vs generalizing arguments with
  | nil => simp [Frame.pushAll]
  | cons v vs ih =>
    rw [Frame.pushAll, List.foldlM_cons]
    have rest := ih (arguments ++ [v])
    rw [List.append_assoc] at rest
    exact rest

/-- The mark of an operation behind a factor. -/
theorem step_mark {f : Frame V} {v : V} (h : A.product? f = some v) (op : Operator)
    (outer : List (Frame V)) :
    A.step σ (f :: outer) (.other op.mark) = (A.operator? f op).map (· :: outer) := by
  -- there is a factor, so a minus is no sign
  have behind : A.mark? f op.mark = A.operator? f op := by
    obtain ⟨p, q, last⟩ := f
    cases last with
    | nothing => cases h
    | minus => cases h
    | value w => cases op <;> rfl
    | call function arguments => cases op <;> rfl
  have stays : A.step σ (f :: outer) (.other op.mark) = (A.mark? f op.mark).map (· :: outer) := by
    cases outer <;> cases op <;> rfl
  rw [stays, behind]

/-! ### Each form of the grammar -/

theorem arrives_numeral {digits : List Char} {x : Float} (h : Decimal.readChars digits = .ok x) :
    A.Arrives σ [.number digits] [A.number x] .operand := by
  intro f g outer taken
  rw [pushAll_singleton] at taken
  have read : A.numeral? f digits = some g := by
    unfold numeral?
    split
    · next minus =>
      -- no operand is pushed behind a sign
      rw [Frame.push, minus] at taken
      cases taken
    · rw [h]
      exact taken
  rw [steps_singleton, step, read]
  rfl

theorem arrives_word (text : List Char) :
    A.Arrives σ [.name text] [A.word σ text] .operand := by
  intro f g outer taken
  rw [pushAll_singleton] at taken
  rw [steps_singleton, step, taken]
  rfl

/-- A bracket is worked out in a frame of its own, which its value leaves. -/
theorem arrives_group {ts : List Token} {v : V} (inside : A.Arrives σ ts [v] .sum) :
    A.Arrives σ (.other '(' :: (ts ++ [.other ')'])) [v] .operand := by
  intro f g outer taken
  rw [pushAll_singleton] at taken
  obtain ⟨inner, value, ran⟩ := inside (f :: outer)
  have opens : A.step σ (f :: outer) (.other '(') = some (Frame.opened :: f :: outer) := by
    cases outer <;> rfl
  have closes : A.step σ (inner :: f :: outer) (.other ')') =
      ((A.sum? inner).bind f.push).map (· :: outer) := rfl
  rw [steps_cons, opens, Option.bind_some, steps_append, ran, Option.bind_some, steps_singleton,
    closes, value]
  show (f.push v).map (· :: outer) = _
  rw [taken]
  rfl

theorem arrives_more {ts us : List Token} {v : V} {vs : List V}
    (first : A.Arrives σ ts [v] .operand) (rest : A.Arrives σ us vs .operands) :
    A.Arrives σ (ts ++ us) (v :: vs) .operands := by
  intro f g outer taken
  rw [Frame.pushAll, List.foldlM_cons] at taken
  obtain ⟨between, before, after⟩ := Option.bind_eq_some_iff.1 taken
  rw [steps_append, first f between outer (by rw [pushAll_singleton, before])]
  exact rest between g outer after

theorem arrives_negative {digits : List Char} {x : Float}
    (h : Decimal.readChars ('-' :: digits) = .ok x) :
    A.Arrives σ [.other '-', .number digits] [A.number x] .factor := by
  intro p q outer
  refine ⟨.value (A.number x), rfl, ?_⟩
  have minus : A.step σ (⟨p, q, .nothing⟩ :: outer) (.other '-') =
      some (⟨p, q, .minus⟩ :: outer) := by
    cases outer <;> rfl
  have read : A.numeral? ⟨p, q, .minus⟩ digits = some ⟨p, q, .value (A.number x)⟩ := by
    simp [numeral?, h, Except.toOption]
  rw [steps_cons, minus, Option.bind_some, steps_singleton, step, read]
  rfl

theorem arrives_call (function : List Char) {ts : List Token} {vs : List V}
    (arguments : A.Arrives σ ts vs .operands) :
    A.Arrives σ (.function function :: ts)
      [A.call (Text.asciiUpper (String.ofList function)) vs] .factor := by
  intro p q outer
  refine ⟨.call (Text.asciiUpper (String.ofList function)) vs, rfl, ?_⟩
  have starts : A.step σ (⟨p, q, .nothing⟩ :: outer) (.function function) =
      some (⟨p, q, .call (Text.asciiUpper (String.ofList function)) []⟩ :: outer) := by
    cases outer <;> rfl
  rw [steps_cons, starts, Option.bind_some]
  exact arguments _ _ outer (pushAll_call p q _ [] vs)

/-- A product goes on with what it has come to so far as the left operand of the next factor. -/
theorem arrives_product {op : Operator} (level : op.isAdditive = false) {ts us : List Token}
    {v w : V} (left : A.Arrives σ ts [v] .product) (right : A.Arrives σ us [w] .factor) :
    A.Arrives σ (ts ++ .other op.mark :: us) [A.operate op v w] .product := by
  intro p outer
  obtain ⟨f, rfl, value, ran⟩ := left p outer
  obtain ⟨last, value', ran'⟩ := right f.onProduct (A.operate op v) outer
  have next : A.operator? f op = some ⟨f.onProduct, A.operate op v, .nothing⟩ := by
    rw [operator?, level, value]
    rfl
  refine ⟨⟨f.onProduct, A.operate op v, last⟩, rfl, ?_, ?_⟩
  · rw [product?, value']
    rfl
  · rw [steps_append, ran, Option.bind_some, steps_cons, step_mark value, next]
    exact ran'

/-- A sum goes on with what it has come to so far as the left operand of the next product. -/
theorem arrives_sum {op : Operator} (level : op.isAdditive = true) {ts us : List Token} {v w : V}
    (left : A.Arrives σ ts [v] .sum) (right : A.Arrives σ us [w] .product) :
    A.Arrives σ (ts ++ .other op.mark :: us) [A.operate op v w] .sum := by
  intro outer
  obtain ⟨f, value, ran⟩ := left outer
  obtain ⟨g, same, value', ran'⟩ := right (A.operate op v) outer
  -- where there is a sum there is a product, so the mark is no sign
  obtain ⟨w', factor⟩ : ∃ w', A.product? f = some w' := by
    rw [sum?] at value
    obtain ⟨w', factor, -⟩ := Option.map_eq_some_iff.1 value
    exact ⟨w', factor⟩
  have next : A.operator? f op = some ⟨A.operate op v, id, .nothing⟩ := by
    rw [operator?, if_pos level, value]
    rfl
  refine ⟨g, ?_, ?_⟩
  · rw [sum?, value', same]
    rfl
  · rw [steps_append, ran, Option.bind_some, steps_cons, step_mark factor, next]
    exact ran'

theorem arrives_of_means {level : Level} {ts : List Token} {vs : List V}
    (h : A.Means σ level ts vs) : A.Arrives σ ts vs level := by
  induction h with
  | numeral h => exact arrives_numeral h
  | word text => exact arrives_word text
  | group _ inside => exact arrives_group inside
  | none =>
    intro f g outer taken
    cases taken
    rfl
  | more _ _ first rest => exact arrives_more first rest
  | @alone ts v _ operand =>
    intro p q outer
    exact ⟨.value v, rfl, operand ⟨p, q, .nothing⟩ ⟨p, q, .value v⟩ outer (pushAll_singleton _ v)⟩
  | negative h => exact arrives_negative h
  | call function _ arguments => exact arrives_call function arguments
  | single _ factor =>
    intro p outer
    obtain ⟨last, value, ran⟩ := factor p id outer
    refine ⟨⟨p, id, last⟩, rfl, ?_, ran⟩
    rw [product?, value]
    rfl
  | product op level _ _ left right => exact arrives_product level left right
  | term _ product =>
    intro outer
    obtain ⟨f, same, value, ran⟩ := product id outer
    refine ⟨f, ?_, ran⟩
    rw [sum?, value, same]
    rfl
  | sum op level _ _ left right => exact arrives_sum level left right

/-- What the tokens of an expression mean is what the expression comes to. -/
theorem value_of_means {x : Expression} {v : V}
    (h : A.Means σ .sum (significant (tokens x.text.toList)) [v]) : A.value x σ = v := by
  obtain ⟨f, value, ran⟩ := arrives_of_means h []
  have read : A.read σ (significant (tokens x.text.toList)) = some v := by
    rw [Arithmetic.read, ran]
    exact value
  rw [Arithmetic.value, read, Option.getD_some]

end Arithmetic

end BuildingControl.Erl
