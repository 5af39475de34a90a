/-
  BuildingControl.Proofs.Document.Rendering

  What a document shows of the value it was written from.  A rendering gives a
  part of a document for every value; it is faithful if that part answers what
  decoders ask with what the value is.  Numbers are the exception: a rendering
  keeps some of them, and answers nothing for the others.
-/
import BuildingControl.Document.Source

namespace BuildingControl.Document

/-! ## Values that can be written -/

/-- A value nested at most so deep, whose whole numbers are counts and whose numbers are of a
    kind. -/
def Value.Fits (admits : Float → Prop) : Nat → Value → Prop
  | _, .null => True
  | _, .bool _ => True
  | _, .int n => 0 ≤ n ∧ n < countLimit
  | _, .real x => admits x
  | _, .text _ => True
  | 0, .list _ => False
  | depth + 1, .list items => ∀ v ∈ items, v.Fits admits depth
  | 0, .object _ => False
  | depth + 1, .object fields => ∀ f ∈ fields, f.2.Fits admits depth
  | _, .unreadable => False

mutual

/-- A value as the content of a tagged object, with the numbers that are kept. -/
def Value.content (keeps : Float → Bool) : Value → Content
  | .null => .null
  | .bool b => .bool b
  | .int n => .int n
  | .real x => if keeps x then .real x else .null
  | .text s => .text s
  | .list items => .list (Value.contents keeps items)
  | .object fields => .object (Value.fieldContents keeps fields)
  | .unreadable => .null

/-- Values as contents. -/
def Value.contents (keeps : Float → Bool) : List Value → List Content
  | [] => []
  | v :: rest => v.content keeps :: Value.contents keeps rest

/-- Fields as fields of a content. -/
def Value.fieldContents (keeps : Float → Bool) : List (String × Value) → List (Key × Content)
  | [] => []
  | (name, v) :: rest => (.name name, v.content keeps) :: Value.fieldContents keeps rest

end

theorem Value.contents_eq_map (keeps : Float → Bool) (items : List Value) :
    Value.contents keeps items = items.map (Value.content keeps) := by
  induction items with
  | nil => rfl
  | cons v rest ih => rw [Value.contents, ih, List.map_cons]

/-! ## Faithful renderings -/

variable {ν : Type} {admits : Float → Prop} {keeps : Float → Bool} {render : Value → ν}

/-- A rendering of values that answers with what they are.  Of the numbers that `admits` holds of it
    gives those that `keeps` holds of, and refuses the others. -/
structure Faithful [Source ν] (admits : Float → Prop) (keeps : Float → Bool) (render : Value → ν) :
    Prop where
  text (s : String) : Source.text? (render (.text s)) = some s
  word (s : String) : Source.word? (render (.text s)) = some s
  flag (b : Bool) : Source.flag? (render (.bool b)) = some b
  count (n : Nat) : n < countLimit → Source.count? (render (.int n)) = some n
  real (x : Float) : admits x → Source.real? (render (.real x)) = Option.guard keeps x
  text_present (s : String) : Source.absent? (render (.text s)) = some false
  object_present (fields : List (String × Value)) :
    Source.absent? (render (.object fields)) = some false
  items (vs : List Value) : Source.items? (render (.list vs)) = some (vs.map render)
  record (known : List String) (fields : List (String × Value)) :
    Source.record? known (render (.object fields)) =
      knownFields? known (fields.map fun f => (f.1, render f.2))

/-- A faithful rendering that also gives the tag and the rest of tagged objects. -/
structure FaithfulTags [TaggedSource ν] (admits : Float → Prop) (keeps : Float → Bool)
    (render : Value → ν) : Prop extends Faithful admits keeps render where
  tagged (depth : Nat) (tag kind : String) (fields : List (String × Value)) :
    tag ∉ fields.map Prod.fst → Value.Fits admits depth (.object fields) →
      TaggedSource.tagged? tag (render (.object ((tag, .text kind) :: fields))) =
        some (kind, Value.content keeps (.object fields))

/-! ## Fields -/

@[simp] theorem required_cons {α : Type} (known name : String) (v : ν) (rest : List (String × ν))
    (decode : ν → Option α) :
    required ((known, v) :: rest) name decode =
      if name = known then decode v else required rest name decode := by
  by_cases h : name = known
  · simp [required, h]
  · have other : (name == known) = false := beq_eq_false_iff_ne.2 h
    simp [required, h, List.lookup_cons, other]

@[simp] theorem fallback_cons {α : Type} (known name : String) (v : ν) (rest : List (String × ν))
    (default : α) (decode : ν → Option α) :
    fallback ((known, v) :: rest) name default decode =
      if name = known then decode v else fallback rest name default decode := by
  by_cases h : name = known
  · simp [fallback, h]
  · have other : (name == known) = false := beq_eq_false_iff_ne.2 h
    simp [fallback, h, List.lookup_cons, other]

@[simp] theorem optional_nil [Source ν] {α : Type} (name : String) (decode : ν → Option α) :
    optional [] name decode = some none := rfl

@[simp] theorem optional_cons_self [Source ν] {α : Type} (name : String) {v : ν}
    (present : Source.absent? v = some false) (rest : List (String × ν)) (decode : ν → Option α) :
    optional ((name, v) :: rest) name decode = (decode v).map some := by
  simp [optional, present]

@[simp] theorem optional_cons_of_ne [Source ν] {α : Type} {known name : String}
    (h : name ≠ known) (v : ν) (rest : List (String × ν)) (decode : ν → Option α) :
    optional ((known, v) :: rest) name decode = optional rest name decode := by
  have other : (name == known) = false := beq_eq_false_iff_ne.2 h
  simp [optional, List.lookup_cons, other]

/-! ## Records -/

/-- Known fields without repetitions are all found. -/
theorem knownFields?_of_nodup {known : List String} {fields : List (String × ν)}
    (subset : ∀ f ∈ fields, f.1 ∈ known) (nodup : (fields.map Prod.fst).Nodup) :
    knownFields? known fields = some fields := by
  induction fields with
  | nil => rfl
  | cons f rest ih =>
    obtain ⟨name, v⟩ := f
    have new : (rest.any fun f => f.1 == name) = false := by
      rw [List.any_eq_false]
      intro f hf same
      have hname : name ∉ rest.map Prod.fst := (List.nodup_cons.1 nodup).1
      exact hname (eq_of_beq same ▸ List.mem_map_of_mem hf)
    have found : knownFields? known rest = some rest :=
      ih (fun f hf => subset f (List.mem_cons_of_mem _ hf)) (List.nodup_cons.1 nodup).2
    rw [knownFields?, if_pos (subset _ List.mem_cons_self), new, found]
    rfl

/-- The fields of a written record, all of them known. -/
theorem Faithful.fields [Source ν] (F : Faithful admits keeps render) (known : List String)
    (fields : List (String × Value)) (subset : ∀ name ∈ fields.map Prod.fst, name ∈ known)
    (nodup : (fields.map Prod.fst).Nodup) :
    Source.record? known (render (.object fields)) =
      some (fields.map fun f => (f.1, render f.2)) := by
  have names : (fields.map fun f => (f.1, render f.2)).map Prod.fst = fields.map Prod.fst := by
    rw [List.map_map]
    rfl
  rw [F.record]
  refine knownFields?_of_nodup (fun f hf => ?_) (names ▸ nodup)
  exact subset f.1 (names ▸ List.mem_map_of_mem hf)

/-! ## Values given back on a condition -/

theorem guard_bind {α β : Type} (kept : α → Bool) (a : α) (f : α → Option β) :
    (Option.guard kept a).bind f = if kept a then f a else none := by
  cases h : kept a <;> simp [Option.guard_apply, h]

/-! ## Lists -/

/-- Elements that are each given back on a condition are given back if all meet it. -/
theorem mapM_map_eq_guard {α β : Type} {decode : β → Option α} {encode : α → β} {kept : α → Bool}
    {as : List α} (h : ∀ a ∈ as, decode (encode a) = Option.guard kept a) :
    (as.map encode).mapM decode = Option.guard (fun as => as.all kept) as := by
  induction as with
  | nil => rfl
  | cons a rest ih =>
    rw [List.map_cons, List.mapM_cons, h a List.mem_cons_self,
      ih fun b hb => h b (List.mem_cons_of_mem a hb)]
    cases ha : kept a with
    | false => simp [Option.guard, ha]
    | true => cases hr : rest.all kept <;> simp [Option.guard, ha, hr]

theorem mapM_map_eq_some {α β : Type} {decode : β → Option α} {encode : α → β} {as : List α}
    (h : ∀ a ∈ as, decode (encode a) = some a) : (as.map encode).mapM decode = some as := by
  have all : (as.map encode).mapM decode = Option.guard (fun as => as.all fun _ => true) as :=
    mapM_map_eq_guard h
  rw [all]
  simp

theorem Faithful.listOf_guard [Source ν] (F : Faithful admits keeps render) {α : Type}
    {decode : ν → Option α} {encode : α → Value} {kept : α → Bool} {as : List α}
    (h : ∀ a ∈ as, decode (render (encode a)) = Option.guard kept a) :
    listOf decode (render (.list (as.map encode))) = Option.guard (fun as => as.all kept) as := by
  rw [listOf, F.items, Option.bind_some, List.map_map]
  exact mapM_map_eq_guard h

theorem Faithful.listOf_some [Source ν] (F : Faithful admits keeps render) {α : Type}
    {decode : ν → Option α} {encode : α → Value} {as : List α}
    (h : ∀ a ∈ as, decode (render (encode a)) = some a) :
    listOf decode (render (.list (as.map encode))) = some as := by
  rw [listOf, F.items, Option.bind_some, List.map_map]
  exact mapM_map_eq_some h

/-! ## Contents -/

theorem namedFields?_eq_some (known : List String) (fields : List (String × Value))
    (keeps : Float → Bool) :
    namedFields? known (Value.fieldContents keeps fields) =
      some (fields.map fun f => (f.1, f.2.content keeps)) := by
  induction fields with
  | nil => rfl
  | cons f rest ih =>
    rw [Value.fieldContents, namedFields?]
    simp [Key.field?, ih]

theorem countOfInt?_natCast {n : Nat} (h : n < countLimit) : countOfInt? n = some n := by
  have range : 0 ≤ (n : Int) ∧ (n : Int) < countLimit := ⟨by omega, by exact_mod_cast h⟩
  rw [countOfInt?, if_pos range, Int.toNat_natCast]

/-- The content of a value is a faithful rendering of it. -/
theorem faithful_content : Faithful admits keeps (Value.content keeps) where
  text _ := rfl
  word _ := rfl
  flag _ := rfl
  count _ hn := countOfInt?_natCast hn
  real x _ := by
    rw [Value.content]
    cases hx : keeps x with
    | false => simp [Option.guard, hx, Source.real?]
    | true => simp [Option.guard, hx, Source.real?]
  text_present _ := rfl
  object_present _ := rfl
  items vs := by
    rw [Value.content, Value.contents_eq_map]
    rfl
  record known fields := by
    show (namedFields? known (Value.fieldContents keeps fields)).bind (knownFields? known) = _
    rw [namedFields?_eq_some, Option.bind_some]

end BuildingControl.Document
