/-
  BuildingControl.Proofs.Document.Json.Tree

  A value written as JSON is read back, except that numbers which are not finite
  have become null.  What is read back is a faithful rendering of the value that
  keeps its finite numbers.
-/
import BuildingControl.Proofs.Document.Json.Scalar
import BuildingControl.Proofs.Document.Rendering

namespace BuildingControl.Document.Json

/-! ## What is read back -/

mutual

/-- A value with null for what JSON has no word for. -/
def restored : Value → Value
  | .null => .null
  | .bool b => .bool b
  | .int n => .int n
  | .real x => if x.isFinite then .real x else .null
  | .text s => .text s
  | .list items => .list (restoredItems items)
  | .object fields => .object (restoredFields fields)
  | .unreadable => .null

/-- The elements of a list. -/
def restoredItems : List Value → List Value
  | [] => []
  | v :: rest => restored v :: restoredItems rest

/-- The fields of an object. -/
def restoredFields : List (String × Value) → List (String × Value)
  | [] => []
  | (name, v) :: rest => (name, restored v) :: restoredFields rest

end

theorem restoredItems_eq_map (items : List Value) : restoredItems items = items.map restored := by
  induction items with
  | nil => rfl
  | cons v rest ih => rw [restoredItems, ih, List.map_cons]

theorem restoredFields_eq_map (fields : List (String × Value)) :
    restoredFields fields = fields.map fun f => (f.1, restored f.2) := by
  induction fields with
  | nil => rfl
  | cons f rest ih => rw [restoredFields, ih, List.map_cons]

mutual

/-- Everything that is read back can be used. -/
theorem contentOf?_restored : (v : Value) →
    contentOf? (restored v) = some (v.content Float.isFinite)
  | .null => rfl
  | .bool _ => rfl
  | .int _ => rfl
  | .real x => by
    rw [restored, Value.content]
    split <;> rfl
  | .text _ => rfl
  | .list items => by
    rw [restored, contentOf?, contentsOf?_restored items, Value.content]
    rfl
  | .object fields => by
    rw [restored, contentOf?, fieldContentsOf?_restored fields, Value.content]
    rfl
  | .unreadable => rfl

theorem contentsOf?_restored : (items : List Value) →
    contentsOf? (restoredItems items) = some (Value.contents Float.isFinite items)
  | [] => rfl
  | v :: rest => by
    rw [restoredItems, contentsOf?, contentOf?_restored v, contentsOf?_restored rest,
      Value.contents]

theorem fieldContentsOf?_restored : (fields : List (String × Value)) →
    fieldContentsOf? (restoredFields fields) =
      some (Value.fieldContents Float.isFinite fields)
  | [] => rfl
  | (name, v) :: rest => by
    rw [restoredFields, fieldContentsOf?, contentOf?_restored v, fieldContentsOf?_restored rest,
      Value.fieldContents]

end

/-- Fields without a name are not found by it, and all are kept without it. -/
theorem filter_of_not_mem {tag : String} {fields : List (String × Value)}
    (h : tag ∉ fields.map Prod.fst) :
    (restoredFields fields).filter (fun f => f.1 == tag) = [] ∧
      (restoredFields fields).filter (fun f => f.1 != tag) = restoredFields fields := by
  have other : ∀ f ∈ restoredFields fields, f.1 ≠ tag := by
    rw [restoredFields_eq_map]
    intro f hf same
    obtain ⟨g, hg, rfl⟩ := List.mem_map.1 hf
    exact h (List.mem_map.2 ⟨g, hg, same⟩)
  constructor
  · exact List.filter_eq_nil_iff.2 fun f hf => by simpa using other f hf
  · exact List.filter_eq_self.2 fun f hf => by simpa using other f hf

/-- What is read back shows all of a value but the numbers that are not finite. -/
theorem faithful_restored (admits : Float → Prop) :
    FaithfulTags admits Float.isFinite restored where
  text _ := rfl
  word _ := rfl
  flag _ := rfl
  count _ hn := countOfInt?_natCast hn
  real x _ := by
    rw [restored]
    cases hx : x.isFinite with
    | false => simp [Option.guard, hx, Source.real?]
    | true => simp [Option.guard, hx, Source.real?]
  text_present _ := rfl
  object_present _ := rfl
  items vs := by
    rw [restored, restoredItems_eq_map]
    rfl
  record known fields := by
    rw [restored, restoredFields_eq_map]
    rfl
  tagged _ tag kind fields untagged _ := by
    obtain ⟨none, all⟩ := filter_of_not_mem untagged
    simp only [restored, restoredFields, TaggedSource.tagged?, tagOf?, List.filter_cons,
      beq_self_eq_true, bne_self_eq_false, if_true, if_false, Bool.false_eq_true, none, all,
      fieldContentsOf?_restored, Value.content]

/-! ## Blanks -/

theorem skip_cons {c : Char} (h : isSpace c = false) (cs : List Char) : skip (c :: cs) = c :: cs := by
  rw [skip, List.dropWhile_cons, if_neg (by simp [h])]

theorem skip_newLine (depth : Nat) (cs : List Char) : skip (newLine depth ++ cs) = skip cs := by
  have blank : ∀ c ∈ newLine depth, isSpace c = true := by
    intro c hc
    rcases List.mem_cons.1 hc with rfl | hc
    · rfl
    · rw [List.eq_of_mem_replicate hc]
      rfl
  rw [skip, List.dropWhile_append_of_pos blank, skip]

theorem value_newLine (depth indent fuel : Nat) (cs : List Char) :
    value depth (newLine indent ++ cs) fuel = value depth cs fuel := by
  cases fuel with
  | zero => rw [value, value]
  | succ fuel => rw [value, value, skip_newLine]

/-! ## Scalars -/

theorem word_append (w : String) (v : Value) (rest : List Char) :
    word w v (w.toList ++ rest) = some (v, rest) := by
  have front : w.toList.isPrefixOf (w.toList ++ rest) = true :=
    List.isPrefixOf_iff_prefix.2 (List.prefix_append _ _)
  rw [word, if_pos front, ← String.length_toList, List.drop_left]

/-- The characters that numbers start with. -/
def startsNumber (c : Char) : Bool :=
  c == '-' || c.isDigit

theorem not_isSpace_of_startsNumber {c : Char} (h : startsNumber c = true) : isSpace c = false := by
  rw [Bool.eq_false_iff]
  intro space
  simp only [isSpace, Bool.or_eq_true, beq_iff_eq] at space
  rcases space with ((rfl | rfl) | rfl) | rfl <;> cases h

/-- Whatever starts like a number is read as one. -/
theorem value_eq_number {c : Char} (h : startsNumber c = true) (depth fuel : Nat)
    (cs : List Char) : value depth (c :: cs) (fuel + 1) = number (c :: cs) := by
  have other {d : Char} (hd : startsNumber d = false) : c ≠ d := fun same => by
    rw [same, hd] at h
    cases h
  rw [value, skip_cons (not_isSpace_of_startsNumber h)]
  split
  next _ _ same => exact absurd (List.cons.inj same).1 (other rfl)
  next _ _ same => exact absurd (List.cons.inj same).1 (other rfl)
  next _ _ same => exact absurd (List.cons.inj same).1 (other rfl)
  next _ _ same => exact absurd (List.cons.inj same).1 (other rfl)
  next _ _ same => exact absurd (List.cons.inj same).1 (other rfl)
  next _ _ same => exact absurd (List.cons.inj same).1 (other rfl)
  next => rfl

/-! ## Texts of values -/

/-- What is asked of a finite number: that its digits are read as the number. -/
def ReadsBack (x : Float) : Prop :=
  x.isFinite = true → number (realChars x) = some (.real x, [])

/-- Text that is read as a value, whatever follows it. -/
def Reads (depth : Nat) (cs : List Char) (v : Value) : Prop :=
  ∀ fuel rest, 2 * cs.length ≤ fuel → Ends rest → value depth (cs ++ rest) fuel = some (v, rest)

/-- Text that starts with a character other than a blank or a bracket that closes a list. -/
def Opens (cs : List Char) : Prop :=
  ∃ c more, cs = c :: more ∧ isSpace c = false ∧ c ≠ ']'

theorem reads_null (depth : Nat) : Reads depth "null".toList .null := by
  intro fuel rest enough _
  obtain ⟨n, rfl⟩ : ∃ n, fuel = n + 1 := ⟨fuel - 1, by simp at enough; omega⟩
  rw [value]
  exact word_append "null" .null rest

theorem reads_number {cs : List Char} {v : Value} (h : number cs = some (v, [])) (depth : Nat) :
    Reads depth cs v := by
  intro fuel rest enough ends
  obtain ⟨c, more, rfl, first⟩ := head_of_number h
  obtain ⟨n, rfl⟩ : ∃ n, fuel = n + 1 := ⟨fuel - 1, by rw [List.length_cons] at enough; omega⟩
  have starts : startsNumber c = true := by
    simpa [startsNumber] using first
  rw [List.cons_append, value_eq_number starts, ← List.cons_append]
  exact number_append h ends

theorem reads_text (depth : Nat) (s : String) : Reads depth (textChars s) (.text s) := by
  intro fuel rest enough _
  obtain ⟨n, rfl⟩ : ∃ n, fuel = n + 1 := ⟨fuel - 1, by rw [textChars, List.length_cons] at enough; omega⟩
  rw [textChars, List.cons_append, List.append_assoc, value, skip_cons rfl]
  simp only [List.singleton_append, string_textChars, Option.map_some]

theorem reads_bool (depth : Nat) (b : Bool) (indent : Nat) :
    Reads depth (prettyChars indent (.bool b)) (.bool b) := by
  intro fuel rest enough _
  cases b with
  | true =>
    obtain ⟨n, rfl⟩ : ∃ n, fuel = n + 1 := ⟨fuel - 1, by simp [prettyChars] at enough; omega⟩
    rw [prettyChars, value]
    exact word_append "true" (.bool true) rest
  | false =>
    obtain ⟨n, rfl⟩ : ∃ n, fuel = n + 1 := ⟨fuel - 1, by simp [prettyChars] at enough; omega⟩
    rw [prettyChars, value]
    exact word_append "false" (.bool false) rest

/-! ## Lists and objects -/

theorem ends_newLine (indent : Nat) (cs : List Char) : Ends (newLine indent ++ cs) := by
  intro c hc
  cases hc
  exact .inr rfl

theorem ends_comma (cs : List Char) : Ends (',' :: cs) := by
  intro c hc
  cases hc
  exact .inl rfl

/-- The elements of a list are read one by one, each on its line. -/
theorem items_prettyItems {depth indent : Nat} {vs : List Value}
    (h : ∀ v ∈ vs, Reads depth (prettyChars (indent + 1) v) (restored v)) (nonempty : vs ≠ [])
    (rest : List Char) :
    ∀ fuel, 2 * (prettyItems indent vs).length ≤ fuel →
      items depth (prettyItems indent vs ++ rest) fuel = some (restoredItems vs, rest) := by
  induction vs with
  | nil => exact absurd rfl nonempty
  | cons v vs ih =>
    intro fuel enough
    have hv : Reads depth (prettyChars (indent + 1) v) (restored v) := h v List.mem_cons_self
    cases vs with
    | nil =>
      simp only [prettyItems, List.length_append, List.length_singleton] at enough
      obtain ⟨n, rfl⟩ : ∃ n, fuel = n + 1 := ⟨fuel - 1, by omega⟩
      have first := hv n (newLine indent ++ (']' :: rest)) (by omega) (ends_newLine indent _)
      simp only [prettyItems, List.append_assoc, List.singleton_append]
      rw [items, value_newLine, first]
      simp only [skip_newLine]
      rw [skip_cons rfl]
      rfl
    | cons w vs =>
      simp only [prettyItems, List.length_append, List.length_cons] at enough
      obtain ⟨n, rfl⟩ : ∃ n, fuel = n + 1 := ⟨fuel - 1, by omega⟩
      have first := hv n (',' :: (prettyItems indent (w :: vs) ++ rest)) (by omega) (ends_comma _)
      have more := ih (fun u hu => h u (List.mem_cons_of_mem v hu)) (List.cons_ne_nil w vs) n
        (by omega)
      simp only [prettyItems, List.append_assoc, List.cons_append]
      rw [items, value_newLine, first]
      simp only [skip_cons (rfl : isSpace ',' = false)]
      rw [more]
      rfl

/-- The fields of an object are read one by one, each on its line. -/
theorem members_prettyFields {depth indent : Nat} {fields : List (String × Value)}
    (h : ∀ f ∈ fields, Reads depth (prettyChars (indent + 1) f.2) (restored f.2))
    (nonempty : fields ≠ []) (rest : List Char) :
    ∀ fuel, 2 * (prettyFields indent fields).length ≤ fuel →
      members depth (prettyFields indent fields ++ rest) fuel =
        some ((restoredFields fields).map fun f => (some f.1, f.2), rest) := by
  induction fields with
  | nil => exact absurd rfl nonempty
  | cons f fields ih =>
    intro fuel enough
    obtain ⟨k, v⟩ := f
    have hv : Reads depth (prettyChars (indent + 1) v) (restored v) := h (k, v) List.mem_cons_self
    -- the value is read after the blank that follows the colon
    have blank (cs : List Char) (n : Nat) : value depth (' ' :: cs) n = value depth cs n := by
      cases n <;> rfl
    cases fields with
    | nil =>
      simp only [prettyFields, textChars, List.length_append, List.length_cons,
        List.length_nil] at enough
      obtain ⟨n, rfl⟩ : ∃ n, fuel = n + 1 := ⟨fuel - 1, by omega⟩
      have first := hv n (newLine indent ++ ('\x7d' :: rest)) (by omega) (ends_newLine indent _)
      simp only [prettyFields, textChars, List.append_assoc, List.cons_append, List.nil_append]
      rw [members, skip_newLine, skip_cons rfl]
      simp only [string_textChars, skip_cons (rfl : isSpace ':' = false), blank, first,
        skip_newLine, skip_cons (rfl : isSpace '\x7d' = false)]
      rfl
    | cons g fields =>
      simp only [prettyFields, textChars, List.length_append, List.length_cons,
        List.length_nil] at enough
      obtain ⟨n, rfl⟩ : ∃ n, fuel = n + 1 := ⟨fuel - 1, by omega⟩
      have first := hv n (',' :: (prettyFields indent (g :: fields) ++ rest)) (by omega)
        (ends_comma _)
      have more := ih (fun f hf => h f (List.mem_cons_of_mem _ hf)) (List.cons_ne_nil g fields) n
        (by omega)
      simp only [prettyFields, textChars, List.append_assoc, List.cons_append, List.nil_append]
      rw [members, skip_newLine, skip_cons rfl]
      simp only [string_textChars, skip_cons (rfl : isSpace ':' = false), blank, first,
        skip_cons (rfl : isSpace ',' = false)]
      rw [more]
      rfl

theorem opens_of_startsNumber {c : Char} (h : startsNumber c = true) (cs : List Char) :
    Opens (c :: cs) := by
  refine ⟨c, cs, rfl, not_isSpace_of_startsNumber h, ?_⟩
  rintro rfl
  cases h

/-- Counts are written in digits. -/
theorem number_intChars {n : Int} (h : 0 ≤ n ∧ n < countLimit) :
    number (intChars n) = some (.int n, []) := by
  obtain ⟨k, rfl⟩ := Int.eq_ofNat_of_zero_le h.1
  have small : k < Nat.pow 2 64 := by
    have bound : k < countLimit := by exact_mod_cast h.2
    exact Nat.lt_trans bound (by decide)
  have digits : intChars (k : Int) = Decimal.digitChars k := by
    rw [intChars, if_neg (by omega), Int.natAbs_natCast]
  rw [digits]
  exact number_digitChars small

/-- Every value starts with a character that is no blank and closes no list. -/
theorem opens_prettyChars {levels : Nat} {v : Value} (h : v.Fits ReadsBack levels) (indent : Nat) :
    Opens (prettyChars indent v) := by
  have ofNumber {cs : List Char} {v : Value} (h : number cs = some (v, [])) : Opens cs := by
    obtain ⟨c, more, rfl, first⟩ := head_of_number h
    exact opens_of_startsNumber (by simpa [startsNumber] using first) more
  have ofNull : Opens "null".toList := ⟨'n', ['u', 'l', 'l'], rfl, rfl, by decide⟩
  cases v with
  | null => exact ofNull
  | unreadable => exact ofNull
  | bool b =>
    cases b with
    | true => exact ⟨'t', ['r', 'u', 'e'], rfl, rfl, by decide⟩
    | false => exact ⟨'f', ['a', 'l', 's', 'e'], rfl, rfl, by decide⟩
  | int n =>
    have range : 0 ≤ n ∧ n < countLimit := by
      cases levels <;> exact h
    exact ofNumber (number_intChars range)
  | real x =>
    have readsBack : ReadsBack x := by
      cases levels <;> exact h
    cases hx : x.isFinite with
    | true => exact ofNumber (readsBack hx)
    | false =>
      rw [prettyChars, realChars, hx]
      exact ofNull
  | text s => exact ⟨'"', _, rfl, rfl, by decide⟩
  | list items => cases items <;> exact ⟨'[', _, rfl, rfl, by decide⟩
  | object fields => cases fields <;> exact ⟨'\x7b', _, rfl, rfl, by decide⟩

/-- Fields whose names were read are the fields of an object. -/
theorem objectValue_map (fields : List (String × Value)) :
    objectValue (fields.map fun f => (some f.1, f.2)) = .object fields := by
  have named : (fields.map fun f => (some f.1, f.2)).mapM
      (fun f : Option String × Value => f.1.map fun k => (k, f.2)) = some fields :=
    mapM_map_eq_some fun _ _ => rfl
  rw [objectValue, named]

theorem reads_list {depth indent : Nat} {items : List Value} (room : depth ≤ maxDepth)
    (opens : ∀ v ∈ items, Opens (prettyChars (indent + 1) v))
    (h : ∀ v ∈ items, Reads (depth + 1) (prettyChars (indent + 1) v) (restored v)) :
    Reads depth (prettyChars indent (.list items)) (.list (restoredItems items)) := by
  intro fuel rest enough _
  cases items with
  | nil =>
    obtain ⟨n, rfl⟩ : ∃ n, fuel = n + 1 := ⟨fuel - 1, by simp [prettyChars] at enough; omega⟩
    simp only [prettyChars, List.cons_append, List.nil_append]
    rw [value, skip_cons rfl]
    simp only [skip_cons (rfl : isSpace ']' = false), container, if_pos room, restoredItems]
  | cons v vs =>
    simp only [prettyChars, List.length_cons] at enough
    obtain ⟨n, rfl⟩ : ∃ n, fuel = n + 1 := ⟨fuel - 1, by omega⟩
    have read := items_prettyItems h (List.cons_ne_nil v vs) rest n (by omega)
    -- what follows the bracket is an element, and no bracket that closes the list
    obtain ⟨c, more, front, notSpace, notClose⟩ := opens v List.mem_cons_self
    obtain ⟨tail, behind⟩ : ∃ tail, skip (prettyItems indent (v :: vs) ++ rest) = c :: tail := by
      cases vs with
      | nil =>
        simp only [prettyItems, List.append_assoc, skip_newLine, front, List.cons_append,
          skip_cons notSpace]
        exact ⟨_, rfl⟩
      | cons w vs =>
        simp only [prettyItems, List.append_assoc, skip_newLine, front, List.cons_append,
          skip_cons notSpace]
        exact ⟨_, rfl⟩
    rw [prettyChars, List.cons_append, value, skip_cons rfl]
    simp only [behind]
    split
    next _ same => exact absurd (List.cons.inj same).1 notClose
    next =>
      rw [read]
      simp only [Option.map_some, container, if_pos room]

theorem reads_object {depth indent : Nat} {fields : List (String × Value)} (room : depth ≤ maxDepth)
    (h : ∀ f ∈ fields, Reads (depth + 1) (prettyChars (indent + 1) f.2) (restored f.2)) :
    Reads depth (prettyChars indent (.object fields)) (.object (restoredFields fields)) := by
  intro fuel rest enough _
  cases fields with
  | nil =>
    obtain ⟨n, rfl⟩ : ∃ n, fuel = n + 1 := ⟨fuel - 1, by simp [prettyChars] at enough; omega⟩
    simp only [prettyChars, List.cons_append, List.nil_append]
    rw [value, skip_cons rfl]
    simp only [skip_cons (rfl : isSpace '\x7d' = false), container, if_pos room, restoredFields]
  | cons f fields =>
    simp only [prettyChars, List.length_cons] at enough
    obtain ⟨n, rfl⟩ : ∃ n, fuel = n + 1 := ⟨fuel - 1, by omega⟩
    have read := members_prettyFields h (List.cons_ne_nil f fields) rest n (by omega)
    obtain ⟨tail, behind⟩ : ∃ tail, skip (prettyFields indent (f :: fields) ++ rest) = '"' :: tail := by
      cases fields with
      | nil =>
        simp only [prettyFields, textChars, List.append_assoc, skip_newLine, List.cons_append,
          skip_cons (rfl : isSpace '"' = false)]
        exact ⟨_, rfl⟩
      | cons g fields =>
        simp only [prettyFields, textChars, List.append_assoc, skip_newLine, List.cons_append,
          skip_cons (rfl : isSpace '"' = false)]
        exact ⟨_, rfl⟩
    rw [prettyChars, List.cons_append, value, skip_cons rfl]
    simp only [behind, read, Option.map_some, container, if_pos room, objectValue_map]
    rfl

/-- A value is read as it was written, whatever follows it. -/
theorem reads_prettyChars : ∀ (levels : Nat) (v : Value), v.Fits ReadsBack levels →
    ∀ depth indent, depth + levels ≤ maxDepth + 1 → Reads depth (prettyChars indent v) (restored v)
  | _, .null, _, depth, _, _ => reads_null depth
  | _, .bool b, _, depth, indent, _ => reads_bool depth b indent
  | levels, .int n, h, depth, indent, _ => by
    have range : 0 ≤ n ∧ n < countLimit := by
      cases levels <;> exact h
    exact reads_number (number_intChars range) depth
  | levels, .real x, h, depth, indent, _ => by
    have readsBack : ReadsBack x := by
      cases levels <;> exact h
    rw [prettyChars, restored]
    cases hx : x.isFinite with
    | true => exact reads_number (readsBack hx) depth
    | false =>
      rw [realChars, hx]
      exact reads_null depth
  | _, .text s, _, depth, _, _ => reads_text depth s
  | levels + 1, .list items, h, depth, indent, room => by
    refine reads_list (by omega) (fun v hv => opens_prettyChars (h v hv) _) fun v hv => ?_
    exact reads_prettyChars levels v (h v hv) (depth + 1) (indent + 1) (by omega)
  | levels + 1, .object fields, h, depth, indent, room => by
    refine reads_object (by omega) fun f hf => ?_
    exact reads_prettyChars levels f.2 (h f hf) (depth + 1) (indent + 1) (by omega)
  | levels, .unreadable, h, _, _, _ => by
    have never : False := by
      cases levels <;> exact h
    exact never.elim

/-- A value is read back from its text, with null for the numbers that are not finite. -/
theorem read?_pretty {v : Value} {levels : Nat} (h : v.Fits ReadsBack levels)
    (room : levels ≤ maxDepth) : read? (pretty v) = some (restored v) := by
  have enough : 2 * (prettyChars 0 v).length ≤ steps (prettyChars 0 v) := by
    rw [steps]
    omega
  have read := reads_prettyChars levels v h 1 0 (by omega) _ [] enough fun c hc => by cases hc
  rw [List.append_nil] at read
  rw [read?, pretty, String.toList_ofList, read]
  rfl

end BuildingControl.Document.Json
