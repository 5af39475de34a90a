/-
  BuildingControl.Text.Blank

  Blank characters and trimming.  A blank is a character with the Unicode
  property White_Space; trimming drops the blanks at both ends of a text and
  leaves the ones inside alone.
-/

namespace BuildingControl.Text

/-- The code points with the property White_Space, as closed ranges. -/
def blankRanges : List (Nat × Nat) :=
  [(0x09, 0x0D), (0x20, 0x20), (0x85, 0x85), (0xA0, 0xA0), (0x1680, 0x1680), (0x2000, 0x200A),
   (0x2028, 0x2029), (0x202F, 0x202F), (0x205F, 0x205F), (0x3000, 0x3000)]

/-- Whether a character is blank. -/
def isBlank (c : Char) : Bool :=
  blankRanges.any fun r => r.1 ≤ c.toNat && c.toNat ≤ r.2

/-- The characters without the blanks at either end. -/
def trimChars (cs : List Char) : List Char :=
  ((cs.dropWhile isBlank).reverse.dropWhile isBlank).reverse

/-- The text without the blanks at either end. -/
def trim (s : String) : String :=
  String.ofList (trimChars s.toList)

/-! ## Basic facts -/

@[simp] theorem toList_trim (s : String) : (trim s).toList = trimChars s.toList :=
  String.toList_ofList

@[simp] theorem trimChars_nil : trimChars [] = [] := rfl

theorem mem_of_mem_trimChars {c : Char} {cs : List Char} (h : c ∈ trimChars cs) : c ∈ cs := by
  have h := (List.dropWhile_sublist isBlank).subset (List.mem_reverse.1 h)
  exact (List.dropWhile_sublist isBlank).subset (List.mem_reverse.1 h)

theorem dropWhile_dropWhile (p : Char → Bool) (cs : List Char) :
    (cs.dropWhile p).dropWhile p = cs.dropWhile p := by
  induction cs with
  | nil => rfl
  | cons c cs ih =>
    rw [List.dropWhile_cons]
    split
    · exact ih
    · next h => rw [List.dropWhile_cons, if_neg h]

/-- Dropping from the back keeps the front: a list that starts with no blank still starts with
    none. -/
theorem dropWhile_reverse_dropWhile (p : Char → Bool) {cs : List Char}
    (h : cs.dropWhile p = cs) :
    ((cs.reverse.dropWhile p).reverse).dropWhile p = (cs.reverse.dropWhile p).reverse := by
  cases cs with
  | nil => rfl
  | cons c cs =>
    have hc : ¬ p c = true := by
      intro hp
      rw [List.dropWhile_cons, if_pos hp] at h
      have : (cs.dropWhile p).length ≤ cs.length := (List.dropWhile_sublist p).length_le
      rw [h, List.length_cons] at this
      omega
    obtain ⟨kept, hk⟩ : ∃ kept, ((c :: cs).reverse.dropWhile p).reverse = c :: kept := by
      rw [List.reverse_cons, List.dropWhile_append]
      split
      · exact ⟨[], by simp [hc]⟩
      · exact ⟨((cs.reverse.dropWhile p).reverse), by simp⟩
    rw [hk, List.dropWhile_cons, if_neg hc]

/-- Trimming twice is trimming once. -/
@[simp] theorem trimChars_trimChars (cs : List Char) :
    trimChars (trimChars cs) = trimChars cs := by
  have front := dropWhile_reverse_dropWhile isBlank (dropWhile_dropWhile isBlank cs)
  unfold trimChars
  rw [front, List.reverse_reverse, dropWhile_dropWhile]

/-- Every blank of core's ASCII class is blank here. -/
theorem isBlank_of_isWhitespace {c : Char} (h : c.isWhitespace = true) : isBlank c = true := by
  simp only [Char.isWhitespace, Bool.or_eq_true, decide_eq_true_eq] at h
  rcases h with ((rfl | rfl) | rfl) | rfl <;> decide

end BuildingControl.Text
