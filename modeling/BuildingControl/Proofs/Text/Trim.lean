/-
  BuildingControl.Proofs.Text.Trim

  When trimming changes nothing, what it does to blanks put in front or behind, and
  that it looks at nothing but which characters are blank.  Elements of one class at
  the front of a list are taken and dropped together.
-/
import BuildingControl.Text.Blank
import Mathlib.Data.List.Basic
import Mathlib.Data.List.TakeWhile

namespace BuildingControl.Text

/-- Blanks put in front are dropped. -/
theorem trimChars_append_of_blank {bs : List Char} (h : ∀ b ∈ bs, isBlank b = true)
    (cs : List Char) : trimChars (bs ++ cs) = trimChars cs := by
  have front : (bs ++ cs).dropWhile isBlank = cs.dropWhile isBlank := by
    rw [List.dropWhile_append_of_pos h]
  rw [trimChars, front, trimChars]

/-- Blanks put behind are dropped. -/
theorem trimChars_append_blanks {bs : List Char} (h : ∀ b ∈ bs, isBlank b = true)
    (cs : List Char) : trimChars (cs ++ bs) = trimChars cs := by
  have none : bs.dropWhile isBlank = [] := List.dropWhile_eq_nil_iff.2 h
  unfold trimChars
  rw [List.dropWhile_append]
  split
  · next empty => rw [none, List.isEmpty_iff.1 empty]
  · rw [List.reverse_append, List.dropWhile_append_of_pos fun b hb => h b (List.mem_reverse.1 hb)]

section Front

variable {α : Type} {p : α → Bool} {xs ys : List α}

theorem dropWhile_eq_self (h : ∀ x, xs.head? = some x → p x = false) : xs.dropWhile p = xs := by
  cases xs with
  | nil => rfl
  | cons x xs => rw [List.dropWhile_cons, if_neg (by simp [h x rfl])]

/-- What is taken from the front ends where a class of elements does. -/
theorem takeWhile_append_of_stops (h : ∀ x ∈ xs, p x = true)
    (stops : ∀ y, ys.head? = some y → p y = false) : (xs ++ ys).takeWhile p = xs := by
  rw [List.takeWhile_append_of_pos h]
  cases ys with
  | nil => simp
  | cons y ys => rw [List.takeWhile_cons, if_neg (by simp [stops y rfl]), List.append_nil]

theorem dropWhile_append_of_stops (h : ∀ x ∈ xs, p x = true)
    (stops : ∀ y, ys.head? = some y → p y = false) : (xs ++ ys).dropWhile p = ys := by
  rw [List.dropWhile_append_of_pos h, dropWhile_eq_self stops]

end Front

/-- A list without a blank at either end stays as it is. -/
theorem trimChars_eq_self {cs : List Char} (first : ∀ c, cs.head? = some c → isBlank c = false)
    (last : ∀ c, cs.getLast? = some c → isBlank c = false) : trimChars cs = cs := by
  rw [trimChars, dropWhile_eq_self first]
  rw [dropWhile_eq_self (by simpa using last), List.reverse_reverse]

theorem trimChars_of_no_blank {cs : List Char} (h : ∀ c ∈ cs, isBlank c = false) :
    trimChars cs = cs :=
  trimChars_eq_self (fun c hc => h c (List.mem_of_mem_head? hc))
    fun c hc => h c (List.mem_of_mem_getLast? hc)

theorem trim_eq_self {s : String} (h : trimChars s.toList = s.toList) : trim s = s := by
  rw [trim, h, String.ofList_toList]

/-- Nothing is left of blanks, and something of anything else. -/
theorem trimChars_eq_nil_iff {cs : List Char} : trimChars cs = [] ↔ ∀ c ∈ cs, isBlank c = true := by
  rw [trimChars, List.reverse_eq_nil_iff, List.dropWhile_eq_nil_iff]
  simp only [List.mem_reverse]
  rw [← List.dropWhile_eq_nil_iff, dropWhile_dropWhile, List.dropWhile_eq_nil_iff]

/-- Trimming twice is trimming once. -/
theorem trim_trim (s : String) : trim (trim s) = trim s :=
  trim_eq_self (by rw [toList_trim, trimChars_trimChars])

/-- A rewriting that keeps blanks apart from other characters may come before or after. -/
theorem trimChars_map {f : Char → Char} (h : ∀ c, isBlank (f c) = isBlank c) (cs : List Char) :
    trimChars (cs.map f) = (trimChars cs).map f := by
  have through : isBlank ∘ f = isBlank := funext h
  simp only [trimChars, List.dropWhile_map, ← List.map_reverse, through]

/-- A trimmed list does not start with a blank. -/
theorem not_isBlank_head_of_trimmed {cs : List Char} (h : trimChars cs = cs) {c : Char}
    (hc : cs.head? = some c) : isBlank c = false := by
  obtain ⟨ds, rfl⟩ : ∃ ds, cs = c :: ds := by
    cases cs with
    | nil => cases hc
    | cons d ds => exact ⟨ds, by cases hc; rfl⟩
  by_contra hb
  have shorter : (trimChars (c :: ds)).length ≤ ds.length := by
    rw [trimChars, List.dropWhile_cons, if_pos (by simpa using hb), List.length_reverse]
    calc ((ds.dropWhile isBlank).reverse.dropWhile isBlank).length
        ≤ (ds.dropWhile isBlank).reverse.length := (List.dropWhile_sublist isBlank).length_le
      _ = (ds.dropWhile isBlank).length := List.length_reverse
      _ ≤ ds.length := (List.dropWhile_sublist isBlank).length_le
  rw [h, List.length_cons] at shorter
  omega

/-- A trimmed list does not end with a blank. -/
theorem not_isBlank_getLast_of_trimmed {cs : List Char} (h : trimChars cs = cs) {c : Char}
    (hc : cs.getLast? = some c) : isBlank c = false := by
  rw [← h, trimChars, List.getLast?_reverse] at hc
  have kept := List.head?_dropWhile_not isBlank (cs.dropWhile isBlank).reverse
  rw [hc] at kept
  simpa using kept

end BuildingControl.Text
