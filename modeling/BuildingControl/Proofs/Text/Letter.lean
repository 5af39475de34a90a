/-
  BuildingControl.Proofs.Text.Letter

  What does not depend on the case of ASCII letters: whether a character may
  stand in a name, and its upper case in all alphabets.  A function of characters
  that answers alike for the 26 small letters and their capitals is such a thing
  (`toUpper_of_letters`).
-/
import BuildingControl.Text.Letter
import BuildingControl.Text.Uppercase

namespace BuildingControl.Text

/-- Characters other than the small letters are their own capitals. -/
theorem toUpper_of_letters {β : Type} {f : Char → β}
    (letters : ∀ n : Fin 26, f (Char.ofNat (97 + n)).toUpper = f (Char.ofNat (97 + n))) (c : Char) :
    f c.toUpper = f c := by
  by_cases small : 97 ≤ c.toNat ∧ c.toNat ≤ 122
  · have letter := letters ⟨c.toNat - 97, by omega⟩
    have same : Char.ofNat (97 + (c.toNat - 97)) = c := by
      rw [show 97 + (c.toNat - 97) = c.toNat by omega, Char.ofNat_toNat]
    rwa [same] at letter
  · have same : c.toUpper = c := by
      unfold Char.toUpper
      exact dif_neg fun h => small h
    rw [same]

/-- Capitals stay as they are. -/
@[simp] theorem toUpper_toUpper (c : Char) : c.toUpper.toUpper = c.toUpper :=
  toUpper_of_letters (f := Char.toUpper) (by decide) c

/-- Texts that differ in the case of ASCII letters only are one to a function that does not look
    at it. -/
theorem map_eq_of_asciiUpper {β : Type} {f : Char → β}
    (letters : ∀ n : Fin 26, f (Char.ofNat (97 + n)).toUpper = f (Char.ofNat (97 + n)))
    {a b : String} (h : asciiUpper a = asciiUpper b) : a.toList.map f = b.toList.map f := by
  have through (s : String) : s.toList.map f = (asciiUpper s).toList.map f := by
    rw [toList_asciiUpper, List.map_map]
    exact (List.map_congr_left fun c _ => toUpper_of_letters letters c).symm
  rw [through a, through b, h]

/-- Names that differ in the case of ASCII letters only have one upper case. -/
theorem upper_eq_of_asciiUpper {a b : String} (h : asciiUpper a = asciiUpper b) :
    upper a = upper b := by
  have letters : ∀ n : Fin 26,
      upperChar (Char.ofNat (97 + n)).toUpper = upperChar (Char.ofNat (97 + n)) := by decide
  have same := map_eq_of_asciiUpper letters h
  rw [upper, upper, List.flatMap_def, List.flatMap_def, same]

/-- Upper case in all alphabets does not depend on that of ASCII letters. -/
theorem upper_asciiUpper (s : String) : upper (asciiUpper s) = upper s := by
  refine upper_eq_of_asciiUpper ?_
  apply String.toList_injective
  simp [Function.comp_def]

theorem upper_append (a b : String) : upper (a ++ b) = upper a ++ upper b := by
  apply String.toList_injective
  simp

/-- In ASCII only the small letters have an upper case. -/
theorem upperChar_of_ascii {c : Char} (h : c.toNat < 128) : upperChar c = [c.toUpper] := by
  have expansions : upperExpansions.all (fun e => decide (128 ≤ e.1)) = true := by decide +kernel
  have runs : upperRuns.all (fun r => decide (r.first = 97 ∧ r.last = 122 ∨ 128 ≤ r.first)) =
      true := by decide +kernel
  rw [List.all_eq_true] at expansions runs
  have single : upperExpansions.find? (fun e => e.1 == c.toNat) = none := by
    refine List.find?_eq_none.2 fun e he same => ?_
    have large := of_decide_eq_true (expansions e he)
    rw [beq_iff_eq.1 same] at large
    omega
  by_cases small : 97 ≤ c.toNat ∧ c.toNat ≤ 122
  · have letters : ∀ n : Fin 26, upperChar (Char.ofNat (97 + n)) =
        [(Char.ofNat (97 + n)).toUpper] := by decide
    have letter := letters ⟨c.toNat - 97, by omega⟩
    have same : Char.ofNat (97 + (c.toNat - 97)) = c := by
      rw [show 97 + (c.toNat - 97) = c.toNat by omega, Char.ofNat_toNat]
    rwa [same] at letter
  · have none : upperRuns.find? (fun r => r.covers c.toNat) = none := by
      refine List.find?_eq_none.2 fun r hr covered => ?_
      simp only [CaseRun.covers, Bool.and_eq_true, decide_eq_true_eq] at covered
      rcases of_decide_eq_true (runs r hr) with ⟨first, last⟩ | large
      · exact small ⟨first ▸ covered.1.1, last ▸ covered.1.2⟩
      · omega
    have same : c.toUpper = c := by
      unfold Char.toUpper
      exact dif_neg fun h => small h
    rw [upperChar, single]
    simp only [none, same]

/-- The upper case of an ASCII text. -/
theorem upper_of_ascii {s : String} (h : ∀ c ∈ s.toList, c.toNat < 128) :
    upper s = asciiUpper s := by
  apply String.toList_injective
  have chars : s.toList.map upperChar = s.toList.map fun c => [c.toUpper] :=
    List.map_congr_left fun c hc => upperChar_of_ascii (h c hc)
  rw [toList_upper, toList_asciiUpper, List.flatMap_def, chars, ← List.flatMap_def,
    ← List.map_eq_flatMap]

end BuildingControl.Text
