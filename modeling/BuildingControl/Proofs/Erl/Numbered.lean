/-
  BuildingControl.Proofs.Erl.Numbered

  Names that end in a number.  Such a name is a stem and a number in one way only
  as long as no stem ends in a digit, whatever the case of its letters
  (`asciiUpper_numbered_iff`).
-/
import BuildingControl.Proofs.Erl.Word

namespace BuildingControl.Erl

open Decimal

/-- Whether a text does not end in a digit. -/
def endsOpen (stem : String) : Bool :=
  stem.toList.reverse.head?.all fun c => !c.isDigit

/-- Digits behind are told apart from what stands in front of them. -/
theorem append_digits_inj {xs ys ds es : List Char}
    (hx : xs.reverse.head?.all (fun c => !c.isDigit) = true)
    (hy : ys.reverse.head?.all (fun c => !c.isDigit) = true)
    (hd : ∀ c ∈ ds, c.isDigit = true) (he : ∀ c ∈ es, c.isDigit = true)
    (h : xs ++ ds = ys ++ es) : xs = ys ∧ ds = es := by
  have cut {zs digits : List Char} (front : zs.reverse.head?.all (fun c => !c.isDigit) = true)
      (digit : ∀ c ∈ digits, c.isDigit = true) :
      (zs ++ digits).reverse.dropWhile Char.isDigit = zs.reverse := by
    rw [List.reverse_append,
      List.dropWhile_append_of_pos fun c hc => digit c (List.mem_reverse.1 hc)]
    refine Text.dropWhile_eq_self fun c hc => ?_
    simpa [hc] using front
  have same : xs = ys := by
    have fronts := cut hx hd
    rw [h, cut hy he] at fronts
    exact (List.reverse_injective fronts).symm
  subst same
  exact ⟨rfl, List.append_cancel_left h⟩

theorem toList_asciiUpper_numbered (stem : String) (n : Nat) :
    (Text.asciiUpper (stem ++ toString n)).toList =
      (Text.asciiUpper stem).toList ++ digitChars n := by
  have digits : (digitChars n).map Char.toUpper = digitChars n := by
    rw [List.map_congr_left (g := id), List.map_id]
    intro c hc
    have range : c.toNat ≤ 57 := (Char.isDigit_iff_toNat.1 (isDigit_of_mem_digitChars hc)).2
    unfold Char.toUpper
    refine dif_neg fun small => ?_
    have low : 97 ≤ c.toNat := small.1
    omega
  rw [Text.toList_asciiUpper, String.toList_append, List.map_append, toList_toString, digits,
    Text.toList_asciiUpper]

theorem endsOpen_asciiUpper (stem : String) : endsOpen (Text.asciiUpper stem) = endsOpen stem := by
  have class_ (c : Char) : c.toUpper.isDigit = c.isDigit :=
    Text.toUpper_of_letters (f := Char.isDigit) (by decide) c
  rw [endsOpen, Text.toList_asciiUpper, ← List.map_reverse, List.head?_map, endsOpen]
  cases stem.toList.reverse.head? with
  | none => rfl
  | some c => simp [class_]

/-- Numbered names have one key when their stems and their numbers agree. -/
theorem asciiUpper_numbered_iff {s t : String} (hs : endsOpen s = true) (ht : endsOpen t = true)
    {n k : Nat} : Text.asciiUpper (s ++ toString n) = Text.asciiUpper (t ++ toString k) ↔
      Text.asciiUpper s = Text.asciiUpper t ∧ n = k := by
  constructor
  · intro h
    have chars := congrArg String.toList h
    rw [toList_asciiUpper_numbered, toList_asciiUpper_numbered] at chars
    rw [← endsOpen_asciiUpper] at hs ht
    obtain ⟨stems, digits⟩ := append_digits_inj hs ht (fun c => isDigit_of_mem_digitChars)
      (fun c => isDigit_of_mem_digitChars) chars
    have numbers := congrArg digitsValue digits
    rw [digitsValue_digitChars, digitsValue_digitChars] at numbers
    exact ⟨String.toList_injective stems, numbers⟩
  · rintro ⟨stems, rfl⟩
    apply String.toList_injective
    rw [toList_asciiUpper_numbered, toList_asciiUpper_numbered, stems]

theorem endsOpen_numbered (stem : String) (n : Nat) : endsOpen (stem ++ toString n) = false := by
  have nonempty : (digitChars n).reverse ≠ [] := by simp [digitChars_ne_nil]
  obtain ⟨d, ds, digits⟩ := List.exists_cons_of_ne_nil nonempty
  have digit : d.isDigit = true := by
    refine isDigit_of_mem_digitChars (n := n) (List.mem_reverse.1 ?_)
    rw [digits]
    exact List.mem_cons_self
  rw [endsOpen, String.toList_append, toList_toString, List.reverse_append, digits]
  simp [digit]

/-- A numbered name has another key than a text that ends in no digit. -/
theorem asciiUpper_numbered_ne (stem : String) (n : Nat) {text : String}
    (h : endsOpen text = true) : Text.asciiUpper (stem ++ toString n) ≠ Text.asciiUpper text := by
  intro same
  have last := congrArg endsOpen same
  rw [endsOpen_asciiUpper, endsOpen_asciiUpper, endsOpen_numbered, h] at last
  cases last

end BuildingControl.Erl
