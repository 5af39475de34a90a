/-
  BuildingControl.Proofs.Erl.Mention

  The names an expression mentions, against the tokens its text is cut into.  A
  blank, a bracket or an operator that is no sign parts a text into two that are
  cut on their own, so the names of the whole are those of the parts.  A sign does
  not part a text: behind `1e` it belongs to the number.
-/
import BuildingControl.Proofs.Erl.TableText

namespace BuildingControl.Erl

/-! ## Two expressions in one -/

/-- The characters that part a text wherever they stand. -/
def separators : List Char :=
  [' ', '(', ')', '*', '/', '^', '<', '>', '=', '&', '|']

/-- Without repetitions, what two lists hold is what the first holds and what only the second
    does. -/
theorem pushUnique_nil_append {α : Type} [DecidableEq α] (xs ys : List α) :
    pushUnique [] (xs ++ ys) =
      pushUnique [] xs ++ (pushUnique [] ys).filter (· ∉ pushUnique [] xs) := by
  have nodup : (pushUnique [] ys).Nodup := nodup_pushUnique List.nodup_nil ys
  rw [← pushUnique_eq_append nodup, ← pushUnique_assoc, pushUnique_nil, pushUnique_append]

theorem namesAmong_eq_ok_iff {ws : List String} {names : List Name} :
    namesAmong ws = .ok names ↔
      ∃ found, eachOk Name.ofText? (ws.filter isOwnWord) = .ok found ∧
        pushUnique [] found = names := by
  rw [namesAmong_eq, map_eq_ok_iff]

/-- The names among two lists of words in a row. -/
theorem namesAmong_append_eq_ok_iff {ws vs : List String} {names : List Name} :
    namesAmong (ws ++ vs) = .ok names ↔
      ∃ ns ms, namesAmong ws = .ok ns ∧ namesAmong vs = .ok ms ∧
        names = ns ++ ms.filter (· ∉ ns) := by
  simp only [namesAmong_eq_ok_iff, List.filter_append, eachOk_append_eq_ok_iff]
  constructor
  · rintro ⟨_, ⟨us, vs, hus, hvs, rfl⟩, rfl⟩
    exact ⟨_, _, ⟨us, hus, rfl⟩, ⟨vs, hvs, rfl⟩, pushUnique_nil_append us vs⟩
  · rintro ⟨_, _, ⟨us, hus, rfl⟩, ⟨vs, hvs, rfl⟩, rfl⟩
    exact ⟨us ++ vs, ⟨us, vs, hus, hvs, rfl⟩, pushUnique_nil_append us vs⟩

/-- Expressions with a separator between them are an expression, with the words of both. -/
theorem Expression.exists_joined {s t : String} {a b : Expression}
    (ha : Expression.ofText? s = .ok a) (hb : Expression.ofText? t = .ok b) {c : Char}
    (hc : c ∈ separators) :
    ∃ e, Expression.ofText? (s ++ String.singleton c ++ t) = .ok e ∧
      words e.text.toList = words a.text.toList ++ words b.text.toList := by
  have parts : separators.all isBreak = true := by decide
  have fields : separators.all Erl.isFieldChar = true := by decide
  have part : isBreak c = true := List.all_eq_true.1 parts c hc
  have field : Erl.isFieldChar c = true := List.all_eq_true.1 fields c hc
  obtain ⟨⟨d, hd, visible⟩, left⟩ := expressionReason?_eq_none_iff.1 (exists_ofText?_iff.1 ⟨a, ha⟩)
  obtain ⟨-, right⟩ := expressionReason?_eq_none_iff.1 (exists_ofText?_iff.1 ⟨b, hb⟩)
  have text : (s ++ String.singleton c ++ t).toList = s.toList ++ c :: t.toList := by
    simp [String.toList_append]
  have valid : expressionReason? (s ++ String.singleton c ++ t) = none := by
    rw [expressionReason?_eq_none_iff, text]
    refine ⟨⟨d, List.mem_append_left _ hd, visible⟩, ?_⟩
    exact List.forall_mem_append.2 ⟨left, List.forall_mem_cons.2 ⟨field, right⟩⟩
  obtain ⟨e, he⟩ := exists_ofText?_iff.2 valid
  refine ⟨e, he, ?_⟩
  rw [words_of_ofText? he, text, words_break part, words_of_ofText? ha, words_of_ofText? hb]

/-! ## Names and tokens -/

/-- An expression mentions something that is no name exactly when one of its words starts with
    an underscore. -/
theorem Expression.exists_fault_iff (e : Expression) :
    (∃ fault, e.names = .error fault) ↔ ∃ w ∈ words e.text.toList, isUnderscored w = true := by
  have none : (∃ names, e.names = .ok names) ↔
      ∀ w ∈ words e.text.toList, isUnderscored w = false := by
    rw [e.firstOf_names.exists_ok_iff, wordFaults, List.flatMap_eq_nil_iff]
    refine forall₂_congr fun w _ => ?_
    cases isUnderscored w <;> simp
  cases result : e.names with
  | ok names =>
    rw [result] at none
    have clean := none.1 ⟨names, rfl⟩
    constructor
    · rintro ⟨fault, failed⟩
      cases failed
    · rintro ⟨w, hw, underscored⟩
      rw [clean w hw] at underscored
      cases underscored
  | error fault =>
    rw [result] at none
    refine iff_of_true ⟨fault, rfl⟩ ?_
    by_contra clean
    simp only [not_exists, not_and, Bool.not_eq_true] at clean
    obtain ⟨names, ok⟩ := none.2 clean
    cases ok

/-- What an expression mentions.  It is read off the one way to cut its text into tokens: a name
    token with an underscore in front is the only fault; without one, the names are the name
    tokens that are neither reserved nor built in, each once and where it appears first.  Two
    expressions with a separator between them mention what the first mentions, then what only
    the second does. -/
theorem Expression.names_of_tokens :
    (∀ (s t : String) (a b : Expression), Expression.ofText? s = .ok a →
      Expression.ofText? t = .ok b → ∀ c ∈ separators,
      ∃ e, Expression.ofText? (s ++ String.singleton c ++ t) = .ok e ∧
        ∀ names, e.names = .ok names ↔
          ∃ ns ms, a.names = .ok ns ∧ b.names = .ok ms ∧ names = ns ++ ms.filter (· ∉ ns)) ∧
    ∀ e : Expression, ∃ ts, (∀ us, Tokenized e.text.toList us ↔ us = ts) ∧
      ((∃ fault, e.names = .error fault) ↔
        ∃ w ∈ ts.filterMap Token.name?, isUnderscored w = true) ∧
      ∀ names, e.names = .ok names →
        names.map Name.text = ((ts.filterMap Token.name?).filter isOwnWord).eraseDups ∧
        ∀ w ∈ ts.filterMap Token.name?, isOwnWord w = true → nameReason? w = none := by
  constructor
  · intro s t a b ha hb c hc
    obtain ⟨e, he, joined⟩ := exists_joined ha hb hc
    refine ⟨e, he, fun names => ?_⟩
    rw [e.names_eq, a.names_eq, b.names_eq, joined]
    exact namesAmong_append_eq_ok_iff
  · intro e
    refine ⟨tokens e.text.toList, fun us => tokenized_iff, e.exists_fault_iff, fun names h => ?_⟩
    rw [e.names_eq] at h
    have texts := map_text_of_namesAmong h
    refine ⟨texts, fun w hw own => ?_⟩
    -- such a token is the text of one of the names
    have kept : w ∈ names.map Name.text := by
      rw [texts, List.mem_eraseDups]
      exact List.mem_filter.2 ⟨hw, own⟩
    obtain ⟨n, -, rfl⟩ := List.mem_map.1 kept
    exact n.valid

/-- Two texts whose ends look like parts of a number, a function and a word of another alphabet:
    the mark of an exponent at the end of the first is a name before the bracket. -/
theorem Expression.names_of_tokens_bracket :
    ∃ a b e : Expression, ∃ ns ms : List Name,
      Expression.ofText? "2.5*@Max T_in 1e" = .ok a ∧ Expression.ofText? "-5.é)+T_in+t_IN" = .ok b ∧
      '(' ∈ separators ∧ Expression.ofText? "2.5*@Max T_in 1e(-5.é)+T_in+t_IN" = .ok e ∧
      a.names = .ok ns ∧ ns.map Name.text = ["T_in", "e"] ∧
      b.names = .ok ms ∧ ms.map Name.text = ["T_in", "t_IN"] ∧
      e.names = .ok (ns ++ ms.filter (· ∉ ns)) ∧
      (ns ++ ms.filter (· ∉ ns)).map Name.text = ["T_in", "e", "t_IN"] ∧
      ∃ ts, Tokenized e.text.toList ts ∧
        ((ts.filterMap Token.name?).filter isOwnWord).eraseDups = ["T_in", "e", "t_IN"] := by
  have mentions (text : String) (texts : List String)
      (h : (Expression.ofText? text).toOption.bind
        (fun e => e.names.toOption.map (List.map Name.text)) = some texts) :
      ∃ e names, Expression.ofText? text = .ok e ∧ e.names = .ok names ∧
        names.map Name.text = texts := by
    obtain ⟨e, he, rest⟩ := Option.bind_eq_some_iff.1 h
    obtain ⟨names, hnames, same⟩ := Option.map_eq_some_iff.1 rest
    exact ⟨e, names, eq_ok_of_toOption he, eq_ok_of_toOption hnames, same⟩
  obtain ⟨a, ns, ha, hns, first⟩ := mentions "2.5*@Max T_in 1e" ["T_in", "e"] (by decide +kernel)
  obtain ⟨b, ms, hb, hms, second⟩ :=
    mentions "-5.é)+T_in+t_IN" ["T_in", "t_IN"] (by decide +kernel)
  obtain ⟨e, names, he, hnames, whole⟩ :=
    mentions "2.5*@Max T_in 1e(-5.é)+T_in+t_IN" ["T_in", "e", "t_IN"] (by decide +kernel)
  have bracket : '(' ∈ separators := by decide
  obtain ⟨joined, hjoined, parts⟩ := names_of_tokens.1 _ _ a b ha hb '(' bracket
  have same : joined = e := Except.ok.inj (hjoined.symm.trans he)
  have put := (parts _).2 ⟨ns, ms, hns, hms, rfl⟩
  rw [same] at put
  have text : ns ++ ms.filter (· ∉ ns) = names := Except.ok.inj (put.symm.trans hnames)
  obtain ⟨ts, cut, -, found⟩ := names_of_tokens.2 e
  have kept := (found names hnames).1.symm.trans whole
  exact ⟨a, b, e, ns, ms, ha, hb, bracket, he, hns, first, hms, second, put, text ▸ whole,
    ts, (cut ts).2 rfl, kept⟩

/-- A sign is no separator: behind `1e` it belongs to the number. -/
example : words "1e".toList = ["e"] ∧ words "1e-5".toList = [] := by decide

end BuildingControl.Erl
