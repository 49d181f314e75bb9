import Spreadsheet.Proofs.Formula.Parse
import Spreadsheet.Proofs.Formula.SheetName

/-! Words that can be defined as names. In a formula such a word is read as a name, unless it is the address of a cell or a
truth value. -/

namespace Spreadsheet.Formula

open Text ReferenceText Piece

variable {c : Char} {cs : List Char} {name : String} {a : Address}

/-- The characters that names go on with. -/
def isNamePart (c : Char) : Bool := isAlphabetic c || isNumeric c || c == '_' || c == '.'

/-- A text that can be defined as a name. -/
def IsName (cs : List Char) : Prop := ∃ c rest, cs = c :: rest ∧ isWordStart c = true ∧ ∀ d ∈ rest, isNamePart d = true

lemma isName_of_isDefinable (h : isDefinable name = true) : IsName name.toList := by
  unfold isDefinable at h
  split at h
  · cases h
  · rename_i c rest heq
    obtain ⟨hc, hrest⟩ := Bool.and_eq_true_iff.1 h
    exact ⟨c, rest, heq, hc, List.all_eq_true.1 hrest⟩

lemma isIdentifierChar_of_isWordStart (h : isWordStart c = true) : isIdentifierChar c = true := by
  simp only [isWordStart, Bool.or_eq_true] at h
  rcases h with (h | h) | h <;> simp [isIdentifierChar, h]

lemma isIdentifierChar_of_isNamePart (h : isNamePart c = true) : isIdentifierChar c = true := by
  simp only [isNamePart, Bool.or_eq_true] at h
  rcases h with ((h | h) | h) | h <;> simp [isIdentifierChar, h]

lemma ne_of_isIdentifierChar' {d : Char} (h : isIdentifierChar c = true) (hd : isIdentifierChar d = false) : c ≠ d := by
  rintro rfl
  rw [h] at hd
  cases hd

lemma isBlank_of_isIdentifierChar (h : isIdentifierChar c = true) : isBlank c = false := by
  rw [Bool.eq_false_iff]
  intro hblank
  obtain ⟨halphabetic, hnumeric, -, hne⟩ := isBreak_iff.1 (isBreak_of_isBlank hblank)
  simp only [List.mem_cons, not_or] at hne
  simp [isIdentifierChar, halphabetic, hnumeric, hne] at h

lemma endsBefore_of_isNamePart (h : isNamePart c = true) : endsBefore (c :: cs) = false := by
  simp only [isNamePart, Bool.or_eq_true] at h
  rcases h with ((h | h) | h) | h <;> simp [endsBefore, h]

namespace IsName

lemma isIdentifierChar (h : IsName cs) : ∀ d ∈ cs, Piece.isIdentifierChar d = true := by
  obtain ⟨c, rest, rfl, hc, hrest⟩ := h
  intro d hd
  rcases List.mem_cons.1 hd with rfl | hd
  · exact isIdentifierChar_of_isWordStart hc
  · exact isIdentifierChar_of_isNamePart (hrest d hd)

lemma not_mem (h : IsName cs) (hc : Piece.isIdentifierChar c = false) : c ∉ cs := fun hmem =>
  ne_of_isIdentifierChar' (h.isIdentifierChar c hmem) hc rfl

lemma trimChars (h : IsName cs) : Text.trimChars cs = cs :=
  trimChars_eq_self (fun d hd => isBlank_of_isIdentifierChar (h.isIdentifierChar d (List.mem_of_mem_head? hd)))
    fun d hd => isBlank_of_isIdentifierChar (h.isIdentifierChar d (List.mem_of_getLast? hd))

lemma cellLength?_of_address (h : IsName cs) (ha : Address.parseChars cs = .ok a) : cellLength? cs = some cs.length := by
  have hnames := Address.parseChars_eq_ok.1 ha
  rw [h.trimChars] at hnames
  exact cellLength?_of_names hnames

lemma isSome_parseChars?_iff (h : IsName cs) :
    (AreaForm.parseChars? cs).isSome = true ↔ ∃ a, Address.parseChars cs = .ok a := by
  have hcolon : Range.splitColon? cs = none :=
    AreaForm.splitColon?_none fun d hd => ne_of_isIdentifierChar' (h.isIdentifierChar d hd) (by decide)
  simp only [AreaForm.parseChars?, h.trimChars, hcolon]
  cases Address.parseChars cs with
  | ok a => simp
  | error e => simp

lemma area?_eq_some_iff (h : IsName cs) {area : List Char} :
    area? cs = some area ↔ area = cs ∧ ∃ a, Address.parseChars cs = .ok a := by
  rw [area?_eq_some]
  constructor
  · rintro ⟨n, hlength, rfl, hends, hparse⟩
    have hn := (starts_areaLength? _ _ hlength).1
    have hwhole : cs.take n = cs := by
      obtain ⟨c, rest, rfl, -, hrest⟩ := h
      obtain ⟨n, rfl⟩ := Nat.exists_eq_succ_of_ne_zero hn
      rw [List.drop_succ_cons] at hends
      cases hdrop : rest.drop n with
      | nil => rw [List.take_succ_cons, List.take_of_length_le (List.drop_eq_nil_iff.1 hdrop)]
      | cons d rest' =>
        have hd : d ∈ rest := List.mem_of_mem_drop (hdrop ▸ List.mem_cons_self)
        rw [hdrop, endsBefore_of_isNamePart (hrest d hd)] at hends
        cases hends
    rw [hwhole] at hparse
    exact ⟨hwhole, h.isSome_parseChars?_iff.1 hparse⟩
  · rintro ⟨rfl, a, ha⟩
    have hpair : pairLength? cellLength? cellLength? area = none := by
      rw [Option.eq_none_iff_forall_ne_some]
      intro n hn
      obtain ⟨k, rest, -, -, hcolon, -⟩ := pairLength?_eq_some.1 hn
      exact h.not_mem (c := ':') (by decide) (List.mem_of_mem_drop (hcolon ▸ List.mem_cons_self))
    refine ⟨area.length, ?_, List.take_length, by rw [List.drop_length]; rfl, h.isSome_parseChars?_iff.2 ⟨a, ha⟩⟩
    rw [areaLength?, hpair, h.cellLength?_of_address ha]
    rfl

lemma reference?_eq (h : IsName cs) :
    reference? cs = (area? cs).map fun area => (token none none area, area.length) := by
  have hnone : reference? (cs ++ []) = _ :=
    reference?_unqualified (fun d hd => ne_of_isIdentifierChar (h.isIdentifierChar d hd)) fun _ hd => nomatch hd
  rwa [List.append_nil] at hnone

end IsName

/-- What a word means: a cell, a truth value or a name. -/
def wordToken (word : String) : Token :=
  match Address.parse word with
  | .ok _ => .reference { book := none, sheet := none, area := word }
  | .error _ =>
    if sameLetters word "TRUE" then .boolean true
    else if sameLetters word "FALSE" then .boolean false
    else .name word

namespace Piece

variable {ctx : Context} {rest : List Char}

lemma cut_of_isWordStart (h : isWordStart c = true) : cut {} ctx c rest = identifier (c :: rest) := by
  have hchar := isIdentifierChar_of_isWordStart h
  have hpoint : c ≠ '.' := by
    rintro rfl
    exact absurd h (by decide)
  have hdigit : ¬ c.isDigit = true := fun hdigit => by
    rw [isWordStart_of_isDigit hdigit] at h
    cases h
  rw [cut_eq_plain (isBlank_of_isIdentifierChar hchar) (not_mem_of_all (p := isWordStart) (by decide) h), plain,
    if_neg hdigit, if_neg (by simp [hpoint]), if_pos (by exact h)]

lemma cut_isName (h : IsName (c :: rest)) :
    cut {} ctx c rest = (.token (wordToken (String.ofList (c :: rest))), rest.length) := by
  obtain ⟨d, rest', heq, hc, -⟩ := id h
  obtain ⟨rfl, rfl⟩ := List.cons.inj heq
  have hrun : identifier (c :: rest ++ []) = _ := identifier_run h.isIdentifierChar fun _ hd => nomatch hd
  rw [List.append_nil] at hrun
  rw [cut_of_isWordStart hc, hrun, if_neg (by simp), referenceOr, h.reference?_eq, wordToken, Address.parse, String.toList_ofList]
  cases ha : Address.parseChars (c :: rest) with
  | ok a =>
    rw [h.area?_eq_some_iff.2 ⟨rfl, a, ha⟩]
    rfl
  | error e =>
    have hnone : area? (c :: rest) = none := by
      rw [Option.eq_none_iff_forall_ne_some]
      intro area harea
      obtain ⟨-, a, hok⟩ := h.area?_eq_some_iff.1 harea
      cases ha.symm.trans hok
    rw [hnone]
    dsimp only [Option.map_none]
    rw [plainWord]
    split
    · rfl
    · split <;> rfl

end Piece

theorem TokenTree.ofText_definable (h : isDefinable name = true) :
    TokenTree.ofText {} ("=" ++ name) = [.token (wordToken name) ⟨1, 1 + byteLength name.toList⟩] := by
  have hname := isName_of_isDefinable h
  obtain ⟨c, rest, heq, -, -⟩ := id hname
  have htext : ("=" ++ name).toList = '=' :: c :: rest := by rw [String.toList_append, heq]; rfl
  have hword : String.ofList (c :: rest) = name := by rw [← heq, String.ofList_toList]
  rw [heq] at hname
  rw [ofText, htext, heq, ← hword]
  exact ofChars_of_cut (Piece.cut_isName hname)

/-- A word that is read as a name. -/
structure IsUsable (name : String) : Prop where
  notAddress : ∀ a, Address.parse name ≠ .ok a
  notTrue : sameLetters name "TRUE" = false
  notFalse : sameLetters name "FALSE" = false

lemma wordToken_cases (name : String) : IsUsable name ∧ wordToken name = .name name ∨
    ¬ IsUsable name ∧ ((∃ r, wordToken name = .reference r) ∨ ∃ v, wordToken name = .boolean v) := by
  unfold wordToken
  cases ha : Address.parse name with
  | ok a => exact Or.inr ⟨fun h => h.notAddress a ha, Or.inl ⟨_, rfl⟩⟩
  | error e =>
    dsimp only
    split
    · rename_i htrue
      exact Or.inr ⟨fun h => by simp [h.notTrue] at htrue, Or.inr ⟨_, rfl⟩⟩
    · split
      · rename_i hfalse
        exact Or.inr ⟨fun h => by simp [h.notFalse] at hfalse, Or.inr ⟨_, rfl⟩⟩
      · rename_i htrue hfalse
        exact Or.inl ⟨⟨fun a hok => (nomatch ha.symm.trans hok), Bool.eq_false_iff.2 htrue, Bool.eq_false_iff.2 hfalse⟩, rfl⟩

lemma Parse.reference_ne_name (b : Binder) (t : ReferenceToken) (s s' : Span) (name : String) :
    Parse.reference b t s ≠ .name s' name := by
  unfold Parse.reference
  split
  · exact nofun
  · exact nofun
  · dsimp only
    split
    · exact nofun
    · split <;> exact nofun

/-- Names that are neither addresses nor truth values can be used in formulas, and no others. -/
theorem Node.parse_definable_iff (b : Binder) (h : isDefinable name = true) :
    (∃ s, Node.parse b ("=" ++ name) = .name s name) ↔ IsUsable name := by
  rw [Node.parse, TokenTree.ofText_definable h]
  rcases wordToken_cases name with ⟨husable, hname⟩ | ⟨hnot, ⟨r, hr⟩ | ⟨v, hv⟩⟩
  · rw [hname]
    exact iff_of_true ⟨_, rfl⟩ husable
  · rw [hr]
    refine iff_of_false ?_ hnot
    rintro ⟨s, hs⟩
    rw [Node.ofTokens_reference] at hs
    exact Parse.reference_ne_name _ _ _ _ _ hs
  · rw [hv]
    refine iff_of_false ?_ hnot
    rintro ⟨s, hs⟩
    cases hs

/-- The longest words of three letters and digits behind them are addresses up to the limits of sheets. -/
example : isDefinable "TAX2024" = true ∧ ¬ IsUsable "TAX2024" ∧ isDefinable "XFE1" = true ∧ IsUsable "XFE1" :=
  ⟨by decide, fun h => h.notAddress ⟨2023, 13569, false, false⟩ rfl, by decide, ⟨nofun, by decide, by decide⟩⟩

end Spreadsheet.Formula
