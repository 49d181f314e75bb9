import Mathlib.Data.List.DropRight
import Spreadsheet.Proofs.Area
import Spreadsheet.Proofs.Number.Finite

/-! Numbers as they are typed. A text reads as a finite number, or it is no number; with a percent sign behind it it reads as the
hundredth part, but there the names of the infinities and of NaN and numbers out of range count too. -/

namespace Spreadsheet

open Text

namespace Text

variable {c : Char} {cs : List Char}

lemma trimStart_append_of_not_blank (hc : isBlank c = false) (cs : List Char) : trimStart (cs ++ [c]) = trimStart cs ++ [c] := by
  rw [trimStart, trimStart, List.dropWhile_append]
  cases h : cs.dropWhile isBlank with
  | nil => simp [hc]
  | cons d ds => rfl

lemma trimEnd_append_of_not_blank (hc : isBlank c = false) (cs : List Char) : trimEnd (cs ++ [c]) = cs ++ [c] := by
  rw [trimEnd, List.reverse_append, List.reverse_singleton, List.singleton_append, List.dropWhile_cons_of_neg (by simp [hc]),
    List.reverse_cons, List.reverse_reverse]

lemma trimChars_append_of_not_blank (hc : isBlank c = false) (cs : List Char) : trimChars (cs ++ [c]) = trimStart cs ++ [c] := by
  rw [trimChars, trimStart_append_of_not_blank hc, trimEnd_append_of_not_blank hc]

lemma trimChars_trimStart (cs : List Char) : trimChars (trimStart cs) = trimChars cs := by
  rw [trimChars, trimChars, trimStart, trimStart, List.dropWhile_idempotent]

end Text

namespace Number

variable {cs : List Char} {c : Char} {s : String} {x y : Float}

/-- The characters of numerals. -/
def isNumeralChar (c : Char) : Bool := c.isDigit || c == '.' || c == 'e' || c == 'E' || c == '+' || c == '-'

lemma isNumeralChar_of_isDigit (h : c.isDigit = true) : isNumeralChar c = true := by simp [isNumeralChar, h]

lemma isNumeralChar_of_mem_takeWhile (h : c ∈ cs.takeWhile Char.isDigit) : isNumeralChar c = true :=
  isNumeralChar_of_isDigit (List.all_eq_true.mp List.all_takeWhile c h)

lemma isNumeralChar_of_power? {k : Int} (h : power? cs = some k) : ∀ c ∈ cs, isNumeralChar c = true := by
  unfold power? at h
  split at h
  rename_i negative digits hsign
  rw [Option.ite_none_left_eq_some] at h
  have hall : digits.all Char.isDigit = true := by simpa using (not_or.mp h.1).2
  have hdigits : ∀ c ∈ digits, isNumeralChar c = true := fun c hc => isNumeralChar_of_isDigit (List.all_eq_true.mp hall c hc)
  split at hsign
  · obtain ⟨-, rfl⟩ := Prod.mk.inj hsign
    exact List.forall_mem_cons.mpr ⟨rfl, hdigits⟩
  · obtain ⟨-, rfl⟩ := Prod.mk.inj hsign
    exact List.forall_mem_cons.mpr ⟨rfl, hdigits⟩
  · obtain ⟨-, rfl⟩ := Prod.mk.inj hsign
    exact hdigits

lemma isNumeralChar_of_power_tail {zero : Float} {scaled : Int → Float}
    (h : (match cs with
      | [] => some zero
      | c :: rest => if c = 'e' ∨ c = 'E' then (power? rest).map scaled else none) = some x) :
    ∀ c ∈ cs, isNumeralChar c = true := by
  split at h
  · exact fun c hc => nomatch hc
  · rw [Option.ite_none_right_eq_some] at h
    obtain ⟨he, h⟩ := h
    obtain ⟨k, hk, -⟩ := Option.map_eq_some_iff.mp h
    refine List.forall_mem_cons.mpr ⟨?_, isNumeralChar_of_power? hk⟩
    rcases he with rfl | rfl
    · rfl
    · rfl

lemma isNumeralChar_of_dropWhile (h : ∀ c ∈ cs.dropWhile Char.isDigit, isNumeralChar c = true) :
    ∀ c ∈ cs, isNumeralChar c = true := by
  rw [← List.takeWhile_append_dropWhile (p := Char.isDigit) (l := cs), List.forall_mem_append]
  exact ⟨fun c => isNumeralChar_of_mem_takeWhile, h⟩

lemma isNumeralChar_of_unsigned? (h : unsigned? cs = some x) : cs ≠ [] ∧ ∀ c ∈ cs, isNumeralChar c = true := by
  rw [unsigned?] at h
  dsimp only at h
  split at h
  · rename_i rest hrest
    rw [Option.ite_none_left_eq_some] at h
    refine ⟨?_, isNumeralChar_of_dropWhile ?_⟩
    · rintro rfl
      cases hrest
    · rw [hrest, List.forall_mem_cons]
      exact ⟨rfl, isNumeralChar_of_dropWhile (isNumeralChar_of_power_tail h.2)⟩
  · rw [Option.ite_none_left_eq_some] at h
    refine ⟨?_, isNumeralChar_of_dropWhile (isNumeralChar_of_power_tail h.2)⟩
    rintro rfl
    exact h.1 rfl

lemma named?_eq_some (h : named? cs = some x) :
    String.ofList (cs.map Char.toLower) ∈ ["inf", "infinity", "nan"] ∧ (x = 1 / 0 ∨ x = 0 / 0) := by
  rw [named?] at h
  split at h
  · rename_i hname
    refine ⟨?_, Or.inl (Option.some.inj h).symm⟩
    rcases hname with hname | hname
    · exact hname ▸ List.mem_cons_self
    · exact hname ▸ List.mem_cons_of_mem _ List.mem_cons_self
  · rw [Option.ite_none_right_eq_some] at h
    obtain ⟨hname, hx⟩ := h
    exact ⟨hname ▸ List.mem_cons_of_mem _ (List.mem_cons_of_mem _ List.mem_cons_self), Or.inr (Option.some.inj hx).symm⟩

lemma not_isFinite_of_named? (h : named? cs = some x) : x.isFinite = false ∧ (-x).isFinite = false := by
  rcases (named?_eq_some h).2 with rfl | rfl
  · decide
  · decide

lemma percent_not_mem_of_named? (h : named? cs = some x) : '%' ∉ cs := by
  have hnames : ∀ name ∈ ["inf", "infinity", "nan"], '%' ∉ name.toList := by decide
  have hname := hnames _ (named?_eq_some h).1
  rw [String.toList_ofList] at hname
  exact fun hmem => hname (List.mem_map.mpr ⟨'%', hmem, rfl⟩)

lemma exists_of_float? (h : float? (String.ofList cs) = some x) : ∃ sign rest y, cs = sign ++ rest ∧
    (∀ c ∈ sign, isNumeralChar c = true) ∧ (named? rest = some y ∨ unsigned? rest = some y) ∧ (x = y ∨ x = -y) := by
  have either {rest : List Char} {y : Float} (h : (named? rest).or (unsigned? rest) = some y) :
      named? rest = some y ∨ unsigned? rest = some y := (Option.or_eq_some_iff.mp h).imp_right And.right
  rw [float?] at h
  simp only [String.toList_ofList] at h
  split at h
  · obtain ⟨y, hy, rfl⟩ := Option.map_eq_some_iff.mp h
    exact ⟨['-'], _, y, rfl, List.forall_mem_singleton.mpr rfl, either hy, Or.inr rfl⟩
  · exact ⟨['+'], _, x, rfl, List.forall_mem_singleton.mpr rfl, either h, Or.inl rfl⟩
  · exact ⟨[], _, x, rfl, List.forall_mem_nil _, either h, Or.inl rfl⟩

lemma isNumeralChar_of_float? (h : float? (String.ofList cs) = some x) (hx : x.isFinite = true) :
    cs ≠ [] ∧ ∀ c ∈ cs, isNumeralChar c = true := by
  obtain ⟨sign, rest, y, rfl, hsign, hnamed | hunsigned, hxy⟩ := exists_of_float? h
  · obtain ⟨hy, hneg⟩ := not_isFinite_of_named? hnamed
    rcases hxy with rfl | rfl
    · exact absurd hx (by simp [hy])
    · exact absurd hx (by simp [hneg])
  · obtain ⟨hne, hrest⟩ := isNumeralChar_of_unsigned? hunsigned
    exact ⟨List.append_ne_nil_of_right_ne_nil sign hne, List.forall_mem_append.mpr ⟨hsign, hrest⟩⟩

lemma percent_not_mem_of_float? (h : float? (String.ofList cs) = some x) : '%' ∉ cs := by
  obtain ⟨sign, rest, y, rfl, hsign, hrest, -⟩ := exists_of_float? h
  rw [List.mem_append]
  rintro (hmem | hmem)
  · exact absurd (hsign '%' hmem) (by decide)
  · rcases hrest with hnamed | hunsigned
    · exact percent_not_mem_of_named? hnamed hmem
    · exact absurd ((isNumeralChar_of_unsigned? hunsigned).2 '%' hmem) (by decide)

lemma not_letter_of_isNumeralChar (h : isNumeralChar c = true) : (c.isAlpha && c != 'e' && c != 'E') = false := by
  simp only [isNumeralChar, Bool.or_eq_true, beq_iff_eq] at h
  rcases h with ((((hdigit | rfl) | rfl) | rfl) | rfl) | rfl
  · rw [not_isAlpha_of_isDigit hdigit]
    rfl
  · rfl
  · rfl
  · rfl
  · rfl
  · rfl

lemma entry?_percent (s : String) :
    entry? (s ++ "%") = (float? (String.ofList (trimChars s.toList))).map (· / 100) := by
  have hlist : (s ++ "%").toList = s.toList ++ ['%'] := String.toList_append
  have htrim := trimChars_append_of_not_blank (c := '%') (by decide) s.toList
  unfold entry?
  simp only [hlist, htrim, List.getLast?_concat, List.dropLast_concat, trimChars_trimStart, if_true]
  rw [if_neg (by simp)]

/-- Without a percent sign, the texts of numbers are the spellings of finite doubles. -/
lemma entry?_eq_some_iff (hs : (trimChars s.toList).getLast? ≠ some '%') :
    entry? s = some x ↔ float? (String.ofList (trimChars s.toList)) = some x ∧ x.isFinite = true := by
  unfold entry?
  simp only [if_neg hs]
  constructor
  · intro h
    rw [Option.ite_none_left_eq_some, Option.ite_none_left_eq_some, Option.filter_eq_some_iff] at h
    exact h.2.2
  · intro h
    obtain ⟨hne, hchars⟩ := isNumeralChar_of_float? h.1 h.2
    have hletters : ¬ ((trimChars s.toList).any fun c => c.isAlpha && c != 'e' && c != 'E') = true := by
      rw [Bool.not_eq_true, List.any_eq_false]
      exact fun c hc => by rw [not_letter_of_isNumeralChar (hchars c hc)]; exact Bool.false_ne_true
    rw [if_neg hne, if_neg hletters, Option.filter_eq_some_iff]
    exact h

theorem isFinite_of_entry? (h : entry? s = some x) (hs : (trimChars s.toList).getLast? ≠ some '%') : x.isFinite = true :=
  ((entry?_eq_some_iff hs).mp h).2

/-- Behind a percent sign a text reads as a finite number if it is a number itself, of which that is the hundredth part, and
otherwise, where it reads at all, as an infinity or as NaN. -/
theorem entry?_of_percent (h : entry? (s ++ "%") = some x) :
    x.isFinite = true ∧ (∃ y, entry? s = some y ∧ y.isFinite = true ∧ y / 100 = x) ∨ x.isFinite = false ∧ entry? s = none := by
  rw [entry?_percent] at h
  obtain ⟨y, hy, rfl⟩ := Option.map_eq_some_iff.mp h
  have hs : (trimChars s.toList).getLast? ≠ some '%' := fun hlast => percent_not_mem_of_float? hy (List.mem_of_getLast? hlast)
  rw [isFinite_div_hundred]
  cases hfinite : y.isFinite with
  | true => exact Or.inl ⟨rfl, y, (entry?_eq_some_iff hs).mpr ⟨hy, hfinite⟩, hfinite, rfl⟩
  | false =>
    refine Or.inr ⟨rfl, Option.eq_none_iff_forall_ne_some.mpr fun z hz => ?_⟩
    obtain ⟨hread, hz⟩ := (entry?_eq_some_iff hs).mp hz
    obtain rfl := Option.some.inj (hy.symm.trans hread)
    rw [hfinite] at hz
    cases hz

example : entry? "1e400%" = some (1 / 0) ∧ entry? "1e400" = none := ⟨rfl, rfl⟩

theorem entry?_percent_of_entry? (h : entry? s = some y) (hs : (trimChars s.toList).getLast? ≠ some '%') :
    entry? (s ++ "%") = some (y / 100) := by
  rw [entry?_percent, ((entry?_eq_some_iff hs).mp h).1, Option.map_some]

end Number

end Spreadsheet
