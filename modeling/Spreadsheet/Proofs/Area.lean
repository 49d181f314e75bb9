import Mathlib.Tactic.Lemma
import Spreadsheet.Formula.Shift
import Spreadsheet.Proofs.Formula.Parse

/-! Areas that are written are read back. -/

namespace Spreadsheet

open Text

namespace Text

variable {c : Char} {cs : List Char}

lemma isAlpha_iff : c.isAlpha = true ↔ 65 ≤ c.toNat ∧ c.toNat ≤ 90 ∨ 97 ≤ c.toNat ∧ c.toNat ≤ 122 := by
  rw [show c.isAlpha = (decide (65 ≤ c.val ∧ c.val ≤ 90) || (decide (97 ≤ c.val) && decide (c.val ≤ 122))) from rfl]
  simp only [Bool.or_eq_true, decide_eq_true_eq, UInt32.le_iff_toNat_le, Char.toNat, Bool.and_eq_true]
  rfl

lemma isDigit_iff : c.isDigit = true ↔ 48 ≤ c.toNat ∧ c.toNat ≤ 57 := by
  simp only [Char.isDigit, Bool.and_eq_true, decide_eq_true_eq, UInt32.le_iff_toNat_le, Char.toNat]
  rfl

lemma not_isAlpha_of_isDigit (h : c.isDigit = true) : c.isAlpha = false := by
  have hdigit := isDigit_iff.1 h
  rw [Bool.eq_false_iff, Ne, isAlpha_iff]
  omega

lemma takeWhile_run {p : Char → Bool} {rest : List Char} (h : ∀ c ∈ cs, p c = true) (hr : ∀ c ∈ rest.head?, p c = false) :
    (cs ++ rest).takeWhile p = cs := by
  rw [List.takeWhile_append_of_pos h]
  cases rest with
  | nil => exact List.append_nil cs
  | cons c rest => rw [List.takeWhile_cons_of_neg (by simp [hr c rfl]), List.append_nil]

lemma dropWhile_run {p : Char → Bool} {rest : List Char} (h : ∀ c ∈ cs, p c = true) (hr : ∀ c ∈ rest.head?, p c = false) :
    (cs ++ rest).dropWhile p = rest := by
  rw [List.dropWhile_append_of_pos h]
  cases rest with
  | nil => rfl
  | cons c rest => rw [List.dropWhile_cons_of_neg (by simp [hr c rfl])]

lemma takeWhile_of_forall {p : Char → Bool} (h : ∀ c ∈ cs, p c = true) : cs.takeWhile p = cs := by
  have hrun : (cs ++ []).takeWhile p = cs ++ [].takeWhile p := List.takeWhile_append_of_pos h
  rwa [List.append_nil, List.takeWhile_nil, List.append_nil] at hrun

lemma dropWhile_of_forall {p : Char → Bool} (h : ∀ c ∈ cs, p c = true) : cs.dropWhile p = [] := by
  have hrun := List.takeWhile_append_dropWhile (p := p) (l := cs)
  rw [takeWhile_of_forall h] at hrun
  exact List.append_right_eq_self.1 hrun

lemma takeWhile_of_head {p : Char → Bool} (h : ∀ c ∈ cs.head?, p c = false) : cs.takeWhile p = [] := by
  cases cs with
  | nil => rfl
  | cons c cs => rw [List.takeWhile_cons_of_neg (by simp [h c rfl])]

/-- The characters that rows and columns are written with. -/
def isPartChar (c : Char) : Bool := c.isAlpha || c.isDigit || c == '$'

lemma ne_colon_of_isPartChar (h : isPartChar c = true) : c ≠ ':' := by
  rintro rfl
  exact absurd h (by decide)

lemma isBlank_of_isPartChar (h : isPartChar c = true ∨ c = ':') : isBlank c = false := by
  simp only [isPartChar, Bool.or_eq_true, isAlpha_iff, isDigit_iff, beq_iff_eq] at h
  rcases h with ((h | h) | rfl) | rfl
  · simp only [isBlank, Bool.or_eq_false_iff, Bool.and_eq_false_iff, decide_eq_false_iff_not]
    omega
  · simp only [isBlank, Bool.or_eq_false_iff, Bool.and_eq_false_iff, decide_eq_false_iff_not]
    omega
  · decide
  · decide

lemma trimChars_of_isPartChar (h : ∀ c ∈ cs, isPartChar c = true ∨ c = ':') : trimChars cs = cs :=
  trimChars_eq_self (fun c hc => isBlank_of_isPartChar (h c (List.mem_of_mem_head? hc)))
    fun c hc => isBlank_of_isPartChar (h c (List.mem_of_getLast? hc))

end Text

namespace Address

variable {fuel col row : Nat} {c : Char} {a : Address}

lemma letter_spec {k : Nat} (h : k < 26) : letterValue (Char.ofNat (65 + k)) = k + 1 ∧
    (Char.ofNat (65 + k)).isAlpha = true ∧ (Char.ofNat (65 + k)).utf8Size = 1 := by
  have hall : ∀ k : Fin 26, letterValue (Char.ofNat (65 + k)) = k + 1 ∧
      (Char.ofNat (65 + k)).isAlpha = true ∧ (Char.ofNat (65 + k)).utf8Size = 1 := by decide
  exact hall ⟨k, h⟩

lemma lettersWithin_induction {P : Nat → List Char → Prop}
    (hone : ∀ col, col < 26 → P col [Char.ofNat (65 + col)])
    (hmore : ∀ col cs, 26 ≤ col → P (col / 26 - 1) cs → P col (cs ++ [Char.ofNat (65 + col % 26)]))
    (h : col < fuel) : P col (lettersWithin fuel col) := by
  induction fuel generalizing col with
  | zero => omega
  | succ fuel ih =>
    rw [lettersWithin]
    split
    · rename_i hlt
      rw [Nat.mod_eq_of_lt hlt]
      exact hone col hlt
    · exact hmore col _ (by omega) (ih (by omega))

lemma foldl_columnLetters (col : Nat) :
    (columnLetters col).foldl (fun n c => n * 26 + letterValue c) 0 = col + 1 := by
  refine lettersWithin_induction (P := fun col cs => cs.foldl (fun n c => n * 26 + letterValue c) 0 = col + 1)
    (fun col h => ?_) (fun col cs h ih => ?_) (Nat.lt_succ_self col)
  · simp [(letter_spec h).1]
  · rw [List.foldl_append, ih, List.foldl_cons, List.foldl_nil, (letter_spec (Nat.mod_lt col (by omega))).1]
    omega

lemma isAlpha_of_mem_columnLetters (h : c ∈ columnLetters col) : c.isAlpha = true := by
  have hall : ∀ c ∈ columnLetters col, c.isAlpha = true := by
    refine lettersWithin_induction (P := fun _ cs => ∀ c ∈ cs, c.isAlpha = true) (fun col h => ?_)
      (fun col cs _ ih => ?_) (Nat.lt_succ_self col)
    · simpa using (letter_spec h).2.1
    · simpa [List.forall_mem_append, or_imp, forall_and] using
        ⟨ih, (letter_spec (Nat.mod_lt col (by omega))).2.1⟩
  exact hall c h

lemma columnLetters_ne_nil (col : Nat) : columnLetters col ≠ [] :=
  lettersWithin_induction (P := fun _ cs => cs ≠ []) (fun _ _ => by simp) (fun _ _ _ _ => by simp)
    (Nat.lt_succ_self col)

/-- Up to three letters name the columns that sheets have, and 1894 more. -/
lemma byteLength_columnLetters (h : col < maxCols) : byteLength (columnLetters col) ≤ 3 := by
  have hall : (col < 26 → byteLength (columnLetters col) ≤ 1) ∧ (col < 702 → byteLength (columnLetters col) ≤ 2) ∧
      (col < 18278 → byteLength (columnLetters col) ≤ 3) := by
    refine lettersWithin_induction (P := fun col cs => (col < 26 → byteLength cs ≤ 1) ∧
      (col < 702 → byteLength cs ≤ 2) ∧ (col < 18278 → byteLength cs ≤ 3)) (fun col h => ?_) (fun col cs h ih => ?_)
      (Nat.lt_succ_self col)
    · simp [byteLength, (letter_spec h).2.2]
    · rw [byteLength_append, byteLength, (letter_spec (Nat.mod_lt col (by omega))).2.2, byteLength]
      omega
  exact hall.2.2 (Nat.lt_trans h (by decide))

lemma length_le_byteLength (cs : List Char) : cs.length ≤ byteLength cs := by
  induction cs with
  | nil => exact Nat.le_refl 0
  | cons c cs ih =>
    have hpos := Char.utf8Size_pos c
    simp only [List.length_cons, byteLength]
    omega

lemma columnOfLetters_columnLetters (h : col < maxCols) : columnOfLetters (columnLetters col) = .ok col := by
  have hfind : (columnLetters col).find? (!·.isAlpha) = none := by
    simpa using fun c hc => isAlpha_of_mem_columnLetters hc
  have hlength := byteLength_columnLetters h
  rw [columnOfLetters, if_neg (by simp [columnLetters_ne_nil, hlength]), hfind]
  simp [foldl_columnLetters, h]

lemma isDigit_of_mem_rowDigits (h : c ∈ rowDigits row) : c.isDigit = true :=
  Nat.isDigit_of_mem_toDigits (by omega) (by omega) h

lemma rowDigits_ne_nil (row : Nat) : rowDigits row ≠ [] := Nat.toDigits_ne_nil

lemma rowOfDigits?_rowDigits (h : row < maxRows) : rowOfDigits? (rowDigits row) = some row := by
  have hall : (rowDigits row).all Char.isDigit = true := List.all_eq_true.2 fun c hc => isDigit_of_mem_rowDigits hc
  have hvalue : Nat.ofDigitChars 10 (rowDigits row) 0 = row + 1 := Nat.ofDigitChars_toDigits (by omega) (by omega)
  rw [rowOfDigits?, if_neg (by simp [rowDigits_ne_nil, hall])]
  simp only [hvalue]
  rw [if_pos (by omega), Nat.add_sub_cancel]

lemma takeMark_mark (fixed : Bool) {cs : List Char} (h : cs.head? ≠ some '$') : takeMark (mark fixed ++ cs) = (fixed, cs) := by
  cases fixed with
  | true => rfl
  | false =>
    change takeMark cs = (false, cs)
    unfold takeMark
    split
    · exact absurd rfl h
    · rfl

lemma head?_columnLetters (col : Nat) (cs : List Char) : (columnLetters col ++ cs).head? ≠ some '$' := by
  obtain ⟨c, letters, hletters⟩ := List.exists_cons_of_ne_nil (columnLetters_ne_nil col)
  have hmem : c ∈ columnLetters col := hletters ▸ List.mem_cons_self
  have halpha := isAlpha_of_mem_columnLetters hmem
  rw [hletters]
  rintro ⟨⟩
  exact absurd halpha (by decide)

lemma head?_rowDigits (row : Nat) (cs : List Char) : (rowDigits row ++ cs).head? ≠ some '$' := by
  obtain ⟨c, digits, hdigits⟩ := List.exists_cons_of_ne_nil (rowDigits_ne_nil row)
  have hmem : c ∈ rowDigits row := hdigits ▸ List.mem_cons_self
  have hdigit := isDigit_of_mem_rowDigits hmem
  rw [hdigits]
  rintro ⟨⟩
  exact absurd hdigit (by decide)

lemma isPartChar_of_mem_mark {fixed : Bool} (h : c ∈ mark fixed) : isPartChar c = true := by
  cases fixed with
  | true => rw [List.mem_singleton.1 h]; rfl
  | false => cases h

lemma isPartChar_of_mem_columnLetters (h : c ∈ columnLetters col) : isPartChar c = true := by
  simp [isPartChar, isAlpha_of_mem_columnLetters h]

lemma isPartChar_of_mem_rowDigits (h : c ∈ rowDigits row) : isPartChar c = true := by
  simp [isPartChar, isDigit_of_mem_rowDigits h]

lemma isPartChar_of_mem_chars (h : c ∈ a.chars) : isPartChar c = true := by
  simp only [chars, List.mem_append] at h
  rcases h with (h | h) | h | h
  · exact isPartChar_of_mem_mark h
  · exact isPartChar_of_mem_columnLetters h
  · exact isPartChar_of_mem_mark h
  · exact isPartChar_of_mem_rowDigits h

lemma isAlpha_of_mem_rowDigits (h : c ∈ rowDigits row) : c.isAlpha = false :=
  not_isAlpha_of_isDigit (isDigit_of_mem_rowDigits h)

lemma isAlpha_mark_rowDigits {fixed : Bool} (h : c ∈ mark fixed ++ rowDigits row) : c.isAlpha = false := by
  rcases List.mem_append.1 h with h | h
  · cases fixed with
    | true => rw [List.mem_singleton.1 h]; rfl
    | false => cases h
  · exact isAlpha_of_mem_rowDigits h

lemma parseChars_chars (h : a.onSheet) : parseChars a.chars = .ok a := by
  have hletters : ∀ c ∈ columnLetters a.col, c.isAlpha = true := fun c hc => isAlpha_of_mem_columnLetters hc
  have hrow : ∀ c ∈ (mark a.rowFixed ++ rowDigits a.row).head?, c.isAlpha = false := fun c hc =>
    isAlpha_mark_rowDigits (List.mem_of_mem_head? hc)
  have hdigits : (rowDigits a.row).head? ≠ some '$' := by simpa using head?_rowDigits a.row []
  have htrim : trimChars a.chars = mark a.colFixed ++ (columnLetters a.col ++ (mark a.rowFixed ++ rowDigits a.row)) := by
    rw [trimChars_of_isPartChar fun c hc => Or.inl (isPartChar_of_mem_chars hc), chars, List.append_assoc]
  unfold parseChars
  simp only [htrim, takeMark_mark a.colFixed (head?_columnLetters a.col _), takeWhile_run hletters hrow,
    dropWhile_run hletters hrow, takeMark_mark a.rowFixed hdigits, columnOfLetters_columnLetters h.2, rowOfDigits?_rowDigits h.1,
    if_neg (columnLetters_ne_nil a.col)]
  rfl

end Address

namespace AreaForm

variable {r : Range} {form : AreaForm} {cs a b : List Char}

/-- A range that can be written in the given form. -/
def Fits : AreaForm → Range → Prop
  | cells, r => r.OnSheet
  | columns, r => r.OnSheet ∧ r.start.row = 0 ∧ r.stop.row = maxRows - 1 ∧ r.start.rowFixed = true ∧ r.stop.rowFixed = true
  | rows, r => r.OnSheet ∧ r.start.col = 0 ∧ r.stop.col = maxCols - 1 ∧ r.start.colFixed = true ∧ r.stop.colFixed = true

lemma Fits.onSheet (h : form.Fits r) : r.OnSheet := by
  cases form with
  | cells => exact h
  | columns | rows => exact h.1

lemma corners_of_normal (h : r.Normal) : Range.corners r.start r.stop = r := by
  simp only [Range.corners, if_pos h.1, if_pos h.2]

lemma splitColon?_append (h : ∀ c ∈ a, c ≠ ':') : Range.splitColon? (a ++ ':' :: b) = some (a, b) := by
  have hall : ∀ c ∈ a, (c != ':') = true := fun c hc => by simpa using h c hc
  rw [Range.splitColon?, dropWhile_run hall (by simp), takeWhile_run hall (by simp)]

lemma splitColon?_none (h : ∀ c ∈ a, c ≠ ':') : Range.splitColon? a = none := by
  have hall : ∀ c ∈ a, (c != ':') = true := fun c hc => by simpa using h c hc
  rw [Range.splitColon?, dropWhile_of_forall hall]

/-- A column as written in an area of whole columns. -/
def columnChars (col : Nat) (fixed : Bool) : List Char := Address.mark fixed ++ Address.columnLetters col

def rowChars (row : Nat) (fixed : Bool) : List Char := Address.mark fixed ++ Address.rowDigits row

lemma columnPart?_columnChars {col : Nat} (h : col < maxCols) (fixed : Bool) :
    columnPart? (columnChars col fixed) = some (col, fixed) := by
  have hletters : (Address.columnLetters col).head? ≠ some '$' := by simpa using Address.head?_columnLetters col []
  simp only [columnPart?, columnChars, Address.takeMark_mark fixed hletters, Address.columnOfLetters_columnLetters h]

lemma rowPart?_rowChars {row : Nat} (h : row < maxRows) (fixed : Bool) :
    rowPart? (rowChars row fixed) = some (row, fixed) := by
  have hdigits : (Address.rowDigits row).head? ≠ some '$' := by simpa using Address.head?_rowDigits row []
  simp only [rowPart?, rowChars, Address.takeMark_mark fixed hdigits, Address.rowOfDigits?_rowDigits h, Option.map_some]

lemma isPartChar_of_mem_columnChars {c : Char} {col : Nat} {fixed : Bool} (h : c ∈ columnChars col fixed) :
    isPartChar c = true := by
  rcases List.mem_append.1 h with h | h
  · exact Address.isPartChar_of_mem_mark h
  · exact Address.isPartChar_of_mem_columnLetters h

lemma isPartChar_of_mem_rowChars {c : Char} {row : Nat} {fixed : Bool} (h : c ∈ rowChars row fixed) :
    isPartChar c = true := by
  rcases List.mem_append.1 h with h | h
  · exact Address.isPartChar_of_mem_mark h
  · exact Address.isPartChar_of_mem_rowDigits h

lemma isPartChar_of_mem_write {c : Char} (h : c ∈ form.write r) : isPartChar c = true ∨ c = ':' := by
  have hpair : ∀ {u v : List Char}, (∀ d ∈ u, isPartChar d = true) → (∀ d ∈ v, isPartChar d = true) → c ∈ u ++ ':' :: v →
      isPartChar c = true ∨ c = ':' := by
    intro u v hu hv hc
    rcases List.mem_append.1 hc with hc | hc
    · exact Or.inl (hu c hc)
    · rcases List.mem_cons.1 hc with hc | hc
      · exact Or.inr hc
      · exact Or.inl (hv c hc)
  have hchars : ∀ {x : Address}, ∀ d ∈ x.chars, isPartChar d = true := fun d => Address.isPartChar_of_mem_chars
  cases form with
  | cells =>
    rw [write, Range.chars] at h
    split at h
    · exact Or.inl (hchars c h)
    · exact hpair hchars hchars h
  | columns => exact hpair (fun d => isPartChar_of_mem_columnChars) (fun d => isPartChar_of_mem_columnChars) h
  | rows => exact hpair (fun d => isPartChar_of_mem_rowChars) (fun d => isPartChar_of_mem_rowChars) h

lemma parseChars_columnChars {col : Nat} (h : col < maxCols) (fixed : Bool) :
    ∃ e, Address.parseChars (columnChars col fixed) = .error e := by
  have htrim : trimChars (columnChars col fixed) = Address.mark fixed ++ Address.columnLetters col :=
    trimChars_of_isPartChar fun c hc => Or.inl (isPartChar_of_mem_columnChars hc)
  have hmark : (Address.columnLetters col).head? ≠ some '$' := by simpa using Address.head?_columnLetters col []
  have hletters : ∀ c ∈ Address.columnLetters col, c.isAlpha = true := fun c hc => Address.isAlpha_of_mem_columnLetters hc
  unfold Address.parseChars
  simp only [htrim, Address.takeMark_mark fixed hmark, takeWhile_of_forall hletters, dropWhile_of_forall hletters,
    Address.columnOfLetters_columnLetters h, if_neg (Address.columnLetters_ne_nil col)]
  exact ⟨_, rfl⟩

lemma parseChars_rowChars (row : Nat) (fixed : Bool) : ∃ e, Address.parseChars (rowChars row fixed) = .error e := by
  have htrim : trimChars (rowChars row fixed) = Address.mark fixed ++ Address.rowDigits row :=
    trimChars_of_isPartChar fun c hc => Or.inl (isPartChar_of_mem_rowChars hc)
  have hmark : (Address.rowDigits row).head? ≠ some '$' := by simpa using Address.head?_rowDigits row []
  have hletters : (Address.rowDigits row).takeWhile Char.isAlpha = [] :=
    takeWhile_of_head fun c hc => Address.isAlpha_of_mem_rowDigits (List.mem_of_mem_head? hc)
  unfold Address.parseChars
  simp only [htrim, Address.takeMark_mark fixed hmark, hletters]
  exact ⟨_, rfl⟩

lemma columnPart?_rowChars (row : Nat) (fixed : Bool) : columnPart? (rowChars row fixed) = none := by
  have hmark : (Address.rowDigits row).head? ≠ some '$' := by simpa using Address.head?_rowDigits row []
  obtain ⟨c, digits, hdigits⟩ := List.exists_cons_of_ne_nil (Address.rowDigits_ne_nil row)
  have hmem : c ∈ Address.rowDigits row := hdigits ▸ List.mem_cons_self
  have hc := Address.isAlpha_of_mem_rowDigits hmem
  have herror : ∃ e, Address.columnOfLetters (Address.rowDigits row) = .error e := by
    rw [Address.columnOfLetters]
    split
    · exact ⟨_, rfl⟩
    · rw [hdigits, List.find?_cons_of_pos (by simp [hc])]
      exact ⟨_, rfl⟩
  obtain ⟨e, he⟩ := herror
  simp only [columnPart?, rowChars, Address.takeMark_mark fixed hmark, he]

section Parts

variable (ha : ∀ c ∈ a, isPartChar c = true) (hb : ∀ c ∈ b, isPartChar c = true)

include ha

lemma parseChars?_part : parseChars? a = (Address.parseChars a).toOption.map fun x => (Range.single x, cells) := by
  simp only [parseChars?, trimChars_of_isPartChar fun c hc => Or.inl (ha c hc),
    splitColon?_none fun c hc => ne_colon_of_isPartChar (ha c hc)]
  cases Address.parseChars a <;> rfl

include hb

lemma parseChars?_pair : parseChars? (a ++ ':' :: b) = ((cellsOf? a b).map (·, cells)).or
    (((columnsOf? a b).map (·, columns)).or ((rowsOf? a b).map (·, rows))) := by
  have htrim : trimChars (a ++ ':' :: b) = a ++ ':' :: b := by
    refine trimChars_of_isPartChar fun c hc => ?_
    simp only [List.mem_append, List.mem_cons] at hc
    rcases hc with hc | rfl | hc
    · exact Or.inl (ha c hc)
    · exact Or.inr rfl
    · exact Or.inl (hb c hc)
  simp only [parseChars?, htrim, splitColon?_append fun c hc => ne_colon_of_isPartChar (ha c hc)]

end Parts

/-- What is written is read back, in the form it was written in. -/
lemma parseChars?_write (h : form.Fits r) : parseChars? (form.write r) = some (r, form) := by
  obtain ⟨hnormal, hstop⟩ := h.onSheet
  have hstart : r.start.onSheet := ⟨Nat.lt_of_le_of_lt hnormal.1 hstop.1, Nat.lt_of_le_of_lt hnormal.2 hstop.2⟩
  have hcorners := corners_of_normal hnormal
  cases form with
  | cells =>
    by_cases heq : r.start = r.stop
    · rw [write, Range.chars, if_pos heq, parseChars?_part fun c hc => Address.isPartChar_of_mem_chars hc,
        Address.parseChars_chars hstart]
      exact congrArg (fun x => some (Range.mk r.start x, cells)) heq
    · rw [write, Range.chars, if_neg heq, parseChars?_pair (fun c hc => Address.isPartChar_of_mem_chars hc)
        fun c hc => Address.isPartChar_of_mem_chars hc]
      simp only [cellsOf?, Address.parseChars_chars hstart, Address.parseChars_chars hstop, hcorners, Option.map_some,
        Option.some_or]
  | columns =>
    obtain ⟨-, hfirst, hlast, hfixed, hfixed'⟩ := h
    obtain ⟨e, he⟩ := parseChars_columnChars hstart.2 r.start.colFixed
    have hfirstChars : ∀ c ∈ columnChars r.start.col r.start.colFixed, isPartChar c = true := fun _ => isPartChar_of_mem_columnChars
    have hlastChars : ∀ c ∈ columnChars r.stop.col r.stop.colFixed, isPartChar c = true := fun _ => isPartChar_of_mem_columnChars
    refine (parseChars?_pair hfirstChars hlastChars).trans ?_
    have hstart' : (⟨0, r.start.col, true, r.start.colFixed⟩ : Address) = r.start := by rw [← hfirst, ← hfixed]
    have hstop' : (⟨maxRows - 1, r.stop.col, true, r.stop.colFixed⟩ : Address) = r.stop := by rw [← hlast, ← hfixed']
    simp only [cellsOf?, he, columnsOf?, columnPart?_columnChars hstart.2, columnPart?_columnChars hstop.2, hstart', hstop',
      hcorners, Option.map_none, Option.map_some, Option.none_or, Option.some_or]
  | rows =>
    obtain ⟨-, hfirst, hlast, hfixed, hfixed'⟩ := h
    obtain ⟨e, he⟩ := parseChars_rowChars r.start.row r.start.rowFixed
    have hfirstChars : ∀ c ∈ rowChars r.start.row r.start.rowFixed, isPartChar c = true := fun _ => isPartChar_of_mem_rowChars
    have hlastChars : ∀ c ∈ rowChars r.stop.row r.stop.rowFixed, isPartChar c = true := fun _ => isPartChar_of_mem_rowChars
    refine (parseChars?_pair hfirstChars hlastChars).trans ?_
    have hstart' : (⟨r.start.row, 0, r.start.rowFixed, true⟩ : Address) = r.start := by rw [← hfirst, ← hfixed]
    have hstop' : (⟨r.stop.row, maxCols - 1, r.stop.rowFixed, true⟩ : Address) = r.stop := by rw [← hlast, ← hfixed']
    simp only [cellsOf?, he, columnsOf?, columnPart?_rowChars, rowsOf?, rowPart?_rowChars hstart.1,
      rowPart?_rowChars hstop.1, hstart', hstop', hcorners, Option.map_none, Option.map_some, Option.none_or]

/-! Ranges that come from texts, and where they move. -/

lemma fits_columns {first last : Nat} {f g : Bool} (hf : first < maxCols) (hl : last < maxCols) :
    columns.Fits (Range.corners ⟨0, first, true, f⟩ ⟨maxRows - 1, last, true, g⟩) := by
  refine ⟨Range.onSheet_corners ⟨by simp [maxRows], hf⟩ ⟨by simp [maxRows], hl⟩, ?_⟩
  simp [Range.corners]

lemma fits_rows {first last : Nat} {f g : Bool} (hf : first < maxRows) (hl : last < maxRows) :
    rows.Fits (Range.corners ⟨first, 0, f, true⟩ ⟨last, maxCols - 1, g, true⟩) := by
  refine ⟨Range.onSheet_corners ⟨hf, by simp [maxCols]⟩ ⟨hl, by simp [maxCols]⟩, ?_⟩
  simp [Range.corners]

lemma fits_of_parseChars? (h : parseChars? cs = some (r, form)) : form.Fits r := by
  unfold parseChars? at h
  dsimp only at h
  split at h
  · split at h
    · rename_i x hx
      obtain ⟨rfl, rfl⟩ := Prod.mk.inj (Option.some.inj h)
      exact ⟨⟨Nat.le_refl _, Nat.le_refl _⟩, Address.onSheet_parseChars hx⟩
    · cases h
  · simp only [Option.or_eq_some_iff, Option.map_eq_some_iff, Prod.mk.injEq] at h
    rcases h with ⟨r, h, rfl, rfl⟩ | ⟨-, ⟨r, h, rfl, rfl⟩ | ⟨-, r, h, rfl, rfl⟩⟩
    · exact Range.onSheet_cellsOf? h
    · unfold columnsOf? at h
      split at h
      · rename_i ha hb
        exact Option.some.inj h ▸ fits_columns (Range.lt_of_columnPart? ha) (Range.lt_of_columnPart? hb)
      · cases h
    · unfold rowsOf? at h
      split at h
      · rename_i ha hb
        exact Option.some.inj h ▸ fits_rows (Range.lt_of_rowPart? ha) (Range.lt_of_rowPart? hb)
      · cases h

lemma parse?_write (h : form.Fits r) : parse? (String.ofList (form.write r)) = some (r, form) := by
  rw [parse?, String.toList_ofList, parseChars?_write h]

end AreaForm

lemma Range.ofArea?_of_parse? {area : String} {r : Range} {form : AreaForm} (h : AreaForm.parse? area = some (r, form)) :
    ofArea? area = some r := by rw [ofArea?, h, Option.map_some]

lemma Address.shift?_eq_some_iff {a b : Address} {down right : Int} : a.shift? down right = some b ↔
    b.onSheet ∧ b.rowFixed = a.rowFixed ∧ b.colFixed = a.colFixed ∧
      (b.row : Int) = (if a.rowFixed then (a.row : Int) else a.row + down) ∧
      (b.col : Int) = if a.colFixed then (a.col : Int) else a.col + right := by
  obtain ⟨row, col, rowFixed, colFixed⟩ := b
  simp only [shift?, Option.ite_none_right_eq_some, Option.some.injEq, mk.injEq, onSheet]
  constructor
  · rintro ⟨hon, rfl, rfl, rfl, rfl⟩
    exact ⟨by omega, rfl, rfl, by omega, by omega⟩
  · rintro ⟨hon, rfl, rfl, hrow, hcol⟩
    exact ⟨by omega, by omega, by omega, rfl, rfl⟩

lemma Address.shift?_eq_some {a b : Address} {down right : Int} (h : a.shift? down right = some b) : b.onSheet ∧
    b.rowFixed = a.rowFixed ∧ b.colFixed = a.colFixed ∧ (a.rowFixed = true → b.row = a.row) ∧
    (a.colFixed = true → b.col = a.col) := by
  obtain ⟨hon, hrowFixed, hcolFixed, hrow, hcol⟩ := shift?_eq_some_iff.1 h
  refine ⟨hon, hrowFixed, hcolFixed, fun hfixed => ?_, fun hfixed => ?_⟩
  · rw [if_pos hfixed] at hrow
    exact Int.ofNat_inj.1 hrow
  · rw [if_pos hfixed] at hcol
    exact Int.ofNat_inj.1 hcol

lemma Address.eq_of_shift? {a b c : Address} {down right : Int} (ha : a.shift? down right = some c)
    (hb : b.shift? down right = some c) : a = b := by
  obtain ⟨-, hrowFixed, hcolFixed, hrow, hcol⟩ := shift?_eq_some_iff.1 ha
  obtain ⟨-, hrowFixed', hcolFixed', hrow', hcol'⟩ := shift?_eq_some_iff.1 hb
  rw [hrowFixed] at hrowFixed'
  rw [hcolFixed] at hcolFixed'
  obtain ⟨row, col, rowFixed, colFixed⟩ := a
  obtain ⟨row', col', rowFixed', colFixed'⟩ := b
  dsimp only at hrowFixed' hcolFixed' hrow hcol hrow' hcol'
  subst hrowFixed' hcolFixed'
  rw [hrow] at hrow'
  rw [hcol] at hcol'
  simp only [mk.injEq, and_true]
  constructor
  · split at hrow' <;> omega
  · split at hcol' <;> omega

lemma Range.shift?_eq_some {r r' : Range} {down right : Int} : r.shift? down right = some r' ↔
    ∃ a b, r.start.shift? down right = some a ∧ r.stop.shift? down right = some b ∧ corners a b = r' := by
  simp [shift?, Option.bind_eq_some_iff]

lemma Range.eq_of_corners {a b : Address} (h : (corners a b).start = (corners a b).stop) : a = b := by
  obtain ⟨row, col, rowFixed, colFixed⟩ := a
  obtain ⟨row', col', rowFixed', colFixed'⟩ := b
  simp only [corners] at h
  split at h <;> split at h <;> simp_all

lemma Range.start_eq_stop_of_shift? {r r' : Range} {down right : Int} (h : r.shift? down right = some r')
    (heq : r'.start = r'.stop) : r.start = r.stop := by
  obtain ⟨a, b, ha, hb, rfl⟩ := Range.shift?_eq_some.1 h
  obtain rfl := Range.eq_of_corners heq
  exact Address.eq_of_shift? ha hb

lemma AreaForm.Fits.shift {form : AreaForm} {r r' : Range} {down right : Int} (h : form.Fits r)
    (hr : r.shift? down right = some r') : form.Fits r' := by
  obtain ⟨a, b, ha, hb, rfl⟩ := Range.shift?_eq_some.1 hr
  obtain ⟨haon, harow, hacol, hakeep, hakeep'⟩ := Address.shift?_eq_some ha
  obtain ⟨hbon, hbrow, hbcol, hbkeep, hbkeep'⟩ := Address.shift?_eq_some hb
  have hon := Range.onSheet_corners haon hbon
  cases form with
  | cells => exact hon
  | columns =>
    obtain ⟨-, hfirst, hlast, hfixed, hfixed'⟩ := h
    have hle : a.row ≤ b.row := by
      rw [hakeep hfixed, hfirst]
      exact Nat.zero_le _
    refine ⟨hon, ?_⟩
    simp only [Range.corners, if_pos hle]
    exact ⟨(hakeep hfixed).trans hfirst, (hbkeep hfixed').trans hlast, harow.trans hfixed, hbrow.trans hfixed'⟩
  | rows =>
    obtain ⟨-, hfirst, hlast, hfixed, hfixed'⟩ := h
    have hle : a.col ≤ b.col := by
      rw [hakeep' hfixed, hfirst]
      exact Nat.zero_le _
    refine ⟨hon, ?_⟩
    simp only [Range.corners, if_pos hle]
    exact ⟨(hakeep' hfixed).trans hfirst, (hbkeep' hfixed').trans hlast, hacol.trans hfixed, hbcol.trans hfixed'⟩

end Spreadsheet
