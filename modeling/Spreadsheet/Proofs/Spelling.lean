import Mathlib.Data.List.Induction
import Spreadsheet.Proofs.Area

/-! Which texts are addresses, and that addresses, ranges and areas are read back from how they are written. -/

namespace Spreadsheet

open Text

namespace Address

variable {letters digits cs ds : List Char} {col row : Nat} {c : Char} {a : Address} {marked : Bool}

/-- Up to three letters of either case that the column is written with. -/
structure NamesColumn (letters : List Char) (col : Nat) : Prop where
  isAlpha : ∀ c ∈ letters, c.isAlpha = true
  length : 1 ≤ letters.length ∧ letters.length ≤ 3
  toUpper : letters.map Char.toUpper = columnLetters col
  onSheet : col < maxCols

/-- The number of the row, zeros at the front allowed. -/
structure NamesRow (digits : List Char) (row : Nat) : Prop where
  isDigit : ∀ c ∈ digits, c.isDigit = true
  ne_nil : digits ≠ []
  value : Nat.ofDigitChars 10 digits 0 = row + 1
  onSheet : row < maxRows

/-- A column, then a row, and a mark before each or not. -/
def Names (cs : List Char) (a : Address) : Prop :=
  ∃ letters digits, cs = mark a.colFixed ++ letters ++ (mark a.rowFixed ++ digits) ∧
    NamesColumn letters a.col ∧ NamesRow digits a.row

/-- The value of letters as the digits of a number. -/
def lettersValue (cs : List Char) : Nat := cs.foldl (fun n c => n * 26 + letterValue c) 0

lemma lettersValue_concat (cs : List Char) (c : Char) : lettersValue (cs ++ [c]) = lettersValue cs * 26 + letterValue c := by
  rw [lettersValue, List.foldl_append]
  rfl

lemma letter_of_isAlpha (h : c.isAlpha = true) : 1 ≤ letterValue c ∧ letterValue c ≤ 26 ∧
    c.toUpper = Char.ofNat (64 + letterValue c) ∧ c.utf8Size = 1 := by
  have hall : ∀ k : Fin 26, ∀ first ∈ [65, 97], 1 ≤ letterValue (Char.ofNat (first + k)) ∧
      letterValue (Char.ofNat (first + k)) ≤ 26 ∧
      (Char.ofNat (first + k)).toUpper = Char.ofNat (64 + letterValue (Char.ofNat (first + k))) ∧
      (Char.ofNat (first + k)).utf8Size = 1 := by decide
  have hletter : ∃ k : Fin 26, ∃ first ∈ [65, 97], c.toNat = first + k := by
    rcases isAlpha_iff.1 h with h | h
    · exact ⟨⟨c.toNat - 65, by omega⟩, 65, by simp, by simp; omega⟩
    · exact ⟨⟨c.toNat - 97, by omega⟩, 97, by simp, by simp; omega⟩
  obtain ⟨k, first, hfirst, hc⟩ := hletter
  have hk := hall k first hfirst
  rwa [← hc, Char.ofNat_toNat] at hk

lemma lettersValue_pos (h : ∀ c ∈ cs, c.isAlpha = true) (hne : cs ≠ []) : 1 ≤ lettersValue cs := by
  obtain ⟨cs, c, rfl⟩ := List.eq_nil_or_concat cs |>.resolve_left hne
  rw [List.concat_eq_append] at h ⊢
  have hc := letter_of_isAlpha (h c (by simp))
  rw [lettersValue_concat]
  omega

lemma toUpper_of_lettersValue (hcs : ∀ c ∈ cs, c.isAlpha = true) (hds : ∀ d ∈ ds, d.isAlpha = true)
    (h : lettersValue cs = lettersValue ds) : cs.map Char.toUpper = ds.map Char.toUpper := by
  induction cs using List.reverseRecOn generalizing ds with
  | nil =>
    obtain rfl | hne := eq_or_ne ds []
    · rfl
    · have hpos := lettersValue_pos hds hne
      rw [← h] at hpos
      exact absurd hpos (by decide)
  | append_singleton cs c ih =>
    obtain rfl | ⟨ds, d, rfl⟩ := List.eq_nil_or_concat ds
    · have hpos := lettersValue_pos hcs (by simp)
      rw [h] at hpos
      exact absurd hpos (by decide)
    · rw [List.concat_eq_append] at hds h ⊢
      rw [lettersValue_concat, lettersValue_concat] at h
      obtain ⟨hc, hc', hupper, -⟩ := letter_of_isAlpha (hcs c (by simp))
      obtain ⟨hd, hd', hupper', -⟩ := letter_of_isAlpha (hds d (by simp))
      have hlast : letterValue c = letterValue d := by omega
      have hinit := ih (fun c hc => hcs c (List.mem_append_left _ hc)) (fun d hd => hds d (List.mem_append_left _ hd)) (by omega)
      rw [List.map_append, List.map_append, hinit, List.map_singleton, List.map_singleton, hupper, hupper', hlast]

lemma lettersValue_toUpper (h : ∀ c ∈ cs, c.isAlpha = true) : lettersValue (cs.map Char.toUpper) = lettersValue cs := by
  induction cs using List.reverseRecOn with
  | nil => rfl
  | append_singleton cs c ih =>
    obtain ⟨hc, hc', hupper, -⟩ := letter_of_isAlpha (h c (by simp))
    have hlast := (letter_spec (show letterValue c - 1 < 26 by omega)).1
    rw [show 65 + (letterValue c - 1) = 64 + letterValue c by omega, ← hupper] at hlast
    rw [List.map_append, List.map_singleton, lettersValue_concat, lettersValue_concat,
      ih fun c hc => h c (List.mem_append_left _ hc)]
    omega

lemma byteLength_of_isAlpha (h : ∀ c ∈ cs, c.isAlpha = true) : byteLength cs = cs.length := by
  induction cs with
  | nil => rfl
  | cons c cs ih =>
    rw [byteLength, (letter_of_isAlpha (h c List.mem_cons_self)).2.2.2, ih fun c hc => h c (List.mem_cons_of_mem _ hc),
      List.length_cons, Nat.add_comm]

lemma toUpper_columnLetters (col : Nat) : (columnLetters col).map Char.toUpper = columnLetters col := by
  refine lettersWithin_induction (P := fun _ cs => cs.map Char.toUpper = cs) (fun col h => ?_) (fun col cs _ ih => ?_)
    (Nat.lt_succ_self col)
  · rw [List.map_singleton, (letter_of_isAlpha (letter_spec h).2.1).2.2.1, (letter_spec h).1]
    congr 2
    omega
  · have hlast := letter_spec (Nat.mod_lt col (show 26 > 0 by omega))
    rw [List.map_append, ih, List.map_singleton, (letter_of_isAlpha hlast.2.1).2.2.1, hlast.1]
    congr 3
    omega

lemma columnOfLetters_of_isAlpha (halpha : ∀ c ∈ cs, c.isAlpha = true) (hlength : 1 ≤ cs.length ∧ cs.length ≤ 3) :
    columnOfLetters cs =
      if lettersValue cs - 1 < maxCols then .ok (lettersValue cs - 1) else .error (.columnBeyond (lettersValue cs - 1)) := by
  have hne : cs ≠ [] := List.length_pos_iff.1 hlength.1
  have hfind : cs.find? (!·.isAlpha) = none := by simpa using halpha
  rw [columnOfLetters, if_neg (by simp [hne, byteLength_of_isAlpha halpha, hlength.2]), hfind]
  rfl

lemma isAlpha_of_columnOfLetters (h : columnOfLetters cs = .ok col) :
    (∀ c ∈ cs, c.isAlpha = true) ∧ 1 ≤ cs.length ∧ cs.length ≤ 3 := by
  unfold columnOfLetters at h
  split at h
  · cases h
  · rename_i hshort
    obtain ⟨hne, hlength⟩ := not_or.1 hshort
    split at h
    · cases h
    · rename_i hfind
      have halpha : ∀ c ∈ cs, c.isAlpha = true := by simpa using hfind
      rw [byteLength_of_isAlpha halpha] at hlength
      exact ⟨halpha, List.length_pos_iff.2 hne, by omega⟩

lemma columnOfLetters_eq_ok : columnOfLetters cs = .ok col ↔ NamesColumn cs col := by
  have hcolumn : ∀ c ∈ columnLetters col, c.isAlpha = true := fun c hc => isAlpha_of_mem_columnLetters hc
  have hvalue : lettersValue (columnLetters col) = col + 1 := foldl_columnLetters col
  constructor
  · intro h
    obtain ⟨halpha, hlength⟩ := isAlpha_of_columnOfLetters h
    have hpos := lettersValue_pos halpha (List.length_pos_iff.1 hlength.1)
    have hlt := lt_of_columnOfLetters h
    rw [columnOfLetters_of_isAlpha halpha hlength] at h
    split at h
    · have hcol : lettersValue cs - 1 = col := Except.ok.inj h
      have hsame := toUpper_of_lettersValue halpha hcolumn (by omega)
      exact ⟨halpha, hlength, hsame.trans (toUpper_columnLetters col), hlt⟩
    · cases h
  · rintro ⟨halpha, hlength, hupper, hlt⟩
    rw [columnOfLetters_of_isAlpha halpha hlength, ← lettersValue_toUpper halpha, hupper, hvalue,
      if_pos (by simpa using hlt), Nat.add_sub_cancel]

lemma rowOfDigits?_eq_some : rowOfDigits? cs = some row ↔ NamesRow cs row := by
  constructor
  · intro h
    have hlt := lt_of_rowOfDigits? h
    unfold rowOfDigits? at h
    split at h
    · cases h
    · rename_i hdigits
      obtain ⟨hne, hall⟩ := not_or.1 hdigits
      dsimp only at h
      split at h
      · have hrow := Option.some.inj h
        exact ⟨by simpa using hall, hne, by omega, hlt⟩
      · cases h
  · rintro ⟨hdigit, hne, hvalue, hlt⟩
    have hall : cs.all Char.isDigit = true := List.all_eq_true.2 hdigit
    rw [rowOfDigits?, if_neg (by simp [hne, hall])]
    dsimp only
    rw [hvalue, if_pos (by omega), Nat.add_sub_cancel]

lemma mark_takeMark (cs : List Char) : mark (takeMark cs).1 ++ (takeMark cs).2 = cs := by
  unfold takeMark
  split <;> rfl

lemma marks_of_parseChars (h : parseChars cs = .ok a) : (takeMark (trimChars cs)).1 = a.colFixed ∧
    (takeMark ((takeMark (trimChars cs)).2.dropWhile Char.isAlpha)).1 = a.rowFixed := by
  obtain ⟨hcol, hrow⟩ := parts_of_parseChars h
  unfold parseChars at h
  dsimp only at h
  split at h
  · cases h
  · simp only [hcol, hrow, bind, Except.bind, pure, Except.pure] at h
    have ha := Except.ok.inj h
    exact ⟨congrArg colFixed ha, congrArg rowFixed ha⟩

lemma NamesRow.isAlpha_mark (h : NamesRow digits row) : ∀ c ∈ mark marked ++ digits, c.isAlpha = false := by
  intro c hc
  rcases List.mem_append.1 hc with hc | hc
  · cases marked with
    | true => rw [List.mem_singleton.1 hc]; rfl
    | false => cases hc
  · have hdigit := isDigit_iff.1 (h.isDigit c hc)
    rw [Bool.eq_false_iff, Ne, isAlpha_iff]
    omega

lemma parseChars_eq_ok : parseChars cs = .ok a ↔ Names (trimChars cs) a := by
  constructor
  · intro h
    obtain ⟨hcol, hrow⟩ := parts_of_parseChars h
    obtain ⟨hcolMark, hrowMark⟩ := marks_of_parseChars h
    refine ⟨_, _, ?_, columnOfLetters_eq_ok.1 hcol, rowOfDigits?_eq_some.1 hrow⟩
    rw [← hrowMark, mark_takeMark, List.append_assoc, List.takeWhile_append_dropWhile, ← hcolMark, mark_takeMark]
  · rintro ⟨letters, digits, hcs, hcolumn, hrow⟩
    have hletter : letters.head? ≠ some '$' := fun h => absurd (hcolumn.isAlpha _ (List.mem_of_mem_head? h)) (by decide)
    have hdigit : digits.head? ≠ some '$' := fun h => absurd (hrow.isDigit _ (List.mem_of_mem_head? h)) (by decide)
    have hmark : (letters ++ (mark a.rowFixed ++ digits)).head? ≠ some '$' := by
      obtain ⟨c, cs, rfl⟩ := List.exists_cons_of_ne_nil (List.length_pos_iff.1 hcolumn.length.1)
      exact hletter
    have hrest : ∀ c ∈ (mark a.rowFixed ++ digits).head?, c.isAlpha = false := fun c hc =>
      hrow.isAlpha_mark c (List.mem_of_mem_head? hc)
    rw [List.append_assoc] at hcs
    unfold parseChars
    simp only [hcs, takeMark_mark a.colFixed hmark, takeWhile_run hcolumn.isAlpha hrest, dropWhile_run hcolumn.isAlpha hrest,
      takeMark_mark a.rowFixed hdigit, columnOfLetters_eq_ok.2 hcolumn, rowOfDigits?_eq_some.2 hrow,
      if_neg (List.length_pos_iff.1 hcolumn.length.1)]
    rfl

end Address

namespace Range

variable {r : Range}

lemma parse_text (h : r.OnSheet) : parse r.text = .ok r := by
  obtain ⟨hnormal, hstop⟩ := h
  have hstart : r.start.onSheet := ⟨Nat.lt_of_le_of_lt hnormal.1 hstop.1, Nat.lt_of_le_of_lt hnormal.2 hstop.2⟩
  have hpart : ∀ {a : Address}, ∀ c ∈ a.chars, isPartChar c = true := fun c => Address.isPartChar_of_mem_chars
  have htrim : trimChars r.text.toList = r.chars := by
    rw [text, String.toList_ofList]
    exact trimChars_of_isPartChar fun c (hc : c ∈ AreaForm.write .cells r) => AreaForm.isPartChar_of_mem_write hc
  by_cases heq : r.start = r.stop
  · have hchars : r.chars = r.start.chars := if_pos heq
    have hsplit : splitColon? r.start.chars = none := AreaForm.splitColon?_none fun c hc => ne_colon_of_isPartChar (hpart c hc)
    have hparse : Address.parse r.text = .ok r.start := by
      rw [Address.parse, text, String.toList_ofList, hchars, Address.parseChars_chars hstart]
    rw [parse, htrim, hchars, hsplit]
    simp only [hparse]
    exact congrArg (fun x => Except.ok (Range.mk r.start x)) heq
  · have hchars : r.chars = r.start.chars ++ ':' :: r.stop.chars := if_neg heq
    have hsplit : splitColon? (r.start.chars ++ ':' :: r.stop.chars) = some (r.start.chars, r.stop.chars) :=
      AreaForm.splitColon?_append fun c hc => ne_colon_of_isPartChar (hpart c hc)
    rw [parse, htrim, hchars, hsplit]
    simp only [Address.parseChars_chars hstart, Address.parseChars_chars hstop]
    exact congrArg Except.ok (AreaForm.corners_of_normal hnormal)

lemma ofArea?_text (h : r.OnSheet) : ofArea? r.text = some r := by
  have hfits : AreaForm.cells.Fits r := h
  have htext : r.text = String.ofList (AreaForm.cells.write r) := rfl
  rw [htext]
  exact ofArea?_of_parse? (AreaForm.parse?_write hfits)

end Range

/-- What is written is read back, and what is read as an address is the name of one. -/
theorem read_written :
    (∀ a : Address, a.onSheet → Address.parse a.text = .ok a) ∧
      (∀ r : Range, r.Normal → r.stop.onSheet → Range.parse r.text = .ok r ∧ Range.ofArea? r.text = some r) ∧
      (∀ s r form, AreaForm.parse? s = some (r, form) → AreaForm.parse? (String.ofList (form.write r)) = some (r, form)) ∧
      ∀ s a, Address.parse s = .ok a ↔ Address.Names (trimChars s.toList) a := by
  refine ⟨fun a ha => ?_, fun r hr hstop => ?_, fun s r form h => ?_, fun s a => Address.parseChars_eq_ok⟩
  · rw [Address.parse, Address.text, String.toList_ofList]
    exact Address.parseChars_chars ha
  · exact ⟨Range.parse_text ⟨hr, hstop⟩, Range.ofArea?_text ⟨hr, hstop⟩⟩
  · exact AreaForm.parse?_write (AreaForm.fits_of_parseChars? h)

example : Address.parse " xFd$007 " = .ok ⟨6, 16383, true, false⟩ ∧ (Address.parse "XFE7").toOption = none := by decide

theorem read_written_corner :
    let a : Address := ⟨1048575, 16383, true, false⟩
    let r : Range := ⟨⟨0, 0, false, true⟩, a⟩
    Address.parse a.text = .ok a ∧ (Range.parse r.text = .ok r ∧ Range.ofArea? r.text = some r) ∧
      AreaForm.parse? "$C:A" = some (⟨⟨0, 0, true, false⟩, ⟨1048575, 2, true, true⟩⟩, .columns) ∧
      AreaForm.parse? (String.ofList (AreaForm.columns.write ⟨⟨0, 0, true, false⟩, ⟨1048575, 2, true, true⟩⟩)) =
        some (⟨⟨0, 0, true, false⟩, ⟨1048575, 2, true, true⟩⟩, .columns) := by
  have hread : AreaForm.parse? "$C:A" = some (⟨⟨0, 0, true, false⟩, ⟨1048575, 2, true, true⟩⟩, .columns) := by decide
  exact ⟨read_written.1 _ (by decide), read_written.2.1 _ (by decide) (by decide), hread, read_written.2.2.1 _ _ _ hread⟩

end Spreadsheet
