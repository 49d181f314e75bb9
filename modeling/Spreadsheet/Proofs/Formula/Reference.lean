import Spreadsheet.Proofs.Area

/-! How far references in formula text reach. -/

namespace Spreadsheet.Formula.ReferenceText

open Text

variable {c : Char} {cs x tail : List Char} {n m : Nat}

/-- No area goes on with this character. -/
def isStop (c : Char) : Bool := !isPartChar c && c != ':'

/-- No area goes on with what follows. -/
def Stops (tail : List Char) : Prop := ∀ c ∈ tail.head?, isStop c = true

/-- Neither a row nor a column goes on with what follows. -/
def Parts (tail : List Char) : Prop := ∀ c ∈ tail.head?, isPartChar c = false

lemma Stops.parts (h : Stops tail) : Parts tail := fun c hc => by
  have hstop := h c hc
  simp only [isStop, Bool.and_eq_true, Bool.not_eq_true'] at hstop
  exact hstop.1

lemma Stops.ne_colon (h : Stops tail) : tail.head? ≠ some ':' := fun hc => absurd (h ':' hc) (by decide)

lemma parts_colon (cs : List Char) : Parts (':' :: cs) := by
  rintro c ⟨⟩
  decide

lemma Parts.isAlpha (h : Parts tail) : ∀ c ∈ tail.head?, c.isAlpha = false := fun c hc => by
  have hpart := h c hc
  simp only [isPartChar, Bool.or_eq_false_iff] at hpart
  exact hpart.1.1

lemma Parts.isDigit (h : Parts tail) : ∀ c ∈ tail.head?, c.isDigit = false := fun c hc => by
  have hpart := h c hc
  simp only [isPartChar, Bool.or_eq_false_iff] at hpart
  exact hpart.1.2

lemma Parts.ne_mark (h : Parts tail) : tail.head? ≠ some '$' := fun hc => absurd (h '$' hc) (by decide)

/-! What follows has no influence on how far rows, columns and areas reach. -/

lemma takeWhile_append_of_head {p : Char → Bool} (h : ∀ c ∈ tail.head?, p c = false) :
    (x ++ tail).takeWhile p = x.takeWhile p := by
  induction x with
  | nil => exact takeWhile_of_head h
  | cons c x ih => simp only [List.cons_append, List.takeWhile_cons, ih]

lemma markLength_append (h : Parts tail) : markLength (x ++ tail) = markLength x := by
  cases x with
  | nil => simp [markLength, h.ne_mark]
  | cons c x => rfl

lemma markLength_le (cs : List Char) : markLength cs ≤ cs.length := by
  unfold markLength
  split
  · cases cs with
    | nil => contradiction
    | cons c cs => simp
  · exact Nat.zero_le _

lemma drop_markLength_append (x tail : List Char) :
    (x ++ tail).drop (markLength x) = x.drop (markLength x) ++ tail :=
  List.drop_append_of_le_length (markLength_le x)

lemma columnLength?_append (h : Parts tail) : columnLength? (x ++ tail) = columnLength? x := by
  simp only [columnLength?, markLength_append h, drop_markLength_append, takeWhile_append_of_head h.isAlpha]

lemma rowLength?_append (h : Parts tail) : rowLength? (x ++ tail) = rowLength? x := by
  simp only [rowLength?, markLength_append h, drop_markLength_append, takeWhile_append_of_head h.isDigit]

lemma columnPrefixLength?_append (h : Parts tail) : columnPrefixLength? (x ++ tail) = columnPrefixLength? x := by
  simp only [columnPrefixLength?, markLength_append h, drop_markLength_append, takeWhile_append_of_head h.isAlpha]

/-- A length that is found in a text is not longer than the text. -/
def Within (length? : List Char → Option Nat) : Prop := ∀ cs n, length? cs = some n → n ≤ cs.length

lemma markLength_takeWhile_le (p : Char → Bool) (cs : List Char) :
    markLength cs + ((cs.drop (markLength cs)).takeWhile p).length ≤ cs.length := by
  have hrun := (List.takeWhile_prefix p (l := cs.drop (markLength cs))).length_le
  have hmark := markLength_le cs
  rw [List.length_drop] at hrun
  omega

lemma within_columnLength? : Within columnLength? := by
  intro cs n h
  obtain ⟨-, h⟩ := Option.ite_none_right_eq_some.1 h
  exact Option.some.inj h ▸ markLength_takeWhile_le Char.isAlpha cs

lemma within_rowLength? : Within rowLength? := by
  intro cs n h
  obtain ⟨-, h⟩ := Option.ite_none_left_eq_some.1 h
  exact Option.some.inj h ▸ markLength_takeWhile_le Char.isDigit cs

lemma within_columnPrefixLength? : Within columnPrefixLength? := by
  intro cs n h
  obtain ⟨-, h⟩ := Option.ite_none_left_eq_some.1 h
  have hle := markLength_takeWhile_le Char.isAlpha cs
  have hmin := Nat.min_le_left ((cs.drop (markLength cs)).takeWhile Char.isAlpha).length 3
  exact Option.some.inj h ▸ Nat.le_trans (Nat.add_le_add_left hmin _) hle

lemma cellLength?_eq_some : cellLength? cs = some n ↔
    ∃ col row, columnLength? cs = some col ∧ rowLength? (cs.drop col) = some row ∧ col + row = n := by
  simp [cellLength?, Option.bind_eq_some_iff]

lemma within_cellLength? : Within cellLength? := by
  intro cs n h
  obtain ⟨col, row, hcol, hrow, rfl⟩ := cellLength?_eq_some.1 h
  have hle := within_columnLength? _ _ hcol
  have hle' := within_rowLength? _ _ hrow
  rw [List.length_drop] at hle'
  omega

lemma cellLength?_append (h : Parts tail) : cellLength? (x ++ tail) = cellLength? x := by
  rw [cellLength?, cellLength?, columnLength?_append h]
  cases hcol : columnLength? x with
  | none => rfl
  | some col =>
    simp only [Option.bind_eq_bind, Option.bind_some,
      List.drop_append_of_le_length (within_columnLength? _ _ hcol), rowLength?_append h]

section Pair

variable {first second : List Char → Option Nat}

lemma pairLength?_eq_some : pairLength? first second cs = some n ↔
    ∃ a rest b, first cs = some a ∧ cs.drop a = ':' :: rest ∧ second rest = some b ∧ a + 1 + b = n := by
  unfold pairLength?
  cases hfirst : first cs with
  | none => simp
  | some a =>
    simp only [Option.bind_eq_bind, Option.bind_some, Option.some.injEq, exists_and_left, exists_eq_left']
    split
    · rename_i rest hrest
      simp [hrest, Option.bind_eq_some_iff]
    · rename_i hrest
      constructor
      · rintro ⟨⟩
      · rintro ⟨rest, hcolon, -⟩
        exact absurd hcolon (hrest rest)

lemma within_pairLength? (hs : Within second) : Within (pairLength? first second) := by
  intro cs n h
  obtain ⟨a, rest, b, -, hrest, hb, rfl⟩ := pairLength?_eq_some.1 h
  have hlength := congrArg List.length hrest
  have hle := hs _ _ hb
  rw [List.length_drop, List.length_cons] at hlength
  omega

lemma pairLength?_append (hf : ∀ x, first (x ++ tail) = first x) (hs : ∀ x, second (x ++ tail) = second x)
    (hw : Within first) (htail : first x = some x.length → tail.head? ≠ some ':') :
    pairLength? first second (x ++ tail) = pairLength? first second x := by
  refine Option.ext fun n => ?_
  rw [pairLength?_eq_some, pairLength?_eq_some]
  constructor
  · rintro ⟨a, rest, b, ha, hrest, hb, rfl⟩
    rw [hf] at ha
    rw [List.drop_append_of_le_length (hw _ _ ha)] at hrest
    cases hx : x.drop a with
    | nil =>
      have hall : a = x.length := Nat.le_antisymm (hw _ _ ha) (List.drop_eq_nil_iff.1 hx)
      rw [hx, List.nil_append] at hrest
      exact absurd (by rw [hrest]; rfl) (htail (hall ▸ ha))
    | cons c y =>
      rw [hx, List.cons_append] at hrest
      obtain ⟨rfl, rfl⟩ := List.cons.inj hrest
      rw [hs] at hb
      exact ⟨a, y, b, ha, hx, hb, rfl⟩
  · rintro ⟨a, rest, b, ha, hrest, hb, rfl⟩
    refine ⟨a, rest ++ tail, b, by rw [hf, ha], ?_, by rw [hs, hb], rfl⟩
    rw [List.drop_append_of_le_length (hw _ _ ha), hrest, List.cons_append]

end Pair

lemma areaLength?_append_of (h : Parts tail)
    (hx : cellLength? x = some x.length ∨ columnLength? x = some x.length ∨ rowLength? x = some x.length → tail.head? ≠ some ':') :
    areaLength? (x ++ tail) = areaLength? x := by
  have hcell : ∀ x, cellLength? (x ++ tail) = cellLength? x := fun _ => cellLength?_append h
  have hcolumn : ∀ x, columnLength? (x ++ tail) = columnLength? x := fun _ => columnLength?_append h
  have hletters : ∀ x, columnPrefixLength? (x ++ tail) = columnPrefixLength? x := fun _ => columnPrefixLength?_append h
  have hrow : ∀ x, rowLength? (x ++ tail) = rowLength? x := fun _ => rowLength?_append h
  rw [areaLength?, areaLength?, pairLength?_append hcell hcell within_cellLength? fun h => hx (Or.inl h), hcell,
    pairLength?_append hcolumn hletters within_columnLength? fun h => hx (Or.inr (Or.inl h)),
    pairLength?_append hrow hrow within_rowLength? fun h => hx (Or.inr (Or.inr h))]

lemma areaLength?_append (h : Stops tail) : areaLength? (x ++ tail) = areaLength? x :=
  areaLength?_append_of h.parts fun _ => h.ne_colon

/-- An area goes on with one colon only. -/
lemma areaLength?_pair_append (a b : List Char) (h : Parts tail) :
    areaLength? ((a ++ ':' :: b) ++ tail) = areaLength? (a ++ ':' :: b) := by
  have hshort : ∀ {length? : List Char → Option Nat}, Within length? → length? (a ++ ':' :: b) = length? a →
      length? (a ++ ':' :: b) ≠ some (a ++ ':' :: b).length := by
    intro length? hw hsame hall
    have hle := hw _ _ (hsame ▸ hall)
    rw [List.length_append, List.length_cons] at hle
    omega
  refine areaLength?_append_of h fun hall => ?_
  rcases hall with hall | hall | hall
  · exact absurd hall (hshort within_cellLength? (cellLength?_append (parts_colon b)))
  · exact absurd hall (hshort within_columnLength? (columnLength?_append (parts_colon b)))
  · exact absurd hall (hshort within_rowLength? (rowLength?_append (parts_colon b)))

lemma within_areaLength? : Within areaLength? := by
  intro cs n h
  simp only [areaLength?, Option.orElse_eq_orElse, Option.orElse_eq_or, Option.or_eq_some_iff] at h
  rcases h with h | ⟨-, h | ⟨-, h | ⟨-, h⟩⟩⟩
  · exact within_pairLength? within_cellLength? _ _ h
  · exact within_cellLength? _ _ h
  · exact within_pairLength? within_columnPrefixLength? _ _ h
  · exact within_pairLength? within_rowLength? _ _ h

/-! Areas as they are written. -/

section Written

open AreaForm (columnChars rowChars)

variable {col row : Nat} {fixed : Bool} {a : Address} {r : Range} {form : AreaForm}

lemma markLength_mark (fixed : Bool) {cs : List Char} (h : cs.head? ≠ some '$') :
    markLength (Address.mark fixed ++ cs) = (Address.mark fixed).length := by
  cases fixed with
  | true => rfl
  | false => simp [Address.mark, markLength, h]

lemma letters_columnChars (col : Nat) (fixed : Bool) (tail : List Char) (htail : ∀ c ∈ tail.head?, c.isAlpha = false) :
    let cs := columnChars col fixed ++ tail
    (cs.drop (markLength cs)).takeWhile Char.isAlpha = Address.columnLetters col ∧
      markLength cs + (Address.columnLetters col).length = (columnChars col fixed).length := by
  have hmark : markLength (columnChars col fixed ++ tail) = (Address.mark fixed).length := by
    rw [columnChars, List.append_assoc]
    exact markLength_mark fixed (Address.head?_columnLetters col tail)
  simp only [hmark]
  rw [columnChars, List.append_assoc, List.drop_left, List.length_append]
  exact ⟨takeWhile_run (fun c hc => Address.isAlpha_of_mem_columnLetters hc) htail, rfl⟩

lemma length_columnLetters (h : col < maxCols) :
    1 ≤ (Address.columnLetters col).length ∧ (Address.columnLetters col).length ≤ 3 :=
  ⟨List.length_pos_iff.2 (Address.columnLetters_ne_nil col),
    Nat.le_trans (Address.length_le_byteLength _) (Address.byteLength_columnLetters h)⟩

lemma columnLength?_columnChars (h : col < maxCols) (fixed : Bool) (tail : List Char)
    (htail : ∀ c ∈ tail.head?, c.isAlpha = false) :
    columnLength? (columnChars col fixed ++ tail) = some (columnChars col fixed).length := by
  obtain ⟨hletters, hlength⟩ := letters_columnChars col fixed tail htail
  simp only [columnLength?, hletters, if_pos (length_columnLetters h), hlength]

lemma columnPrefixLength?_columnChars (h : col < maxCols) (fixed : Bool) :
    columnPrefixLength? (columnChars col fixed) = some (columnChars col fixed).length := by
  obtain ⟨hletters, hlength⟩ := letters_columnChars col fixed [] (by simp)
  rw [List.append_nil] at hletters hlength
  obtain ⟨hpos, hle⟩ := length_columnLetters h
  simp only [columnPrefixLength?, hletters, if_neg (show (Address.columnLetters col).length ≠ 0 by omega),
    Nat.min_eq_left hle, hlength]

lemma digits_rowChars (row : Nat) (fixed : Bool) :
    (rowChars row fixed).drop (markLength (rowChars row fixed)) = Address.rowDigits row ∧
      markLength (rowChars row fixed) + (Address.rowDigits row).length = (rowChars row fixed).length := by
  have hmark : markLength (rowChars row fixed) = (Address.mark fixed).length :=
    markLength_mark fixed (by simpa using Address.head?_rowDigits row [])
  rw [hmark, rowChars, List.drop_left, List.length_append]
  exact ⟨rfl, rfl⟩

lemma rowLength?_rowChars (row : Nat) (fixed : Bool) : rowLength? (rowChars row fixed) = some (rowChars row fixed).length := by
  obtain ⟨hdigits, hlength⟩ := digits_rowChars row fixed
  have hrun : (Address.rowDigits row).takeWhile Char.isDigit = Address.rowDigits row :=
    takeWhile_of_forall fun c hc => Address.isDigit_of_mem_rowDigits hc
  have hpos := List.length_pos_iff.2 (Address.rowDigits_ne_nil row)
  simp only [rowLength?, hdigits, hrun, if_neg (show (Address.rowDigits row).length ≠ 0 by omega), hlength]

lemma columnLength?_rowChars (row : Nat) (fixed : Bool) : columnLength? (rowChars row fixed) = none := by
  have hletters : (Address.rowDigits row).takeWhile Char.isAlpha = [] :=
    takeWhile_of_head fun c hc => Address.isAlpha_of_mem_rowDigits (List.mem_of_mem_head? hc)
  simp [columnLength?, (digits_rowChars row fixed).1, hletters]

lemma chars_eq (a : Address) : a.chars = columnChars a.col a.colFixed ++ rowChars a.row a.rowFixed := rfl

lemma isAlpha_head?_rowChars (row : Nat) (fixed : Bool) : ∀ c ∈ (rowChars row fixed).head?, c.isAlpha = false :=
  fun _ hc => Address.isAlpha_mark_rowDigits (List.mem_of_mem_head? hc)

lemma cellLength?_chars (h : a.onSheet) : cellLength? a.chars = some a.chars.length := by
  refine cellLength?_eq_some.2 ⟨(columnChars a.col a.colFixed).length, (rowChars a.row a.rowFixed).length, ?_, ?_, ?_⟩
  · exact columnLength?_columnChars h.2 a.colFixed _ (isAlpha_head?_rowChars a.row a.rowFixed)
  · rw [chars_eq, List.drop_left]
    exact rowLength?_rowChars a.row a.rowFixed
  · rw [chars_eq, List.length_append]

lemma cellLength?_columnChars (h : col < maxCols) (fixed : Bool) : cellLength? (columnChars col fixed) = none := by
  have hcolumn := columnLength?_columnChars h fixed [] (by simp)
  rw [List.append_nil] at hcolumn
  simp [cellLength?, hcolumn, rowLength?, markLength]

lemma cellLength?_rowChars (row : Nat) (fixed : Bool) : cellLength? (rowChars row fixed) = none := by
  simp [cellLength?, columnLength?_rowChars]

section Pair

variable {first second : List Char → Option Nat} {u v : List Char}

lemma pairLength?_written (hu : first (u ++ ':' :: v) = some u.length) (hv : second v = some v.length) :
    pairLength? first second (u ++ ':' :: v) = some (u ++ ':' :: v).length := by
  refine pairLength?_eq_some.2 ⟨u.length, v, v.length, hu, List.drop_left, hv, ?_⟩
  rw [List.length_append, List.length_cons]
  omega

lemma pairLength?_of_none (hu : first cs = none) : pairLength? first second cs = none := by
  simp [pairLength?, hu]

end Pair

lemma areaLength?_write (h : form.Fits r) : areaLength? (form.write r) = some (form.write r).length := by
  obtain ⟨hnormal, hstop⟩ := h.onSheet
  have hstart : r.start.onSheet := ⟨Nat.lt_of_le_of_lt hnormal.1 hstop.1, Nat.lt_of_le_of_lt hnormal.2 hstop.2⟩
  cases form with
  | cells =>
    -- a single cell is written without a colon, so the search for a pair has to fail first
    by_cases heq : r.start = r.stop
    · rw [AreaForm.write, Range.chars, if_pos heq, areaLength?]
      have hpair : pairLength? cellLength? cellLength? r.start.chars = none := by
        rw [Option.eq_none_iff_forall_ne_some]
        intro n hn
        obtain ⟨m, rest, -, hm, hrest, -⟩ := pairLength?_eq_some.1 hn
        rw [cellLength?_chars hstart] at hm
        rw [← Option.some.inj hm, List.drop_length] at hrest
        cases hrest
      rw [hpair, cellLength?_chars hstart]
      rfl
    · rw [AreaForm.write, Range.chars, if_neg heq, areaLength?, pairLength?_written]
      · rfl
      · rw [cellLength?_append (parts_colon _), cellLength?_chars hstart]
      · exact cellLength?_chars hstop
  | columns =>
    have hwrite : AreaForm.write .columns r = columnChars r.start.col r.start.colFixed ++
        ':' :: columnChars r.stop.col r.stop.colFixed := rfl
    have hcell : cellLength? (columnChars r.start.col r.start.colFixed ++ ':' :: columnChars r.stop.col r.stop.colFixed) =
        none := by
      rw [cellLength?_append (parts_colon _), cellLength?_columnChars hstart.2]
    have hpair := pairLength?_written
      (columnLength?_columnChars hstart.2 r.start.colFixed (':' :: columnChars r.stop.col r.stop.colFixed) (by simp))
      (columnPrefixLength?_columnChars hstop.2 r.stop.colFixed)
    rw [hwrite, areaLength?, pairLength?_of_none hcell, hcell, hpair]
    rfl
  | rows =>
    have hwrite : AreaForm.write .rows r = rowChars r.start.row r.start.rowFixed ++
        ':' :: rowChars r.stop.row r.stop.rowFixed := rfl
    have hcolumn : columnLength? (rowChars r.start.row r.start.rowFixed ++ ':' :: rowChars r.stop.row r.stop.rowFixed) =
        none := by
      rw [columnLength?_append (parts_colon _), columnLength?_rowChars]
    have hcell : cellLength? (rowChars r.start.row r.start.rowFixed ++ ':' :: rowChars r.stop.row r.stop.rowFixed) =
        none := by
      rw [cellLength?_append (parts_colon _), cellLength?_rowChars]
    have hpair : pairLength? rowLength? rowLength? (rowChars r.start.row r.start.rowFixed ++
        ':' :: rowChars r.stop.row r.stop.rowFixed) = some _ :=
      pairLength?_written (by rw [rowLength?_append (parts_colon _), rowLength?_rowChars]) (rowLength?_rowChars _ _)
    rw [hwrite, areaLength?, pairLength?_of_none hcell, hcell, pairLength?_of_none hcolumn, hpair]
    rfl

end Written

/-! Where an area may end. -/

lemma isAlphabetic_of_isAlpha (h : c.isAlpha = true) : isAlphabetic c = true := by
  have hlt := isAlpha_iff.1 h
  rw [isAlphabetic, if_pos (by omega), h]

lemma isNumeric_of_isDigit (h : c.isDigit = true) : isNumeric c = true := by
  have hlt := isDigit_iff.1 h
  rw [isNumeric, if_pos (by omega), h]

lemma parts_of_endsBefore (h : endsBefore tail = true) : Parts tail := by
  intro c hc
  cases tail with
  | nil => cases hc
  | cons d tail =>
    obtain rfl := Option.some.inj hc
    rw [Bool.eq_false_iff]
    intro hpart
    simp only [isPartChar, Bool.or_eq_true, beq_iff_eq] at hpart
    rcases hpart with (halpha | hdigit) | rfl
    · simp [endsBefore, isAlphabetic_of_isAlpha halpha] at h
    · simp [endsBefore, isNumeric_of_isDigit hdigit] at h
    · simp [endsBefore] at h

lemma stops_of_endsBefore (h : endsBefore tail = true) (hcolon : tail.head? ≠ some ':') : Stops tail := by
  intro c hc
  have hpart := parts_of_endsBefore h c hc
  have hne : c ≠ ':' := fun heq => hcolon (heq ▸ hc)
  simp [isStop, hpart, hne]

lemma area?_eq_some {area : List Char} : area? cs = some area ↔ ∃ n, areaLength? cs = some n ∧ cs.take n = area ∧
    endsBefore (cs.drop n) = true ∧ (AreaForm.parseChars? area).isSome = true := by
  unfold area?
  cases hlength : areaLength? cs with
  | none => simp
  | some n =>
    simp only [Option.bind_eq_bind, Option.bind_some, Bool.and_eq_true, Option.ite_none_right_eq_some, Option.some.injEq,
      exists_eq_left']
    constructor
    · rintro ⟨⟨hends, hparse⟩, rfl⟩
      exact ⟨rfl, hends, hparse⟩
    · rintro ⟨rfl, hends, hparse⟩
      exact ⟨⟨hends, hparse⟩, rfl⟩

lemma area?_write {form : AreaForm} {r : Range} (h : form.Fits r) (hends : endsBefore tail = true)
    (hcolon : tail.head? ≠ some ':') : area? (form.write r ++ tail) = some (form.write r) := by
  refine area?_eq_some.2 ⟨(form.write r).length, ?_, List.take_left, ?_, ?_⟩
  · rw [areaLength?_append (stops_of_endsBefore hends hcolon), areaLength?_write h]
  · rw [List.drop_left, hends]
  · rw [AreaForm.parseChars?_write h, Option.isSome_some]

/-! Qualifiers. -/

lemma quoted?_eq_some {name rest : List Char} (h : quoted? cs = some (name, rest)) : ∃ q, cs = q ++ rest ∧
    ∀ rest', rest'.head? ≠ some '\'' → quoted? (q ++ rest') = some (name, rest') := by
  fun_induction quoted? cs generalizing name with
  | case1 => cases h
  | case2 cs ih =>
    obtain ⟨⟨name, rest⟩, hx, heq⟩ := Option.map_eq_some_iff.1 h
    obtain ⟨rfl, rfl⟩ := Prod.mk.inj heq
    obtain ⟨q, rfl, hq⟩ := ih hx
    exact ⟨'\'' :: '\'' :: q, rfl, fun rest' hrest => by simp [quoted?, hq rest' hrest]⟩
  | case3 cs hne =>
    obtain ⟨rfl, rfl⟩ := Prod.mk.inj (Option.some.inj h)
    refine ⟨['\''], rfl, fun rest' hrest => ?_⟩
    cases rest' with
    | nil => rfl
    | cons c rest' =>
      rw [List.singleton_append, quoted?.eq_3]
      intro cs hcs
      exact hrest (by rw [hcs]; rfl)
  | case4 c cs hne hne' ih =>
    obtain ⟨⟨name, rest⟩, hx, heq⟩ := Option.map_eq_some_iff.1 h
    obtain ⟨rfl, rfl⟩ := Prod.mk.inj heq
    obtain ⟨q, rfl, hq⟩ := ih hx
    refine ⟨c :: q, rfl, fun rest' hrest => ?_⟩
    rw [List.cons_append, quoted?.eq_4 _ _ (fun _ hc _ => hne' hc) hne', hq rest' hrest]
    rfl

/-- A sheet name in front of an area, in quotes or as a word. -/
def IsSheet (q : List Char) : Prop :=
  q.head? = some '\'' ∨ ∃ c word, q = c :: (word ++ ['!']) ∧ (c.isAlpha = true ∨ c = '_' ∨ c = '\\') ∧
    ∀ d ∈ word, (isWordChar d || d == '.') = true

lemma sheet?_eq_some {name rest : List Char} (h : sheet? cs = some (name, rest)) : ∃ q, IsSheet q ∧ cs = q ++ rest ∧
    ∀ rest', sheet? (q ++ rest') = some (name, rest') := by
  unfold sheet? at h
  split at h
  · cases h
  · rename_i c after
    split at h
    · rename_i hquote
      split at h
      · rename_i name' rest' hquoted
        obtain ⟨hname, h⟩ := Option.ite_none_left_eq_some.1 h
        obtain ⟨rfl, rfl⟩ := Prod.mk.inj (Option.some.inj h)
        obtain ⟨q, rfl, hq⟩ := quoted?_eq_some hquoted
        refine ⟨c :: (q ++ ['!']), Or.inl (by simp [hquote]), by simp, fun rest'' => ?_⟩
        simp [sheet?, hquote, hq ('!' :: rest'') (by simp), hname]
      · cases h
    · rename_i hquote
      split at h
      · rename_i hfirst
        dsimp only at h
        split at h
        · rename_i rest' hrest
          obtain ⟨rfl, rfl⟩ := Prod.mk.inj (Option.some.inj h)
          have hparts : ∀ d ∈ after.takeWhile fun d => isWordChar d || d == '.', (isWordChar d || d == '.') = true :=
            fun d hd => List.all_eq_true.1 List.all_takeWhile d hd
          have hmark : ∀ rest : List Char, ∀ d ∈ ('!' :: rest).head?, (isWordChar d || d == '.') = false := by
            rintro rest d ⟨⟩
            decide
          have hafter := List.takeWhile_append_dropWhile (p := fun d => isWordChar d || d == '.') (l := after)
          rw [hrest] at hafter
          generalize after.takeWhile (fun d => isWordChar d || d == '.') = word at hparts hafter
          obtain rfl := hafter
          have hstart : c.isAlpha = true ∨ c = '_' ∨ c = '\\' := by
            simpa only [Bool.or_eq_true, beq_iff_eq, or_assoc] using hfirst
          refine ⟨c :: (word ++ ['!']), Or.inr ⟨c, word, rfl, hstart, hparts⟩, by simp, fun rest'' => ?_⟩
          rw [List.cons_append, List.append_assoc, List.singleton_append, sheet?, if_neg hquote, if_pos hfirst]
          simp only [dropWhile_run hparts (hmark rest''), takeWhile_run hparts (hmark rest'')]
        · cases h
      · cases h

lemma book?_eq_some {name rest : List Char} (h : book? cs = some (name, rest)) : ∃ q, q.head? = some '[' ∧ cs = q ++ rest ∧
    ∀ rest', book? (q ++ rest') = some (name, rest') := by
  unfold book? at h
  split at h
  · rename_i after
    split at h
    · cases h
    · rename_i d rest' hrest
      obtain ⟨hname, h⟩ := Option.ite_none_left_eq_some.1 h
      obtain ⟨rfl, rfl⟩ := Prod.mk.inj (Option.some.inj h)
      have hd : d = ']' := by
        have hneg := List.head_dropWhile_not (· != ']') (l := after) (by simp [hrest])
        simpa [hrest] using hneg
      have hparts : ∀ c ∈ after.takeWhile (· != ']'), (c != ']') = true := fun c hc => List.all_eq_true.1 List.all_takeWhile c hc
      have hafter := List.takeWhile_append_dropWhile (p := (· != ']')) (l := after)
      rw [hrest, hd] at hafter
      generalize after.takeWhile (· != ']') = word at hparts hafter hname
      obtain rfl := hafter
      refine ⟨'[' :: (word ++ [']']), rfl, by simp, fun rest'' => ?_⟩
      rw [List.cons_append, List.append_assoc, List.singleton_append, book?]
      have hmark : ∀ c ∈ (']' :: rest'').head?, (c != ']') = false := by simp
      simp only [dropWhile_run hparts hmark, takeWhile_run hparts hmark, if_neg hname]
  · cases h

lemma append_of_area? {area : List Char} (h : area? cs = some area) : ∃ rest, cs = area ++ rest ∧ endsBefore rest = true := by
  obtain ⟨n, -, rfl, hends, -⟩ := area?_eq_some.1 h
  exact ⟨cs.drop n, (List.take_append_drop n cs).symm, hends⟩

/-- With a sheet name in front, another area can stand in the place of the one that is read. -/
lemma onSheet?_eq_some {book : Option (List Char)} {t : ReferenceToken} (h : onSheet? book cs = some (t, n)) :
    ∃ q area rest, IsSheet q ∧ cs = q ++ (area ++ rest) ∧ n = (q ++ area).length ∧ t.area = String.ofList area ∧
      area? (area ++ rest) = some area ∧ ∀ area' rest', area? (area' ++ rest') = some area' →
        onSheet? book (q ++ (area' ++ rest')) = some ({ t with area := String.ofList area' }, (q ++ area').length) := by
  cases hsheet : sheet? cs with
  | none => simp [onSheet?, hsheet] at h
  | some found =>
    obtain ⟨name, tail⟩ := found
    cases harea : area? tail with
    | none => simp [onSheet?, hsheet, harea] at h
    | some area =>
      obtain ⟨q, hq, rfl, hsheet'⟩ := sheet?_eq_some hsheet
      obtain ⟨rest, rfl, -⟩ := append_of_area? harea
      have hlength : ∀ area rest : List Char, (q ++ (area ++ rest)).length - (area ++ rest).length + area.length =
          (q ++ area).length := fun area rest => by
        simp only [List.length_append]
        omega
      refine ⟨q, area, rest, hq, rfl, ?_, ?_, harea, fun area' rest' harea' => ?_⟩
      all_goals
        simp only [onSheet?, hsheet, harea, Option.bind_eq_bind, Option.bind_some, hlength] at h
      · split at h
        · exact (Prod.mk.inj (Option.some.inj h)).2.symm
        · exact (Prod.mk.inj (Option.some.inj h)).2.symm
      · split at h
        · rw [← (Prod.mk.inj (Option.some.inj h)).1, token]
        · rw [← (Prod.mk.inj (Option.some.inj h)).1, token]
      · simp only [onSheet?, hsheet', harea', Option.bind_eq_bind, Option.bind_some, hlength]
        split at h
        · obtain ⟨rfl, -⟩ := Prod.mk.inj (Option.some.inj h)
          simp [token]
        · obtain ⟨rfl, -⟩ := Prod.mk.inj (Option.some.inj h)
          simp [token]

lemma exists_of_onSheet? {book : Option (List Char)} {found : ReferenceToken × Nat} (h : onSheet? book cs = some found) :
    ∃ name rest, sheet? cs = some (name, rest) ∧ (areaLength? rest).isSome = true := by
  obtain ⟨⟨name, rest⟩, hsheet, h⟩ := Option.bind_eq_some_iff.1 h
  obtain ⟨area, harea, -⟩ := Option.bind_eq_some_iff.1 h
  obtain ⟨n, hlength, -⟩ := area?_eq_some.1 harea
  exact ⟨name, rest, hsheet, by rw [hlength, Option.isSome_some]⟩

/-! Where a reference, a name or a number surely ends. -/

/-- No word goes on with this character, and it binds to no word before it. -/
def isBreak (c : Char) : Bool :=
  !(isAlphabetic c || isNumeric c || isWordChar c || ['_', '.', '\\', '(', '!', '$', ':', '\'', '['].contains c)

def Breaks (tail : List Char) : Prop := ∀ c ∈ tail.head?, isBreak c = true

/-- No word goes on with what follows, which may be a colon. -/
def Closes (tail : List Char) : Prop := ∀ c ∈ tail.head?, isBreak c = true ∨ c = ':'

lemma isBreak_iff : isBreak c = true ↔ isAlphabetic c = false ∧ isNumeric c = false ∧ isWordChar c = false ∧
    c ∉ ['_', '.', '\\', '(', '!', '$', ':', '\'', '['] := by
  simp only [isBreak, Bool.not_eq_true', Bool.or_eq_false_iff, and_assoc, List.contains_eq_mem, decide_eq_false_iff_not]

section Closes

lemma closes_colon (cs : List Char) : Closes (':' :: cs) := by
  rintro c ⟨⟩
  exact Or.inr rfl

lemma Closes.of_head (h : Closes tail) : ∀ c ∈ tail.head?, isAlphabetic c = false ∧ isNumeric c = false ∧ isWordChar c = false ∧
    c ∉ ['_', '.', '\\', '(', '!', '$', '\'', '['] := by
  intro c hc
  rcases h c hc with hbreak | rfl
  · obtain ⟨halphabetic, hnumeric, hword, hne⟩ := isBreak_iff.1 hbreak
    simp only [List.mem_cons, not_or] at hne ⊢
    exact ⟨halphabetic, hnumeric, hword, hne.1, hne.2.1, hne.2.2.1, hne.2.2.2.1, hne.2.2.2.2.1, hne.2.2.2.2.2.1,
      hne.2.2.2.2.2.2.2⟩
  · decide

lemma Closes.ne (h : Closes tail) (hc : c ∈ ['_', '.', '\\', '(', '!', '$', '\'', '[']) : tail.head? ≠ some c :=
  fun hhead => (h.of_head c hhead).2.2.2 hc

lemma Closes.isAlphabetic (h : Closes tail) : ∀ c ∈ tail.head?, isAlphabetic c = false := fun c hc => (h.of_head c hc).1

lemma Closes.isDigit (h : Closes tail) : ∀ c ∈ tail.head?, c.isDigit = false := fun c hc => by
  rw [Bool.eq_false_iff]
  exact fun hdigit => absurd (isNumeric_of_isDigit hdigit) (by simp [(h.of_head c hc).2.1])

lemma Closes.endsBefore (h : Closes tail) : endsBefore tail = true := by
  cases tail with
  | nil => rfl
  | cons c tail =>
    obtain ⟨halphabetic, hnumeric, -, hne⟩ := h.of_head c rfl
    simp only [List.mem_cons, not_or] at hne
    simp [ReferenceText.endsBefore, halphabetic, hnumeric, hne]

lemma Closes.sheetPart (h : Closes tail) : ∀ c ∈ tail.head?, (isWordChar c || c == '.') = false := fun c hc => by
  have hne : c ≠ '.' := fun heq => h.ne (c := '.') (by simp) (heq ▸ hc)
  simp [(h.of_head c hc).2.2.1, hne]

lemma Breaks.closes (h : Breaks tail) : Closes tail := fun c hc => Or.inl (h c hc)

lemma Breaks.ne (h : Breaks tail) (hc : c ∈ ['_', '.', '\\', '(', '!', '$', ':', '\'', '[']) : tail.head? ≠ some c :=
  fun hhead => (isBreak_iff.1 (h c hhead)).2.2.2 hc

lemma Breaks.stops (h : Breaks tail) : Stops tail := stops_of_endsBefore h.closes.endsBefore (h.ne (by simp))

lemma sheet?_of_closes (h : Closes tail) (hx : ∀ c ∈ x, c ≠ '!' ∧ c ≠ '\'') : sheet? (x ++ tail) = none := by
  -- the name would have to end at a `!`, but there is none in `x` and none at the front of what closes it
  have hdrop : ∀ y : List Char, (∀ c ∈ y, c ≠ '!') → ∀ rest,
      (y ++ tail).dropWhile (fun d => isWordChar d || d == '.') ≠ '!' :: rest := by
    intro y hy rest heq
    have hsuffix := List.dropWhile_suffix (fun d => isWordChar d || d == '.') (l := y)
    rw [List.dropWhile_append] at heq
    split at heq
    · cases tail with
      | nil => cases heq
      | cons d tail =>
        rw [List.dropWhile_cons_of_neg (by simp [h.sheetPart d rfl])] at heq
        exact h.ne (c := '!') (by simp) (by rw [heq]; rfl)
    · rename_i hne
      cases hy' : y.dropWhile (fun d => isWordChar d || d == '.') with
      | nil => simp [hy'] at hne
      | cons d y' =>
        rw [hy', List.cons_append] at heq
        rw [hy'] at hsuffix
        exact hy d (hsuffix.mem (by simp)) (List.cons.inj heq).1
  unfold sheet?
  split
  · rfl
  · rename_i c after heq
    cases x with
    | nil =>
      obtain rfl : tail = c :: after := heq
      have hhead := h.of_head c rfl
      have halpha : c.isAlpha = false := by
        rw [Bool.eq_false_iff]
        exact fun halpha => absurd (isAlphabetic_of_isAlpha halpha) (by simp [hhead.1])
      simp only [List.mem_cons, not_or] at hhead
      simp [halpha, hhead]
    | cons d x =>
      obtain ⟨rfl, rfl⟩ := List.cons.inj heq
      rw [if_neg (hx d (by simp)).2]
      split
      · dsimp only
        split
        · rename_i rest hrest
          exact absurd hrest (hdrop x (fun c hc => (hx c (by simp [hc])).1) rest)
        · rfl
      · rfl

end Closes

/-! Whole references. -/

lemma book?_of_head (h : cs.head? ≠ some '[') : book? cs = none := by
  unfold book?
  split
  · exact absurd rfl h
  · rfl

/-- What may stand in front of the area of a reference. -/
def IsQualifier (q : List Char) : Prop := q = [] ∨ q.head? = some '[' ∨ IsSheet q

lemma IsSheet.exists_head {q : List Char} (h : IsSheet q) : ∃ c q', q = c :: q' ∧
    (c = '\'' ∨ c.isAlpha = true ∨ c = '_' ∨ c = '\\') := by
  rcases h with h | ⟨c, word, rfl, hc, -⟩
  · cases q with
    | nil => cases h
    | cons c q => exact ⟨c, q, rfl, Or.inl (Option.some.inj h)⟩
  · exact ⟨c, word ++ ['!'], rfl, Or.inr hc⟩

lemma IsSheet.book?_append {q : List Char} (h : IsSheet q) (rest : List Char) : book? (q ++ rest) = none := by
  obtain ⟨c, q', rfl, hc⟩ := h.exists_head
  refine book?_of_head fun hhead => ?_
  obtain rfl : c = '[' := Option.some.inj hhead
  exact absurd hc (by decide)

lemma reference?_area {area : List Char} (harea : area? (area ++ tail) = some area)
    (hchars : ∀ c ∈ area, isPartChar c = true ∨ c = ':') (htail : Closes tail) :
    reference? (area ++ tail) = some (token none none area, area.length) := by
  have hbook : book? (area ++ tail) = none := by
    refine book?_of_head ?_
    cases area with
    | nil => exact htail.ne (by simp)
    | cons c area =>
      rintro ⟨⟩
      exact absurd (hchars '[' (by simp)) (by decide)
  have hsheet : sheet? (area ++ tail) = none := by
    refine sheet?_of_closes htail fun c hc => ⟨?_, ?_⟩ <;> rintro rfl
    · exact absurd (hchars _ hc) (by decide)
    · exact absurd (hchars _ hc) (by decide)
  simp [reference?, hbook, hsheet, harea]

/-- The text `cs` begins with the reference `t`: a qualifier `q` and an `area`, in whose place another area can stand. -/
structure Begins (cs : List Char) (t : ReferenceToken) (q area rest : List Char) : Prop where
  qualifier : IsQualifier q
  text : cs = q ++ (area ++ rest)
  area_eq : t.area = String.ofList area
  area? : area? (area ++ rest) = some area
  replace : ∀ area' rest', ReferenceText.area? (area' ++ rest') = some area' → (∀ c ∈ area', isPartChar c = true ∨ c = ':') →
    Closes rest' → reference? (q ++ (area' ++ rest')) = some ({ t with area := String.ofList area' }, (q ++ area').length)

lemma begins_area {area : List Char} (h : area? cs = some area) : ∃ rest, Begins cs (token none none area) [] area rest := by
  obtain ⟨rest, rfl, -⟩ := append_of_area? h
  exact ⟨rest, Or.inl rfl, rfl, rfl, h, fun area' rest' => reference?_area⟩

lemma exists_begins {t : ReferenceToken} (h : reference? cs = some (t, n)) : ∃ q area rest,
    Begins cs t q area rest ∧ n = (q ++ area).length := by
  unfold reference? at h
  split at h
  · rename_i name after hbook
    obtain ⟨⟨t', m⟩, hsheet, heq⟩ := Option.map_eq_some_iff.1 h
    obtain ⟨rfl, rfl⟩ := Prod.mk.inj heq
    obtain ⟨p, hp, rfl, hbook'⟩ := book?_eq_some hbook
    obtain ⟨q, area, rest, -, rfl, rfl, hname, harea, hsheet'⟩ := onSheet?_eq_some hsheet
    have hlength : ∀ x y : List Char, (p ++ x).length - x.length + y.length = (p ++ y).length := fun x y => by
      rw [List.length_append, List.length_append, Nat.add_sub_cancel]
    refine ⟨p ++ q, area, rest, ⟨Or.inr (Or.inl ?_), (List.append_assoc ..).symm, hname, harea,
      fun area' rest' harea' _ _ => ?_⟩, ?_⟩
    · rw [List.head?_append, hp, Option.some_or]
    · simp only [List.append_assoc, reference?, hbook', hsheet' area' rest' harea', Option.map_some, hlength]
    · simp only [hlength, List.append_assoc]
  · split at h
    · split at h
      · obtain ⟨q, area, rest, hq, rfl, rfl, hname, harea, hsheet'⟩ := onSheet?_eq_some h
        refine ⟨q, area, rest, ⟨Or.inr (Or.inr hq), rfl, hname, harea, fun area' rest' harea' _ _ => ?_⟩, rfl⟩
        have hnew := hsheet' area' rest' harea'
        obtain ⟨name, after, hsheet, hlength⟩ := exists_of_onSheet? hnew
        simp only [reference?, hq.book?_append, hsheet, hlength, if_true, hnew]
      · obtain ⟨area, harea, heq⟩ := Option.map_eq_some_iff.1 h
        obtain ⟨rfl, rfl⟩ := Prod.mk.inj heq
        obtain ⟨rest, hbegins⟩ := begins_area harea
        exact ⟨[], area, rest, hbegins, rfl⟩
    · obtain ⟨area, harea, heq⟩ := Option.map_eq_some_iff.1 h
      obtain ⟨rfl, rfl⟩ := Prod.mk.inj heq
      obtain ⟨rest, hbegins⟩ := begins_area harea
      exact ⟨[], area, rest, hbegins, rfl⟩

lemma endsBefore_append (h : Breaks tail) : endsBefore (x ++ tail) = endsBefore x := by
  cases x with
  | nil => exact h.closes.endsBefore
  | cons c x => rfl

lemma area?_append (h : Breaks tail) : area? (x ++ tail) = area? x := by
  rw [area?, area?, areaLength?_append h.stops]
  cases hlength : areaLength? x with
  | none => rfl
  | some n =>
    have hle := within_areaLength? _ _ hlength
    simp only [Option.bind_eq_bind, Option.bind_some, List.take_append_of_le_length hle, List.drop_append_of_le_length hle,
      endsBefore_append h]

lemma reference?_unqualified (hx : ∀ c ∈ x, c ≠ '!' ∧ c ≠ '\'' ∧ c ≠ '[') (h : Closes tail) :
    reference? (x ++ tail) = (area? (x ++ tail)).map fun area => (token none none area, area.length) := by
  have hbook : book? (x ++ tail) = none := by
    refine book?_of_head ?_
    cases x with
    | nil => exact h.ne (by simp)
    | cons c x => simpa using (hx c (by simp)).2.2
  have hsheet : sheet? (x ++ tail) = none := sheet?_of_closes h fun c hc => ⟨(hx c hc).1, (hx c hc).2.1⟩
  simp only [reference?, hbook, hsheet]

/-! An area begins with a letter, a digit or a mark. -/

/-- What is measured is not empty and begins like an area. -/
def Starts (length? : List Char → Option Nat) : Prop := ∀ cs n, length? cs = some n →
  n ≠ 0 ∧ ∀ c ∈ cs.head?, isPartChar c = true

lemma isPartChar_head? {p : Char → Bool} (hp : ∀ c, p c = true → isPartChar c = true)
    (h : (cs.drop (markLength cs)).takeWhile p ≠ []) : ∀ c ∈ cs.head?, isPartChar c = true := by
  cases cs with
  | nil => rintro c ⟨⟩
  | cons d cs =>
    rintro c ⟨⟩
    by_cases hmark : d = '$'
    · rw [hmark]
      decide
    · rw [markLength, if_neg (by simpa using hmark), List.drop_zero, List.takeWhile_cons] at h
      split at h
      · rename_i hd
        exact hp d hd
      · exact absurd rfl h

lemma isPartChar_of_isAlpha (c : Char) (h : c.isAlpha = true) : isPartChar c = true := by simp [isPartChar, h]

lemma isPartChar_of_isDigit (c : Char) (h : c.isDigit = true) : isPartChar c = true := by simp [isPartChar, h]

lemma starts_columnLength? : Starts columnLength? := by
  intro cs n h
  obtain ⟨hn, h⟩ := Option.ite_none_right_eq_some.1 h
  refine ⟨by have := Option.some.inj h; omega, isPartChar_head? isPartChar_of_isAlpha ?_⟩
  exact List.ne_nil_of_length_pos hn.1

lemma starts_rowLength? : Starts rowLength? := by
  intro cs n h
  obtain ⟨hn, h⟩ := Option.ite_none_left_eq_some.1 h
  refine ⟨by have := Option.some.inj h; omega, isPartChar_head? isPartChar_of_isDigit ?_⟩
  exact List.ne_nil_of_length_pos (by omega)

lemma starts_cellLength? : Starts cellLength? := by
  intro cs n h
  obtain ⟨col, row, hcol, -, rfl⟩ := cellLength?_eq_some.1 h
  exact ⟨by have := (starts_columnLength? _ _ hcol).1; omega, (starts_columnLength? _ _ hcol).2⟩

lemma Starts.pairLength? {first second : List Char → Option Nat} (hf : Starts first) : Starts (pairLength? first second) := by
  intro cs n h
  obtain ⟨a, -, b, ha, -, -, rfl⟩ := pairLength?_eq_some.1 h
  exact ⟨by omega, (hf _ _ ha).2⟩

lemma starts_areaLength? : Starts areaLength? := by
  intro cs n h
  simp only [areaLength?, Option.orElse_eq_orElse, Option.orElse_eq_or, Option.or_eq_some_iff] at h
  rcases h with h | ⟨-, h | ⟨-, h | ⟨-, h⟩⟩⟩
  · exact starts_cellLength?.pairLength? _ _ h
  · exact starts_cellLength? _ _ h
  · exact starts_columnLength?.pairLength? _ _ h
  · exact starts_rowLength?.pairLength? _ _ h

lemma exists_head_area {area : List Char} (h : area? cs = some area) : ∃ c area', area = c :: area' ∧ isPartChar c = true := by
  obtain ⟨n, hlength, rfl, -⟩ := area?_eq_some.1 h
  obtain ⟨hn, hstart⟩ := starts_areaLength? _ _ hlength
  have hle := within_areaLength? _ _ hlength
  cases cs with
  | nil => exact absurd (Nat.le_zero.1 hle) hn
  | cons c cs =>
    obtain ⟨n, rfl⟩ := Nat.exists_eq_succ_of_ne_zero hn
    exact ⟨c, cs.take n, rfl, hstart c rfl⟩

/-! An area consists of letters, digits, marks and a colon. -/

/-- What is measured is made of letters, digits and marks. -/
def Consists (length? : List Char → Option Nat) : Prop := ∀ cs n, length? cs = some n → ∀ c ∈ cs.take n, isPartChar c = true

lemma isPartChar_of_mem_take {p : Char → Bool} (hp : ∀ c, p c = true → isPartChar c = true)
    (h : n ≤ ((cs.drop (markLength cs)).takeWhile p).length) : ∀ c ∈ cs.take (markLength cs + n), isPartChar c = true := by
  rw [List.take_add]
  refine List.forall_mem_append.2 ⟨fun c hc => ?_, fun c hc => hp c ?_⟩
  · rw [markLength] at hc
    split at hc
    · rename_i hmark
      obtain ⟨rest, rfl⟩ := List.head?_eq_some_iff.1 hmark
      obtain rfl : c = '$' := by simpa using hc
      decide
    · simp at hc
  · have hrun : (cs.drop (markLength cs)).take n <+: (cs.drop (markLength cs)).takeWhile p :=
      List.prefix_of_prefix_length_le (List.take_prefix _ _) (List.takeWhile_prefix p)
        (Nat.le_trans (List.length_take_le _ _) h)
    exact List.all_eq_true.1 List.all_takeWhile c (hrun.subset hc)

lemma consists_columnLength? : Consists columnLength? := by
  intro cs n h
  obtain ⟨-, h⟩ := Option.ite_none_right_eq_some.1 h
  obtain rfl := Option.some.inj h
  exact isPartChar_of_mem_take isPartChar_of_isAlpha (Nat.le_refl _)

lemma consists_rowLength? : Consists rowLength? := by
  intro cs n h
  obtain ⟨-, h⟩ := Option.ite_none_left_eq_some.1 h
  obtain rfl := Option.some.inj h
  exact isPartChar_of_mem_take isPartChar_of_isDigit (Nat.le_refl _)

lemma consists_columnPrefixLength? : Consists columnPrefixLength? := by
  intro cs n h
  obtain ⟨-, h⟩ := Option.ite_none_left_eq_some.1 h
  obtain rfl := Option.some.inj h
  exact isPartChar_of_mem_take isPartChar_of_isAlpha (Nat.min_le_left _ _)

lemma consists_cellLength? : Consists cellLength? := by
  intro cs n h
  obtain ⟨col, row, hcol, hrow, rfl⟩ := cellLength?_eq_some.1 h
  rw [List.take_add]
  exact List.forall_mem_append.2 ⟨consists_columnLength? _ _ hcol, consists_rowLength? _ _ hrow⟩

lemma Consists.pairLength? {first second : List Char → Option Nat} (hf : Consists first) (hs : Consists second)
    (h : pairLength? first second cs = some n) : ∀ c ∈ cs.take n, isPartChar c = true ∨ c = ':' := by
  obtain ⟨a, rest, b, ha, hrest, hb, rfl⟩ := pairLength?_eq_some.1 h
  rw [Nat.add_assoc, List.take_add, hrest, Nat.add_comm 1 b, List.take_succ_cons]
  exact List.forall_mem_append.2
    ⟨fun c hc => .inl (hf _ _ ha c hc), List.forall_mem_cons.2 ⟨.inr rfl, fun c hc => .inl (hs _ _ hb c hc)⟩⟩

lemma isPartChar_of_mem_area {area : List Char} (h : area? cs = some area) : ∀ c ∈ area, isPartChar c = true ∨ c = ':' := by
  obtain ⟨n, hlength, rfl, -⟩ := area?_eq_some.1 h
  simp only [areaLength?, Option.orElse_eq_orElse, Option.orElse_eq_or, Option.or_eq_some_iff] at hlength
  rcases hlength with h | ⟨-, h | ⟨-, h | ⟨-, h⟩⟩⟩
  · exact consists_cellLength?.pairLength? consists_cellLength? h
  · exact fun c hc => .inl (consists_cellLength? _ _ h c hc)
  · exact consists_columnLength?.pairLength? consists_columnPrefixLength? h
  · exact consists_rowLength?.pairLength? consists_rowLength? h

end Spreadsheet.Formula.ReferenceText
