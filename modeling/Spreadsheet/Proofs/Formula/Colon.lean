import Spreadsheet.Proofs.Formula.Reference
import Spreadsheet.Proofs.Spelling

/-! A word before a colon is part of an area or not, and that depends on little of what stands after the colon. -/

namespace Spreadsheet.Formula.ReferenceText

open Text

variable {c : Char} {cs u u' v w x tail tail' : List Char} {n m : Nat}

/-! Parts of areas. -/

def isCell (cs : List Char) : Bool := (Address.parseChars cs).toOption.isSome

def isColumn (cs : List Char) : Bool := (AreaForm.columnPart? cs).isSome

def isRow (cs : List Char) : Bool := (AreaForm.rowPart? cs).isSome

section Length

variable {letters digits rest : List Char} {col row : Nat}

lemma columnLength?_letters (fixed : Bool) (h : Address.NamesColumn letters col) (hr : ∀ c ∈ rest.head?, c.isAlpha = false) :
    columnLength? (Address.mark fixed ++ letters ++ rest) = some (Address.mark fixed ++ letters).length := by
  have hhead : (letters ++ rest).head? ≠ some '$' := by
    obtain ⟨c, cs, rfl⟩ := List.exists_cons_of_ne_nil (List.length_pos_iff.1 h.length.1)
    rintro ⟨⟩
    exact absurd (h.isAlpha '$' (by simp)) (by decide)
  rw [columnLength?, List.append_assoc, markLength_mark fixed hhead, List.drop_left, takeWhile_run h.isAlpha hr,
    if_pos h.length, List.length_append]

lemma rowLength?_digits (fixed : Bool) (h : Address.NamesRow digits row) :
    rowLength? (Address.mark fixed ++ digits) = some (Address.mark fixed ++ digits).length := by
  have hhead : digits.head? ≠ some '$' := fun hc => absurd (h.isDigit _ (List.mem_of_mem_head? hc)) (by decide)
  have hpos := List.length_pos_iff.2 h.ne_nil
  rw [rowLength?, markLength_mark fixed hhead, List.drop_left, takeWhile_of_forall h.isDigit, if_neg (by omega),
    List.length_append]

lemma columnLength?_of_isColumn (h : isColumn v = true) : columnLength? v = some v.length := by
  unfold isColumn AreaForm.columnPart? at h
  dsimp only at h
  split at h
  · rename_i col hcol
    have hend : ∀ c ∈ ([] : List Char).head?, c.isAlpha = false := by simp
    have hlength := columnLength?_letters (Address.takeMark v).1 (Address.columnOfLetters_eq_ok.1 hcol) hend
    rwa [List.append_nil, Address.mark_takeMark] at hlength
  · cases h

lemma rowLength?_of_isRow (h : isRow v = true) : rowLength? v = some v.length := by
  unfold isRow AreaForm.rowPart? at h
  dsimp only at h
  rw [Option.isSome_map] at h
  obtain ⟨row, hrow⟩ := Option.isSome_iff_exists.1 h
  have hlength := rowLength?_digits (Address.takeMark v).1 (Address.rowOfDigits?_eq_some.1 hrow)
  rwa [Address.mark_takeMark] at hlength

lemma cellLength?_of_names {a : Address} (h : Address.Names v a) : cellLength? v = some v.length := by
  obtain ⟨letters, digits, rfl, hcolumn, hrow⟩ := h
  refine cellLength?_eq_some.2 ⟨(Address.mark a.colFixed ++ letters).length, (Address.mark a.rowFixed ++ digits).length,
    ?_, ?_, ?_⟩
  · exact columnLength?_letters _ hcolumn fun c hc => hrow.isAlpha_mark c (List.mem_of_mem_head? hc)
  · rw [List.drop_left]
    exact rowLength?_digits _ hrow
  · exact List.length_append.symm

lemma cellLength?_of_isCell (hv : ∀ c ∈ v, isPartChar c = true) (h : isCell v = true) :
    cellLength? v = some v.length := by
  unfold isCell at h
  cases hparse : Address.parseChars v with
  | error e => rw [hparse] at h; cases h
  | ok a =>
    have hnames := Address.parseChars_eq_ok.1 hparse
    rw [trimChars_of_isPartChar fun c hc => Or.inl (hv c hc)] at hnames
    exact cellLength?_of_names hnames

end Length

/-! No text is read as two kinds of parts. -/

lemma takeWhile_isDigit_of_isAlpha (h : cs.takeWhile Char.isAlpha ≠ []) : cs.takeWhile Char.isDigit = [] := by
  cases cs with
  | nil => rfl
  | cons c cs =>
    have halpha : c.isAlpha = true := by
      by_contra hc
      rw [List.takeWhile_cons_of_neg hc] at h
      exact h rfl
    refine List.takeWhile_cons_of_neg ?_
    rw [isDigit_iff]
    rw [isAlpha_iff] at halpha
    omega

lemma rowLength?_of_columnPrefixLength? (h : columnPrefixLength? cs = some n) : rowLength? cs = none := by
  obtain ⟨hn, -⟩ := Option.ite_none_left_eq_some.1 h
  simp [rowLength?, takeWhile_isDigit_of_isAlpha fun hnil => hn (by rw [hnil]; rfl)]

lemma columnPrefixLength?_of_columnLength? (h : columnLength? cs = some n) : columnPrefixLength? cs = some n := by
  obtain ⟨hn, h⟩ := Option.ite_none_right_eq_some.1 h
  refine Option.ite_none_left_eq_some.2 ⟨by omega, ?_⟩
  rw [Nat.min_eq_left hn.2, h]

lemma rowLength?_of_columnLength? (h : columnLength? cs = some n) : rowLength? cs = none :=
  rowLength?_of_columnPrefixLength? (columnPrefixLength?_of_columnLength? h)

lemma columnLength?_of_cellLength? (h : cellLength? cs = some n) : ∃ m, columnLength? cs = some m ∧ m < n := by
  obtain ⟨col, row, hcol, hrow, rfl⟩ := cellLength?_eq_some.1 h
  have hpos := (starts_rowLength? _ _ hrow).1
  exact ⟨col, hcol, by omega⟩

section Kind

variable (hv : ∀ c ∈ v, isPartChar c = true)

lemma kind_of_cell (h : cellLength? v = some v.length) : isColumn v = false ∧ isRow v = false := by
  obtain ⟨m, hm, hlt⟩ := columnLength?_of_cellLength? h
  constructor
  · rw [Bool.eq_false_iff]
    intro hcolumn
    rw [columnLength?_of_isColumn hcolumn] at hm
    exact Nat.lt_irrefl _ (Option.some.inj hm ▸ hlt)
  · rw [Bool.eq_false_iff]
    intro hrow
    cases rowLength?_of_isRow hrow ▸ rowLength?_of_columnLength? hm

include hv

lemma kind_of_column (h : columnPrefixLength? v = some v.length) : isCell v = false ∧ isRow v = false := by
  constructor
  · rw [Bool.eq_false_iff]
    intro hcell
    obtain ⟨m, hm, hlt⟩ := columnLength?_of_cellLength? (cellLength?_of_isCell hv hcell)
    rw [columnPrefixLength?_of_columnLength? hm] at h
    exact Nat.lt_irrefl _ (Option.some.inj h ▸ hlt)
  · rw [Bool.eq_false_iff]
    intro hrow
    cases rowLength?_of_isRow hrow ▸ rowLength?_of_columnPrefixLength? h

lemma kind_of_row (h : rowLength? v = some n) : isCell v = false ∧ isColumn v = false := by
  have hcolumn : ∀ m, columnLength? v ≠ some m := fun m hm => by
    rw [rowLength?_of_columnLength? hm] at h
    cases h
  constructor
  · rw [Bool.eq_false_iff]
    intro hcell
    obtain ⟨m, hm, -⟩ := columnLength?_of_cellLength? (cellLength?_of_isCell hv hcell)
    exact hcolumn m hm
  · rw [Bool.eq_false_iff]
    exact fun hcolumn' => hcolumn _ (columnLength?_of_isColumn hcolumn')

end Kind

lemma isSome_cellsOf? (w v : List Char) : (AreaForm.cellsOf? w v).isSome = (isCell w && isCell v) := by
  unfold AreaForm.cellsOf? isCell
  cases Address.parseChars w <;> cases Address.parseChars v <;> rfl

lemma isSome_columnsOf? (w v : List Char) : (AreaForm.columnsOf? w v).isSome = (isColumn w && isColumn v) := by
  unfold AreaForm.columnsOf? isColumn
  cases AreaForm.columnPart? w <;> cases AreaForm.columnPart? v <;> rfl

lemma isSome_rowsOf? (w v : List Char) : (AreaForm.rowsOf? w v).isSome = (isRow w && isRow v) := by
  unfold AreaForm.rowsOf? isRow
  cases AreaForm.rowPart? w <;> cases AreaForm.rowPart? v <;> rfl

lemma isSome_parseChars?_pair (hw : ∀ c ∈ w, isPartChar c = true) (hv : ∀ c ∈ v, isPartChar c = true) :
    (AreaForm.parseChars? (w ++ ':' :: v)).isSome =
      (isCell w && isCell v || (isColumn w && isColumn v || isRow w && isRow v)) := by
  rw [AreaForm.parseChars?_pair hw hv, Option.isSome_or, Option.isSome_or, Option.isSome_map, Option.isSome_map,
    Option.isSome_map, isSome_cellsOf?, isSome_columnsOf?, isSome_rowsOf?]

/-! What stands after a colon. -/

/-- Is there a part of an area at the front of the text, and can an area end with it? -/
def partAt (length? : List Char → Option Nat) (valid : List Char → Bool) (cs : List Char) : Option Bool :=
  (length? cs).map fun n => endsBefore (cs.drop n) && valid (cs.take n)

/-- After a colon, both texts have the same parts of areas at their fronts. -/
structure Alike (u u' : List Char) : Prop where
  cell : partAt cellLength? isCell u' = partAt cellLength? isCell u
  column : partAt columnPrefixLength? isColumn u' = partAt columnPrefixLength? isColumn u
  row : partAt rowLength? isRow u' = partAt rowLength? isRow u

lemma endsBefore_congr (h : endsBefore tail' = endsBefore tail) (x : List Char) :
    endsBefore (x ++ tail') = endsBefore (x ++ tail) := by
  cases x with
  | nil => exact h
  | cons c x => rfl

lemma partAt_congr {length? : List Char → Option Nat} (valid : List Char → Bool) (hw : Within length?)
    (hl : length? (x ++ tail) = length? x) (hl' : length? (x ++ tail') = length? x) (he : endsBefore tail' = endsBefore tail) :
    partAt length? valid (x ++ tail') = partAt length? valid (x ++ tail) := by
  rw [partAt, partAt, hl, hl']
  cases hlength : length? x with
  | none => rfl
  | some n =>
    have hle := hw _ _ hlength
    simp only [Option.map_some, List.drop_append_of_le_length hle, List.take_append_of_le_length hle, endsBefore_congr he]

lemma Alike.append (x : List Char) (h : Parts tail) (h' : Parts tail') (he : endsBefore tail' = endsBefore tail) :
    Alike (x ++ tail) (x ++ tail') where
  cell := partAt_congr isCell within_cellLength? (cellLength?_append h) (cellLength?_append h') he
  column := partAt_congr isColumn within_columnPrefixLength? (columnPrefixLength?_append h) (columnPrefixLength?_append h') he
  row := partAt_congr isRow within_rowLength? (rowLength?_append h) (rowLength?_append h') he

lemma Alike.cellLength? (h : Alike u u') (hu : ReferenceText.cellLength? u = none) : ReferenceText.cellLength? u' = none := by
  have hcell := h.cell
  rwa [partAt, partAt, hu, Option.map_none, Option.map_eq_none_iff] at hcell

lemma partAt_colon {length? : List Char → Option Nat} {valid : List Char → Bool} (h : length? (w ++ ':' :: u) = some w.length)
    (hw : valid w = true) : partAt length? valid (w ++ ':' :: u) = some true := by
  rw [partAt, h, Option.map_some, List.drop_left, List.take_left, hw]
  rfl

lemma take_pair (w u : List Char) (b : Nat) : (w ++ ':' :: u).take (w.length + 1 + b) = w ++ ':' :: u.take b := by
  rw [Nat.add_assoc, List.take_length_add_append, Nat.add_comm 1 b, List.take_succ_cons]

lemma drop_pair (w u : List Char) (b : Nat) : (w ++ ':' :: u).drop (w.length + 1 + b) = u.drop b := by
  rw [Nat.add_assoc, List.drop_length_add_append, Nat.add_comm 1 b, List.drop_succ_cons]

section Word

variable {first second : List Char → Option Nat}

lemma pairLength?_word (hf : first (w ++ ':' :: u) = first w) (h : first w = some w.length) :
    pairLength? first second (w ++ ':' :: u) = (second u).map (w.length + 1 + ·) := by
  simp only [pairLength?, hf, h, Option.bind_eq_bind, Option.bind_some, List.drop_left]
  cases second u <;> rfl

variable (hw : ∀ c ∈ w, c ≠ ':')
include hw

lemma pairLength?_inside (hf : first (w ++ ':' :: u) = first w) (hwithin : Within first) (h : first w ≠ some w.length) :
    pairLength? first second (w ++ ':' :: u) = none := by
  rw [Option.eq_none_iff_forall_ne_some]
  intro n hn
  obtain ⟨a, rest, b, ha, hrest, -⟩ := pairLength?_eq_some.1 hn
  rw [hf] at ha
  have hlt : a < w.length := Nat.lt_of_le_of_ne (hwithin _ _ ha) fun heq => h (heq ▸ ha)
  rw [List.drop_append_of_le_length (Nat.le_of_lt hlt), List.drop_eq_getElem_cons hlt] at hrest
  exact hw _ (List.getElem_mem hlt) (List.cons.inj hrest).1

lemma areaLength?_word (u : List Char) : areaLength? (w ++ ':' :: u) =
    if cellLength? w = some w.length then ((ReferenceText.cellLength? u).map (w.length + 1 + ·)).or (some w.length)
    else (cellLength? w).or <|
      if columnLength? w = some w.length then (columnPrefixLength? u).map (w.length + 1 + ·)
      else if rowLength? w = some w.length then (rowLength? u).map (w.length + 1 + ·) else none := by
  have hcell : cellLength? (w ++ ':' :: u) = cellLength? w := cellLength?_append (parts_colon u)
  have hcolumn : columnLength? (w ++ ':' :: u) = columnLength? w := columnLength?_append (parts_colon u)
  have hrow : rowLength? (w ++ ':' :: u) = rowLength? w := rowLength?_append (parts_colon u)
  rw [areaLength?, hcell]
  split
  · rename_i h
    rw [pairLength?_word hcell h, h]
    cases cellLength? u <;> rfl
  · rename_i h
    rw [pairLength?_inside hw hcell within_cellLength? h]
    split
    · rename_i h'
      have hnone : pairLength? rowLength? rowLength? (w ++ ':' :: u) = none :=
        pairLength?_of_none (hrow.trans (rowLength?_of_columnLength? h'))
      rw [pairLength?_word hcolumn h', hnone]
      cases cellLength? w <;> cases columnPrefixLength? u <;> rfl
    · rename_i h'
      rw [pairLength?_inside hw hcolumn within_columnLength? h']
      split
      · rename_i h''
        rw [pairLength?_word hrow h'']
        cases cellLength? w <;> cases rowLength? u <;> rfl
      · rename_i h''
        rw [pairLength?_inside hw hrow within_rowLength? h'']
        cases cellLength? w <;> rfl

end Word

lemma isSome_area?_of_length (h : areaLength? cs = some n) :
    (area? cs).isSome = (endsBefore (cs.drop n) && (AreaForm.parseChars? (cs.take n)).isSome) := by
  simp only [area?, h, Option.bind_eq_bind, Option.bind_some]
  split
  · rename_i hvalid
    exact hvalid.symm
  · rename_i hvalid
    exact (Bool.eq_false_iff.2 hvalid).symm

lemma isSome_area?_pair {length? : List Char → Option Nat} {b : Nat} (hpart : ∀ c ∈ w, isPartChar c = true)
    (hc : Consists length?) (hb : length? u = some b) (h : areaLength? (w ++ ':' :: u) = some (w.length + 1 + b)) :
    (area? (w ++ ':' :: u)).isSome = (endsBefore (u.drop b) && (isCell w && isCell (u.take b) ||
      (isColumn w && isColumn (u.take b) || isRow w && isRow (u.take b)))) := by
  rw [isSome_area?_of_length h, drop_pair, take_pair, isSome_parseChars?_pair hpart (hc _ _ hb)]

lemma Consists.all {length? : List Char → Option Nat} (hc : Consists length?) (h : length? w = some w.length) :
    ∀ c ∈ w, isPartChar c = true := fun c hmem => hc _ _ h c (by rwa [List.take_length])

section Word

variable (hw : ∀ c ∈ w, c ≠ ':')
include hw

lemma isSome_area?_cell (h : cellLength? w = some w.length) (u : List Char) :
    (area? (w ++ ':' :: u)).isSome = (isCell w && (partAt cellLength? isCell u).getD true) := by
  have hpart := consists_cellLength?.all h
  obtain ⟨hcolumn, hrow⟩ := kind_of_cell h
  have hlength := areaLength?_word hw u
  rw [if_pos h] at hlength
  rw [partAt]
  cases hu : cellLength? u with
  | none =>
    rw [hu] at hlength
    rw [isSome_area?_of_length hlength, List.drop_left, List.take_left, AreaForm.parseChars?_part hpart, Option.isSome_map]
    exact (Bool.and_comm _ _)
  | some b =>
    rw [hu] at hlength
    rw [isSome_area?_pair hpart consists_cellLength? hu hlength, hcolumn, hrow]
    simp [Bool.and_left_comm]

lemma isSome_area?_column (hcell : cellLength? w = none) (h : columnLength? w = some w.length) (u : List Char) :
    (area? (w ++ ':' :: u)).isSome = (isColumn w && (partAt columnPrefixLength? isColumn u).getD false) := by
  have hpart := consists_columnLength?.all h
  obtain ⟨hcell', hrow⟩ := kind_of_column hpart (columnPrefixLength?_of_columnLength? h)
  have hlength := areaLength?_word hw u
  rw [if_neg (by simp [hcell]), hcell, if_pos h] at hlength
  rw [partAt]
  cases hu : columnPrefixLength? u with
  | none => simp [area?, hlength, hu]
  | some b =>
    rw [hu] at hlength
    rw [isSome_area?_pair hpart consists_columnPrefixLength? hu hlength, hcell', hrow]
    simp [Bool.and_left_comm]

lemma isSome_area?_row (hcell : cellLength? w = none) (h : rowLength? w = some w.length) (u : List Char) :
    (area? (w ++ ':' :: u)).isSome = (isRow w && (partAt rowLength? isRow u).getD false) := by
  have hpart := consists_rowLength?.all h
  obtain ⟨hcell', hcolumn⟩ := kind_of_row hpart h
  have hnot : columnLength? w ≠ some w.length := fun hcol => by
    rw [rowLength?_of_columnLength? hcol] at h
    cases h
  have hlength := areaLength?_word hw u
  rw [if_neg (by simp [hcell]), hcell, if_neg hnot, if_pos h] at hlength
  rw [partAt]
  cases hu : rowLength? u with
  | none => simp [area?, hlength, hu]
  | some b =>
    rw [hu] at hlength
    rw [isSome_area?_pair hpart consists_rowLength? hu hlength, hcell', hcolumn]
    simp [Bool.and_left_comm]

/-- Whether a word before a colon is part of an area is the same before texts with the same parts at their fronts. -/
lemma isSome_area?_word (h : Alike u u') : (area? (w ++ ':' :: u')).isSome = (area? (w ++ ':' :: u)).isSome := by
  by_cases hall : cellLength? w = some w.length
  · rw [isSome_area?_cell hw hall, isSome_area?_cell hw hall, h.cell]
  have hlength := areaLength?_word hw u
  have hlength' := areaLength?_word hw u'
  rw [if_neg hall] at hlength hlength'
  cases hcell : cellLength? w with
  | some n =>
    have hle := within_cellLength? _ _ hcell
    rw [hcell] at hlength hlength'
    rw [isSome_area?_of_length hlength, isSome_area?_of_length hlength', List.drop_append_of_le_length hle,
      List.drop_append_of_le_length hle, List.take_append_of_le_length hle, List.take_append_of_le_length hle,
      endsBefore_congr (show endsBefore (':' :: u') = endsBefore (':' :: u) from rfl)]
  | none =>
    by_cases hcolumn : columnLength? w = some w.length
    · rw [isSome_area?_column hw hcell hcolumn, isSome_area?_column hw hcell hcolumn, h.column]
    by_cases hrow : rowLength? w = some w.length
    · rw [isSome_area?_row hw hcell hrow, isSome_area?_row hw hcell hrow, h.row]
    rw [hcell, if_neg hcolumn, if_neg hrow] at hlength hlength'
    simp [area?, hlength, hlength']

end Word

lemma isSome_area?_colon (h : Alike u u') (x : List Char) :
    (area? (x ++ ':' :: u')).isSome = (area? (x ++ ':' :: u)).isSome := by
  by_cases hx : ':' ∈ x
  · obtain ⟨w, rest, rfl, hw⟩ := List.eq_append_cons_of_mem hx
    rw [List.append_assoc, List.append_assoc, List.cons_append, List.cons_append]
    refine isSome_area?_word (fun c hc heq => hw (heq ▸ hc)) ?_
    exact Alike.append rest (parts_colon u) (parts_colon u') rfl
  · exact isSome_area?_word (fun c hc heq => hx (heq ▸ hc)) h

/-! The parts of areas themselves. -/

section Area

variable {area area' : List Char} {r r' : Range} {form : AreaForm}

lemma form_of_pair (hw : ∀ c ∈ w, isPartChar c = true) (hv : ∀ c ∈ v, isPartChar c = true)
    (h : AreaForm.parseChars? (w ++ ':' :: v) = some (r, form)) :
    form = .cells ∧ isCell w = true ∨ form = .columns ∧ isColumn w = true ∨ form = .rows ∧ isRow w = true := by
  have hleft : ∀ {x : Option Range} {p q : Bool}, x.isSome = (p && q) → ∀ {y}, x = some y → p = true := by
    rintro x p q hx y rfl
    exact (Bool.and_eq_true_iff.1 hx.symm).1
  rw [AreaForm.parseChars?_pair hw hv] at h
  simp only [Option.or_eq_some_iff, Option.map_eq_some_iff, Prod.mk.injEq] at h
  rcases h with ⟨y, hy, -, rfl⟩ | ⟨-, ⟨y, hy, -, rfl⟩ | ⟨-, y, hy, -, rfl⟩⟩
  · exact Or.inl ⟨rfl, hleft (isSome_cellsOf? w v) hy⟩
  · exact Or.inr (Or.inl ⟨rfl, hleft (isSome_columnsOf? w v) hy⟩)
  · exact Or.inr (Or.inr ⟨rfl, hleft (isSome_rowsOf? w v) hy⟩)

lemma partAt_of_cellLength? (h : cellLength? u = some n) :
    partAt columnPrefixLength? isColumn u = some false ∧ partAt rowLength? isRow u = none := by
  obtain ⟨col, row, hcol, hrow, -⟩ := cellLength?_eq_some.1 h
  have hends : endsBefore (u.drop col) = false := by
    rw [Bool.eq_false_iff]
    intro hends
    have hlength := within_rowLength? _ _ hrow
    obtain ⟨hpos, hpart⟩ := starts_rowLength? _ _ hrow
    cases hdrop : u.drop col with
    | nil =>
      rw [hdrop] at hlength
      exact hpos (Nat.le_zero.1 hlength)
    | cons c rest =>
      have hnot := parts_of_endsBefore hends c (by rw [hdrop]; rfl)
      rw [hpart c (by rw [hdrop]; rfl)] at hnot
      cases hnot
  constructor
  · rw [partAt, columnPrefixLength?_of_columnLength? hcol, Option.map_some, hends, Bool.false_and]
  · rw [partAt, rowLength?_of_columnLength? hcol, Option.map_none]

lemma exists_pair {first second : List Char → Option Nat} (hwithin : Within first) (hf : Consists first) (hs : Consists second)
    (happend : ∀ x y, first (x ++ ':' :: y) = first x) (h : pairLength? first second u = some n) :
    ∃ w rest v, u = w ++ ':' :: rest ∧ first w = some w.length ∧ (∀ c ∈ w, isPartChar c = true) ∧
      (∀ c ∈ v, isPartChar c = true) ∧ u.take n = w ++ ':' :: v := by
  obtain ⟨a, rest, b, ha, hrest, hb, rfl⟩ := pairLength?_eq_some.1 h
  have hu : u = u.take a ++ ':' :: rest := by rw [← hrest, List.take_append_drop]
  have hlength : (u.take a).length = a := List.length_take_of_le (hwithin _ _ ha)
  have hfirst : first (u.take a) = some (u.take a).length := by rw [hlength, ← happend _ rest, ← hu, ha]
  refine ⟨u.take a, rest, rest.take b, hu, hfirst, hf.all hfirst, hs _ _ hb, ?_⟩
  calc u.take (a + 1 + b) = (u.take a ++ ':' :: rest).take ((u.take a).length + 1 + b) := by rw [hlength, ← hu]
    _ = u.take a ++ ':' :: rest.take b := take_pair _ rest b

lemma partAt_area (h : area? u = some area) (hparse : AreaForm.parseChars? area = some (r, form)) :
    partAt cellLength? isCell u = (if form = .cells then some true else none) ∧
      partAt columnPrefixLength? isColumn u =
        (if form = .cells then some false else if form = .columns then some true else none) ∧
      partAt rowLength? isRow u = (if form = .rows then some true else none) := by
  obtain ⟨n, hlength, rfl, hends, -⟩ := area?_eq_some.1 h
  simp only [areaLength?, Option.orElse_eq_orElse, Option.orElse_eq_or, Option.or_eq_some_iff] at hlength
  -- pairs of cells, of columns and of rows read as parts of one kind each; a cell alone is told by its address
  rcases hlength with hpair | ⟨-, hcell | ⟨hcell, hpair | ⟨-, hpair⟩⟩⟩
  · obtain ⟨w, rest, v, rfl, hlength, hw, hv, htake⟩ := exists_pair within_cellLength? consists_cellLength? consists_cellLength?
      (fun x y => cellLength?_append (parts_colon y)) hpair
    rw [htake] at hparse
    obtain ⟨hcolumn, hrow⟩ := kind_of_cell hlength
    have hcell := (cellLength?_append (x := w) (parts_colon rest)).trans hlength
    obtain ⟨rfl, hvalid⟩ | ⟨-, hvalid⟩ | ⟨-, hvalid⟩ := form_of_pair hw hv hparse
    · exact ⟨partAt_colon hcell hvalid, partAt_of_cellLength? hcell⟩
    · rw [hcolumn] at hvalid
      cases hvalid
    · rw [hrow] at hvalid
      cases hvalid
  · rw [AreaForm.parseChars?_part (consists_cellLength? _ _ hcell), Option.map_eq_some_iff] at hparse
    obtain ⟨a, hvalid, heq⟩ := hparse
    obtain ⟨-, rfl⟩ := Prod.mk.inj heq
    refine ⟨?_, partAt_of_cellLength? hcell⟩
    rw [partAt, hcell, Option.map_some, hends, isCell, hvalid]
    rfl
  · obtain ⟨w, rest, v, rfl, hlength, hw, hv, htake⟩ := exists_pair within_columnLength? consists_columnLength?
      consists_columnPrefixLength? (fun x y => columnLength?_append (parts_colon y)) hpair
    rw [htake] at hparse
    obtain ⟨hcell', hrow⟩ := kind_of_column hw (columnPrefixLength?_of_columnLength? hlength)
    have hcolumn := (columnLength?_append (x := w) (parts_colon rest)).trans hlength
    obtain ⟨-, hvalid⟩ | ⟨rfl, hvalid⟩ | ⟨-, hvalid⟩ := form_of_pair hw hv hparse
    · rw [hcell'] at hvalid
      cases hvalid
    · exact ⟨by rw [partAt, hcell]; rfl, partAt_colon (columnPrefixLength?_of_columnLength? hcolumn) hvalid,
        by rw [partAt, rowLength?_of_columnLength? hcolumn]; rfl⟩
    · rw [hrow] at hvalid
      cases hvalid
  · obtain ⟨w, rest, v, rfl, hlength, hw, hv, htake⟩ := exists_pair within_rowLength? consists_rowLength? consists_rowLength?
      (fun x y => rowLength?_append (parts_colon y)) hpair
    rw [htake] at hparse
    obtain ⟨hcell', hcolumn⟩ := kind_of_row hw hlength
    have hrow := (rowLength?_append (x := w) (parts_colon rest)).trans hlength
    have hletters : columnPrefixLength? (w ++ ':' :: rest) = none := by
      rw [Option.eq_none_iff_forall_ne_some]
      intro m hm
      rw [rowLength?_of_columnPrefixLength? hm] at hrow
      cases hrow
    obtain ⟨-, hvalid⟩ | ⟨-, hvalid⟩ | ⟨rfl, hvalid⟩ := form_of_pair hw hv hparse
    · rw [hcell'] at hvalid
      cases hvalid
    · rw [hcolumn] at hvalid
      cases hvalid
    · exact ⟨by rw [partAt, hcell]; rfl, by rw [partAt, hletters]; rfl, partAt_colon hrow hvalid⟩

lemma Alike.areas (h : area? u = some area) (hparse : AreaForm.parseChars? area = some (r, form))
    (h' : area? u' = some area') (hparse' : AreaForm.parseChars? area' = some (r', form)) : Alike u u' := by
  obtain ⟨hcell, hcolumn, hrow⟩ := partAt_area h hparse
  obtain ⟨hcell', hcolumn', hrow'⟩ := partAt_area h' hparse'
  exact ⟨hcell'.trans hcell.symm, hcolumn'.trans hcolumn.symm, hrow'.trans hrow.symm⟩

end Area

/-! What may take the place of what follows a word. -/

/-- After a word, the second text says of the word what the first does. -/
inductive Succeeds : List Char → List Char → Prop
  | breaks {tail tail' : List Char} (h : Breaks tail) (h' : Breaks tail') : Succeeds tail tail'
  | colon {u u' : List Char} (h : Alike u u') : Succeeds (':' :: u) (':' :: u')

namespace Succeeds

lemma closes (h : Succeeds tail tail') : Closes tail := by
  cases h with
  | breaks h h' => exact h.closes
  | colon h => exact closes_colon _

lemma closes' (h : Succeeds tail tail') : Closes tail' := by
  cases h with
  | breaks h h' => exact h'.closes
  | colon h => exact closes_colon _

lemma area?_eq_none (h : Succeeds tail tail') (hx : area? (x ++ tail) = none) : area? (x ++ tail') = none := by
  cases h with
  | breaks h h' => rwa [area?_append h', ← area?_append h]
  | colon h =>
    rwa [← Option.not_isSome_iff_eq_none, isSome_area?_colon h, Option.not_isSome_iff_eq_none]

end Succeeds

section Written

variable {area : List Char} {r : Range} {form : AreaForm}

/-- Of a cell that stands before a colon, the colon is no part, since no cell follows it. -/
lemma cellLength?_of_area? (h : area? (area ++ ':' :: u) = some area) (harea : ':' ∉ area) : cellLength? u = none := by
  have hpart : ∀ c ∈ area, isPartChar c = true := fun c hc =>
    (isPartChar_of_mem_area h c hc).resolve_right fun heq => harea (heq ▸ hc)
  obtain ⟨n, hlength, htake, -, hparse⟩ := area?_eq_some.1 h
  rw [AreaForm.parseChars?_part hpart, Option.isSome_map] at hparse
  rw [areaLength?_word (fun c hc heq => harea (heq ▸ hc)), if_pos (cellLength?_of_isCell hpart hparse)] at hlength
  cases hu : cellLength? u with
  | none => rfl
  | some b =>
    rw [hu] at hlength
    obtain rfl := Option.some.inj hlength
    rw [take_pair] at htake
    exact absurd (by rw [← htake]; simp) harea

lemma exists_pair_of_write (form : AreaForm) (r : Range) :
    (form = .cells ∧ r.start = r.stop) ∨ ∃ a b, form.write r = a ++ ':' :: b := by
  cases form with
  | cells =>
    by_cases heq : r.start = r.stop
    · exact Or.inl ⟨rfl, heq⟩
    · exact Or.inr ⟨_, _, if_neg heq⟩
  | columns => exact Or.inr ⟨_, _, rfl⟩
  | rows => exact Or.inr ⟨_, _, rfl⟩

/-- What is written for a range is read before a colon as well, if a single cell is not taken for the corner of a pair. -/
lemma area?_write_colon (h : form.Fits r) (hu : form = .cells → r.start = r.stop → cellLength? u = none) :
    area? (form.write r ++ ':' :: u) = some (form.write r) := by
  have hparse : (AreaForm.parseChars? (form.write r)).isSome = true := by rw [AreaForm.parseChars?_write h, Option.isSome_some]
  refine area?_eq_some.2 ⟨(form.write r).length, ?_, List.take_left, by rw [List.drop_left]; rfl, hparse⟩
  rcases exists_pair_of_write form r with ⟨rfl, heq⟩ | ⟨a, b, hwrite⟩
  · have hwrite : AreaForm.write .cells r = r.start.chars := if_pos heq
    have hstart : r.start.onSheet := heq ▸ h.onSheet.2
    have hword : ∀ c ∈ r.start.chars, c ≠ ':' := fun c hc => ne_colon_of_isPartChar (Address.isPartChar_of_mem_chars hc)
    rw [hwrite, areaLength?_word hword, if_pos (cellLength?_chars hstart), hu rfl heq]
    rfl
  · rw [← areaLength?_write h, hwrite, areaLength?_pair_append a b (parts_colon u)]

end Written

end Spreadsheet.Formula.ReferenceText
