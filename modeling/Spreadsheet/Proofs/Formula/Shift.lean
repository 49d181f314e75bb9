import Spreadsheet.Proofs.Formula.Outline
import Spreadsheet.Proofs.Formula.Scan
import Spreadsheet.Proofs.Formula.Spacing

/-! A formula that is moved and parsed is the parsed formula, moved. -/

namespace Spreadsheet

open Text

variable {rows cols : Int}

lemma Address.shift?_zero {a : Address} (h : a.onSheet) : a.shift? 0 0 = some a := by
  obtain ⟨hrow, hcol⟩ := h
  unfold shift?
  simp only [Int.add_zero, ite_self, Int.toNat_natCast]
  rw [if_pos (by omega)]

lemma Range.shift?_zero {r : Range} (h : r.OnSheet) : r.shift? 0 0 = some r := by
  obtain ⟨hnormal, hstop⟩ := h
  have hstart : r.start.onSheet := ⟨Nat.lt_of_le_of_lt hnormal.1 hstop.1, Nat.lt_of_le_of_lt hnormal.2 hstop.2⟩
  exact Range.shift?_eq_some.2 ⟨r.start, r.stop, Address.shift?_zero hstart, Address.shift?_zero hstop,
    AreaForm.corners_of_normal hnormal⟩

namespace Formula

open List (Forall₂)

variable {r : ReferenceToken} {range : Range} {form : AreaForm} {ps : List Piece}

lemma ReferenceToken.moves_shift (h : AreaForm.parse? r.area = some (range, form)) (hfits : form.Fits range) :
    (Token.reference r).Moves (·.shift? rows cols) (r.shift rows cols) := by
  have harea := Range.ofArea?_of_parse? h
  rw [ReferenceToken.shift, h]
  dsimp only
  cases hshift : range.shift? rows cols with
  | none => exact .fallen harea hshift
  | some moved =>
    exact .reference rfl rfl harea (Range.ofArea?_of_parse? (AreaForm.parse?_write (hfits.shift hshift))) hshift

namespace Piece

/-- A reference of the piece names a range. -/
def NamesArea (p : Piece) : Prop := ∀ r, p.kind = .token (.reference r) →
  ∃ range form, AreaForm.parse? r.area = some (range, form) ∧ AreaForm.Fits form range

lemma Cuts.namesArea {ctx : Context} (h : Cuts {} ctx ps) : ∀ p ∈ ps, p.NamesArea := by
  induction ps generalizing ctx with
  | nil => rintro _ ⟨⟩
  | cons p ps ih =>
    obtain ⟨c, x, -, hcut, hrest⟩ := h
    refine List.forall_mem_cons.2 ⟨fun r hr => ?_, ih hrest⟩
    rw [hr] at hcut
    obtain ⟨q, area, hshows⟩ := exists_shows hcut
    obtain ⟨-, -, -, -, hparse⟩ := ReferenceText.area?_eq_some.1 hshows.begins.area?
    obtain ⟨⟨range, form⟩, hparse⟩ := Option.isSome_iff_exists.1 hparse
    refine ⟨range, form, ?_, AreaForm.fits_of_parseChars? hparse⟩
    rw [hshows.begins.area_eq, AreaForm.parse?, String.toList_ofList, hparse]

lemma NamesArea.moves_shift {p : Piece} (h : p.NamesArea) (rows cols : Int) :
    p.kind.Moves (·.shift? rows cols) (p.kind.shift rows cols) := by
  by_cases href : ∃ r, p.kind = .token (.reference r)
  · obtain ⟨r, hr⟩ := href
    obtain ⟨range, form, hparse, hfits⟩ := h r hr
    rw [hr]
    exact .token (r.moves_shift hparse hfits)
  · have hne : ∀ r, p.kind ≠ .token (.reference r) := fun r hr => href ⟨r, hr⟩
    rw [PieceKind.shift_of_not_reference hne]
    exact .same hne

lemma NamesArea.moves_self {p : Piece} {move : Range → Option Range} (h : p.NamesArea)
    (hmove : ∀ (form : AreaForm) (range : Range), form.Fits range → move range = some range) : p.kind.Moves move p.kind := by
  by_cases href : ∃ r, p.kind = .token (.reference r)
  · obtain ⟨r, hr⟩ := href
    obtain ⟨range, form, hparse, hfits⟩ := h r hr
    have hrange := Range.ofArea?_of_parse? hparse
    rw [hr]
    exact .token (.reference rfl rfl hrange hrange (hmove form range hfits))
  · exact .same fun r hr => href ⟨r, hr⟩

/-- How the pieces of a formula must follow one another for its text to move like its tree: no colon comes right after a
word, and no reference that leaves the sheet comes after blanks that intersect. -/
def Settled (rows cols : Int) (p q : Piece) : Prop :=
  (p.kind.isWord = true → q.kind.isColon = false) ∧ (p.kind.isIntersect = true → ¬ q.kind.Falls rows cols)

lemma isWord_of_isDoubled {k : PieceKind} (h : k.IsDoubled) : k.isWord = true := by
  obtain ⟨r, rfl, -⟩ := h
  rfl

lemma isChain_meets {rows cols : Int} (h : ps.IsChain fun p q => p.kind.isWord = true → q.kind.startsOperand = false)
    (h' : ps.IsChain (Settled rows cols)) : ps.IsChain (Meets rows cols) ∧ Steady rows cols ps := by
  refine ⟨?_, Or.inr (h'.imp fun _ _ hpq => hpq.1)⟩
  rw [List.isChain_iff_getElem] at h h' ⊢
  exact fun i hi => ⟨h i hi, fun hdoubled => (h' i hi).1 (isWord_of_isDoubled hdoubled), (h' i hi).2⟩

end Piece

namespace TokenTree

variable {s : String} {rest : List Char}

/-- The pieces of a formula. -/
def piecesOf (s : String) : List Piece := pieces {} ((s.toList.dropWhile isBlank).drop 1)

lemma ofText_of_equals (h : s.toList.dropWhile isBlank = '=' :: rest) :
    ofText {} s = nest [] [] (byteLength (s.toList.takeWhile isBlank) + 1) (pieces {} rest) := by
  unfold ofText ofChars
  rw [h]
  rfl

lemma exists_equals (h : SpacedAll (ofText {} s)) : ∃ rest, s.toList.dropWhile isBlank = '=' :: rest := by
  unfold ofText ofChars at h
  dsimp only at h
  split at h
  · rename_i rest hrest
    exact ⟨rest, hrest⟩
  · cases (spacedSoFar_of_nest h).pop.2.1

lemma shift_zero (s : String) : shift s 0 0 = s := by rw [shift, shiftChars, if_pos ⟨rfl, rfl⟩, String.ofList_toList]

lemma piecesOf_of_equals (h : s.toList.dropWhile isBlank = '=' :: rest) : piecesOf s = pieces {} rest := by
  rw [piecesOf, h, List.drop_one, List.tail_cons]

lemma toList_shift (h : s.toList.dropWhile isBlank = '=' :: rest) (hne : ¬ (rows = 0 ∧ cols = 0)) :
    (shift s rows cols).toList =
      s.toList.takeWhile isBlank ++ '=' :: (pieces {} rest).flatMap (Piece.shift rows cols) := by
  rw [shift, String.toList_ofList, shiftChars, if_neg hne, h]
  rfl

lemma takeWhile_toList_shift (h : s.toList.dropWhile isBlank = '=' :: rest) (hne : ¬ (rows = 0 ∧ cols = 0)) :
    (shift s rows cols).toList.takeWhile isBlank = s.toList.takeWhile isBlank ∧
      (shift s rows cols).toList.dropWhile isBlank = '=' :: (pieces {} rest).flatMap (Piece.shift rows cols) := by
  have hblank : ∀ c ∈ s.toList.takeWhile isBlank, isBlank c = true := fun c hc => List.all_eq_true.1 List.all_takeWhile c hc
  have hstop : ∀ c ∈ ('=' :: (pieces {} rest).flatMap (Piece.shift rows cols)).head?, isBlank c = false := by
    rintro c ⟨⟩
    decide
  rw [toList_shift h hne]
  exact ⟨takeWhile_run hblank hstop, dropWhile_run hblank hstop⟩

lemma piecesOf_shift (h : s.toList.dropWhile isBlank = '=' :: rest) (hl : ∀ p ∈ piecesOf s, p.kind.isLegible = true)
    (hm : (piecesOf s).IsChain (Piece.Meets rows cols)) (hs : Piece.Steady rows cols (piecesOf s))
    (hne : ¬ (rows = 0 ∧ cols = 0)) : piecesOf (shift s rows cols) = (piecesOf s).map (Piece.moved rows cols) := by
  rw [piecesOf_of_equals h] at hl hm hs ⊢
  rw [piecesOf_of_equals (takeWhile_toList_shift h hne).2, Piece.pieces_flatMap_shift hl hm hs]

lemma exists_equals_shift (rows cols : Int) (h : s.toList.dropWhile isBlank = '=' :: rest) :
    ∃ rest', (shift s rows cols).toList.dropWhile isBlank = '=' :: rest' := by
  by_cases hzero : rows = 0 ∧ cols = 0
  · obtain ⟨rfl, rfl⟩ := hzero
    exact ⟨rest, by rw [shift_zero, h]⟩
  · exact ⟨_, (takeWhile_toList_shift h hzero).2⟩

lemma legible_of_spacedAll (h : SpacedAll (ofText {} s)) : Legible [] (piecesOf s) := by
  obtain ⟨rest, hrest⟩ := exists_equals h
  rw [ofText_of_equals hrest] at h
  rw [piecesOf_of_equals hrest]
  exact legible_of_nest h

lemma namesArea_of_mem_piecesOf (s : String) : ∀ p ∈ piecesOf s, p.NamesArea :=
  (Piece.cuts_scan {} _ {} _ (Nat.le_refl _)).namesArea

lemma piecesOf_moves (h : s.toList.dropWhile isBlank = '=' :: rest) (hl : ∀ p ∈ piecesOf s, p.kind.isLegible = true)
    (hm : (piecesOf s).IsChain (Piece.Meets rows cols)) (hs : Piece.Steady rows cols (piecesOf s)) :
    Forall₂ (fun p p' : Piece => p.kind.Moves (·.shift? rows cols) p'.kind) (piecesOf s) (piecesOf (shift s rows cols)) := by
  have harea := namesArea_of_mem_piecesOf s
  by_cases hzero : rows = 0 ∧ cols = 0
  · obtain ⟨rfl, rfl⟩ := hzero
    rw [shift_zero]
    exact List.forall₂_same.2 fun p hp => (harea p hp).moves_self fun _ _ hfits => Range.shift?_zero hfits.onSheet
  · rw [piecesOf_shift h hl hm hs hzero]
    refine List.forall₂_map_right_iff.2 ?_
    exact List.forall₂_same.2 fun p hp => (harea p hp).moves_shift rows cols

lemma ofText_shift (h : SpacedAll (ofText {} s)) (hm : (piecesOf s).IsChain (Piece.Meets rows cols))
    (hs : Piece.Steady rows cols (piecesOf s)) :
    Forall₂ (Moves (·.shift? rows cols)) (ofText {} s) (ofText {} (shift s rows cols)) := by
  obtain ⟨rest, hrest⟩ := exists_equals h
  have hmoves := piecesOf_moves hrest (legible_of_spacedAll h).all hm hs
  obtain ⟨rest', hrest'⟩ := exists_equals_shift rows cols hrest
  rw [piecesOf_of_equals hrest, piecesOf_of_equals hrest'] at hmoves
  rw [ofText_of_equals hrest, ofText_of_equals hrest']
  exact nest_moves hmoves .nil .nil

end TokenTree

/-- Where no part of a formula is invalid and its pieces follow one another as they must, the text that has moved is
parsed to the tree in which the ranges have moved, and those that leave the sheet are `#REF!`. -/
theorem Node.outline_parse_shift (b : Binder) (s : String) (rows cols : Int) (hc : (Node.parse b s).Clean)
    (hs : (TokenTree.piecesOf s).IsChain (Piece.Settled rows cols)) :
    (Node.parse b (shift s rows cols)).outline some = (Node.parse b s).outline (·.shift? rows cols) := by
  have hspaced := Parse.spacedAll_of_unchecked (Parse.eq_of_clean_check hc).1.sound
  obtain ⟨hmeets, hsteady⟩ := Piece.isChain_meets (TokenTree.legible_of_spacedAll hspaced).chain hs
  exact Parse.outline_ofTokens (TokenTree.ofText_shift hspaced hmeets hsteady) hc

end Formula

end Spreadsheet
