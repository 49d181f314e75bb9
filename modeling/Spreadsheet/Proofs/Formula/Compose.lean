import Spreadsheet.Formula.Shared
import Spreadsheet.Proofs.Formula.Shift

/-! Moves one after another come to one move, unless a single cell that is written as a pair stands before a colon: it is
written as one address after the move, and the colon makes a corner of it. -/

namespace Spreadsheet

open Text

namespace Address

variable {a a' b b' : Address} {down right down' right' : Int}

/-- The row of one address and the column of the same or of the other, with their marks. -/
def mix (p q : Bool) (a b : Address) : Address :=
  ⟨if p then a.row else b.row, if q then a.col else b.col, if p then a.rowFixed else b.rowFixed,
    if q then a.colFixed else b.colFixed⟩

lemma shift?_mix (p q : Bool) (ha : a.shift? down right = some a') (hb : b.shift? down right = some b') :
    (mix p q a b).shift? down right = some (mix p q a' b') := by
  obtain ⟨haon, harow, hacol, harow', hacol'⟩ := shift?_eq_some_iff.1 ha
  obtain ⟨hbon, hbrow, hbcol, hbrow', hbcol'⟩ := shift?_eq_some_iff.1 hb
  refine shift?_eq_some_iff.2 ⟨⟨?_, ?_⟩, ?_, ?_, ?_, ?_⟩
  · cases p
    · exact hbon.1
    · exact haon.1
  · cases q
    · exact hbon.2
    · exact haon.2
  · cases p <;> assumption
  · cases q <;> assumption
  · cases p <;> assumption
  · cases q <;> assumption

lemma shift?_shift? (h : a.shift? down right = some a') (h' : a.shift? (down + down') (right + right') = some b) :
    a'.shift? down' right' = some b := by
  obtain ⟨-, hrow, hcol, hrow', hcol'⟩ := shift?_eq_some_iff.1 h
  obtain ⟨hon, hrow'', hcol'', hrow''', hcol'''⟩ := shift?_eq_some_iff.1 h'
  refine shift?_eq_some_iff.2 ⟨hon, by rw [hrow, hrow''], by rw [hcol, hcol''], ?_, ?_⟩
  · rw [hrow, hrow', hrow''']
    split <;> omega
  · rw [hcol, hcol', hcol''']
    split <;> omega

end Address

namespace Range

variable {r s r' s' : Range} {down right down' right' : Int} {a b : Address}

/-- The marks of both corners are the same on each axis. -/
def Level (r : Range) : Prop := r.start.rowFixed = r.stop.rowFixed ∧ r.start.colFixed = r.stop.colFixed

/-- The corners are in the same places. -/
def Matches (r s : Range) : Prop :=
  (r.start.row = s.start.row ∧ r.start.col = s.start.col) ∧ r.stop.row = s.stop.row ∧ r.stop.col = s.stop.col

lemma Matches.mem_iff (h : r.Matches s) (p : Nat × Nat) : p ∈ r ↔ p ∈ s := by
  obtain ⟨⟨hrow, hcol⟩, hrow', hcol'⟩ := h
  show r.contains p.1 p.2 = true ↔ s.contains p.1 p.2 = true
  rw [contains, contains, hrow, hcol, hrow', hcol']

lemma corners_eq_mix (a b : Address) :
    corners a b = ⟨.mix (a.row ≤ b.row) (a.col ≤ b.col) a b, .mix (a.row ≤ b.row) (a.col ≤ b.col) b a⟩ := by
  simp only [corners, Address.mix]
  split <;> split <;> simp_all

lemma matches_corners_mix (p q : Bool) (a b : Address) : (corners (.mix p q a b) (.mix p q b a)).Matches (corners a b) := by
  cases p <;> cases q <;> simp only [corners, Address.mix, Matches] <;> grind

lemma corners_mix (p q : Bool) (hrow : a.rowFixed = b.rowFixed) (hcol : a.colFixed = b.colFixed) :
    corners (.mix p q a b) (.mix p q b a) = corners a b := by
  obtain ⟨row, col, rowFixed, colFixed⟩ := a
  obtain ⟨row', col', rowFixed', colFixed'⟩ := b
  dsimp only at hrow hcol
  subst hrow hcol
  cases p <;> cases q <;> simp only [corners, Address.mix, mk.injEq, Address.mk.injEq] <;> grind

/-- Where one move goes, two moves go that add up to it; the marks can only change places. -/
lemma shift?_shift? (h : r.shift? down right = some r') (h' : r.shift? (down + down') (right + right') = some s) :
    ∃ s', r'.shift? down' right' = some s' ∧ s'.Matches s ∧ (r.Level → s' = s) := by
  obtain ⟨a, b, ha, hb, rfl⟩ := Range.shift?_eq_some.1 h
  obtain ⟨c, d, hc, hd, rfl⟩ := Range.shift?_eq_some.1 h'
  have hac := Address.shift?_shift? ha hc
  have hbd := Address.shift?_shift? hb hd
  -- after the first move the corners may have changed places on either axis, so the second one moves them mixed up
  rw [corners_eq_mix a b]
  refine ⟨_, Range.shift?_eq_some.2 ⟨_, _, Address.shift?_mix _ _ hac hbd, Address.shift?_mix _ _ hbd hac, rfl⟩,
    matches_corners_mix _ _ c d, fun hlevel => ?_⟩
  obtain ⟨-, hcrow, hccol, -⟩ := Address.shift?_eq_some_iff.1 hc
  obtain ⟨-, hdrow, hdcol, -⟩ := Address.shift?_eq_some_iff.1 hd
  exact corners_mix _ _ (hcrow.trans (hlevel.1.trans hdrow.symm)) (hccol.trans (hlevel.2.trans hdcol.symm))

end Range

namespace Formula

open List (Forall₂)

variable {s : String} {rows cols rows' cols' : Int}

def PieceKind.reference? : PieceKind → Option ReferenceToken
  | .token (.reference r) => some r
  | _ => none

lemma PieceKind.reference?_eq_some {k : PieceKind} {r : ReferenceToken} : k.reference? = some r ↔ k = .token (.reference r) := by
  constructor
  · intro h
    unfold reference? at h
    split at h
    · rw [Option.some.inj h]
    · cases h
  · rintro rfl
    rfl

/-- The references in a formula, in order. -/
def references (s : String) : List ReferenceToken := (TokenTree.piecesOf s).filterMap (·.kind.reference?)

lemma mem_references {r : ReferenceToken} : r ∈ references s ↔ ∃ p ∈ TokenTree.piecesOf s, p.kind = .token (.reference r) := by
  simp only [references, List.mem_filterMap, PieceKind.reference?_eq_some]

namespace ReferenceToken

variable {r r' : ReferenceToken} {range : Range} {form : AreaForm}

/-- A reference that is still on the sheet when it is moved. -/
def Stays (rows cols : Int) (r : ReferenceToken) : Prop :=
  ∀ range, Range.ofArea? r.area = some range → (range.shift? rows cols).isSome = true

/-- The area is written as it would be after a move. -/
def IsCanonical (r : ReferenceToken) : Prop :=
  ∀ range form, AreaForm.parse? r.area = some (range, form) → r.area.toList = form.write range

def IsLevel (r : ReferenceToken) : Prop := ∀ range, Range.ofArea? r.area = some range → range.Level

/-- References to the same cells. -/
structure Covers (r r' : ReferenceToken) : Prop where
  book : r.book = r'.book
  sheet : r.sheet = r'.sheet
  cells : ∃ range range', Range.ofArea? r.area = some range ∧ Range.ofArea? r'.area = some range' ∧
    ∀ p : Nat × Nat, p ∈ range ↔ p ∈ range'

/-- The same reference after a move that keeps it on the sheet. -/
structure MovesTo (rows cols : Int) (r r' : ReferenceToken) : Prop where
  book : r'.book = r.book
  sheet : r'.sheet = r.sheet
  area : ∃ range range', Range.ofArea? r.area = some range ∧ Range.ofArea? r'.area = some range' ∧
    range.shift? rows cols = some range'

lemma MovesTo.stays (h : r.MovesTo rows cols r') (hstay : r.Stays (rows + rows') (cols + cols')) : r'.Stays rows' cols' := by
  obtain ⟨range, range', hrange, hrange', hshift⟩ := h.area
  intro range'' hrange''
  obtain rfl := Option.some.inj (hrange'.symm.trans hrange'')
  obtain ⟨total, htotal⟩ := Option.isSome_iff_exists.1 (hstay range hrange)
  obtain ⟨last, hlast, -⟩ := Range.shift?_shift? hshift htotal
  exact Option.isSome_iff_exists.2 ⟨last, hlast⟩

lemma MovesTo.covers {r'' t : ReferenceToken} (h : r.MovesTo rows cols r') (h' : r'.MovesTo rows' cols' r'')
    (ht : r.MovesTo (rows + rows') (cols + cols') t) : r''.Covers t := by
  obtain ⟨range, range', hrange, hrange', hshift⟩ := h.area
  obtain ⟨_, range'', hrange₂, hrange'', hshift'⟩ := h'.area
  obtain ⟨_, total, hrange₃, htotal, hsum⟩ := ht.area
  obtain rfl := Option.some.inj (hrange'.symm.trans hrange₂)
  obtain rfl := Option.some.inj (hrange.symm.trans hrange₃)
  obtain ⟨last, hlast, hmatches, -⟩ := Range.shift?_shift? hshift hsum
  obtain rfl := Option.some.inj (hshift'.symm.trans hlast)
  exact ⟨by rw [h'.book, h.book, ht.book], by rw [h'.sheet, h.sheet, ht.sheet], range'', total, hrange'', htotal,
    hmatches.mem_iff⟩

lemma IsCanonical.not_isDoubled (h : r.IsCanonical) : ¬ r.IsDoubled := by
  rintro ⟨hcolon, range, hparse, heq⟩
  rw [h range .cells hparse, AreaForm.write, Range.chars, if_pos heq] at hcolon
  exact absurd (Address.isPartChar_of_mem_chars hcolon) (by decide)

lemma isCanonical_write (h : form.Fits range) : IsCanonical { r with area := String.ofList (form.write range) } := by
  intro range' form' hparse
  rw [AreaForm.parse?_write h] at hparse
  obtain ⟨rfl, rfl⟩ := Prod.mk.inj (Option.some.inj hparse)
  exact String.toList_ofList

end ReferenceToken

lemma PieceKind.Moves.reference? {k k' : PieceKind} (h : k.Moves (·.shift? rows cols) k')
    (hstay : ∀ r ∈ k.reference?, r.Stays rows cols) : k.reference? = none ∧ k'.reference? = none ∨
      ∃ r r', k.reference? = some r ∧ k'.reference? = some r' ∧ r.MovesTo rows cols r' := by
  cases h with
  | blank | malformed | opening | closing => exact .inl ⟨rfl, rfl⟩
  | @token t t' ht =>
    cases ht with
    | same hne =>
      have hnone : (PieceKind.token t).reference? = none := by
        rw [Option.eq_none_iff_forall_ne_some]
        exact fun r hr => hne r (PieceKind.token.inj (reference?_eq_some.1 hr))
      exact .inl ⟨hnone, hnone⟩
    | reference hbook hsheet h h' hmove => exact .inr ⟨_, _, rfl, rfl, hbook, hsheet, _, _, h, h', hmove⟩
    | @fallen r range h hmove =>
      have hsome := hstay r rfl range h
      rw [hmove] at hsome
      cases hsome

lemma references_moves {ps ps' : List Piece}
    (h : Forall₂ (fun p p' : Piece => p.kind.Moves (·.shift? rows cols) p'.kind) ps ps')
    (hstay : ∀ r ∈ ps.filterMap (·.kind.reference?), r.Stays rows cols) :
    Forall₂ (ReferenceToken.MovesTo rows cols) (ps.filterMap (·.kind.reference?)) (ps'.filterMap (·.kind.reference?)) := by
  induction h with
  | nil => exact .nil
  | cons hkind _ ih =>
    have hhead := hkind.reference? fun r hr => hstay r (List.mem_filterMap.2 ⟨_, List.mem_cons_self, hr⟩)
    have htail := ih fun r hr => hstay r (List.mem_filterMap.2 <| by
      obtain ⟨q, hq, hr⟩ := List.mem_filterMap.1 hr
      exact ⟨q, List.mem_cons_of_mem _ hq, hr⟩)
    rw [List.filterMap_cons, List.filterMap_cons]
    rcases hhead with ⟨hr, hr'⟩ | ⟨r, r', hr, hr', hmoves⟩
    · rw [hr, hr']
      exact htail
    · rw [hr, hr']
      exact .cons hmoves htail

namespace Piece

variable {p p' : Piece} {ps : List Piece} {r : ReferenceToken} {range range' : Range} {form : AreaForm} {q : List Char}

lemma Cuts.exists_append {ctx : Context} (h : Cuts {} ctx ps) : ∀ p ∈ ps, ∀ r, p.kind = .token (.reference r) →
    ∃ q, p.chars = q ++ r.area.toList := by
  induction ps generalizing ctx with
  | nil => rintro _ ⟨⟩
  | cons p ps ih =>
    obtain ⟨c, x, hchars, hcut, hrest⟩ := h
    refine List.forall_mem_cons.2 ⟨fun r hr => ?_, ih hrest⟩
    rw [hr] at hcut
    obtain ⟨q, area, hshows⟩ := exists_shows hcut
    refine ⟨q, ?_⟩
    rw [hchars, hshows.chars, hshows.begins.area_eq, String.toList_ofList]

lemma shift_of_reference?_none (h : p.kind.reference? = none) : shift rows cols p = p.chars := by
  unfold shift
  split
  · rename_i r heq
    rw [PieceKind.reference?_eq_some.2 heq] at h
    cases h
  · rfl

lemma shift_reference (hparse : AreaForm.parse? r.area = some (range, form)) (hshift : range.shift? rows cols = some range') :
    shift rows cols ⟨.token (.reference r), q ++ r.area.toList⟩ = q ++ form.write range' := by
  simp only [AreaForm.parse?] at hparse
  simp only [shift, hparse, hshift, List.length_append, Nat.add_sub_cancel, List.take_left]

/-- A piece that moves on the sheet: if it is a reference, its area is written anew. -/
inductive Rewrites (rows cols : Int) : Piece → Piece → Prop
  | same {p : Piece} (h : p.kind.reference? = none) : Rewrites rows cols p p
  | reference {r : ReferenceToken} {range range' : Range} {form : AreaForm} {q : List Char}
      (hparse : AreaForm.parse? r.area = some (range, form)) (hfits : form.Fits range)
      (hshift : range.shift? rows cols = some range') :
      Rewrites rows cols ⟨.token (.reference r), q ++ r.area.toList⟩
        ⟨.token (.reference { r with area := String.ofList (form.write range') }), q ++ form.write range'⟩

lemma reference_of_mem (hp : p ∈ TokenTree.piecesOf s) : p.kind.reference? = none ∨ ∃ r q range form,
    p = ⟨.token (.reference r), q ++ r.area.toList⟩ ∧ AreaForm.parse? r.area = some (range, form) ∧ form.Fits range := by
  have hareas := TokenTree.namesArea_of_mem_piecesOf s p hp
  have happend := (cuts_scan {} _ {} _ (Nat.le_refl _)).exists_append p hp
  obtain ⟨k, chars⟩ := p
  cases hr : k.reference? with
  | none => exact .inl rfl
  | some r =>
    obtain rfl := PieceKind.reference?_eq_some.1 hr
    obtain ⟨range, form, hparse, hfits⟩ := hareas r rfl
    obtain ⟨q, hchars⟩ := happend r rfl
    exact .inr ⟨r, q, range, form, congrArg _ hchars, hparse, hfits⟩

lemma rewrites_moved (hp : p ∈ TokenTree.piecesOf s) (hstay : ∀ r ∈ p.kind.reference?, r.Stays rows cols) :
    Rewrites rows cols p (moved rows cols p) := by
  rcases reference_of_mem hp with hnone | ⟨r, q, range, form, rfl, hparse, hfits⟩
  · have hne : ∀ r, p.kind ≠ .token (.reference r) := fun r heq => by
      rw [PieceKind.reference?_eq_some.2 heq] at hnone
      cases hnone
    have hsame : moved rows cols p = p := by
      rw [moved, PieceKind.shift_of_not_reference hne, shift_of_reference?_none hnone]
    rw [hsame]
    exact .same hnone
  · obtain ⟨range', hshift⟩ := Option.isSome_iff_exists.1 (hstay r rfl range (Range.ofArea?_of_parse? hparse))
    have hkind : PieceKind.shift rows cols (.token (.reference r)) =
        .token (.reference { r with area := String.ofList (form.write range') }) := by
      simp only [PieceKind.shift, Token.shift, ReferenceToken.shift, hparse, hshift]
    rw [moved, hkind, shift_reference hparse hshift]
    exact .reference hparse hfits hshift

lemma shift_zero (hp : p ∈ TokenTree.piecesOf s) (hcanonical : ∀ r ∈ p.kind.reference?, r.IsCanonical) :
    shift 0 0 p = p.chars := by
  rcases reference_of_mem hp with hnone | ⟨r, q, range, form, rfl, hparse, hfits⟩
  · exact shift_of_reference?_none hnone
  · rw [shift_reference hparse (Range.shift?_zero hfits.onSheet), hcanonical r rfl range form hparse]

namespace Rewrites

variable (h : Rewrites rows cols p p')

include h

lemma isLegible : p'.kind.isLegible = p.kind.isLegible := by
  cases h <;> rfl

lemma isWord : p'.kind.isWord = p.kind.isWord := by
  cases h <;> rfl

lemma startsOperand : p'.kind.startsOperand = p.kind.startsOperand := by
  cases h <;> rfl

lemma isSome_reference? : p'.kind.reference?.isSome = p.kind.reference?.isSome := by
  cases h <;> rfl

lemma isCanonical : ∀ r ∈ p'.kind.reference?, r.IsCanonical := by
  cases h with
  | same h => simp [h]
  | reference hparse hfits hshift =>
    rintro r ⟨⟩
    exact ReferenceToken.isCanonical_write (hfits.shift hshift)

lemma shift_shift (hstay : ∀ r ∈ p.kind.reference?, r.Stays (rows + rows') (cols + cols'))
    (hlevel : ∀ r ∈ p.kind.reference?, r.IsLevel) : shift rows' cols' p' = shift (rows + rows') (cols + cols') p := by
  cases h with
  | same h => rw [shift_of_reference?_none h, shift_of_reference?_none h]
  | @reference r range range' form q hparse hfits hshift =>
    have harea := Range.ofArea?_of_parse? hparse
    obtain ⟨range'', hshift''⟩ := Option.isSome_iff_exists.1 (hstay r rfl range harea)
    obtain ⟨_, hshift', -, hsame⟩ := Range.shift?_shift? hshift hshift''
    obtain rfl := hsame (hlevel r rfl range harea)
    have hparse' := AreaForm.parse?_write (hfits.shift hshift)
    have hmoved := shift_reference (r := { r with area := String.ofList (form.write range') }) (q := q) hparse' hshift'
    rw [String.toList_ofList] at hmoved
    rw [hmoved, shift_reference hparse hshift'']

end Rewrites

end Piece

/-- A formula whose pieces may be moved and stay pieces as long as no reference leaves the sheet. -/
structure Shiftable (s : String) : Prop where
  equals : ∃ rest, s.toList.dropWhile isBlank = '=' :: rest
  legible : ∀ p ∈ TokenTree.piecesOf s, p.kind.isLegible = true
  word : (TokenTree.piecesOf s).IsChain fun p q => p.kind.isWord = true → q.kind.startsOperand = false
  doubled : (TokenTree.piecesOf s).IsChain fun p q => p.kind.IsDoubled → q.kind.isColon = false

namespace Shiftable

lemma of_clean {b : Binder} (hc : (Node.parse b s).Clean)
    (hd : (TokenTree.piecesOf s).IsChain fun p q => p.kind.IsDoubled → q.kind.isColon = false) : Shiftable s := by
  have hspaced := Parse.spacedAll_of_unchecked (Parse.eq_of_clean_check hc).1.sound
  have hlegible := TokenTree.legible_of_spacedAll hspaced
  exact ⟨TokenTree.exists_equals hspaced, hlegible.all, hlegible.chain, hd⟩

lemma of_canonical {b : Binder} (hc : (Node.parse b s).Clean) (hcanonical : ∀ r ∈ references s, r.IsCanonical) :
    Shiftable s := by
  refine of_clean hc (List.isChain_iff_getElem.2 fun i hi => ?_)
  rintro ⟨r, hr, hdoubled⟩
  exact absurd hdoubled (hcanonical r (mem_references.2 ⟨_, List.getElem_mem _, hr⟩)).not_isDoubled

lemma toList_shift (h : Shiftable s) (hcanonical : ∀ r ∈ references s, r.IsCanonical) (rows cols : Int) :
    (Formula.shift s rows cols).toList =
      s.toList.takeWhile isBlank ++ '=' :: (TokenTree.piecesOf s).flatMap (Piece.shift rows cols) := by
  obtain ⟨rest, hrest⟩ := h.equals
  have hpieces := TokenTree.piecesOf_of_equals hrest
  -- only a move by nothing leaves areas as they are, and it makes no difference since they are canonical
  by_cases hzero : rows = 0 ∧ cols = 0
  · obtain ⟨rfl, rfl⟩ := hzero
    have hsame : (TokenTree.piecesOf s).flatMap (Piece.shift 0 0) = (TokenTree.piecesOf s).flatMap Piece.chars :=
      List.flatMap_congr fun p hp => Piece.shift_zero hp fun r hr =>
        hcanonical r (mem_references.2 ⟨p, hp, PieceKind.reference?_eq_some.1 hr⟩)
    rw [TokenTree.shift_zero, hsame, hpieces, TokenTree.pieces, Piece.flatMap_scan {} _ _ _ (Nat.le_refl _), ← hrest,
      List.takeWhile_append_dropWhile]
  · rw [TokenTree.toList_shift hrest hzero, hpieces]

variable (h : Shiftable s) (hs : ∀ r ∈ references s, r.Stays rows cols)

include hs

lemma rewrites : ∀ p ∈ TokenTree.piecesOf s, p.Rewrites rows cols (p.moved rows cols) := fun p hp =>
  Piece.rewrites_moved hp fun r hr => hs r (mem_references.2 ⟨p, hp, PieceKind.reference?_eq_some.1 hr⟩)

lemma not_falls : ∀ p ∈ TokenTree.piecesOf s, ¬ p.kind.Falls rows cols := by
  rintro p hp ⟨r, hr, hfall⟩
  have hsome := (rewrites hs p hp).isSome_reference?
  rw [Piece.moved, hr] at hsome
  simp only [PieceKind.shift, Token.shift, hfall, PieceKind.reference?] at hsome
  cases hsome

include h

lemma meets : (TokenTree.piecesOf s).IsChain (Piece.Meets rows cols) := by
  have hword := h.word
  have hdoubled := h.doubled
  rw [List.isChain_iff_getElem] at hword hdoubled ⊢
  exact fun i hi => ⟨hword i hi, hdoubled i hi, fun _ => not_falls hs _ (List.getElem_mem _)⟩

lemma piecesOf_shift (hne : ¬ (rows = 0 ∧ cols = 0)) :
    TokenTree.piecesOf (Formula.shift s rows cols) = (TokenTree.piecesOf s).map (Piece.moved rows cols) := by
  obtain ⟨rest, hrest⟩ := h.equals
  exact TokenTree.piecesOf_shift hrest h.legible (h.meets hs) (Or.inl (not_falls hs)) hne

lemma isCanonical_shift (hne : ¬ (rows = 0 ∧ cols = 0)) :
    ∀ r ∈ references (Formula.shift s rows cols), r.IsCanonical := by
  intro r hr
  obtain ⟨p', hp', hkind⟩ := mem_references.1 hr
  rw [h.piecesOf_shift hs hne] at hp'
  obtain ⟨p, hp, rfl⟩ := List.mem_map.1 hp'
  exact (rewrites hs p hp).isCanonical r (PieceKind.reference?_eq_some.2 hkind)

lemma references_shift :
    Forall₂ (ReferenceToken.MovesTo rows cols) (references s) (references (Formula.shift s rows cols)) := by
  obtain ⟨rest, hrest⟩ := h.equals
  exact references_moves (TokenTree.piecesOf_moves hrest h.legible (h.meets hs) (Or.inl (not_falls hs))) hs

lemma shift : Shiftable (Formula.shift s rows cols) := by
  by_cases hzero : rows = 0 ∧ cols = 0
  · obtain ⟨rfl, rfl⟩ := hzero
    rwa [TokenTree.shift_zero]
  obtain ⟨rest, hrest⟩ := h.equals
  refine ⟨TokenTree.exists_equals_shift rows cols hrest, ?_, ?_, ?_⟩
  all_goals rw [h.piecesOf_shift hs hzero]
  · rw [List.forall_mem_map]
    exact fun p hp => by rw [(rewrites hs p hp).isLegible, h.legible p hp]
  · have hword := h.word
    rw [List.isChain_iff_getElem] at hword ⊢
    simp only [List.length_map, List.getElem_map]
    intro i hi
    rw [(rewrites hs _ (List.getElem_mem _)).isWord, (rewrites hs _ (List.getElem_mem _)).startsOperand]
    exact hword i hi
  · rw [List.isChain_iff_getElem]
    simp only [List.length_map, List.getElem_map]
    rintro i hi ⟨r, hr, hdoubled⟩
    have hcanonical := (rewrites hs _ (List.getElem_mem _)).isCanonical r (PieceKind.reference?_eq_some.2 hr)
    exact absurd hdoubled hcanonical.not_isDoubled

end Shiftable

lemma stays_zero : ∀ r ∈ references s, r.Stays 0 0 := by
  intro r hr range harea
  obtain ⟨p, hp, hkind⟩ := mem_references.1 hr
  obtain ⟨range', form, hparse, hfits⟩ := TokenTree.namesArea_of_mem_piecesOf s p hp r hkind
  obtain rfl := Option.some.inj ((Range.ofArea?_of_parse? hparse).symm.trans harea)
  rw [Range.shift?_zero hfits.onSheet]
  rfl

section Lists

variable {rs rs' rs'' ts : List ReferenceToken} (h : Forall₂ (ReferenceToken.MovesTo rows cols) rs rs')

include h

lemma stays_of_moves (hstay : ∀ r ∈ rs, r.Stays (rows + rows') (cols + cols')) : ∀ r ∈ rs', r.Stays rows' cols' := by
  induction h with
  | nil => rintro _ ⟨⟩
  | cons hmoves _ ih =>
    obtain ⟨hhead, htail⟩ := List.forall_mem_cons.1 hstay
    exact List.forall_mem_cons.2 ⟨hmoves.stays hhead, ih htail⟩

lemma covers_of_moves (h' : Forall₂ (ReferenceToken.MovesTo rows' cols') rs' rs'')
    (ht : Forall₂ (ReferenceToken.MovesTo (rows + rows') (cols + cols')) rs ts) : Forall₂ ReferenceToken.Covers rs'' ts := by
  induction h generalizing rs'' ts with
  | nil =>
    cases h'
    cases ht
    exact .nil
  | cons hmoves _ ih =>
    cases h' with
    | cons hmoves' h' =>
      cases ht with
      | cons hsum ht => exact .cons (hmoves.covers hmoves' hsum) (ih h' ht)

end Lists

/-- The formula that has moved is parsed to the moved tree, also where a colon follows a word. -/
theorem Node.outline_parse_shift_of_stays (b : Binder) (s : String) (rows cols : Int) (hc : (Node.parse b s).Clean)
    (hd : (TokenTree.piecesOf s).IsChain fun p q => p.kind.IsDoubled → q.kind.isColon = false)
    (hstay : ∀ r ∈ references s, r.Stays rows cols) :
    (Node.parse b (shift s rows cols)).outline some = (Node.parse b s).outline (·.shift? rows cols) := by
  have hspaced := Parse.spacedAll_of_unchecked (Parse.eq_of_clean_check hc).1.sound
  exact Parse.outline_ofTokens (TokenTree.ofText_shift hspaced ((Shiftable.of_clean hc hd).meets hstay)
    (Or.inl (Shiftable.not_falls hstay))) hc

/-- Two moves come to one: references that stay on the sheet lie over the same cells after both, if no single cell that is
written as a pair stands before a colon. -/
theorem references_shift_shift (b : Binder) (s : String) (rows cols rows' cols' : Int) (hc : (Node.parse b s).Clean)
    (hd : (TokenTree.piecesOf s).IsChain fun p q => p.kind.IsDoubled → q.kind.isColon = false)
    (hstay : ∀ r ∈ references s, r.Stays rows cols) (hstay' : ∀ r ∈ references s, r.Stays (rows + rows') (cols + cols')) :
    Forall₂ ReferenceToken.Covers (references (shift (shift s rows cols) rows' cols'))
      (references (shift s (rows + rows') (cols + cols'))) := by
  have hs := Shiftable.of_clean hc hd
  have hfirst := hs.references_shift hstay
  exact covers_of_moves hfirst ((hs.shift hstay).references_shift (stays_of_moves hfirst hstay')) (hs.references_shift hstay')

/-- Before a colon the two cells of a pair come apart: the corner is moved away from its reference and back into another. -/
example : (references "=A1:A1:B2").map (·.area) = ["A1:A1", "B2"] ∧ shift "=A1:A1:B2" 1 0 = "=A2:B3" ∧
    shift "=A2:B3" (-1) 0 = "=A1:B2" ∧ (references "=A1:B2").map (·.area) = ["A1:B2"] := by decide +kernel

/-- In a formula whose references are all written as they would be after a move, with the same marks at both corners, two moves
that keep the references on the sheet are one. -/
theorem shift_shift (b : Binder) (s : String) (rows cols rows' cols' : Int) (hc : (Node.parse b s).Clean)
    (hcanonical : ∀ r ∈ references s, r.IsCanonical) (hlevel : ∀ r ∈ references s, r.IsLevel)
    (hstay : ∀ r ∈ references s, r.Stays rows cols) (hstay' : ∀ r ∈ references s, r.Stays (rows + rows') (cols + cols')) :
    shift (shift s rows cols) rows' cols' = shift s (rows + rows') (cols + cols') := by
  by_cases hzero : rows = 0 ∧ cols = 0
  · obtain ⟨rfl, rfl⟩ := hzero
    rw [TokenTree.shift_zero, Int.zero_add, Int.zero_add]
  have hs := Shiftable.of_canonical hc hcanonical
  have hmoves : ∀ p ∈ TokenTree.piecesOf s,
      Piece.shift rows' cols' (p.moved rows cols) = Piece.shift (rows + rows') (cols + cols') p := by
    intro p hp
    have hmem : ∀ r ∈ p.kind.reference?, r ∈ references s := fun r hr =>
      mem_references.2 ⟨p, hp, PieceKind.reference?_eq_some.1 hr⟩
    exact (Shiftable.rewrites hstay p hp).shift_shift (fun r hr => hstay' r (hmem r hr)) fun r hr => hlevel r (hmem r hr)
  obtain ⟨rest, hrest⟩ := hs.equals
  refine String.toList_inj.1 ?_
  calc (shift (shift s rows cols) rows' cols').toList
    _ = (shift s rows cols).toList.takeWhile isBlank ++
          '=' :: (TokenTree.piecesOf (shift s rows cols)).flatMap (Piece.shift rows' cols') :=
        (hs.shift hstay).toList_shift (hs.isCanonical_shift hstay hzero) rows' cols'
    _ = s.toList.takeWhile isBlank ++ '=' :: (TokenTree.piecesOf s).flatMap (Piece.shift (rows + rows') (cols + cols')) := by
        rw [(TokenTree.takeWhile_toList_shift hrest hzero).1, hs.piecesOf_shift hstay hzero, List.flatMap_map,
          List.flatMap_congr hmoves]
    _ = (shift s (rows + rows') (cols + cols')).toList := (hs.toList_shift hcanonical _ _).symm

theorem shift_neg (b : Binder) (s : String) (rows cols : Int) (hc : (Node.parse b s).Clean)
    (hcanonical : ∀ r ∈ references s, r.IsCanonical) (hlevel : ∀ r ∈ references s, r.IsLevel)
    (hstay : ∀ r ∈ references s, r.Stays rows cols) : shift (shift s rows cols) (-rows) (-cols) = s := by
  have hsum := shift_shift b s rows cols (-rows) (-cols) hc hcanonical hlevel hstay
  rw [Int.add_right_neg, Int.add_right_neg, TokenTree.shift_zero] at hsum
  exact hsum stays_zero

/-! Shared formulas. -/

section Shared

variable {cells : List (Position × StoredFormula)} {o p q : Position} {f f' g : StoredFormula}

/-- A cell that has the formula of `g` at `o`, moved by some rows and columns: `o` itself, or a cell that shares the formula. -/
inductive Occurs (cells : List (Position × StoredFormula)) (o : Position) (g : StoredFormula) :
    Position → StoredFormula → Int → Int → Prop
  | origin (h : g.hasText = true) : Occurs cells o g o g 0 0
  | shared {p : Position} {f : StoredFormula} (h : f.hasText = false) (ho : f.sharedId.bind (origin? cells) = some (o, g)) :
      Occurs cells o g p f (f.rowOffset.getD ((p.row : Int) - o.row)) (f.colOffset.getD ((p.col : Int) - o.col))

lemma Occurs.ownText_eq (h : Occurs cells o g p f rows cols) : ownText cells p f = shift g.text rows cols := by
  cases h with
  | origin h => rw [ownText, if_pos h, TokenTree.shift_zero]
  | shared h ho => simp only [ownText, h, ho, Bool.false_eq_true, if_false]

/-- Any two occurrences of a shared formula are each other's move. -/
theorem Occurs.shift_ownText (b : Binder) (h : Occurs cells o g p f rows cols) (h' : Occurs cells o g q f' rows' cols')
    (hc : (Node.parse b g.text).Clean) (hcanonical : ∀ r ∈ references g.text, r.IsCanonical)
    (hlevel : ∀ r ∈ references g.text, r.IsLevel) (hstay : ∀ r ∈ references g.text, r.Stays rows cols)
    (hstay' : ∀ r ∈ references g.text, r.Stays rows' cols') :
    shift (ownText cells p f) (rows' - rows) (cols' - cols) = ownText cells q f' := by
  rw [h.ownText_eq, h'.ownText_eq]
  have hrows : rows + (rows' - rows) = rows' := by omega
  have hcols : cols + (cols' - cols) = cols' := by omega
  have hsum := shift_shift b g.text rows cols (rows' - rows) (cols' - cols) hc hcanonical hlevel hstay
  rw [hrows, hcols] at hsum
  exact hsum hstay'

end Shared

end Formula

end Spreadsheet
