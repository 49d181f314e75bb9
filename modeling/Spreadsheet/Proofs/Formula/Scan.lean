import Mathlib.Data.List.Chain
import Mathlib.Data.List.TakeWhile
import Spreadsheet.Proofs.Formula.Cut

/-! The pieces of a formula that has moved are the pieces of the formula, moved. -/

namespace Spreadsheet.Formula

open Text

/-- A reference in a formula that moves. -/
def ReferenceToken.shift (rows cols : Int) (r : ReferenceToken) : Token :=
  match AreaForm.parse? r.area with
  | none => .reference r
  | some (range, form) =>
    match range.shift? rows cols with
    | some moved => .reference { r with area := String.ofList (form.write moved) }
    | none => .error .ref

/-- A single cell that is written as a pair. -/
def ReferenceToken.IsDoubled (r : ReferenceToken) : Prop :=
  ':' ∈ r.area.toList ∧ ∃ range, AreaForm.parse? r.area = some (range, .cells) ∧ range.start = range.stop

def Token.shift (rows cols : Int) : Token → Token
  | .reference r => r.shift rows cols
  | t => t

namespace PieceKind

def shift (rows cols : Int) : PieceKind → PieceKind
  | .token t => .token (t.shift rows cols)
  | k => k

/-- A reference that leaves the sheet. -/
def Falls (rows cols : Int) (k : PieceKind) : Prop :=
  ∃ r, k = .token (.reference r) ∧ r.shift rows cols = .error .ref

def IsDoubled (k : PieceKind) : Prop := ∃ r, k = .token (.reference r) ∧ r.IsDoubled

lemma shift_of_not_reference {k : PieceKind} {rows cols : Int} (h : ∀ r, k ≠ .token (.reference r)) : k.shift rows cols = k := by
  cases k with
  | token t =>
    cases t with
    | reference r => exact absurd rfl (h r)
    | _ => rfl
  | _ => rfl

end PieceKind

namespace Piece

open ReferenceText

variable {o : Separators} {ctx : Context} {c : Char} {x tail tail' rest : List Char} {k : PieceKind} {r : ReferenceToken}
  {n : Nat} {p : Piece} {ps : List Piece} {rows cols : Int}

/-- Pieces that may follow one another in a formula that moves: no operand comes right after a word, no colon right after a
single cell that is written as a pair, and no reference that leaves the sheet after blanks that intersect. -/
structure Meets (rows cols : Int) (p q : Piece) : Prop where
  word : p.kind.isWord = true → q.kind.startsOperand = false
  doubled : p.kind.IsDoubled → q.kind.isColon = false
  intersect : p.kind.isIntersect = true → ¬ q.kind.Falls rows cols

/-- No reference leaves the sheet, or else no colon comes right after a word. -/
def Steady (rows cols : Int) (ps : List Piece) : Prop :=
  (∀ p ∈ ps, ¬ p.kind.Falls rows cols) ∨ ps.IsChain fun p q => p.kind.isWord = true → q.kind.isColon = false

lemma Steady.of_cons (h : Steady rows cols (p :: ps)) : Steady rows cols ps :=
  h.imp (fun h q hq => h q (List.mem_cons_of_mem _ hq)) List.IsChain.tail

def moved (rows cols : Int) (p : Piece) : Piece := ⟨p.kind.shift rows cols, p.shift rows cols⟩

/-! Scanning backwards: the pieces that a text is cut into. -/

/-- Put together again, the pieces are cut where they were. -/
def Cuts (o : Separators) : Context → List Piece → Prop
  | _, [] => True
  | ctx, p :: ps => ∃ c x, p.chars = c :: x ∧ cut o ctx c (x ++ ps.flatMap Piece.chars) = (p.kind, x.length) ∧
      Cuts o (advance ctx p.kind) ps

lemma cuts_scan (o : Separators) (fuel : Nat) (ctx : Context) (cs : List Char) (h : cs.length ≤ fuel) :
    Cuts o ctx (scan o fuel ctx cs) := by
  induction fuel generalizing ctx cs with
  | zero => trivial
  | succ fuel ih =>
    cases cs with
    | nil => trivial
    | cons c rest =>
      cases hcut : cut o ctx c rest with
      | mk k n =>
        have hle : n ≤ rest.length := by simpa [hcut] using cut_le o ctx c rest
        rw [List.length_cons] at h
        have hlength : (rest.drop n).length ≤ fuel := by
          rw [List.length_drop]
          omega
        rw [scan, hcut]
        refine ⟨c, rest.take n, rfl, ?_, ih _ _ hlength⟩
        rw [flatMap_scan o fuel _ _ hlength, List.take_append_drop, List.length_take, Nat.min_eq_left hle, hcut]

lemma scan_of_cuts (fuel : Nat) (ctx : Context) (h : Cuts o ctx ps) (hl : (ps.flatMap Piece.chars).length ≤ fuel) :
    scan o fuel ctx (ps.flatMap Piece.chars) = ps := by
  induction ps generalizing fuel ctx with
  | nil => cases fuel <;> rfl
  | cons p ps ih =>
    obtain ⟨c, x, hchars, hcut, hrest⟩ := h
    rw [List.flatMap_cons, hchars, List.cons_append] at hl ⊢
    cases fuel with
    | zero => exact absurd hl (Nat.not_succ_le_zero _)
    | succ fuel =>
      rw [List.length_cons, List.length_append] at hl
      rw [scan, hcut]
      simp only [List.take_left, List.drop_left]
      rw [ih fuel _ hrest (by omega), ← hchars]

/-! References that move. -/

/-- What is cut for a reference: a qualifier and an area. -/
structure Shows (ctx : Context) (c : Char) (x tail : List Char) (r : ReferenceToken) (q area : List Char) : Prop where
  chars : c :: x = q ++ area
  begins : Begins (c :: (x ++ tail)) r q area tail
  notCalled : NotCalled c (x ++ tail)
  depth : c = '[' → ctx.opened.length < maxGroupDepth

lemma exists_shows (h : cut {} ctx c (x ++ tail) = (.token (.reference r), x.length)) :
    ∃ q area, Shows ctx c x tail r q area := by
  obtain ⟨⟨m, href, hlength⟩, hcall, hdepth⟩ := reference?_of_cut h
  obtain ⟨q, area, rest, hbegins, rfl⟩ := exists_begins href
  obtain ⟨d, area', harea, -⟩ := exists_head_area hbegins.area?
  have hchars : c :: x = q ++ area ∧ tail = rest := by
    refine List.append_inj (by rw [List.cons_append, hbegins.text, List.append_assoc]) ?_
    rw [List.length_cons, hlength, harea, List.length_append, List.length_cons]
    omega
  obtain ⟨hx, rfl⟩ := hchars
  exact ⟨q, area, hx, hbegins, hcall, hdepth⟩

section Shows

variable {q area : List Char}

lemma Shows.shift (h : Shows ctx c x tail r q area) (rows cols : Int) :
    (r.shift rows cols = .error .ref ∧ shift rows cols ⟨.token (.reference r), c :: x⟩ = ErrorValue.ref.text.toList) ∨
      ∃ form range range', AreaForm.parseChars? area = some (range, form) ∧ range.shift? rows cols = some range' ∧
        r.shift rows cols = .reference { r with area := String.ofList (form.write range') } ∧
        shift rows cols ⟨.token (.reference r), c :: x⟩ = q ++ form.write range' := by
  obtain ⟨-, -, -, -, hparse⟩ := area?_eq_some.1 h.begins.area?
  obtain ⟨⟨range, form⟩, hparse⟩ := Option.isSome_iff_exists.1 hparse
  have harea : r.area.toList = area := by rw [h.begins.area_eq, String.toList_ofList]
  have htake : (c :: x).take ((c :: x).length - area.length) = q := by
    rw [h.chars, List.length_append, Nat.add_sub_cancel, List.take_left]
  simp only [ReferenceToken.shift, AreaForm.parse?, Piece.shift, harea, hparse, htake]
  cases hshift : range.shift? rows cols with
  | none => exact Or.inl ⟨rfl, rfl⟩
  | some range' => exact Or.inr ⟨form, range, range', rfl, hshift, rfl, rfl⟩

lemma isReferenceStart_of_isPartChar (h : isPartChar c = true) : isReferenceStart c = true := by simp [isReferenceStart, h]

lemma isReferenceStart_of_isQualifier {q' : List Char} (h : IsQualifier (c :: q')) : isReferenceStart c = true := by
  rcases h with h | h | h
  · cases h
  · obtain rfl : c = '[' := Option.some.inj h
    decide
  · obtain ⟨d, word, heq, hd⟩ := h.exists_head
    obtain ⟨rfl, rfl⟩ := List.cons.inj heq
    rcases hd with rfl | halpha | rfl | rfl
    · decide
    · exact isReferenceStart_of_isPartChar (isPartChar_of_isAlpha c halpha)
    · decide
    · decide

lemma Shows.isReferenceStart (h : Shows ctx c x tail r q area) : isReferenceStart c = true := by
  have hchars := h.chars
  cases q with
  | nil =>
    obtain ⟨d, area', rfl, hd⟩ := exists_head_area h.begins.area?
    obtain ⟨rfl, rfl⟩ := List.cons.inj hchars
    exact isReferenceStart_of_isPartChar hd
  | cons d q =>
    obtain ⟨rfl, rfl⟩ := List.cons.inj hchars
    exact isReferenceStart_of_isQualifier h.begins.qualifier

lemma notCalled_area (hx : ∀ d ∈ c :: x, isPartChar d = true ∨ d = ':') (ht : Closes tail) : NotCalled c (x ++ tail) := by
  intro _
  rw [← List.cons_append, List.dropWhile_append]
  split
  · cases tail with
    | nil => rintro ⟨⟩
    | cons d tail =>
      rw [List.dropWhile_cons_of_neg (by simp [isIdentifierChar_of_closes ht d rfl])]
      exact ht.ne (by simp)
  · intro hhead
    rw [List.head?_append] at hhead
    cases hdrop : (c :: x).dropWhile isIdentifierChar with
    | nil => simp_all
    | cons d rest =>
      rw [hdrop] at hhead
      obtain rfl : d = '(' := Option.some.inj hhead
      exact absurd (hx '(' ((List.dropWhile_suffix _).mem (by rw [hdrop]; simp))) (by decide)

lemma dropWhile_append_of_mem {p : Char → Bool} {y : List Char} (h : ∃ d ∈ y, p d = false) (z : List Char) :
    (y ++ z).dropWhile p = y.dropWhile p ++ z ∧ y.dropWhile p ≠ [] := by
  obtain ⟨d, hd, hp⟩ := h
  have hne : y.dropWhile p ≠ [] := by
    intro hnil
    have hall := List.dropWhile_eq_nil_iff.1 hnil d hd
    rw [hp] at hall
    cases hall
  exact ⟨by rw [List.dropWhile_append, if_neg (by simpa using hne)], hne⟩

lemma notCalled_qualifier {q' y z : List Char} (hq : IsQualifier (c :: q')) (h : NotCalled c (q' ++ y)) : NotCalled c (q' ++ z) := by
  intro hword
  have hmark : ∃ d ∈ c :: q', isIdentifierChar d = false := by
    rcases hq with hq | hq | hq | ⟨d, word, heq, -, -⟩
    · cases hq
    · obtain rfl : c = '[' := Option.some.inj hq
      exact absurd hword (by decide)
    · obtain rfl : c = '\'' := Option.some.inj hq
      exact absurd hword (by decide)
    · exact ⟨'!', by rw [heq]; simp, by decide⟩
  obtain ⟨hy, hne⟩ := dropWhile_append_of_mem hmark y
  have hcall := h hword
  rw [← List.cons_append, hy, List.head?_append] at hcall
  rw [← List.cons_append, (dropWhile_append_of_mem hmark z).1, List.head?_append]
  cases hdrop : (c :: q').dropWhile isIdentifierChar with
  | nil => exact absurd hdrop hne
  | cons d rest =>
    rw [hdrop] at hcall
    exact hcall

lemma cut_hash (ctx : Context) (rest : List Char) : cut {} ctx '#' rest = errorText rest := by
  unfold cut
  simp [show Text.isBlank '#' = false by decide]

/-- How a piece reads after the move, with its first character. -/
structure Moved (rows cols : Int) (ctx : Context) (k : PieceKind) (c : Char) (x tail tail' : List Char) (d : Char) (y : List Char) :
    Prop where
  shift : shift rows cols ⟨k, c :: x⟩ = d :: y
  cut : cut {} ctx d (y ++ tail') = (k.shift rows cols, y.length)
  swaps : Swaps (some c) (some d)
  falls : d = '#' → c ≠ '#' → k.Falls rows cols
  alike : ¬ k.Falls rows cols → Alike (c :: x ++ tail) (d :: y ++ tail')

lemma exists_append_of_isQualifier {q : List Char} (h : IsQualifier q) (hne : q ≠ []) :
    ∃ y d z, q = y ++ d :: z ∧ isPartChar d = false := by
  rcases h with rfl | h | h | ⟨c, word, rfl, -, -⟩
  · exact absurd rfl hne
  · obtain ⟨z, rfl⟩ := List.head?_eq_some_iff.1 h
    exact ⟨[], '[', z, rfl, by decide⟩
  · obtain ⟨z, rfl⟩ := List.head?_eq_some_iff.1 h
    exact ⟨[], '\'', z, rfl, by decide⟩
  · exact ⟨c :: word, '!', [], rfl, by decide⟩

lemma alike_of_not_isPartChar {d : Char} (hd : isPartChar d = false) (y z z' : List Char) : Alike (y ++ d :: z) (y ++ d :: z') := by
  have hparts : ∀ z, Parts (d :: z) := by
    rintro z e ⟨⟩
    exact hd
  exact .append y (hparts z) (hparts z') rfl

/-- Before a colon, single cells are not written as pairs. -/
lemma area?_write_of_succeeds {form : AreaForm} {range range' : Range} (harea : area? (area ++ tail) = some area)
    (hparse : AreaForm.parseChars? area = some (range, form)) (hshift : range.shift? rows cols = some range')
    (hs : Succeeds tail tail') (hd : tail.head? = some ':' → form = .cells → range.start = range.stop → ':' ∉ area) :
    area? (form.write range' ++ tail') = some (form.write range') := by
  have hfits := (AreaForm.fits_of_parseChars? hparse).shift hshift
  cases hs with
  | breaks hb hb' => exact area?_write hfits hb'.closes.endsBefore (hb'.ne (by simp))
  | colon halike =>
    refine area?_write_colon hfits fun hform heq => halike.cellLength? (cellLength?_of_area? harea ?_)
    exact hd rfl hform (Range.start_eq_stop_of_shift? hshift heq)

lemma Shows.exists_moved (h : Shows ctx c x tail r q area) (rows cols : Int) (hs : Succeeds tail tail')
    (hd : tail.head? = some ':' → ¬ r.IsDoubled) : ∃ d y, Moved rows cols ctx (.token (.reference r)) c x tail tail' d y := by
  -- a range that leaves the sheet becomes `#REF!`, a piece of its own; any other is written anew behind its qualifier
  rcases h.shift rows cols with ⟨hfall, hshift⟩ | ⟨form, range, range', hparse, hrange, hkind, hshift⟩
  · refine ⟨'#', ['R', 'E', 'F', '!'], hshift, ?_, .fallen h.isReferenceStart, fun _ _ => ⟨r, rfl, hfall⟩,
      fun hnot => absurd ⟨r, rfl, hfall⟩ hnot⟩
    rw [cut_hash, errorText_of_begins (e := .ref), PieceKind.shift, Token.shift, hfall]
    · rfl
    · exact List.prefix_append ['#', 'R', 'E', 'F', '!'] (tail'.map Char.toUpper)
  -- before a colon a single cell must not be written as a pair, which would take the colon for its own
  have hnot : tail.head? = some ':' → form = .cells → range.start = range.stop → ':' ∉ area := by
    rintro hcolon rfl heq hmem
    refine hd hcolon ⟨?_, range, ?_, heq⟩
    · rwa [h.begins.area_eq, String.toList_ofList]
    · rw [h.begins.area_eq, AreaForm.parse?, String.toList_ofList, hparse]
  have harea := area?_write_of_succeeds h.begins.area? hparse hrange hs hnot
  have hfits := (AreaForm.fits_of_parseChars? hparse).shift hrange
  obtain ⟨d, area', hwrite, hd⟩ := exists_head_area harea
  have hread := h.begins.replace _ _ harea (fun _ => AreaForm.isPartChar_of_mem_write) hs.closes'
  have hkind' : (PieceKind.token (.reference r)).shift rows cols =
      .token (.reference { r with area := String.ofList (form.write range') }) := congrArg PieceKind.token hkind
  have hchars := h.chars
  -- without a qualifier the first character may change, with one it stays
  cases q with
  | nil =>
    rw [List.nil_append] at hchars hshift hread
    obtain ⟨e, area'', heq, he⟩ := exists_head_area h.begins.area?
    have halike : Alike (c :: x ++ tail) (d :: area' ++ tail') := by
      rw [hchars, ← hwrite]
      exact .areas h.begins.area? hparse harea (AreaForm.parseChars?_write hfits)
    obtain ⟨rfl, rfl⟩ := List.cons.inj (hchars.trans heq)
    rw [hwrite] at hshift hread
    refine ⟨d, area', hshift, ?_, .area he hd, ?_, fun _ => halike⟩
    · rw [hkind', hwrite]
      refine cut_of_reference? hread (isReferenceStart_of_isPartChar hd) (notCalled_area (fun e he => ?_) hs.closes') ?_
      · exact AreaForm.isPartChar_of_mem_write (by rw [hwrite]; exact he)
      · rintro rfl
        exact absurd hd (by decide)
    · rintro rfl
      exact absurd hd (by decide)
  | cons e q =>
    obtain ⟨rfl, rfl⟩ := List.cons.inj hchars
    have hcall : NotCalled c (q ++ (area ++ tail)) := by
      rw [← List.append_assoc]
      exact h.notCalled
    refine ⟨c, q ++ form.write range', hshift, ?_, .same _, fun hc hne => absurd hc hne, fun _ => ?_⟩
    · rw [hkind', List.append_assoc]
      exact cut_of_reference? hread h.isReferenceStart (notCalled_qualifier h.begins.qualifier hcall) h.depth
    · obtain ⟨y, d, z, hq, hd⟩ := exists_append_of_isQualifier h.begins.qualifier (by simp)
      have htext : ∀ z', c :: (q ++ z') = y ++ d :: (z ++ z') := fun z' => by
        rw [← List.cons_append, hq, List.append_assoc, List.cons_append]
      show Alike (c :: (q ++ area) ++ tail) (c :: (q ++ form.write range') ++ tail')
      simp only [List.cons_append, List.append_assoc, htext]
      exact alike_of_not_isPartChar hd y _ _

end Shows

/-! Whole texts. -/

lemma Swaps.breaks (h : Swaps tail.head? tail'.head?) (hb : Breaks tail) : Breaks tail' := by
  have hnot : ∀ {d : Char}, isReferenceStart d = true → isBreak d = false := by
    intro d hd
    rw [Bool.eq_false_iff]
    intro hbreak
    obtain ⟨halphabetic, hnumeric, -, hne⟩ := isBreak_iff.1 hbreak
    simp only [isReferenceStart, isPartChar, Bool.or_eq_true, beq_iff_eq, List.contains_eq_mem, decide_eq_true_eq] at hd
    rcases hd with ((hd | hd) | rfl) | hd
    · rw [isAlphabetic_of_isAlpha hd] at halphabetic
      cases halphabetic
    · rw [isNumeric_of_isDigit hd] at hnumeric
      cases hnumeric
    · simp at hne
    · simp only [List.mem_cons, List.not_mem_nil, or_false, not_or] at hd hne
      rcases hd with rfl | rfl | rfl | rfl <;> simp at hne
  unfold Breaks at hb ⊢
  generalize tail.head? = a at h hb
  generalize tail'.head? = b at h
  cases h with
  | same => exact hb
  | area hc hd =>
    have hbreak := hb _ rfl
    rw [hnot (isReferenceStart_of_isPartChar hc)] at hbreak
    cases hbreak
  | fallen hc =>
    have hbreak := hb _ rfl
    rw [hnot hc] at hbreak
    cases hbreak

/-! A piece that may be the front of an area is a word or calls a function. -/

lemma cut_of_isPartChar (hc : isPartChar c = true) (rest : List Char) :
    cut {} ctx c rest = if c = '$' then referenceOr (c :: rest) (.malformed .strayMark, 0) else plain c rest := by
  by_cases hmark : c = '$'
  · subst hmark
    rw [cut_mark, if_pos rfl]
  · rw [if_neg hmark, cut_eq_plain (isBlank_of_isPartChar (Or.inl hc))]
    exact not_mem_of_all (p := fun d => isPartChar d && d != '$') (by decide) (by simp [hc, hmark])

lemma isWord_of_referenceOr {cs : List Char} {other : Cut} (h : referenceOr cs other = (k, n))
    (hother : other = (k, n) → k.isWord = true) : k.isWord = true := by
  unfold referenceOr at h
  split at h
  · rw [← (Prod.mk.inj h).1]
    rfl
  · exact hother h

lemma isWord_of_identifier (hc : isIdentifierChar c = true) (h : identifier (c :: (x ++ tail)) = (k, x.length)) :
    k.isWord = true ∨ tail.head? = some '(' := by
  rw [identifier_eq] at h
  split at h
  · rename_i hcall
    obtain ⟨hx, ht⟩ := run_of_word hc (Prod.mk.inj h).2.symm
    rw [← List.cons_append, dropWhile_run hx ht] at hcall
    exact Or.inr hcall
  · refine Or.inl (isWord_of_referenceOr h fun hplain => ?_)
    rw [← (Prod.mk.inj hplain).1]
    exact isWord_plainWord _

lemma isWord_of_cut (h : cut {} ctx c (x ++ tail) = (k, x.length)) (hk : k.isLegible = true) (hc : isPartChar c = true) :
    k.isWord = true ∨ tail.head? = some '(' := by
  rw [cut_of_isPartChar hc] at h
  split at h
  · refine Or.inl (isWord_of_referenceOr h fun hmark => ?_)
    rw [← (Prod.mk.inj hmark).1] at hk
    cases hk
  rename_i hmark
  unfold plain at h
  split at h
  · exact Or.inl (isWord_of_referenceOr h fun hnumber => isWord_of_number hnumber hk)
  rename_i hdigit
  split at h
  · exact Or.inl (isWord_of_number h hk)
  have halpha : c.isAlpha = true := by
    simp only [isPartChar, Bool.or_eq_true, beq_iff_eq] at hc
    exact (hc.resolve_right hmark).resolve_right hdigit
  rw [if_pos (by simp [isAlphabetic_of_isAlpha halpha])] at h
  exact isWord_of_identifier (by simp [isIdentifierChar, isAlphabetic_of_isAlpha halpha]) h

lemma exists_moved (rows cols : Int) (h : cut {} ctx c (x ++ tail) = (k, x.length)) (hk : k.isLegible = true)
    (hs : Swaps tail.head? tail'.head?) (hint : k.isIntersect = true → tail'.head? = some '#' → tail.head? = some '#')
    (hw : k.isWord = true → Succeeds tail tail') (hd : tail.head? = some ':' → ¬ k.IsDoubled) :
    ∃ d y, Moved rows cols ctx k c x tail tail' d y := by
  by_cases href : ∃ r, k = .token (.reference r)
  · obtain ⟨r, rfl⟩ := href
    obtain ⟨q, area, hshows⟩ := exists_shows h
    exact hshows.exists_moved rows cols (hw rfl) fun hcolon hr => hd hcolon ⟨r, rfl, hr⟩
  · have hne : ∀ r, k ≠ .token (.reference r) := fun r hr => href ⟨r, hr⟩
    refine ⟨c, x, ?_, ?_, .same _, fun hc hc' => absurd hc hc', fun _ => ?_⟩
    · unfold shift
      split
      · rename_i r hr
        exact absurd hr (hne r)
      · rfl
    · rw [PieceKind.shift_of_not_reference hne]
      exact cut_append hk hne hs.alters hw hint h
    · by_cases hc : isPartChar c = true
      · rcases isWord_of_cut h hk hc with hword | hcall
        · have hsucceeds := hw hword
          have hends := hsucceeds.closes.endsBefore
          have hends' := hsucceeds.closes'.endsBefore
          exact .append (c :: x) (parts_of_endsBefore hends) (parts_of_endsBefore hends') (hends'.trans hends.symm)
        · have hcall' : tail'.head? = some '(' := (hs.eq_some (by decide) (by decide)).2 hcall
          obtain ⟨rest, rfl⟩ := List.head?_eq_some_iff.1 hcall
          obtain ⟨rest', rfl⟩ := List.head?_eq_some_iff.1 hcall'
          exact alike_of_not_isPartChar (by decide) (c :: x) rest rest'
      · exact alike_of_not_isPartChar (Bool.eq_false_iff.2 hc) [] _ _

lemma Cuts.closes (h : Cuts {} ctx ps) (hl : ∀ p ∈ ps, p.kind.isLegible = true)
    (hm : ∀ p ∈ ps.head?, p.kind.startsOperand = false) : Closes (ps.flatMap Piece.chars) := by
  cases ps with
  | nil => rintro c ⟨⟩
  | cons p ps =>
    obtain ⟨c, x, hchars, hcut, -⟩ := h
    rw [List.flatMap_cons, hchars]
    rintro d ⟨⟩
    exact isBreak_or_colon_of_cut hcut (hl p (by simp)) (hm p rfl)

lemma Cuts.colon (h : Cuts {} ctx ps) {u : List Char} (hu : ps.flatMap Piece.chars = ':' :: u) :
    ∃ ps', ps = ⟨.token (.operator .colon), [':']⟩ :: ps' ∧ u = ps'.flatMap Piece.chars := by
  cases ps with
  | nil => cases hu
  | cons p ps =>
    obtain ⟨kind, chars⟩ := p
    obtain ⟨c, x, rfl, hcut, -⟩ := h
    rw [List.flatMap_cons, List.cons_append] at hu
    obtain ⟨rfl, rfl⟩ := List.cons.inj hu
    rw [cut_colon] at hcut
    obtain ⟨rfl, hlength⟩ := Prod.mk.inj hcut
    obtain rfl := List.eq_nil_of_length_eq_zero hlength.symm
    exact ⟨ps, rfl, rfl⟩

lemma Cuts.breaks (h : Cuts {} ctx ps) (hl : ∀ p ∈ ps, p.kind.isLegible = true)
    (hm : ∀ p ∈ ps.head?, p.kind.startsOperand = false ∧ p.kind.isColon = false) : Breaks (ps.flatMap Piece.chars) := by
  cases ps with
  | nil => rintro c ⟨⟩
  | cons p ps =>
    obtain ⟨c, x, hchars, hcut, -⟩ := h
    rw [List.flatMap_cons, hchars]
    rintro d ⟨⟩
    obtain ⟨hstart, hcolon⟩ := hm p rfl
    exact isBreak_of_cut hcut (hl p (by simp)) hstart hcolon

lemma advance_shift (ctx : Context) (k : PieceKind) : advance ctx (k.shift rows cols) = advance ctx k := by
  cases k with
  | token t =>
    cases t with
    | reference r =>
      simp only [PieceKind.shift, Token.shift, ReferenceToken.shift]
      split
      · rfl
      · split <;> rfl
    | _ => rfl
  | _ => rfl

/-- The text of the pieces before and after the move. -/
structure Follows (rows cols : Int) (ps : List Piece) (before after : List Char) : Prop where
  swaps : Swaps before.head? after.head?
  falls : after.head? = some '#' → before.head? ≠ some '#' → ∃ p ∈ ps.head?, p.kind.Falls rows cols
  alike : (∀ p ∈ ps.head?, ¬ p.kind.Falls rows cols) → Alike before after
  colon : (∀ p ∈ ps, ¬ p.kind.Falls rows cols) → ∀ u, before = ':' :: u → ∃ u', after = ':' :: u' ∧ Alike u u'

lemma Follows.succeeds {after : List Char} (h : Follows rows cols ps (ps.flatMap Piece.chars) after) (hcuts : Cuts {} ctx ps)
    (hl : ∀ q ∈ ps, q.kind.isLegible = true) (hm : ∀ q ∈ ps.head?, Meets rows cols p q) (hsteady : Steady rows cols (p :: ps))
    (hp : p.kind.isWord = true) : Succeeds (ps.flatMap Piece.chars) after := by
  have hcloses : Closes (ps.flatMap Piece.chars) := hcuts.closes hl fun q hq => (hm q hq).word hp
  by_cases hcolon : (ps.flatMap Piece.chars).head? = some ':'
  · obtain ⟨u, hu⟩ := List.head?_eq_some_iff.1 hcolon
    rcases hsteady with hfalls | hapart
    · obtain ⟨u', rfl, halike⟩ := h.colon (fun q hq => hfalls q (List.mem_cons_of_mem _ hq)) u hu
      rw [hu]
      exact .colon halike
    · obtain ⟨ps', rfl, -⟩ := hcuts.colon hu
      exact absurd (List.isChain_cons_cons.1 hapart).1 (by simp [hp, PieceKind.isColon])
  · have hbreaks : Breaks (ps.flatMap Piece.chars) := fun c hc => (hcloses c hc).resolve_right fun heq => hcolon (heq ▸ hc)
    exact .breaks hbreaks (h.swaps.breaks hbreaks)

/-- What is cut after the move are the moved pieces. -/
theorem Cuts.moved (h : Cuts {} ctx ps) (hl : ∀ p ∈ ps, p.kind.isLegible = true) (hm : ps.IsChain (Meets rows cols))
    (hsteady : Steady rows cols ps) : Cuts {} ctx (ps.map (moved rows cols)) ∧
      Follows rows cols ps (ps.flatMap Piece.chars) ((ps.map (moved rows cols)).flatMap Piece.chars) := by
  -- from the end of the text: a piece stays one as long as what follows it begins like what followed it before
  induction ps generalizing ctx with
  | nil => exact ⟨trivial, .same _, fun h => (nomatch h), fun _ => ⟨rfl, rfl, rfl⟩, fun _ u hu => (nomatch hu)⟩
  | cons p ps ih =>
    obtain ⟨hmeets, hm⟩ := List.isChain_cons.1 hm
    obtain ⟨c, x, hchars, hcut, hrest⟩ := h
    have hl' : ∀ q ∈ ps, q.kind.isLegible = true := fun q hq => hl q (by simp [hq])
    obtain ⟨hcuts, hfollows⟩ := ih hrest hl' hm hsteady.of_cons
    have hint : p.kind.isIntersect = true → ((ps.map (Piece.moved rows cols)).flatMap Piece.chars).head? = some '#' →
        (ps.flatMap Piece.chars).head? = some '#' := by
      intro hp hhash
      by_contra hne
      obtain ⟨q, hq, hq'⟩ := hfollows.falls hhash hne
      exact (hmeets q hq).intersect hp hq'
    have hdoubled : (ps.flatMap Piece.chars).head? = some ':' → ¬ p.kind.IsDoubled := by
      intro hcolon hp
      obtain ⟨u, hu⟩ := List.head?_eq_some_iff.1 hcolon
      obtain ⟨ps', rfl, -⟩ := hrest.colon hu
      exact absurd ((hmeets _ rfl).doubled hp) (by decide)
    obtain ⟨d, y, hmoved⟩ := exists_moved rows cols hcut (hl p (by simp)) hfollows.swaps hint
      (hfollows.succeeds hrest hl' hmeets hsteady) hdoubled
    have hp : p = ⟨p.kind, c :: x⟩ := by rw [← hchars]
    have hshift : (Piece.moved rows cols p).chars = d :: y := by
      rw [hp]
      exact hmoved.shift
    refine ⟨⟨d, y, hshift, hmoved.cut, ?_⟩, ?_⟩
    · rw [show (Piece.moved rows cols p).kind = p.kind.shift rows cols from rfl, advance_shift]
      exact hcuts
    · rw [List.map_cons, List.flatMap_cons, List.flatMap_cons, hchars, hshift]
      refine ⟨hmoved.swaps, fun hd hc => ⟨p, rfl, hmoved.falls (Option.some.inj hd) fun heq => hc ?_⟩,
        fun hfalls => hmoved.alike (hfalls p rfl), fun hfalls u hu => ?_⟩
      · rw [heq]
        rfl
      · obtain ⟨rfl, rfl⟩ := List.cons.inj hu
        rw [cut_colon] at hcut
        obtain ⟨hkind, hlength⟩ := Prod.mk.inj hcut
        obtain rfl := List.eq_nil_of_length_eq_zero hlength.symm
        have hsame : (Piece.moved rows cols p).chars = [':'] := by
          rw [hp, ← hkind]
          rfl
        rw [← hshift, hsame]
        exact ⟨_, rfl, hfollows.alike fun q hq => hfalls q (List.mem_cons_of_mem _ (List.mem_of_mem_head? hq))⟩

theorem pieces_flatMap_shift {cs : List Char} (hl : ∀ p ∈ TokenTree.pieces {} cs, p.kind.isLegible = true)
    (hm : (TokenTree.pieces {} cs).IsChain (Meets rows cols)) (hs : Steady rows cols (TokenTree.pieces {} cs)) :
    TokenTree.pieces {} ((TokenTree.pieces {} cs).flatMap (shift rows cols)) = (TokenTree.pieces {} cs).map (moved rows cols) := by
  have hcuts := ((cuts_scan {} cs.length {} cs (Nat.le_refl _)).moved hl hm hs).1
  have hchars : (TokenTree.pieces {} cs).flatMap (shift rows cols) =
      ((TokenTree.pieces {} cs).map (moved rows cols)).flatMap Piece.chars := by
    rw [List.flatMap_map]
    rfl
  rw [hchars]
  exact scan_of_cuts _ _ hcuts (Nat.le_refl _)

end Piece

end Spreadsheet.Formula
