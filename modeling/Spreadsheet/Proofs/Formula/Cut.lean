import Spreadsheet.Proofs.Formula.Lexeme

/-! What a piece of formula text says depends on the first character after it at most. -/

namespace Spreadsheet.Formula

namespace Piece

open Text ReferenceText

variable {o : Separators} {ctx : Context} {c : Char} {x tail tail' rest : List Char} {k : PieceKind} {r : ReferenceToken} {n : Nat}

/-! What holds of all kinds of pieces that a part of `cut` can give. -/

section Kinds

variable {P : PieceKind → Prop} {cs : List Char}

lemma kind_blanks (hblank : P .blank) (hintersect : P (.token (.operator .intersect))) : P (blanks ctx rest).1 := by
  simp only [blanks, apply_ite Prod.fst]
  generalize (ctx.afterOperand && _) = intersects
  cases intersects with
  | true => exact hintersect
  | false => exact hblank

lemma kind_referenceOr {other : Cut} (href : ∀ r, P (.token (.reference r))) (hother : P other.1) :
    P (referenceOr cs other).1 := by
  unfold referenceOr
  split
  · exact href _
  · exact hother

lemma kind_plainWord (hboolean : ∀ b, P (.token (.boolean b))) (hname : ∀ s, P (.token (.name s))) : P (plainWord cs) := by
  unfold plainWord
  split
  · exact hboolean _
  split
  · exact hboolean _
  · exact hname _

lemma kind_identifier (hfunction : ∀ s, P (.token (.function s))) (href : ∀ r, P (.token (.reference r)))
    (hboolean : ∀ b, P (.token (.boolean b))) (hname : ∀ s, P (.token (.name s))) : P (identifier cs).1 := by
  rw [identifier_eq]
  split
  · exact hfunction _
  · refine kind_referenceOr href ?_
    dsimp only
    exact kind_plainWord hboolean hname

variable (hmalformed : ∀ m, P (.malformed m))
include hmalformed

lemma kind_text (htext : ∀ s, P (.token (.text s))) : P (text cs).1 := by
  unfold text
  split
  · exact htext _
  · exact hmalformed _

lemma kind_errorText (herror : ∀ e, P (.token (.error e))) : P (errorText cs).1 := by
  unfold errorText
  split
  · exact herror _
  · exact hmalformed _

lemma kind_number (hnumber : ∀ v, P (.token (.number v))) : P (number o cs).1 := by
  rw [number]
  dsimp only
  split
  · split
    · exact hnumber _
    · exact hmalformed _
  · exact hmalformed _

lemma kind_operatorSign (hsign : ∀ s, P (.token (.operator s))) : P (operatorSign c cs).1 := by
  unfold operatorSign
  split
  all_goals first | exact hsign _ | exact hmalformed _

lemma kind_opening {g : GroupKind} (hopening : P (.opening g)) : P (opening ctx g) := by
  unfold opening
  split
  · exact hmalformed _
  · exact hopening

lemma kind_closing (hclosing : P .closing) : P (closing ctx c) := by
  unfold closing
  split
  · split
    · exact hclosing
    · exact hmalformed _
  · exact hmalformed _

end Kinds

lemma numberLength_pos {cs : List Char} (h : c.isDigit = true ∨ c = '.' ∧ ∃ d ∈ cs.head?, d.isDigit = true) :
    1 ≤ numberLength {} (c :: cs) := by
  rcases h with h | ⟨rfl, d, hd, h⟩
  · rw [numberLength, List.takeWhile_cons_of_pos h, List.length_cons]
    omega
  · cases cs with
    | nil => cases hd
    | cons e cs =>
      obtain rfl : e = d := Option.some.inj hd
      rw [numberLength, List.takeWhile_cons_of_neg (by decide), List.length_nil, List.drop_zero, fraction, if_pos rfl,
        if_pos (by simp [h])]
      omega

lemma numberLength_le (o : Separators) (cs : List Char) : numberLength o cs ≤ cs.length := by
  have hwhole := (List.takeWhile_prefix Char.isDigit (l := cs)).length_le
  have hfraction := fraction_le o.decimal (cs.drop (cs.takeWhile Char.isDigit).length)
  have hpower := power_le ((cs.drop (cs.takeWhile Char.isDigit).length).drop
    (fraction o.decimal (cs.drop (cs.takeWhile Char.isDigit).length)).2)
  rw [List.length_drop] at hfraction
  rw [List.length_drop, List.length_drop] at hpower
  rw [numberLength]
  omega

lemma referenceOr_le {cs : List Char} {other : Cut} (h : other.2 ≤ cs.length - 1) : (referenceOr cs other).2 ≤ cs.length - 1 := by
  unfold referenceOr
  split
  · rename_i r n href
    obtain ⟨q, area, rest, hbegins, rfl⟩ := exists_begins href
    have hlength := congrArg List.length hbegins.text
    simp only [List.length_append] at hlength ⊢
    omega
  · exact h

lemma errorText_le (cs : List Char) : (errorText cs).2 ≤ cs.length := by
  unfold errorText
  split
  · rename_i e hfind
    have hle := (startsWithError_iff.1 (List.find?_some hfind)).length_le
    rw [List.length_map, String.length_toList, List.length_cons] at hle
    dsimp only
    omega
  · exact (List.takeWhile_prefix _).length_le

lemma text_le (cs : List Char) : (text cs).2 ≤ cs.length := by
  unfold text
  split
  · rename_i s n hquoted
    obtain ⟨q, rest, rfl, rfl, -⟩ := quotedText?_eq_some hquoted
    simp
  · exact Nat.le_refl _

lemma blanks_le (ctx : Context) (cs : List Char) : (blanks ctx cs).2 ≤ cs.length :=
  blanks_snd cs ▸ (List.takeWhile_prefix _).length_le

lemma identifier_le (cs : List Char) : (identifier cs).2 ≤ cs.length - 1 := by
  have hle := Nat.sub_le_sub_right (List.takeWhile_prefix isIdentifierChar (l := cs)).length_le 1
  rw [identifier_eq]
  split
  · exact hle
  · exact referenceOr_le hle

lemma number_le (o : Separators) (cs : List Char) : (number o cs).2 ≤ cs.length - 1 := by
  rw [number_snd]
  exact Nat.sub_le_sub_right (numberLength_le o cs) 1

/-- The characters that begin identifiers. -/
def isWordStart (c : Char) : Bool := isAlphabetic c || c == '_' || c == '\\'

/-- How a piece is cut, by the character that it begins with. -/
inductive CutSpec (o : Separators) (ctx : Context) (rest : List Char) : Char → Cut → Prop
  | blanks {c : Char} (hc : Text.isBlank c = true) : CutSpec o ctx rest c (blanks ctx rest)
  | column (hbrace : ctx.opened.head? = some .brace) : CutSpec o ctx rest o.arrayColumn (.token .columnSeparator, 0)
  | row (hbrace : ctx.opened.head? = some .brace) : CutSpec o ctx rest o.arrayRow (.token .rowSeparator, 0)
  | argument (hcolumn : ctx.opened.head? = some .brace → o.argument ≠ o.arrayColumn) :
      CutSpec o ctx rest o.argument (.token .argumentSeparator, 0)
  | text : CutSpec o ctx rest '"' (text rest)
  | errorText : CutSpec o ctx rest '#' (errorText rest)
  | paren : CutSpec o ctx rest '(' (opening ctx .paren, 0)
  | brace : CutSpec o ctx rest '\x7b' (opening ctx .brace, 0)
  | tooDeep : CutSpec o ctx rest '[' (.malformed .tooDeep, 0)
  | bracket (hdepth : ctx.opened.length < maxGroupDepth) :
      CutSpec o ctx rest '[' (referenceOr ('[' :: rest) (.opening .bracket, 0))
  | closing (k : GroupKind) : CutSpec o ctx rest k.closer (closing ctx k.closer, 0)
  | quote : CutSpec o ctx rest '\'' (referenceOr ('\'' :: rest) (.malformed .unqualifiedSheet, rest.length))
  | mark : CutSpec o ctx rest '$' (referenceOr ('$' :: rest) (.malformed .strayMark, 0))
  | digit {c : Char} (hc : c.isDigit = true) : CutSpec o ctx rest c (referenceOr (c :: rest) (number o (c :: rest)))
  | point : CutSpec o ctx rest o.decimal (number o (o.decimal :: rest))
  | word {c : Char} (hc : isWordStart c = true) : CutSpec o ctx rest c (identifier (c :: rest))
  | sign {c : Char} : CutSpec o ctx rest c (operatorSign c rest)

lemma cut_spec (o : Separators) (ctx : Context) (c : Char) (rest : List Char) : CutSpec o ctx rest c (cut o ctx c rest) := by
  unfold cut
  dsimp only
  split
  · rename_i hblank
    exact .blanks hblank
  split
  · rename_i hcolumn
    obtain ⟨hbrace, hc⟩ := Bool.and_eq_true_iff.1 hcolumn
    obtain rfl : c = o.arrayColumn := beq_iff_eq.1 hc
    exact .column (beq_iff_eq.1 hbrace)
  rename_i hcolumn
  split
  · rename_i hrow
    obtain ⟨hbrace, hc⟩ := Bool.and_eq_true_iff.1 hrow
    obtain rfl : c = o.arrayRow := beq_iff_eq.1 hc
    exact .row (beq_iff_eq.1 hbrace)
  split
  · rename_i hargument
    subst hargument
    exact .argument fun hbrace heq => hcolumn (by rw [hbrace, heq, beq_self_eq_true, beq_self_eq_true]; rfl)
  split
  · exact .text
  · exact .errorText
  · exact .paren
  · exact .brace
  · split
    · exact .tooDeep
    · rename_i hdepth
      exact .bracket (Nat.lt_of_not_le hdepth)
  · exact .closing .paren
  · exact .closing .brace
  · exact .closing .bracket
  · exact .quote
  · exact .mark
  · split
    · rename_i hdigit
      exact .digit hdigit
    split
    · rename_i hpoint
      obtain rfl : c = o.decimal := beq_iff_eq.1 (Bool.and_eq_true_iff.1 hpoint).1
      exact .point
    split
    · rename_i hword
      exact .word hword
    · exact .sign

lemma cut_le (o : Separators) (ctx : Context) (c : Char) (rest : List Char) : (cut o ctx c rest).2 ≤ rest.length := by
  have hcut := cut_spec o ctx c rest
  generalize cut o ctx c rest = y at hcut ⊢
  cases hcut with
  | blanks => exact blanks_le ctx rest
  | text => exact text_le rest
  | errorText => exact errorText_le rest
  | quote => exact referenceOr_le (Nat.le_refl _)
  | bracket | mark => exact referenceOr_le (Nat.zero_le _)
  | digit => exact referenceOr_le (number_le o _)
  | point => exact number_le o _
  | word => exact identifier_le _
  | sign => exact operatorSign_le _ rest
  | column | row | argument | paren | brace | tooDeep | closing => exact Nat.zero_le _

lemma reference?_of_isDigit (hc : c.isDigit = true) :
    reference? (c :: rest) = (area? (c :: rest)).map fun area => (token none none area, area.length) := by
  have hne : ∀ d, d.isDigit = false → c ≠ d := by
    rintro d hd rfl
    rw [hc] at hd
    cases hd
  have hbook : book? (c :: rest) = none := book?_of_head (by simpa using hne '[' (by decide))
  have hsheet : sheet? (c :: rest) = none := by
    have halpha : c.isAlpha = false := by
      rw [Bool.eq_false_iff, Ne, isAlpha_iff]
      have := isDigit_iff.1 hc
      omega
    simp [sheet?, halpha, hne '\'' (by decide), hne '_' (by decide), hne '\\' (by decide)]
  simp only [reference?, hbook, hsheet]

lemma number_append' (h : number {} (c :: (x ++ tail)) = (k, x.length)) (hpos : 1 ≤ numberLength {} (c :: (x ++ tail)))
    (hc : Closes tail) (hc' : Closes tail') : number {} (c :: (x ++ tail')) = (k, x.length) := by
  have hlength := congrArg Prod.snd h
  rw [number_snd] at hlength
  rw [← List.cons_append] at h hpos hlength ⊢
  rw [number_append hc (by rw [List.length_cons]; omega) hc', h]

/-- Pieces that begin with none of the characters that have a meaning of their own. -/
def plain (c : Char) (rest : List Char) : Cut :=
  if c.isDigit then referenceOr (c :: rest) (number {} (c :: rest))
  else if c == '.' && (rest.head?.map Char.isDigit).getD false then number {} (c :: rest)
  else if isAlphabetic c || c == '_' || c == '\\' then identifier (c :: rest)
  else operatorSign c rest

lemma cut_eq_plain (hblank : Text.isBlank c = false)
    (hc : c ∉ [',', ';', '"', '#', '(', '\x7b', '[', ')', '\x7d', ']', '\'', '$']) (rest : List Char) :
    cut {} ctx c rest = plain c rest := by
  simp only [List.mem_cons, List.not_mem_nil, or_false, not_or] at hc
  unfold cut
  dsimp only
  rw [if_neg (by simp [hblank]), if_neg (by simp [hc.1]), if_neg (by simp [hc.2.1]), if_neg hc.1]
  split
  case h_11 => rfl
  all_goals simp at hc

lemma not_mem_of_all {p : Char → Bool} {l : List Char} (hl : (l.all fun d => !p d) = true) (hc : p c = true) : c ∉ l := by
  intro hmem
  have hnot := List.all_eq_true.1 hl c hmem
  rw [hc] at hnot
  cases hnot

lemma cut_mark (rest : List Char) : cut {} ctx '$' rest = referenceOr ('$' :: rest) (.malformed .strayMark, 0) := by
  unfold cut
  simp [show Text.isBlank '$' = false by decide]

lemma exists_of_number {cs : List Char} (h : number o cs = (k, n)) (hk : k.isLegible = true) :
    ∃ v, k = .token (.number v) := by
  have hkind : (number o cs).1.isLegible = true → ∃ v, (number o cs).1 = .token (.number v) :=
    kind_number (P := fun k => k.isLegible = true → ∃ v, k = .token (.number v)) (fun _ h => nomatch h) fun v _ => ⟨v, rfl⟩
  rw [h] at hkind
  exact hkind hk

lemma isWord_of_number {cs : List Char} (h : number o cs = (k, n)) (hk : k.isLegible = true) : k.isWord = true := by
  obtain ⟨v, rfl⟩ := exists_of_number h hk
  rfl

lemma other_of_referenceOr {cs : List Char} {other : Cut} (h : referenceOr cs other = (k, n))
    (href : ∀ r, k ≠ .token (.reference r)) : reference? cs = none ∧ other = (k, n) := by
  unfold referenceOr at h
  split at h
  · exact absurd (Prod.mk.inj h).1.symm (href _)
  · rename_i hnone
    exact ⟨hnone, h⟩

lemma exists_of_next {a : Option Char} {p : Char → Bool} (h : (a.map p).getD false = true) : ∃ d ∈ a, p d = true := by
  cases a with
  | none => cases h
  | some d => exact ⟨d, rfl, h⟩

lemma cut_of_isBlank (hb : Text.isBlank c = true) (rest : List Char) : cut o ctx c rest = blanks ctx rest := by
  unfold cut
  exact if_pos hb

section Append

variable (hk : k.isLegible = true) (href : ∀ r, k ≠ .token (.reference r)) (hs : Alters tail.head? tail'.head?)
  (hw : k.isWord = true → Succeeds tail tail')
include hk href hs hw

lemma plain_append (h : plain c (x ++ tail) = (k, x.length)) : plain c (x ++ tail') = (k, x.length) := by
  unfold plain at h ⊢
  split at h
  · rename_i hdigit
    obtain ⟨hnone, hnumber⟩ := other_of_referenceOr h href
    -- a digit may also begin a range of rows, and none may come about from what follows now
    have hsucceeds := hw (isWord_of_number hnumber hk)
    rw [reference?_of_isDigit hdigit, Option.map_eq_none_iff, ← List.cons_append] at hnone
    have hnone' : reference? (c :: (x ++ tail')) = none := by
      rw [reference?_of_isDigit hdigit, ← List.cons_append, hsucceeds.area?_eq_none hnone, Option.map_none]
    rw [if_pos hdigit, referenceOr, hnone']
    exact number_append' hnumber (numberLength_pos (Or.inl hdigit)) hsucceeds.closes hsucceeds.closes'
  rename_i hdigit
  rw [if_neg hdigit]
  split at h
  · rename_i hpoint
    -- a point before a digit
    have hsucceeds := hw (isWord_of_number h hk)
    obtain ⟨hc, hnext⟩ := Bool.and_eq_true_iff.1 hpoint
    obtain rfl : c = '.' := beq_iff_eq.1 hc
    obtain ⟨d, hd, hdigit'⟩ := exists_of_next hnext
    cases x with
    | nil =>
      have hnot := hsucceeds.closes.isDigit d hd
      rw [hdigit'] at hnot
      cases hnot
    | cons e x =>
      obtain rfl : e = d := Option.some.inj hd
      rw [if_pos (by simp [hdigit'])]
      exact number_append' h (numberLength_pos (Or.inr ⟨rfl, e, rfl, hdigit'⟩)) hsucceeds.closes hsucceeds.closes'
  rename_i hpoint
  have hpoint' : c ≠ '.' → ¬ (c == '.' && ((x ++ tail').head?.map Char.isDigit).getD false) = true := fun hne => by simp [hne]
  split at h
  · rename_i hword
    have hne : c ≠ '.' := by
      rintro rfl
      exact absurd hword (by decide)
    have hc : isIdentifierChar c = true := by
      simp only [Bool.or_eq_true] at hword
      simp only [isIdentifierChar, Bool.or_eq_true]
      rcases hword with (hword | hword) | hword
      · exact Or.inl (Or.inl (Or.inl (Or.inl hword)))
      · exact Or.inl (Or.inl (Or.inr hword))
      · exact Or.inr hword
    rw [if_neg (hpoint' hne), if_pos hword]
    exact identifier_append hc h href hs hw
  · rename_i hword
    have hne : c ≠ '.' := by
      rintro rfl
      rw [operatorSign_plain (by decide) (by decide)] at h
      rw [← (Prod.mk.inj h).1] at hk
      cases hk
    rw [if_neg (hpoint' hne), if_neg hword, operatorSign_append hs, h]

/-- What a piece says depends on the first character after it at most. -/
lemma cut_append (hint : k.isIntersect = true → tail'.head? = some '#' → tail.head? = some '#')
    (h : cut {} ctx c (x ++ tail) = (k, x.length)) : cut {} ctx c (x ++ tail') = (k, x.length) := by
  by_cases hb : Text.isBlank c = true
  · rw [cut_of_isBlank hb] at h ⊢
    exact blanks_append h hs hint
  -- pieces that are read as something else where no reference can be read are not legible
  have hother : ∀ {cs : List Char} {m : PieceKind} {n : Nat}, m.isLegible = false → referenceOr cs (m, n) ≠ (k, x.length) := by
    intro cs m n hm heq
    rw [← (Prod.mk.inj (other_of_referenceOr heq href).2).1, hm] at hk
    cases hk
  unfold cut at h ⊢
  dsimp only at h ⊢
  rw [if_neg hb] at h ⊢
  split at h
  · rename_i hcolumn
    rw [if_pos hcolumn, h]
  rename_i hcolumn
  rw [if_neg hcolumn]
  split at h
  · rename_i hrow
    rw [if_pos hrow, h]
  rename_i hrow
  rw [if_neg hrow]
  split at h
  · rename_i hargument
    rw [if_pos hargument, h]
  rename_i hargument
  rw [if_neg hargument]
  split at h
  · exact text_append h hk hs
  · exact errorText_append h hk
  · exact h
  · exact h
  · split at h
    · rw [← (Prod.mk.inj h).1] at hk
      cases hk
    · exact absurd h (hother rfl)
  · exact h
  · exact h
  · exact h
  · exact absurd h (hother rfl)
  · exact absurd h (hother rfl)
  · exact plain_append hk href hs hw h

end Append

/-! References. -/

/-- Where a word is no function. -/
def NotCalled (c : Char) (rest : List Char) : Prop :=
  isWordStart c = true → ((c :: rest).dropWhile isIdentifierChar).head? ≠ some '('

lemma reference?_of_referenceOr {cs : List Char} {other : Cut} (h : referenceOr cs other = (.token (.reference r), n))
    (hother : other.1 ≠ .token (.reference r)) : ∃ m, reference? cs = some (r, m) ∧ n = m - 1 := by
  unfold referenceOr at h
  split at h
  · rename_i r' m href
    obtain ⟨hkind, hlength⟩ := Prod.mk.inj h
    obtain rfl : r' = r := Token.reference.inj (PieceKind.token.inj hkind)
    exact ⟨m, href, hlength.symm⟩
  · exact absurd (congrArg Prod.fst h) hother

lemma isWordStart_of_isDigit (h : c.isDigit = true) : isWordStart c = false := by
  have hdigit := isDigit_iff.1 h
  have halpha : c.isAlpha = false := by
    rw [Bool.eq_false_iff, Ne, isAlpha_iff]
    omega
  have hne : ∀ d, d.isDigit = false → c ≠ d := by
    rintro d hd rfl
    rw [h] at hd
    cases hd
  rw [isWordStart, isAlphabetic, if_pos (by omega), halpha]
  simp [hne '_' (by decide), hne '\\' (by decide)]

lemma reference?_of_cut (h : cut {} ctx c rest = (.token (.reference r), n)) :
    (∃ m, reference? (c :: rest) = some (r, m) ∧ n = m - 1) ∧ NotCalled c rest ∧
      (c = '[' → ctx.opened.length < maxGroupDepth) := by
  have hcut := cut_spec {} ctx c rest
  generalize cut {} ctx c rest = y at h hcut
  -- only where a reference is looked for is there one
  let Other : PieceKind → Prop := (· ≠ .token (.reference r))
  have hmalformed : ∀ m, Other (.malformed m) := by rintro m ⟨⟩
  have hnot : ¬ Other y.1 := fun hother => hother (congrArg Prod.fst h)
  cases hcut with
  | blanks => exact absurd (kind_blanks (P := Other) (by rintro ⟨⟩) (by rintro ⟨⟩)) hnot
  | text => exact absurd (kind_text hmalformed (by rintro s ⟨⟩)) hnot
  | errorText => exact absurd (kind_errorText hmalformed (by rintro e ⟨⟩)) hnot
  | paren | brace => exact absurd (kind_opening hmalformed (by rintro ⟨⟩)) hnot
  | closing => exact absurd (kind_closing hmalformed (by rintro ⟨⟩)) hnot
  | point => exact absurd (kind_number hmalformed (by rintro v ⟨⟩)) hnot
  | sign => exact absurd (kind_operatorSign hmalformed (by rintro s ⟨⟩)) hnot
  | tooDeep => exact absurd (hmalformed _) hnot
  | column | row | argument => exact absurd (by rintro ⟨⟩) hnot
  | bracket hdepth =>
    exact ⟨reference?_of_referenceOr h (by rintro ⟨⟩), fun hword => absurd hword (by decide), fun _ => hdepth⟩
  | quote | mark =>
    exact ⟨reference?_of_referenceOr h (hmalformed _), fun hword => absurd hword (by decide), fun hc => absurd hc (by decide)⟩
  | digit hdigit =>
    refine ⟨reference?_of_referenceOr h (kind_number hmalformed (by rintro v ⟨⟩)), fun hword => ?_, ?_⟩
    · rw [isWordStart_of_isDigit hdigit] at hword
      cases hword
    · rintro rfl
      exact absurd hdigit (by decide)
  | word hword =>
    rw [identifier_eq] at h
    split at h
    · cases (Prod.mk.inj h).1
    · rename_i hcall
      have hplain : Other (plainWord ((c :: rest).takeWhile isIdentifierChar)) :=
        kind_plainWord (by rintro b ⟨⟩) (by rintro s ⟨⟩)
      refine ⟨reference?_of_referenceOr h ?_, fun _ => hcall, ?_⟩
      · dsimp only
        exact hplain
      · rintro rfl
        exact absurd hword (by decide)

lemma cut_of_reference? {m : Nat} (h : reference? (c :: rest) = some (r, m)) (hstart : isReferenceStart c = true)
    (hcall : NotCalled c rest) (hdepth : c = '[' → ctx.opened.length < maxGroupDepth) :
    cut {} ctx c rest = (.token (.reference r), m - 1) := by
  have hor : ∀ other : Cut, referenceOr (c :: rest) other = (.token (.reference r), m - 1) := fun other => by
    rw [referenceOr, h]
  -- of the characters without a case of their own, digits and those that begin words are tried as references first
  have hplain : isPartChar c = true ∨ c = '_' ∨ c = '\\' → c ≠ '$' → plain c rest = (.token (.reference r), m - 1) := by
    intro hc hmark
    unfold plain
    split
    · exact hor _
    · rename_i hdigit
      have hword : isWordStart c = true := by
        simp only [isPartChar, Bool.or_eq_true, beq_iff_eq] at hc
        simp only [isWordStart, Bool.or_eq_true, beq_iff_eq]
        rcases hc with ((halpha | hdigit') | hmark') | hc | hc
        · exact Or.inl (Or.inl (isAlphabetic_of_isAlpha halpha))
        · exact absurd hdigit' hdigit
        · exact absurd hmark' hmark
        · exact Or.inl (Or.inr hc)
        · exact Or.inr hc
      have hpoint : c ≠ '.' := by
        rintro rfl
        exact absurd hword (by decide)
      rw [if_neg (by simp [hpoint]), if_pos (by exact hword), identifier_eq, if_neg (hcall hword), hor]
  by_cases hquote : c = '\''
  · subst hquote
    unfold cut
    simp [show Text.isBlank '\'' = false by decide, hor]
  by_cases hbracket : c = '['
  · subst hbracket
    unfold cut
    simp [show Text.isBlank '[' = false by decide, hor, Nat.not_le_of_lt (hdepth rfl)]
  by_cases hmark : c = '$'
  · subst hmark
    rw [cut_mark, hor]
  have hother := not_mem_of_all (c := c) (p := fun d => isReferenceStart d && d != '\'' && d != '[' && d != '$')
    (l := [',', ';', '"', '#', '(', '\x7b', '[', ')', '\x7d', ']', '\'', '$']) (by decide)
    (by simp [hstart, hquote, hbracket, hmark])
  rw [cut_eq_plain (isBlank_of_isReferenceStart hstart) hother]
  refine hplain ?_ hmark
  simpa [isReferenceStart, hquote, hbracket] using hstart

/-! What may follow a word. -/

/-- The codes of the blank characters. -/
def blankCodes : List Nat :=
  [9, 10, 11, 12, 13, 32, 133, 160, 5760, 8192, 8193, 8194, 8195, 8196, 8197, 8198, 8199, 8200, 8201, 8202, 8232, 8233,
    8239, 8287, 12288]

lemma isBreak_of_isBlank (h : Text.isBlank c = true) : isBreak c = true := by
  have hcodes : c.toNat ∈ blankCodes := by
    simp only [Text.isBlank, Bool.or_eq_true, Bool.and_eq_true, decide_eq_true_eq] at h
    simp only [blankCodes, List.mem_cons, List.not_mem_nil, or_false]
    omega
  have hall : ∀ code ∈ blankCodes, isBreak (Char.ofNat code) = true := by decide +kernel
  have hbreak := hall c.toNat hcodes
  rwa [Char.ofNat_toNat] at hbreak

lemma isBreak_of_operatorSign (hk : (operatorSign c rest).1.isLegible = true) : isBreak c = true ∨ c = ':' := by
  unfold operatorSign at hk
  split at hk
  any_goals decide
  exact absurd hk Bool.false_ne_true

lemma startsOperand_of_isWord (h : k.isWord = true) : k.startsOperand = true := by
  unfold PieceKind.isWord at h
  split at h
  any_goals rfl
  cases h

/-- A malformed stretch, or a piece that an operand begins with. -/
def Opens (k : PieceKind) : Prop := k.isLegible = true → k.startsOperand = true

lemma opens_malformed (m : Malformation) : Opens (.malformed m) := fun h => nomatch h

/-- What ends a word ends it for good, but for a colon. -/
lemma isBreak_or_colon_of_cut (h : cut {} ctx c rest = (k, n)) (hk : k.isLegible = true) (hstart : k.startsOperand = false) :
    isBreak c = true ∨ c = ':' := by
  have hcut := cut_spec {} ctx c rest
  generalize cut {} ctx c rest = y at h hcut
  have hnot : ¬ Opens y.1 := fun hopens => by
    rw [h] at hopens
    rw [hopens hk] at hstart
    cases hstart
  cases hcut with
  | blanks hb => exact Or.inl (isBreak_of_isBlank hb)
  | column | row | argument => decide
  | closing k => exact Or.inl (by cases k <;> decide)
  | sign => exact isBreak_of_operatorSign (by rw [h]; exact hk)
  | text => exact absurd (kind_text opens_malformed fun _ _ => rfl) hnot
  | errorText => exact absurd (kind_errorText opens_malformed fun _ _ => rfl) hnot
  | paren | brace => exact absurd (kind_opening opens_malformed fun _ => rfl) hnot
  | tooDeep => exact absurd (opens_malformed _) hnot
  | bracket => exact absurd (kind_referenceOr (P := Opens) (fun _ _ => rfl) fun _ => rfl) hnot
  | quote | mark => exact absurd (kind_referenceOr (fun _ _ => rfl) (opens_malformed _)) hnot
  | digit => exact absurd (kind_referenceOr (fun _ _ => rfl) (kind_number opens_malformed fun _ _ => rfl)) hnot
  | point => exact absurd (kind_number opens_malformed fun _ _ => rfl) hnot
  | word =>
    exact absurd (kind_identifier (P := Opens) (fun _ _ => rfl) (fun _ _ => rfl) (fun _ _ => rfl) fun _ _ => rfl) hnot

lemma cut_colon (ctx : Context) (rest : List Char) : cut {} ctx ':' rest = (.token (.operator .colon), 0) := by
  have hsign : operatorSign ':' rest = (.token (.operator .colon), 0) := operatorSign_plain (by decide) (by decide)
  unfold cut
  simp [show Text.isBlank ':' = false by decide, show isAlphabetic ':' = false by decide, hsign]

lemma isBreak_of_cut (h : cut {} ctx c rest = (k, n)) (hk : k.isLegible = true) (hstart : k.startsOperand = false)
    (hcolon : k.isColon = false) : isBreak c = true := by
  refine (isBreak_or_colon_of_cut h hk hstart).resolve_right ?_
  rintro rfl
  rw [cut_colon] at h
  rw [← (Prod.mk.inj h).1] at hcolon
  cases hcolon

end Piece

end Spreadsheet.Formula
