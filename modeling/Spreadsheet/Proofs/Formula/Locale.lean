import Spreadsheet.Proofs.Formula.Shift

/-! Formulas in a locale that writes commas in numbers. A formula that is written as this locale writes it is read there as it
was read before, provided that no word takes in the backslash that separates columns. -/

namespace Spreadsheet.Formula

open Text

namespace Piece

open ReferenceText

variable {ctx : Context} {c : Char} {x y tail tail' rest : List Char} {k : PieceKind} {n : Nat} {p : Piece} {ps : List Piece}

/-! Numbers. -/

/-- The decimal comma in the place of the decimal point. -/
def comma (c : Char) : Char := if c = '.' then ',' else c

lemma comma_of_ne (h : c ≠ '.') : comma c = c := if_neg h

lemma isDigit_comma (c : Char) : (comma c).isDigit = c.isDigit := by
  unfold comma
  split
  · rename_i hc
    rw [hc]
    rfl
  · rfl

lemma map_comma (h : ∀ c ∈ x, c ≠ '.') : x.map comma = x := by
  conv_rhs => rw [← List.map_id x]
  exact List.map_congr_left fun c hc => comma_of_ne (h c hc)

lemma ne_point_of_isDigit (h : c.isDigit = true) : c ≠ '.' := by
  rintro rfl
  exact absurd h (by decide)

/-- Nothing comes next that a number in this locale could go on with. -/
def Ends (tail : List Char) : Prop := ∀ c ∈ tail.head?, c.isDigit = false ∧ c ∉ ['e', 'E', ',', ':']

lemma Ends.isDigit (h : Ends tail) : ∀ c ∈ tail.head?, c.isDigit = false := fun c hc => (h c hc).1

lemma Ends.fraction (h : Ends tail) : fraction ',' tail = ([], 0) := by
  cases tail with
  | nil => rfl
  | cons c tail =>
    have hne : c ≠ ',' := fun heq => (h c rfl).2 (by simp [heq])
    rw [Piece.fraction, if_neg hne]

lemma Ends.power (h : Ends tail) : power tail = ([], 0) := by
  cases tail with
  | nil => rfl
  | cons c tail =>
    have hne : ¬ (c = 'e' ∨ c = 'E') := fun heq => (h c rfl).2 (by simp; tauto)
    rw [power_cons, if_neg fun hc => hne hc.1]

lemma takeWhile_isDigit_comma (x : List Char) (h : Ends tail) :
    (x.map comma ++ tail).takeWhile Char.isDigit = x.takeWhile Char.isDigit := by
  rw [takeWhile_append_of_head h.isDigit, List.takeWhile_map,
    show Char.isDigit ∘ comma = Char.isDigit from funext isDigit_comma]
  exact map_comma fun c hc => ne_point_of_isDigit (List.mem_takeWhile_imp hc)

lemma dropWhile_isDigit_comma (x : List Char) (h : Ends tail) :
    (x.map comma ++ tail).dropWhile Char.isDigit = (x.dropWhile Char.isDigit).map comma ++ tail := by
  have hle := (List.takeWhile_prefix Char.isDigit (l := x)).length_le
  rw [← drop_takeWhile, takeWhile_isDigit_comma x h, List.drop_append_of_le_length (by rwa [List.length_map]),
    ← List.map_drop, drop_takeWhile]

lemma signOf_chars (cs : List Char) : (signOf cs).1 ++ (signOf cs).2 = cs ∧ ∀ c ∈ (signOf cs).1, c ≠ '.' := by
  unfold signOf
  split <;> simp

lemma power_comma (hx : (power x).2 = x.length) (h : Ends tail) : power (x.map comma ++ tail) = power x := by
  cases x with
  | nil => exact h.power
  | cons c x =>
    have hsign := signOf_length x
    rw [power_cons] at hx
    split at hx
    · rename_i hpower
      have hdigits : (signOf x).2.takeWhile Char.isDigit = (signOf x).2 := by
        refine (List.takeWhile_prefix _).eq_of_length ?_
        simp only [List.length_cons] at hx
        omega
      have hne : x ≠ [] := by
        rintro rfl
        exact hpower.2 rfl
      have hpoint : ∀ d ∈ c :: x, d ≠ '.' := by
        obtain ⟨happend, hmarks⟩ := signOf_chars x
        rw [← happend, ← hdigits]
        refine List.forall_mem_cons.2 ⟨?_, List.forall_mem_append.2 ⟨hmarks, fun d hd => ?_⟩⟩
        · rintro rfl
          exact absurd hpower.1 (by decide)
        · exact ne_point_of_isDigit (List.mem_takeWhile_imp hd)
      rw [map_comma hpoint, List.cons_append, power_cons, power_cons, signOf_append hne]
      dsimp only
      rw [takeWhile_append_of_head h.isDigit]
    · simp at hx

lemma mem_of_head? (hx : (fraction '.' x).2 + (power (x.drop (fraction '.' x).2)).2 = x.length) :
    ∀ c ∈ x.head?, c ∈ ['.', 'e', 'E'] := by
  cases x with
  | nil => exact fun _ hc => nomatch hc
  | cons c z =>
    rintro _ ⟨⟩
    by_cases hc : c = '.'
    · rw [hc]
      decide
    · rw [show fraction '.' (c :: z) = ([], 0) by rw [fraction, if_neg hc], List.drop_zero, power_cons] at hx
      split at hx
      · rename_i hpower
        rcases hpower.1 with rfl | rfl <;> decide
      · simp at hx

lemma fraction_comma (hx : (fraction '.' x).2 + (power (x.drop (fraction '.' x).2)).2 = x.length)
    (hpoint : ∀ z, x = '.' :: z → ∃ d ∈ z.head?, d.isDigit = true) (h : Ends tail) :
    fraction ',' (x.map comma ++ tail) = fraction '.' x ∧
      power ((x.map comma ++ tail).drop (fraction '.' x).2) = power (x.drop (fraction '.' x).2) := by
  have hpower : (power (x.drop (fraction '.' x).2)).2 = (x.drop (fraction '.' x).2).length := by
    rw [List.length_drop]
    omega
  have hdrop : (x.map comma ++ tail).drop (fraction '.' x).2 = (x.drop (fraction '.' x).2).map comma ++ tail := by
    rw [List.drop_append_of_le_length (by rw [List.length_map]; exact fraction_le '.' x), List.map_drop]
  refine ⟨?_, by rw [hdrop, power_comma hpower h]⟩
  cases x with
  | nil => exact h.fraction
  | cons c z =>
    rw [List.map_cons, List.cons_append]
    by_cases hc : c = '.'
    · obtain ⟨d, hd, hdigit⟩ := hpoint z (by rw [hc])
      have hne : z.takeWhile Char.isDigit ≠ [] := by
        obtain ⟨z, rfl⟩ := List.head?_eq_some_iff.1 hd
        rw [List.takeWhile_cons_of_pos hdigit]
        exact List.cons_ne_nil _ _
      simp only [fraction, comma, hc, if_true, takeWhile_isDigit_comma z h, if_pos hne]
    · have hcomma : c ≠ ',' := by
        rintro rfl
        exact absurd (mem_of_head? hx ',' rfl) (by decide)
      rw [comma_of_ne hc, fraction, if_neg hcomma, fraction, if_neg hc]

/-- The text is one number, whose point has digits after it. -/
structure Numeral (x : List Char) : Prop where
  length : numberLength {} x = x.length
  point : ∀ y z, x = y ++ '.' :: z → ∃ d ∈ z.head?, d.isDigit = true

section Numeral

variable (hx : Numeral x)
include hx

lemma Numeral.rest_length : (fraction '.' (x.dropWhile Char.isDigit)).2 +
    (power ((x.dropWhile Char.isDigit).drop (fraction '.' (x.dropWhile Char.isDigit)).2)).2 =
      (x.dropWhile Char.isDigit).length := by
  have hlength := congrArg List.length (List.takeWhile_append_dropWhile (p := Char.isDigit) (l := x))
  have hnumber := hx.length
  rw [numberLength, drop_takeWhile] at hnumber
  change _ + (fraction '.' _).2 + (power (List.drop (fraction '.' _).2 _)).2 = _ at hnumber
  rw [List.length_append] at hlength
  omega

lemma Numeral.number_comma (h : Ends tail) : number .semicolon (x.map comma ++ tail) = number {} x := by
  have hsplit := List.takeWhile_append_dropWhile (p := Char.isDigit) (l := x)
  obtain ⟨hfraction, hpower⟩ := fraction_comma hx.rest_length (fun z hz => hx.point _ z (by rw [← hz, hsplit])) h
  have htake := takeWhile_isDigit_comma x h
  have hdrop := dropWhile_isDigit_comma x h
  rw [← drop_takeWhile, htake] at hdrop
  simp only [number, htake, hdrop, drop_takeWhile, Separators.semicolon, hfraction, hpower]

lemma Numeral.not_colon (h : Ends tail) : ((x.map comma ++ tail).dropWhile Char.isDigit).head? ≠ some ':' := by
  rw [dropWhile_isDigit_comma x h]
  have hhead := mem_of_head? hx.rest_length
  cases hrest : x.dropWhile Char.isDigit with
  | nil => exact fun hcolon => (h ':' hcolon).2 (by decide)
  | cons d z =>
    have hd := hhead d (by rw [hrest]; rfl)
    simp only [List.mem_cons, List.not_mem_nil, or_false] at hd
    rcases hd with rfl | rfl | rfl <;> exact fun hcolon => absurd (Option.some.inj hcolon) (by decide)

end Numeral

lemma reference?_eq_none (hc : c.isDigit = true) (h : ((c :: rest).dropWhile Char.isDigit).head? ≠ some ':') :
    reference? (c :: rest) = none := by
  have hmark : markLength (c :: rest) = 0 := if_neg fun hhead => by
    obtain rfl : c = '$' := Option.some.inj hhead
    exact absurd hc (by decide)
  have halpha : c.isAlpha = false := by
    rw [Bool.eq_false_iff, Ne, isAlpha_iff]
    have := isDigit_iff.1 hc
    omega
  have hcolumn : columnLength? (c :: rest) = none := by
    rw [columnLength?, hmark, List.drop_zero, List.takeWhile_cons_of_neg (by simp [halpha])]
    rfl
  have hcell : cellLength? (c :: rest) = none := by rw [cellLength?, hcolumn, Option.bind_eq_bind, Option.bind_none]
  have hrows : pairLength? rowLength? rowLength? (c :: rest) = none := by
    refine Option.eq_none_iff_forall_ne_some.2 fun n hn => ?_
    obtain ⟨a, after, b, ha, hdrop, -⟩ := pairLength?_eq_some.1 hn
    rw [rowLength?, hmark, List.drop_zero] at ha
    split at ha
    · cases ha
    · obtain rfl := Option.some.inj ha
      rw [Nat.zero_add, drop_takeWhile] at hdrop
      exact h (by rw [hdrop]; rfl)
  rw [reference?_of_isDigit hc, area?, areaLength?, pairLength?_of_none hcell, hcell, pairLength?_of_none hcolumn, hrows]
  rfl

/-- The piece that starts with a character that is neither blank nor a separator. -/
def core (o : Separators) (ctx : Context) (c : Char) (rest : List Char) : Cut :=
  match c with
  | '"' => text rest
  | '#' => errorText rest
  | '(' => (opening ctx .paren, 0)
  | '\x7b' => (opening ctx .brace, 0)
  | '[' =>
    if maxGroupDepth ≤ ctx.opened.length then (.malformed .tooDeep, 0)
    else referenceOr (c :: rest) (.opening .bracket, 0)
  | ')' => (closing ctx c, 0)
  | '\x7d' => (closing ctx c, 0)
  | ']' => (closing ctx c, 0)
  | '\'' => referenceOr (c :: rest) (.malformed .unqualifiedSheet, rest.length)
  | '$' => referenceOr (c :: rest) (.malformed .strayMark, 0)
  | _ =>
    if c.isDigit then referenceOr (c :: rest) (number o (c :: rest))
    else if c == o.decimal && (rest.head?.map Char.isDigit).getD false then number o (c :: rest)
    else if isAlphabetic c || c == '_' || c == '\\' then identifier (c :: rest)
    else operatorSign c rest

lemma cut_eq (o : Separators) (ctx : Context) (c : Char) (rest : List Char) : cut o ctx c rest =
    if Text.isBlank c then blanks ctx rest
    else if ctx.opened.head? == some .brace && c == o.arrayColumn then (.token .columnSeparator, 0)
    else if ctx.opened.head? == some .brace && c == o.arrayRow then (.token .rowSeparator, 0)
    else if c = o.argument then (.token .argumentSeparator, 0)
    else core o ctx c rest := rfl

lemma core_of_isDigit (o : Separators) (hc : c.isDigit = true) :
    core o ctx c rest = referenceOr (c :: rest) (number o (c :: rest)) := by
  unfold core
  split
  all_goals first | exact absurd hc (by decide) | exact if_pos hc

lemma cut_semicolon_eq (hblank : Text.isBlank c = false) (hrow : c ≠ ';')
    (hcolumn : ctx.opened.head? = some .brace → c ≠ '\\') : cut .semicolon ctx c rest = core .semicolon ctx c rest := by
  have hbrace : ¬ (ctx.opened.head? == some .brace && c == Separators.semicolon.arrayColumn) = true := by
    rw [Bool.and_eq_true, beq_iff_eq, beq_iff_eq]
    exact fun h => hcolumn h.1 h.2
  rw [cut_eq, if_neg (by simp [hblank]), if_neg hbrace, if_neg (by simp [Separators.semicolon, hrow]),
    if_neg (show c ≠ Separators.semicolon.argument from hrow)]

lemma Numeral.cut_comma {v : Float} (hx : Numeral (c :: x)) (hnumber : number {} (c :: x) = (.token (.number v), x.length))
    (hstart : c.isDigit = true ∨ c = '.') (h : Ends tail) :
    cut .semicolon ctx (comma c) (x.map comma ++ tail) = (.token (.number v), x.length) := by
  have hread := hx.number_comma h
  rw [List.map_cons, List.cons_append, hnumber] at hread
  rcases hstart with hc | rfl
  · have hdrop := hx.not_colon h
    rw [List.map_cons, List.cons_append] at hdrop
    have hne : ∀ d, d.isDigit = false → c ≠ d := by
      rintro d hd rfl
      rw [hc] at hd
      cases hd
    rw [comma_of_ne (ne_point_of_isDigit hc)] at hread hdrop ⊢
    rw [cut_semicolon_eq (isBlank_of_isPartChar (Or.inl (isPartChar_of_isDigit c hc))) (hne _ (by decide))
      fun _ => hne _ (by decide), core_of_isDigit _ hc, referenceOr, reference?_eq_none hc hdrop, hread]
  · obtain ⟨d, hd, hdigit⟩ := hx.point [] x rfl
    rw [show comma '.' = ',' from rfl] at hread ⊢
    obtain ⟨z, rfl⟩ := List.head?_eq_some_iff.1 hd
    have hdigit' : (comma d).isDigit = true := by rw [isDigit_comma, hdigit]
    rw [cut_semicolon_eq (by decide) (by decide) fun _ => by decide, ← hread]
    have hnext : (',' == Separators.semicolon.decimal &&
        (((d :: z).map comma ++ tail).head?.map Char.isDigit).getD false) = true := by simp [Separators.semicolon, hdigit']
    exact if_pos hnext

end Piece

/-- What a locale writes in its own way. -/
def PieceKind.isLocal : PieceKind → Bool
  | .token (.number _) | .token .argumentSeparator | .token .columnSeparator | .token .rowSeparator => true
  | _ => false

namespace Piece

open ReferenceText

variable {ctx : Context} {c : Char} {x y tail tail' rest : List Char} {k : PieceKind} {n : Nat} {p : Piece} {ps : List Piece}

lemma isLocal_of_number {o : Separators} (h : number o rest = (k, n)) (hk : k.isLegible = true) : k.isLocal = true := by
  obtain ⟨v, rfl⟩ := exists_of_number h hk
  rfl

/-- How such a piece is cut. -/
inductive Local (ctx : Context) : Char → List Char → PieceKind → Nat → Prop
  | column {rest : List Char} (h : ctx.opened.head? = some .brace) : Local ctx ',' rest (.token .columnSeparator) 0
  | row {rest : List Char} (h : ctx.opened.head? = some .brace) : Local ctx ';' rest (.token .rowSeparator) 0
  | argument {rest : List Char} (h : ctx.opened.head? ≠ some .brace) : Local ctx ',' rest (.token .argumentSeparator) 0
  | number {c : Char} {rest : List Char} {k : PieceKind} {n : Nat} (hstart : c.isDigit = true ∨ c = '.')
      (h : number {} (c :: rest) = (k, n)) : Local ctx c rest k n

lemma local_of_cut (h : cut {} ctx c rest = (k, n)) (hk : k.isLocal = true) : Local ctx c rest k n := by
  have hcut := cut_spec {} ctx c rest
  generalize cut {} ctx c rest = y at h hcut
  let Global : PieceKind → Prop := (·.isLocal = false)
  have hmalformed : ∀ m, Global (.malformed m) := fun _ => rfl
  have hnot : ¬ Global y.1 := by simp [Global, h, hk]
  cases hcut with
  | column hbrace =>
    obtain ⟨rfl, rfl⟩ := Prod.mk.inj h
    exact .column hbrace
  | row hbrace =>
    obtain ⟨rfl, rfl⟩ := Prod.mk.inj h
    exact .row hbrace
  | argument hcolumn =>
    obtain ⟨rfl, rfl⟩ := Prod.mk.inj h
    exact .argument fun hbrace => hcolumn hbrace rfl
  | digit hdigit =>
    refine .number (.inl hdigit) (other_of_referenceOr h ?_).2
    rintro r rfl
    cases hk
  | point => exact .number (.inr rfl) h
  | blanks => exact absurd (kind_blanks (P := Global) rfl rfl) hnot
  | text => exact absurd (kind_text hmalformed fun _ => rfl) hnot
  | errorText => exact absurd (kind_errorText hmalformed fun _ => rfl) hnot
  | paren | brace => exact absurd (kind_opening hmalformed rfl) hnot
  | tooDeep => exact absurd (hmalformed _) hnot
  | closing => exact absurd (kind_closing hmalformed rfl) hnot
  | bracket | quote | mark => exact absurd (kind_referenceOr (P := Global) (fun _ => rfl) rfl) hnot
  | word => exact absurd (kind_identifier (P := Global) (fun _ => rfl) (fun _ => rfl) (fun _ => rfl) fun _ => rfl) hnot
  | sign => exact absurd (kind_operatorSign hmalformed fun _ => rfl) hnot

lemma isLocal_of_separator (h : cut {} ctx c rest = (k, n)) (hk : k.isLegible = true) (hc : c ∈ [',', ';', '.']) :
    k.isLocal = true := by
  have hother : ∀ m : Malformation, (PieceKind.malformed m, 0) ≠ (k, n) := by
    rintro m heq
    rw [← (Prod.mk.inj heq).1] at hk
    cases hk
  simp only [List.mem_cons, List.not_mem_nil, or_false] at hc
  rw [cut_eq] at h
  rcases hc with rfl | rfl | rfl
  · rw [if_neg (by decide)] at h
    split at h
    · rw [← (Prod.mk.inj h).1]
      rfl
    · rw [if_neg (by simp), if_pos rfl] at h
      rw [← (Prod.mk.inj h).1]
      rfl
  · rw [if_neg (by decide), if_neg (by simp)] at h
    split at h
    · rw [← (Prod.mk.inj h).1]
      rfl
    · rw [if_neg (by decide)] at h
      exact absurd h (hother _)
  · rw [if_neg (by decide), if_neg (by simp), if_neg (by simp), if_neg (by decide)] at h
    have hcore : core {} ctx '.' rest = if (rest.head?.map Char.isDigit).getD false = true then number {} ('.' :: rest)
      else (.malformed (.stray '.'), 0) := rfl
    rw [hcore] at h
    split at h
    · exact isLocal_of_number h hk
    · exact absurd h (hother _)

lemma core_semicolon (h : core {} ctx c rest = (k, n)) (hk : k.isLegible = true) (hl : k.isLocal = false) (hcomma : c ≠ ',') :
    core .semicolon ctx c rest = (k, n) := by
  have hnumber : ∀ {m : Nat}, number {} (c :: rest) ≠ (k, m) := fun heq => by
    rw [isLocal_of_number heq hk] at hl
    cases hl
  unfold core at h ⊢
  split at h
  case h_11 =>
    split at h
    · rename_i hdigit
      rw [if_pos hdigit]
      cases href : reference? (c :: rest) with
      | none =>
        rw [referenceOr, href] at h
        exact absurd h hnumber
      | some found =>
        rw [referenceOr, href] at h ⊢
        exact h
    rename_i hdigit
    split at h
    · exact absurd h hnumber
    · rw [if_neg hdigit, if_neg (by simp [Separators.semicolon, hcomma])]
      exact h
  all_goals exact h

/-- Other pieces are cut in the same way, if no column separator is seen in them. -/
lemma cut_semicolon (h : cut {} ctx c rest = (k, n)) (hk : k.isLegible = true) (hl : k.isLocal = false)
    (hcolumn : ctx.opened.head? = some .brace → c ≠ '\\') : cut .semicolon ctx c rest = (k, n) := by
  have hseparator : c ∉ [',', ';', '.'] := fun hc => by
    rw [isLocal_of_separator h hk hc] at hl
    cases hl
  simp only [List.mem_cons, List.not_mem_nil, or_false, not_or] at hseparator
  obtain ⟨hcomma, hrow, -⟩ := hseparator
  cases hblank : Text.isBlank c with
  | true => rwa [cut_of_isBlank hblank] at h ⊢
  | false =>
    rw [cut_eq, if_neg (by simp [hblank]), if_neg (by simp [hcomma]), if_neg (by simp [hrow]), if_neg hcomma] at h
    rw [cut_semicolon_eq hblank hrow hcolumn]
    exact core_semicolon h hk hl hcomma

/-! Whole pieces. -/

/-- How the first character of a piece may change: a separator or a decimal point becomes a separator or a decimal comma. -/
inductive Recasts : Option Char → Option Char → Prop
  | same (a : Option Char) : Recasts a a
  | separator {c d : Char} (hc : c ∈ [',', '.']) (hd : d ∈ [';', '\\', ',']) : Recasts (some c) (some d)

lemma Recasts.alters {a b : Option Char} (h : Recasts a b) : Alters a b := by
  cases h with
  | same => exact ⟨fun _ _ => Iff.rfl, id, fun _ => rfl⟩
  | separator hc hd =>
    simp only [List.mem_cons, List.not_mem_nil, or_false] at hc hd
    have hsign : ∀ e ∈ ['"', '(', '>', '='], e ≠ ',' ∧ e ≠ '.' ∧ e ≠ ';' ∧ e ≠ '\\' := by simp
    refine ⟨fun e he => ?_, fun _ => ?_, fun _ => ?_⟩
    · rw [Option.some.injEq, Option.some.injEq]
      have := hsign e he
      grind
    · rintro _ ⟨⟩
      rcases hd with rfl | rfl | rfl <;> decide
    · rcases hc with rfl | rfl <;> rcases hd with rfl | rfl | rfl <;> decide

lemma Recasts.hash {a b : Option Char} (h : Recasts a b) (hb : b = some '#') : a = some '#' := by
  cases h with
  | same => exact hb
  | separator hc hd =>
    obtain rfl := Option.some.inj hb
    exact absurd hd (by decide)

lemma Shows.cut_append {r : ReferenceToken} {q area : List Char} (h : Shows ctx c x tail r q area) (hb : Breaks tail)
    (hb' : Breaks tail') : cut {} ctx c (x ++ tail') = (.token (.reference r), x.length) := by
  have harea : area? (area ++ tail') = some area := by rw [area?_append hb', ← area?_append hb, h.begins.area?]
  have hchars := isPartChar_of_mem_area harea
  have hread := h.begins.replace area tail' harea hchars hb'.closes
  have htext := h.chars
  rw [← List.append_assoc, ← htext, List.cons_append, ← h.begins.area_eq, List.length_cons] at hread
  refine cut_of_reference? hread h.isReferenceStart ?_ h.depth
  cases q with
  | nil => exact notCalled_area (by rw [htext]; exact hchars) hb'.closes
  | cons d q =>
    obtain ⟨rfl, rfl⟩ := List.cons.inj htext
    have hcall : NotCalled c (q ++ (area ++ tail)) := by
      rw [← List.append_assoc]
      exact h.notCalled
    show NotCalled c ((q ++ area) ++ tail')
    rw [List.append_assoc]
    exact notCalled_qualifier h.begins.qualifier hcall

lemma cut_recast (h : cut {} ctx c (x ++ tail) = (k, x.length)) (hk : k.isLegible = true)
    (hs : Recasts tail.head? tail'.head?) (hw : k.isWord = true → Breaks tail ∧ Breaks tail') :
    cut {} ctx c (x ++ tail') = (k, x.length) := by
  by_cases href : ∃ r, k = .token (.reference r)
  · obtain ⟨r, rfl⟩ := href
    obtain ⟨q, area, hshows⟩ := exists_shows h
    obtain ⟨hb, hb'⟩ := hw rfl
    exact hshows.cut_append hb hb'
  · exact cut_append hk (fun r hr => href ⟨r, hr⟩) hs.alters (fun hword => .breaks (hw hword).1 (hw hword).2) (fun _ => hs.hash) h

/-- The text of a piece as the locale writes it. -/
def localize (p : Piece) : List Char :=
  match p.kind with
  | .token (.number _) => p.chars.map comma
  | .token .argumentSeparator => [';']
  | .token .columnSeparator => ['\\']
  | _ => p.chars

def localized (p : Piece) : Piece := ⟨p.kind, p.localize⟩

/-- How pieces may follow one another: after a word no operand and no colon comes right away, and no column separator unless
the word is a number. -/
def Adjoins (p q : Piece) : Prop := p.kind.isWord = true →
  q.kind.startsOperand = false ∧ q.kind.isColon = false ∧ (q.kind = .token .columnSeparator → ∃ v, p.kind = .token (.number v))

/-- In a number, digits follow the point. -/
def Pointed (p : Piece) : Prop := ∀ v, p.kind = .token (.number v) → ∀ y z, p.chars = y ++ '.' :: z →
  ∃ d ∈ z.head?, d.isDigit = true

/-- What is cut in the locale where a piece was cut. -/
structure Localized (ctx : Context) (k : PieceKind) (c : Char) (x tail' : List Char) (d : Char) (y : List Char) :
    Prop where
  localize : localize ⟨k, c :: x⟩ = d :: y
  cut : cut .semicolon ctx d (y ++ tail') = (k, y.length)
  recasts : Recasts (some c) (some d)

lemma localize_of_not_local {cs : List Char} (h : k.isLocal = false) : localize ⟨k, cs⟩ = cs := by
  cases k with
  | token t => cases t <;> first | rfl | cases h
  | _ => rfl

lemma numeral_of_number (h : number {} (c :: (x ++ tail)) = (k, x.length)) (hstart : c.isDigit = true ∨ c = '.')
    (hpoint : ∀ y z, c :: x = y ++ '.' :: z → ∃ d ∈ z.head?, d.isDigit = true) (hb : Breaks tail) :
    Numeral (c :: x) ∧ number {} (c :: x) = (k, x.length) := by
  have hstart' : ∀ rest, c.isDigit = true ∨ c = '.' ∧ ∃ d ∈ (x ++ rest).head?, d.isDigit = true := by
    refine fun rest => hstart.imp_right fun hc => ⟨hc, ?_⟩
    obtain ⟨d, hd, hdigit⟩ := hpoint [] x (by rw [hc]; rfl)
    refine ⟨d, ?_, hdigit⟩
    rw [List.head?_append, Option.mem_def.1 hd]
    rfl
  have hread : number {} (c :: (x ++ [])) = (k, x.length) :=
    number_append' h (numberLength_pos (hstart' tail)) hb.closes fun _ hc => nomatch hc
  rw [List.append_nil] at hread
  have hlength := congrArg Prod.snd hread
  have hpos := numberLength_pos (hstart' [])
  rw [number_snd] at hlength
  rw [List.append_nil] at hpos
  refine ⟨⟨?_, hpoint⟩, hread⟩
  rw [List.length_cons]
  dsimp only at hlength
  omega

lemma exists_localized (h : cut {} ctx c (x ++ tail) = (k, x.length)) (hk : k.isLegible = true)
    (hs : Recasts tail.head? tail'.head?) (hw : k.isWord = true → Breaks tail)
    (hnumber : (∃ v, k = .token (.number v)) → Ends tail')
    (hword : k.isWord = true → (∀ v, k ≠ .token (.number v)) → Breaks tail')
    (hpoint : Pointed ⟨k, c :: x⟩) (hcolumn : ctx.opened.head? = some .brace → c ≠ '\\') :
    ∃ d y, Localized ctx k c x tail' d y := by
  -- only separators and numbers are spelled anew
  cases hl : k.isLocal with
  | false =>
    have hcut := cut_recast h hk hs fun hkword => ⟨hw hkword, hword hkword fun v hv => by rw [hv] at hl; cases hl⟩
    exact ⟨c, x, localize_of_not_local hl, cut_semicolon hcut hk hl hcolumn, .same _⟩
  | true =>
    generalize hrest : x ++ tail = rest at h
    generalize hn : x.length = n at h
    cases local_of_cut h hl with
    | column hbrace =>
      obtain rfl := List.length_eq_zero_iff.1 hn
      refine ⟨'\\', [], rfl, ?_, .separator (by decide) (by decide)⟩
      rw [cut_eq, if_neg (by decide), if_pos (by rw [hbrace]; rfl)]
      rfl
    | row hbrace =>
      obtain rfl := List.length_eq_zero_iff.1 hn
      refine ⟨';', [], rfl, ?_, .same _⟩
      rw [cut_eq, if_neg (by decide), if_neg (by simp [Separators.semicolon]), if_pos (by rw [hbrace]; rfl)]
      rfl
    | argument hbrace =>
      obtain rfl := List.length_eq_zero_iff.1 hn
      refine ⟨';', [], rfl, ?_, .separator (by decide) (by decide)⟩
      rw [cut_eq, if_neg (by decide), if_neg (by simp [hbrace]), if_neg (by simp [hbrace]),
        if_pos (show ';' = Separators.semicolon.argument from rfl)]
      rfl
    | number hstart hread =>
      subst hrest hn
      obtain ⟨v, rfl⟩ := exists_of_number hread hk
      obtain ⟨hnumeral, hread⟩ := numeral_of_number hread hstart (hpoint v rfl) (hw rfl)
      refine ⟨comma c, x.map comma, rfl, ?_, ?_⟩
      · rw [List.length_map]
        exact hnumeral.cut_comma hread hstart (hnumber ⟨v, rfl⟩)
      · rcases hstart with hdigit | rfl
        · rw [comma_of_ne (ne_point_of_isDigit hdigit)]
          exact .same _
        · exact .separator (by decide) (by decide)

/-- No piece in braces begins with a backslash. -/
def Unescaped : Context → List Piece → Prop
  | _, [] => True
  | ctx, p :: ps => (ctx.opened.head? = some .brace → p.chars.head? ≠ some '\\') ∧ Unescaped (advance ctx p.kind) ps

lemma exists_head_localize (h : cut {} ctx c rest = (k, n)) (hk : k.isLegible = true) (hstart : k.startsOperand = false)
    (hcolon : k.isColon = false) : ∃ d y, localize ⟨k, c :: x⟩ = d :: y ∧ d ≠ ',' ∧
      (isBreak d = true ∨ k = .token .columnSeparator ∧ d = '\\') := by
  cases hl : k.isLocal with
  | false =>
    refine ⟨c, x, localize_of_not_local hl, ?_, .inl (isBreak_of_cut h hk hstart hcolon)⟩
    rintro rfl
    rw [isLocal_of_separator h hk (by decide)] at hl
    cases hl
  | true =>
    cases local_of_cut h hl with
    | column => exact ⟨'\\', [], rfl, by decide, .inr ⟨rfl, rfl⟩⟩
    | row => exact ⟨';', x, rfl, by decide, .inl (by decide)⟩
    | argument => exact ⟨';', [], rfl, by decide, .inl (by decide)⟩
    | number _ hread =>
      obtain ⟨v, rfl⟩ := exists_of_number hread hk
      cases hstart

lemma ends_of_isBreak (h : isBreak c = true) (hcomma : c ≠ ',') : c.isDigit = false ∧ c ∉ ['e', 'E', ',', ':'] := by
  have hb : Breaks [c] := by
    rintro _ ⟨⟩
    exact h
  refine ⟨hb.closes.isDigit c rfl, fun hc => ?_⟩
  simp only [List.mem_cons, List.not_mem_nil, or_false] at hc
  rcases hc with rfl | rfl | rfl | rfl
  · exact absurd h (by decide)
  · exact absurd h (by decide)
  · exact hcomma rfl
  · exact absurd h (by decide)

lemma Cuts.ends_localized (h : Cuts {} ctx ps) (hl : ∀ p ∈ ps, p.kind.isLegible = true)
    (hm : ∀ p ∈ ps.head?, p.kind.startsOperand = false ∧ p.kind.isColon = false) :
    Ends ((ps.map localized).flatMap chars) ∧
      ((∀ p ∈ ps.head?, p.kind ≠ .token .columnSeparator) → Breaks ((ps.map localized).flatMap chars)) := by
  cases ps with
  | nil => exact ⟨fun _ hc => (nomatch hc), fun _ _ hc => nomatch hc⟩
  | cons p ps =>
    obtain ⟨c, x, hchars, hcut, -⟩ := h
    obtain ⟨hstart, hcolon⟩ := hm p rfl
    obtain ⟨d, y, htext, hcomma, hhead⟩ := exists_head_localize (x := x) hcut (hl p (by simp)) hstart hcolon
    rw [← hchars] at htext
    have htext : (p.localized).chars = d :: y := htext
    rw [List.map_cons, List.flatMap_cons, htext]
    constructor
    · rintro _ ⟨⟩
      rcases hhead with hbreak | ⟨-, rfl⟩
      · exact ends_of_isBreak hbreak hcomma
      · decide
    · rintro hcolumn _ ⟨⟩
      exact hhead.resolve_right fun hbackslash => hcolumn p rfl hbackslash.1

/-- In the locale, the pieces are cut that were cut. -/
theorem Cuts.localized (h : Cuts {} ctx ps) (hl : ∀ p ∈ ps, p.kind.isLegible = true) (hm : ps.IsChain Adjoins)
    (hpoint : ∀ p ∈ ps, p.Pointed) (hcolumn : Unescaped ctx ps) :
    Cuts .semicolon ctx (ps.map localized) ∧
      Recasts (ps.flatMap chars).head? ((ps.map Piece.localized).flatMap chars).head? := by
  -- from the end of the text, since a piece is cut by what follows it
  induction ps generalizing ctx with
  | nil => exact ⟨trivial, .same _⟩
  | cons p ps ih =>
    obtain ⟨hadjoins, hm⟩ := List.isChain_cons.1 hm
    obtain ⟨c, x, hchars, hcut, hrest⟩ := h
    have hl' : ∀ q ∈ ps, q.kind.isLegible = true := fun q hq => hl q (by simp [hq])
    obtain ⟨hcuts, hrecasts⟩ := ih hrest hl' hm (fun q hq => hpoint q (by simp [hq])) hcolumn.2
    have hp : p = ⟨p.kind, c :: x⟩ := by rw [← hchars]
    have hmeets : p.kind.isWord = true → ∀ q ∈ ps.head?, q.kind.startsOperand = false ∧ q.kind.isColon = false :=
      fun hword q hq => ⟨(hadjoins q hq hword).1, (hadjoins q hq hword).2.1⟩
    have hnumber : (∃ v, p.kind = .token (.number v)) → Ends ((ps.map Piece.localized).flatMap chars) := by
      rintro ⟨v, hv⟩
      exact (hrest.ends_localized hl' (hmeets (by rw [hv]; rfl))).1
    have hword : p.kind.isWord = true → (∀ v, p.kind ≠ .token (.number v)) →
        Breaks ((ps.map Piece.localized).flatMap chars) := by
      refine fun hword hnot => (hrest.ends_localized hl' (hmeets hword)).2 fun q hq hcolumn => ?_
      obtain ⟨v, hv⟩ := (hadjoins q hq hword).2.2 hcolumn
      exact hnot v hv
    have hescaped : ctx.opened.head? = some .brace → c ≠ '\\' := by
      rintro hbrace rfl
      exact hcolumn.1 hbrace (by rw [hchars]; rfl)
    obtain ⟨d, y, hlocalized⟩ := exists_localized hcut (hl p (by simp)) hrecasts
      (fun hword => hrest.breaks hl' (hmeets hword)) hnumber hword (hp ▸ hpoint p (by simp)) hescaped
    have htext : p.localized.chars = d :: y := by
      rw [hp]
      exact hlocalized.localize
    refine ⟨⟨d, y, htext, hlocalized.cut, hcuts⟩, ?_⟩
    rw [List.map_cons, List.flatMap_cons, List.flatMap_cons, hchars, htext]
    exact hlocalized.recasts

/-- Pieces that a formula may consist of to be written for the locale: they follow one another as they must, digits follow the
points of numbers, and no piece in braces begins with a backslash. -/
structure Portable (ps : List Piece) : Prop where
  chain : ps.IsChain Adjoins
  pointed : ∀ p ∈ ps, p.Pointed
  unescaped : Unescaped {} ps

lemma Portable.pieces_localize {cs : List Char} (h : Portable (TokenTree.pieces {} cs))
    (hl : ∀ p ∈ TokenTree.pieces {} cs, p.kind.isLegible = true) :
    TokenTree.pieces .semicolon ((TokenTree.pieces {} cs).flatMap localize) = (TokenTree.pieces {} cs).map localized := by
  have hcuts := ((cuts_scan {} cs.length {} cs (Nat.le_refl _)).localized hl h.chain h.pointed h.unescaped).1
  have hchars : (TokenTree.pieces {} cs).flatMap localize = ((TokenTree.pieces {} cs).map localized).flatMap chars := by
    rw [List.flatMap_map]
    rfl
  rw [hchars]
  exact scan_of_cuts _ _ hcuts (Nat.le_refl _)

end Piece

namespace TokenTree

open List (Forall₂)

mutual

/-- The tree without its spans. -/
def unplaced : TokenTree → TokenTree
  | token t _ => token t ⟨0, 0⟩
  | group kind children _ closed => group kind (unplacedAll children) ⟨0, 0⟩ closed
  | malformed m _ => malformed m ⟨0, 0⟩

def unplacedAll : List TokenTree → List TokenTree
  | [] => []
  | n :: ns => n.unplaced :: unplacedAll ns

end

lemma unplacedAll_eq (ns : List TokenTree) : unplacedAll ns = ns.map unplaced := by
  induction ns with
  | nil => rfl
  | cons n ns ih => rw [unplacedAll, ih, List.map_cons]

variable {opened opened' : List OpenGroup} {level level' : List TokenTree} {ps ps' : List Piece} {pos pos' : Nat} {s : String}

/-- Open brackets of the same kind after the same nodes. -/
structure OpenGroup.Same (g g' : OpenGroup) : Prop where
  kind : g'.kind = g.kind
  before : g'.before.map unplaced = g.before.map unplaced

lemma unplaced_closed {kind : GroupKind} {nodes : List TokenTree} {span : Span} {closed : Bool} :
    (group kind nodes.reverse span closed).unplaced = group kind (nodes.map unplaced).reverse ⟨0, 0⟩ closed := by
  rw [unplaced, unplacedAll_eq, List.map_reverse]

lemma closeAll_unplaced (ho : Forall₂ OpenGroup.Same opened opened') (hl : level'.map unplaced = level.map unplaced) :
    (closeAll pos' opened' level').map unplaced = (closeAll pos opened level).map unplaced := by
  induction ho generalizing level level' with
  | nil => rw [closeAll, closeAll, List.map_reverse, hl, List.map_reverse]
  | cons hg _ ih =>
    rw [closeAll, closeAll]
    refine ih ?_
    rw [List.map_cons, List.map_cons, unplaced_closed, unplaced_closed, hl, hg.kind, hg.before]

lemma nest_unplaced (hp : Forall₂ (fun p p' : Piece => p'.kind = p.kind) ps ps')
    (ho : Forall₂ OpenGroup.Same opened opened') (hl : level'.map unplaced = level.map unplaced) :
    (nest opened' level' pos' ps').map unplaced = (nest opened level pos ps).map unplaced := by
  induction hp generalizing opened opened' level level' pos pos' with
  | nil =>
    rw [nest, nest]
    exact closeAll_unplaced ho hl
  | @cons p p' _ _ hkind _ ih =>
    obtain ⟨k, text⟩ := p
    obtain ⟨k', text'⟩ := p'
    obtain rfl : k' = k := hkind
    have hcons : ∀ n n' : TokenTree, n'.unplaced = n.unplaced → (n' :: level').map unplaced = (n :: level).map unplaced :=
      fun n n' hn => by rw [List.map_cons, List.map_cons, hn, hl]
    cases k' with
    | blank => exact ih ho hl
    | token t => exact ih ho (hcons _ _ rfl)
    | malformed m => exact ih ho (hcons _ _ rfl)
    | opening g => exact ih (.cons ⟨rfl, hl⟩ ho) rfl
    | closing =>
      cases ho with
      | nil => exact ih .nil hl
      | @cons g g' _ _ hg ho =>
        refine ih ho ?_
        rw [List.map_cons, List.map_cons, unplaced_closed, unplaced_closed, hl, hg.kind, hg.before]

/-- A formula as the locale writes it. -/
def localize (s : String) : String :=
  String.ofList (s.toList.takeWhile isBlank ++ '=' :: (piecesOf s).flatMap Piece.localize)

lemma ofText_localize_eq (h : SpacedAll (ofText {} s)) (hp : Piece.Portable (piecesOf s)) :
    ∃ pos, ofText {} s = nest [] [] pos (piecesOf s) ∧
      ofText .semicolon (localize s) = nest [] [] pos ((piecesOf s).map Piece.localized) := by
  obtain ⟨rest, hrest⟩ := exists_equals h
  have hpieces := piecesOf_of_equals hrest
  rw [hpieces] at hp ⊢
  rw [ofText_of_equals hrest] at h
  refine ⟨_, ofText_of_equals hrest, ?_⟩
  have hblank : ∀ c ∈ s.toList.takeWhile isBlank, isBlank c = true := fun c hc =>
    List.all_eq_true.1 List.all_takeWhile c hc
  have hstop : ∀ c ∈ ('=' :: (pieces {} rest).flatMap Piece.localize).head?, isBlank c = false := by
    rintro c ⟨⟩
    decide
  rw [← hp.pieces_localize (legible_of_nest h).all, ofText, localize, String.toList_ofList, hpieces, ofChars,
    takeWhile_run hblank hstop, dropWhile_run hblank hstop]
  rfl

/-- Where the pieces of a formula allow it, the formula as the locale writes it has the same tree there, but for the spans. -/
theorem ofText_localize (h : SpacedAll (ofText {} s)) (hp : Piece.Portable (piecesOf s)) :
    (ofText .semicolon (localize s)).map unplaced = (ofText {} s).map unplaced := by
  obtain ⟨pos, hbefore, hafter⟩ := ofText_localize_eq h hp
  rw [hbefore, hafter]
  refine nest_unplaced ?_ .nil rfl
  exact List.forall₂_map_right_iff.2 (List.forall₂_same.2 fun _ _ => rfl)

end TokenTree

example : TokenTree.localize "=IF(A1,Rate,\x7b\"a\",\"b\"\x7d)" = "=IF(A1;Rate;\x7b\"a\"\\\"b\"\x7d)" := by decide +kernel

/-- So the formula, where no part of it is invalid, is parsed to the same tree in both locales. -/
theorem Node.outline_parse_localize (b : Binder) (s : String) (hc : (Node.parse b s).Clean)
    (hp : Piece.Portable (TokenTree.piecesOf s)) :
    (Node.parse b (TokenTree.localize s) .semicolon).outline some = (Node.parse b s).outline some := by
  obtain ⟨pos, hbefore, hafter⟩ :=
    TokenTree.ofText_localize_eq (Parse.spacedAll_of_unchecked (Parse.eq_of_clean_check hc).1.sound) hp
  have hareas := TokenTree.namesArea_of_mem_piecesOf s
  refine Parse.outline_ofTokens ?_ hc
  rw [hbefore, hafter]
  refine TokenTree.nest_moves (List.forall₂_map_right_iff.2 ?_) .nil .nil
  exact List.forall₂_same.2 fun p hp => (hareas p hp).moves_self fun _ _ _ => rfl

end Spreadsheet.Formula
