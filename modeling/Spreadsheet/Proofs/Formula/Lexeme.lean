import Spreadsheet.Proofs.Formula.Colon

/-! What blanks, texts, numbers and words in formula text say depends on little of what follows them. -/

namespace Spreadsheet.Formula

open Text

/-- A number, a truth value, a reference or a name. -/
def PieceKind.isWord : PieceKind → Bool
  | .token (.number _) | .token (.boolean _) | .token (.reference _) | .token (.name _) => true
  | _ => false

def PieceKind.isIntersect : PieceKind → Bool
  | .token (.operator .intersect) => true
  | _ => false

def PieceKind.isColon : PieceKind → Bool
  | .token (.operator .colon) => true
  | _ => false

/-- Does an operand begin with such a piece? -/
def PieceKind.startsOperand : PieceKind → Bool
  | .opening _ | .token (.number _) | .token (.text _) | .token (.boolean _) | .token (.error _) | .token (.function _)
  | .token (.reference _) | .token (.name _) => true
  | _ => false

/-- No malformed stretch and no bracket of a structured reference. -/
def PieceKind.isLegible : PieceKind → Bool
  | .malformed _ | .opening .bracket => false
  | _ => true

namespace Piece

open ReferenceText

variable {o : Separators} {ctx : Context} {c : Char} {x tail tail' : List Char} {k : PieceKind} {t : Token} {n : Nat}

/-- May a reference begin with this character? -/
def isReferenceStart (c : Char) : Bool := isPartChar c || ['\'', '[', '_', '\\'].contains c

/-- How the character after a piece may change: an area may begin otherwise, and `#REF!` may take the place of a
reference. -/
inductive Swaps : Option Char → Option Char → Prop
  | same (c : Option Char) : Swaps c c
  | area {c d : Char} (hc : isPartChar c = true) (hd : isPartChar d = true) : Swaps (some c) (some d)
  | fallen {c : Char} (hc : isReferenceStart c = true) : Swaps (some c) (some '#')

lemma Swaps.eq_some (h : Swaps tail.head? tail'.head?) (hc : isReferenceStart c = false) (hne : c ≠ '#') :
    tail'.head? = some c ↔ tail.head? = some c := by
  have hpart : ∀ {d : Char}, isPartChar d = true → d ≠ c := by
    rintro d hd rfl
    simp [isReferenceStart, hd] at hc
  generalize tail.head? = a at h
  generalize tail'.head? = b at h
  cases h with
  | same => rfl
  | area hc' hd' => simp [hpart hc', hpart hd']
  | fallen hc' =>
    have : ∀ {d : Char}, isReferenceStart d = true → d ≠ c := by
      rintro d hd rfl
      rw [hd] at hc
      cases hc
    simp [this hc', hne.symm]

/-! Blanks. -/

lemma isBlank_of_isReferenceStart (h : isReferenceStart c = true) : isBlank c = false := by
  simp only [isReferenceStart, Bool.or_eq_true, List.contains_eq_mem, decide_eq_true_eq] at h
  rcases h with h | h
  · exact isBlank_of_isPartChar (Or.inl h)
  · simp only [List.mem_cons, List.not_mem_nil, or_false] at h
    rcases h with rfl | rfl | rfl | rfl <;> decide

lemma Swaps.isBlank (h : Swaps tail.head? tail'.head?) (ht : ∀ c ∈ tail.head?, isBlank c = false) :
    ∀ c ∈ tail'.head?, isBlank c = false := by
  generalize tail.head? = a at h ht
  generalize tail'.head? = b at h
  cases h with
  | same => exact ht
  | area hc hd =>
    rintro c ⟨⟩
    exact isBlank_of_isPartChar (Or.inl hd)
  | fallen hc =>
    rintro c ⟨⟩
    decide

/-- Blanks between operands intersect if such a character follows them. -/
def opensOperand (c : Char) : Bool :=
  isAlphabetic c || isNumeric c || c == '$' || c == '\'' || c == '(' || c == '_' || c == '['

lemma blanks_run (hx : ∀ c ∈ x, Text.isBlank c = true) (ht : ∀ c ∈ tail.head?, Text.isBlank c = false) :
    blanks ctx (x ++ tail) =
      if ctx.afterOperand && tail.head?.any opensOperand then (.token (.operator .intersect), x.length) else (.blank, x.length) := by
  rw [blanks, takeWhile_run hx ht, dropWhile_run hx ht]
  cases tail <;> rfl

lemma blanks_snd (cs : List Char) : (blanks ctx cs).2 = (cs.takeWhile Text.isBlank).length := by
  simp only [blanks, apply_ite Prod.snd, ite_self]

lemma opensOperand_of_isPartChar (h : isPartChar c = true) : opensOperand c = true := by
  simp only [isPartChar, Bool.or_eq_true, beq_iff_eq] at h
  rcases h with (h | h) | rfl
  · simp [opensOperand, isAlphabetic_of_isAlpha h]
  · simp [opensOperand, isNumeric_of_isDigit h]
  · decide

lemma run_of_length {p : Char → Bool} (h : ((x ++ tail).takeWhile p).length = x.length) :
    (∀ c ∈ x, p c = true) ∧ ∀ c ∈ tail.head?, p c = false := by
  have hx : (x ++ tail).takeWhile p = x :=
    (List.prefix_of_prefix_length_le (List.takeWhile_prefix p) (List.prefix_append x tail) (Nat.le_of_eq h)).eq_of_length h
  have hdrop := List.takeWhile_append_dropWhile (p := p) (l := x ++ tail)
  rw [hx, List.append_cancel_left_eq] at hdrop
  constructor
  · rw [← hx]
    exact fun c hc => List.all_eq_true.1 List.all_takeWhile c hc
  · rw [← hdrop]
    intro c hc
    have hnot := List.head?_dropWhile_not p (x ++ tail)
    rw [Option.mem_def.1 hc] at hnot
    simpa using hnot

lemma Swaps.any_opensOperand (h : Swaps tail.head? tail'.head?) (hfallen : tail'.head? ≠ some '#') :
    tail'.head?.any opensOperand = tail.head?.any opensOperand := by
  generalize tail.head? = a at h
  generalize tail'.head? = b at h hfallen
  cases h with
  | same => rfl
  | area hc hd => simp [opensOperand_of_isPartChar hc, opensOperand_of_isPartChar hd]
  | fallen => exact absurd rfl hfallen

/-- How little the character after a piece may change for the piece to stay what it is. -/
structure Alters (a b : Option Char) : Prop where
  sign : ∀ c ∈ ['"', '(', '>', '='], b = some c ↔ a = some c
  isBlank : (∀ c ∈ a, Text.isBlank c = false) → ∀ c ∈ b, Text.isBlank c = false
  opensOperand : b ≠ some '#' → b.any Piece.opensOperand = a.any Piece.opensOperand

lemma Swaps.alters (h : Swaps tail.head? tail'.head?) : Alters tail.head? tail'.head? where
  sign c hc := by
    have hsign : isReferenceStart c = false ∧ c ≠ '#' := by
      simp only [List.mem_cons, List.not_mem_nil, or_false] at hc
      rcases hc with rfl | rfl | rfl | rfl <;> decide
    exact h.eq_some hsign.1 hsign.2
  isBlank := h.isBlank
  opensOperand := h.any_opensOperand

lemma blanks_append (h : blanks ctx (x ++ tail) = (k, x.length)) (hs : Alters tail.head? tail'.head?)
    (hk : k.isIntersect = true → tail'.head? = some '#' → tail.head? = some '#') :
    blanks ctx (x ++ tail') = (k, x.length) := by
  have hlength := congrArg Prod.snd h
  rw [blanks_snd] at hlength
  obtain ⟨hx, ht⟩ := run_of_length hlength
  rw [blanks_run hx ht] at h
  rw [blanks_run hx (hs.isBlank ht), ← h]
  by_cases hfallen : tail'.head? = some '#'
  · have hnot : tail'.head?.any opensOperand = false := by
      rw [hfallen]
      decide
    cases hopen : ctx.afterOperand && tail.head?.any opensOperand with
    | true =>
      rw [hopen, if_pos rfl] at h
      rw [hk (by rw [← (Prod.mk.inj h).1]; rfl) hfallen, ← hfallen, hnot, Bool.and_false] at hopen
      cases hopen
    | false => simp [hnot]
  · rw [hs.opensOperand hfallen]

/-! Texts and errors. -/

lemma quotedText?_eq_some {cs s : List Char} (h : quotedText? cs = some (s, n)) : ∃ q rest, cs = q ++ rest ∧ n = q.length ∧
    rest.head? ≠ some '"' ∧ ∀ rest', rest'.head? ≠ some '"' → quotedText? (q ++ rest') = some (s, n) := by
  fun_induction quotedText? cs generalizing s n with
  | case1 => cases h
  | case2 cs ih =>
    obtain ⟨⟨s, m⟩, hx, heq⟩ := Option.map_eq_some_iff.1 h
    obtain ⟨rfl, rfl⟩ := Prod.mk.inj heq
    obtain ⟨q, rest, rfl, rfl, hrest, hq⟩ := ih hx
    exact ⟨'"' :: '"' :: q, rest, rfl, rfl, hrest, fun rest' h' => by simp [quotedText?, hq rest' h']⟩
  | case3 cs hne =>
    obtain ⟨rfl, rfl⟩ := Prod.mk.inj (Option.some.inj h)
    refine ⟨['"'], cs, rfl, rfl, ?_, fun rest' h' => ?_⟩
    · cases cs with
      | nil => simp
      | cons c cs =>
        rintro ⟨⟩
        exact hne cs rfl
    · cases rest' with
      | nil => rfl
      | cons c rest' =>
        rw [List.singleton_append, quotedText?.eq_3]
        intro cs hcs
        exact h' (by rw [hcs]; rfl)
  | case4 c cs hne hne' ih =>
    obtain ⟨⟨s, m⟩, hx, heq⟩ := Option.map_eq_some_iff.1 h
    obtain ⟨rfl, rfl⟩ := Prod.mk.inj heq
    obtain ⟨q, rest, rfl, rfl, hrest, hq⟩ := ih hx
    refine ⟨c :: q, rest, rfl, rfl, hrest, fun rest' h' => ?_⟩
    rw [List.cons_append, quotedText?.eq_4 _ _ (fun _ hc _ => hne' hc) hne', hq rest' h']
    rfl

lemma text_append (h : text (x ++ tail) = (k, x.length)) (hk : k.isLegible = true) (hs : Alters tail.head? tail'.head?) :
    text (x ++ tail') = (k, x.length) := by
  unfold text at h
  split at h
  · rename_i s n hquoted
    obtain ⟨hkind, rfl⟩ := Prod.mk.inj h
    obtain ⟨q, rest, heq, hlength, hrest, hq⟩ := quotedText?_eq_some hquoted
    obtain ⟨rfl, rfl⟩ := List.append_inj heq hlength
    have hne : tail'.head? ≠ some '"' := fun hhead => hrest ((hs.sign '"' (by simp)).1 hhead)
    rw [text, hq tail' hne, ← hkind]
  · rw [← (Prod.mk.inj h).1] at hk
    cases hk

lemma startsWithError_iff {cs : List Char} {e : ErrorValue} :
    startsWithError cs e = true ↔ e.text.toList <+: cs.map Char.toUpper := by
  rw [startsWithError, beq_iff_eq, List.prefix_iff_eq_take, List.map_take, String.length_toList, eq_comm]

lemma ErrorValue.eq_of_begins {e e' : ErrorValue} (h : e.text.toList <+: e'.text.toList) : e = e' := by
  revert h
  cases e <;> cases e' <;> decide

lemma find?_startsWithError {cs : List Char} {e : ErrorValue} (h : e.text.toList <+: cs.map Char.toUpper) :
    ErrorValue.all.find? (startsWithError cs) = some e := by
  cases hfind : ErrorValue.all.find? (startsWithError cs) with
  | none =>
    have hnot := List.find?_eq_none.1 hfind e (ErrorValue.mem_all e)
    exact absurd (startsWithError_iff.2 h) hnot
  | some e' =>
    have h' := startsWithError_iff.1 (List.find?_some hfind)
    rcases List.prefix_or_prefix_of_prefix h h' with h | h
    · rw [ErrorValue.eq_of_begins h]
    · rw [ErrorValue.eq_of_begins h]

lemma errorText_of_begins {cs : List Char} {e : ErrorValue} (h : e.text.toList <+: ('#' :: cs).map Char.toUpper) :
    errorText cs = (.token (.error e), e.text.length - 1) := by
  rw [errorText, find?_startsWithError h]

lemma errorText_append (h : errorText (x ++ tail) = (k, x.length)) (hk : k.isLegible = true) :
    errorText (x ++ tail') = (k, x.length) := by
  unfold errorText at h
  split at h
  · rename_i e hfind
    obtain ⟨hkind, hlength⟩ := Prod.mk.inj h
    have hprefix := startsWithError_iff.1 (List.find?_some hfind)
    have hpos : e.text.toList.length ≠ 0 := by cases e <;> decide
    have hle : e.text.toList.length ≤ ('#' :: x).length := by
      rw [String.length_toList] at hpos ⊢
      rw [List.length_cons]
      omega
    have hx : e.text.toList <+: ('#' :: x).map Char.toUpper := by
      rw [← List.cons_append, List.map_append] at hprefix
      exact List.prefix_of_prefix_length_le hprefix (List.prefix_append _ _) (by rwa [List.length_map])
    rw [errorText_of_begins (e := e), hkind, hlength]
    rw [← List.cons_append, List.map_append]
    exact hx.trans (List.prefix_append _ _)
  · rw [← (Prod.mk.inj h).1] at hk
    cases hk

/-! Numbers. -/

lemma fraction_append (h : Closes tail) : fraction '.' (x ++ tail) = fraction '.' x := by
  cases x with
  | nil =>
    cases tail with
    | nil => rfl
    | cons c tail =>
      have hne : c ≠ '.' := fun heq => h.ne (c := '.') (by simp) (by rw [heq]; rfl)
      simp [fraction, hne]
  | cons c x => simp only [List.cons_append, fraction, takeWhile_append_of_head h.isDigit]

lemma fraction_le (decimal : Char) (cs : List Char) : (fraction decimal cs).2 ≤ cs.length := by
  cases cs with
  | nil => exact Nat.zero_le _
  | cons c cs =>
    have hle := (List.takeWhile_prefix Char.isDigit (l := cs)).length_le
    unfold fraction
    dsimp only
    split
    · split
      · simpa using hle
      · dsimp only
        split <;> simp
    · exact Nat.zero_le _

/-- The sign of a power, and what follows it. -/
def signOf : List Char → List Char × List Char
  | '+' :: r => (['+'], r)
  | '-' :: r => (['-'], r)
  | r => ([], r)

lemma power_cons (c : Char) (cs : List Char) : power (c :: cs) =
    if (c = 'e' ∨ c = 'E') ∧ (signOf cs).2.takeWhile Char.isDigit ≠ [] then
      ('e' :: (signOf cs).1 ++ (signOf cs).2.takeWhile Char.isDigit,
        1 + (signOf cs).1.length + ((signOf cs).2.takeWhile Char.isDigit).length)
    else ([], 0) := rfl

lemma signOf_append (hx : x ≠ []) : signOf (x ++ tail) = ((signOf x).1, (signOf x).2 ++ tail) := by
  cases x with
  | nil => exact absurd rfl hx
  | cons c x =>
    by_cases hplus : c = '+'
    · rw [hplus]
      rfl
    · by_cases hminus : c = '-'
      · rw [hminus]
        rfl
      · rw [List.cons_append, signOf, signOf]
        all_goals simp [hplus, hminus]

lemma signOf_length (cs : List Char) : (signOf cs).1.length + (signOf cs).2.length = cs.length := by
  unfold signOf
  split
  · simp [Nat.add_comm]
  · simp [Nat.add_comm]
  · simp

lemma power_le (cs : List Char) : (power cs).2 ≤ cs.length := by
  cases cs with
  | nil => exact Nat.zero_le _
  | cons c cs =>
    have hle := (List.takeWhile_prefix Char.isDigit (l := (signOf cs).2)).length_le
    have hsign := signOf_length cs
    rw [power_cons]
    split
    · simp only [List.length_cons]
      omega
    · exact Nat.zero_le _

lemma power_ne_one (cs : List Char) : (power cs).2 ≠ 1 := by
  cases cs with
  | nil => exact Nat.zero_ne_one
  | cons c cs =>
    rw [power_cons]
    split
    · rename_i h
      have hpos := List.length_pos_iff.2 h.2
      dsimp only
      omega
    · exact Nat.zero_ne_one

lemma power_append (h : Closes tail) (hx : x.length ≠ 1) : power (x ++ tail) = power x := by
  cases x with
  | nil =>
    cases tail with
    | nil => rfl
    | cons c tail =>
      have halphabetic := h.isAlphabetic c rfl
      have hne : ¬ (c = 'e' ∨ c = 'E') := by rintro (rfl | rfl) <;> exact absurd halphabetic (by decide)
      rw [List.nil_append, power_cons, if_neg fun hc => hne hc.1, power]
  | cons c x =>
    have hx' : x ≠ [] := by
      rintro rfl
      exact hx rfl
    rw [List.cons_append, power_cons, power_cons, signOf_append hx', takeWhile_append_of_head h.isDigit]

/-- How many characters a number takes. -/
def numberLength (o : Separators) (cs : List Char) : Nat :=
  let whole := (cs.takeWhile Char.isDigit).length
  let fractionLength := (fraction o.decimal (cs.drop whole)).2
  whole + fractionLength + (power ((cs.drop whole).drop fractionLength)).2

lemma number_snd (o : Separators) (cs : List Char) : (number o cs).2 = numberLength o cs - 1 := by
  rw [number]
  dsimp only
  split
  · split <;> rfl
  · rfl

lemma number_append (h : Closes tail) (hx : numberLength {} (x ++ tail) = x.length) (h' : Closes tail') :
    number {} (x ++ tail') = number {} (x ++ tail) := by
  have hwhole : (x.takeWhile Char.isDigit).length ≤ x.length := (List.takeWhile_prefix _).length_le
  have hfraction := fraction_le '.' (x.drop (x.takeWhile Char.isDigit).length)
  rw [numberLength, takeWhile_append_of_head h.isDigit, List.drop_append_of_le_length hwhole, fraction_append h,
    List.drop_append_of_le_length hfraction] at hx
  have hpower := power_ne_one ((x.drop (x.takeWhile Char.isDigit).length).drop
    (fraction '.' (x.drop (x.takeWhile Char.isDigit).length)).2 ++ tail)
  have hlength : ((x.drop (x.takeWhile Char.isDigit).length).drop
      (fraction '.' (x.drop (x.takeWhile Char.isDigit).length)).2).length ≠ 1 := by
    have hle := hfraction
    rw [List.length_drop] at hle
    rw [List.length_drop, List.length_drop]
    omega
  simp only [number, takeWhile_append_of_head h.isDigit, takeWhile_append_of_head h'.isDigit,
    List.drop_append_of_le_length hwhole, fraction_append h, fraction_append h', List.drop_append_of_le_length hfraction,
    power_append h hlength, power_append h' hlength]

/-! Words. -/

lemma isIdentifierChar_of_closes (h : Closes tail) : ∀ c ∈ tail.head?, isIdentifierChar c = false := by
  intro c hc
  obtain ⟨halphabetic, hnumeric, -, hne⟩ := h.of_head c hc
  simp only [List.mem_cons, not_or] at hne
  simp [isIdentifierChar, halphabetic, hnumeric, hne]

lemma ne_of_isIdentifierChar (h : isIdentifierChar c = true) : c ≠ '!' ∧ c ≠ '\'' ∧ c ≠ '[' := by
  refine ⟨?_, ?_, ?_⟩ <;> rintro rfl <;> exact absurd h (by decide)

/-- What a word means where no reference is. -/
def plainWord (x : List Char) : PieceKind :=
  if sameLetters (String.ofList x) "TRUE" then .token (.boolean true)
  else if sameLetters (String.ofList x) "FALSE" then .token (.boolean false)
  else .token (.name (String.ofList x))

lemma isWord_plainWord (x : List Char) : (plainWord x).isWord = true := by
  unfold plainWord
  split
  · rfl
  · split <;> rfl

lemma drop_takeWhile (p : Char → Bool) (cs : List Char) : cs.drop (cs.takeWhile p).length = cs.dropWhile p := by
  have happend := List.takeWhile_append_dropWhile (p := p) (l := cs)
  exact (congrArg (List.drop (cs.takeWhile p).length) happend).symm.trans List.drop_left

lemma identifier_eq (cs : List Char) : identifier cs =
    if (cs.dropWhile isIdentifierChar).head? = some '(' then
      (.token (.function (upper (String.ofList (cs.takeWhile isIdentifierChar)))), (cs.takeWhile isIdentifierChar).length - 1)
    else referenceOr cs (plainWord (cs.takeWhile isIdentifierChar), (cs.takeWhile isIdentifierChar).length - 1) := by
  rw [identifier, plainWord]
  simp only [drop_takeWhile]
  split
  · rfl
  · split
    · rfl
    · split <;> rfl

lemma identifier_run (hx : ∀ c ∈ x, isIdentifierChar c = true) (ht : ∀ c ∈ tail.head?, isIdentifierChar c = false) :
    identifier (x ++ tail) =
      if tail.head? = some '(' then (.token (.function (upper (String.ofList x))), x.length - 1)
      else referenceOr (x ++ tail) (plainWord x, x.length - 1) := by
  rw [identifier_eq, takeWhile_run hx ht, dropWhile_run hx ht]

lemma identifier_snd (h : identifier x = (k, n)) (hk : ∀ r, k ≠ .token (.reference r)) :
    n = (x.takeWhile isIdentifierChar).length - 1 := by
  rw [identifier_eq, referenceOr] at h
  split at h
  · exact (Prod.mk.inj h).2.symm
  · split at h
    · exact absurd (Prod.mk.inj h).1.symm (hk _)
    · exact (Prod.mk.inj h).2.symm

lemma run_of_word (hc : isIdentifierChar c = true)
    (h : x.length = ((c :: (x ++ tail)).takeWhile isIdentifierChar).length - 1) :
    (∀ d ∈ c :: x, isIdentifierChar d = true) ∧ ∀ d ∈ tail.head?, isIdentifierChar d = false := by
  refine run_of_length ?_
  rw [List.takeWhile_cons_of_pos hc, List.length_cons] at h
  rw [List.cons_append, List.takeWhile_cons_of_pos hc, List.length_cons, List.length_cons]
  omega

lemma identifier_append (hc : isIdentifierChar c = true) (h : identifier (c :: (x ++ tail)) = (k, x.length))
    (hk : ∀ r, k ≠ .token (.reference r)) (hs : Alters tail.head? tail'.head?)
    (hw : k.isWord = true → Succeeds tail tail') : identifier (c :: (x ++ tail')) = (k, x.length) := by
  obtain ⟨hx, ht⟩ := run_of_word hc (identifier_snd h hk)
  rw [← List.cons_append] at h ⊢
  rw [identifier_run hx ht] at h
  -- a bracket that follows makes the word a function; otherwise it is a name that must not become part of a reference
  by_cases hcall : tail.head? = some '('
  · have hcall' := (hs.sign '(' (by simp)).2 hcall
    rw [if_pos hcall] at h
    have ht' : ∀ d ∈ tail'.head?, isIdentifierChar d = false := by
      rw [hcall']
      rintro d ⟨⟩
      decide
    rw [identifier_run hx ht', if_pos hcall', h]
  · rw [if_neg hcall, referenceOr] at h
    cases href : reference? (c :: x ++ tail) with
    | some found =>
      rw [href] at h
      exact absurd (Prod.mk.inj h).1.symm (hk _)
    | none =>
      rw [href] at h
      have hword : k.isWord = true := by
        rw [← (Prod.mk.inj h).1]
        exact isWord_plainWord _
      have hsucceeds := hw hword
      have hplain : ∀ d ∈ c :: x, d ≠ '!' ∧ d ≠ '\'' ∧ d ≠ '[' := fun d hd => ne_of_isIdentifierChar (hx d hd)
      rw [reference?_unqualified hplain hsucceeds.closes, Option.map_eq_none_iff] at href
      have href' : reference? (c :: x ++ tail') = none := by
        rw [reference?_unqualified hplain hsucceeds.closes', hsucceeds.area?_eq_none href, Option.map_none]
      rw [identifier_run hx (isIdentifierChar_of_closes hsucceeds.closes'), if_neg (hsucceeds.closes'.ne (by simp)),
        referenceOr, href']
      exact h

/-! Operator signs. -/

lemma operatorSign_plain {rest : List Char} (hless : c ≠ '<') (hgreater : c ≠ '>') :
    operatorSign c rest = operatorSign c [] := by
  unfold operatorSign
  split <;> first | contradiction | rfl | simp_all

lemma operatorSign_less (rest : List Char) : operatorSign '<' rest =
    if rest.head? = some '>' then (.token (.operator .notEqual), 1)
    else if rest.head? = some '=' then (.token (.operator .lessEqual), 1)
    else (.token (.operator .less), 0) := by
  cases rest with
  | nil => rfl
  | cons d rest =>
    unfold operatorSign
    split <;> simp_all

lemma operatorSign_greater (rest : List Char) : operatorSign '>' rest =
    if rest.head? = some '=' then (.token (.operator .greaterEqual), 1) else (.token (.operator .greater), 0) := by
  cases rest with
  | nil => rfl
  | cons d rest =>
    unfold operatorSign
    split <;> simp_all

lemma operatorSign_congr {rest rest' : List Char} (hgreater : rest'.head? = some '>' ↔ rest.head? = some '>')
    (hequal : rest'.head? = some '=' ↔ rest.head? = some '=') : operatorSign c rest' = operatorSign c rest := by
  by_cases hl : c = '<'
  · simp only [hl, operatorSign_less, hgreater, hequal]
  · by_cases hg : c = '>'
    · simp only [hg, operatorSign_greater, hequal]
    · exact (operatorSign_plain hl hg).trans (operatorSign_plain hl hg).symm

lemma operatorSign_append (hs : Alters tail.head? tail'.head?) : operatorSign c (x ++ tail') = operatorSign c (x ++ tail) := by
  cases x with
  | nil => exact operatorSign_congr (hs.sign '>' (by simp)) (hs.sign '=' (by simp))
  | cons d x => exact operatorSign_congr Iff.rfl Iff.rfl

lemma operatorSign_le (c : Char) (rest : List Char) : (operatorSign c rest).2 ≤ rest.length := by
  cases rest with
  | nil =>
    unfold operatorSign
    split <;> first | contradiction | exact Nat.le_refl _
  | cons d rest =>
    have hle : (operatorSign c (d :: rest)).2 ≤ 1 := by
      unfold operatorSign
      split <;> simp
    rw [List.length_cons]
    omega

end Piece

end Spreadsheet.Formula
