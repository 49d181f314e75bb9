import Spreadsheet.Proofs.Formula.Cut
import Spreadsheet.Proofs.NameTable

/-! Sheets as formulas name them. In quotes every text is read as the name of a sheet, but for one with a workbook in
brackets at its front. -/

namespace Spreadsheet

open Text Formula

namespace Formula

namespace ReferenceText

/-- A name as it stands between quotes. -/
def quote (name : List Char) : List Char := name.flatMap fun c => if c = '\'' then ['\'', '\''] else [c]

lemma quoted?_quote (name : List Char) {rest : List Char} (h : rest.head? ≠ some '\'') :
    quoted? (quote name ++ '\'' :: rest) = some (name, rest) := by
  induction name with
  | nil =>
    cases rest with
    | nil => rfl
    | cons c rest =>
      rw [quote, List.flatMap_nil, List.nil_append, quoted?.eq_3]
      intro cs hcs
      exact h (by rw [hcs]; rfl)
  | cons c name ih =>
    have hquote : quote (c :: name) = (if c = '\'' then ['\'', '\''] else [c]) ++ quote name := List.flatMap_cons
    rw [hquote]
    by_cases hc : c = '\''
    · subst hc
      simp [quoted?, ih]
    · rw [if_neg hc, List.singleton_append, List.cons_append,
        quoted?.eq_4 _ _ (fun _ heq _ => hc heq) fun heq => hc heq, ih]
      rfl

/-- A reference to an area of a sheet in quotes. -/
def qualified (name area : List Char) : List Char := '\'' :: (quote name ++ '\'' :: '!' :: area)

/-- What it is read as. -/
def qualifiedToken (name area : List Char) : ReferenceToken :=
  match splitBook name with
  | some (book, sheet) => token (some book) (some sheet) area
  | none => token none (some name) area

lemma reference?_qualified {name area : List Char} (hname : name ≠ []) (harea : area? area = some area) :
    reference? (qualified name area) = some (qualifiedToken name area, (qualified name area).length) := by
  obtain ⟨n, hlength, -⟩ := area?_eq_some.1 harea
  have hsheet : sheet? (qualified name area) = some (name, area) := by
    have hquoted : quoted? (quote name ++ '\'' :: '!' :: area) = some (name, '!' :: area) := quoted?_quote name (by simp)
    simp [sheet?, qualified, hquoted, hname]
  have hbook : book? (qualified name area) = none := book?_of_head (by simp [qualified])
  have hle : area.length ≤ (qualified name area).length := by
    simp only [qualified, List.length_cons, List.length_append]
    omega
  simp only [reference?, hbook, hsheet, hlength, Option.isSome_some, if_true, onSheet?, harea, Option.bind_eq_bind,
    Option.bind_some, Nat.sub_add_cancel hle, qualifiedToken]
  cases splitBook name <;> rfl

end ReferenceText

open ReferenceText

variable {name area : List Char} {b : Binder} {r : Range} {form : AreaForm}

lemma TokenTree.ofChars_of_cut {c : Char} {rest : List Char} {t : Token}
    (hcut : Piece.cut {} {} c rest = (.token t, rest.length)) :
    TokenTree.ofChars {} ('=' :: c :: rest) = [.token t ⟨1, 1 + byteLength (c :: rest)⟩] := by
  have hequals : isBlank '=' = false := by decide
  have hpieces : pieces {} (c :: rest) = [⟨.token t, c :: rest⟩] := by
    simp only [pieces, List.length_cons, Piece.scan, hcut, List.take_length, List.drop_length]
    cases rest.length <;> rfl
  simp only [ofChars, List.takeWhile_cons, List.dropWhile_cons, hequals, Bool.false_eq_true, if_false, hpieces]
  rfl

lemma TokenTree.ofChars_qualified (hname : name ≠ []) (harea : area? area = some area) :
    TokenTree.ofChars {} ('=' :: qualified name area) =
      [.token (.reference (qualifiedToken name area)) ⟨1, 1 + byteLength (qualified name area)⟩] := by
  obtain ⟨rest, hrest⟩ : ∃ rest, qualified name area = '\'' :: rest := ⟨_, rfl⟩
  have hreference := reference?_qualified hname harea
  rw [hrest] at hreference ⊢
  exact ofChars_of_cut
    (Piece.cut_of_reference? hreference (by decide) (fun hword => absurd hword (by decide)) (fun hc => absurd hc (by decide)))

lemma Node.ofTokens_reference (t : ReferenceToken) (s : Span) :
    Node.ofTokens b [.token (.reference t) s] = Parse.reference b t s := by
  have hwhole : Parse.unchecked b [.token (.reference t) s] = Parse.reference b t s := rfl
  rw [Node.ofTokens, hwhole]
  unfold Parse.reference
  split
  · rfl
  · rfl
  · dsimp only
    split
    · rfl
    · split <;> rfl

/-- A sheet in quotes in front of an area, as a formula. -/
def sheetFormula (name area : List Char) : String := String.ofList ('=' :: qualified name area)

lemma Node.parse_sheetFormula (b : Binder) (hname : name ≠ []) (hr : form.Fits r) :
    ∃ s, Node.parse b (sheetFormula name (form.write r)) = Parse.reference b (qualifiedToken name (form.write r)) s := by
  have harea : area? (form.write r) = some (form.write r) := by
    have hwrite : area? (form.write r ++ []) = some (form.write r) := area?_write hr rfl (by simp)
    rwa [List.append_nil] at hwrite
  refine ⟨⟨1, 1 + byteLength (qualified name (form.write r))⟩, ?_⟩
  rw [Node.parse, TokenTree.ofText, sheetFormula, String.toList_ofList, TokenTree.ofChars_qualified hname harea,
    Node.ofTokens_reference]

lemma ofArea?_write (hr : form.Fits r) : Range.ofArea? (String.ofList (form.write r)) = some r :=
  Range.ofArea?_of_parse? (AreaForm.parse?_write hr)

theorem Node.parse_sheetFormula_plain {book id : String} (hb : b.book = some book) (hname : name ≠ [])
    (hplain : splitBook name = none) (hid : b.names.sheetId? book (String.ofList name) = some id) (hr : form.Fits r) :
    ∃ s, Node.parse b (sheetFormula name (form.write r)) = .reference s (some book) (some id) r := by
  obtain ⟨s, hs⟩ := parse_sheetFormula b hname hr
  refine ⟨s, hs.trans ?_⟩
  rw [qualifiedToken, hplain]
  simp only [Parse.reference, token, ofArea?_write hr, Option.map_some, Option.map_none, hb, hid]

theorem Node.parse_sheetFormula_bracketed {book sheet : List Char} (hname : name ≠ [])
    (hsplit : splitBook name = some (book, sheet)) (hunknown : b.names.bookId? (String.ofList book) = none)
    (hr : form.Fits r) :
    ∃ s, Node.parse b (sheetFormula name (form.write r)) = .invalid s (.unknownBook (String.ofList book)) := by
  obtain ⟨s, hs⟩ := parse_sheetFormula b hname hr
  refine ⟨s, hs.trans ?_⟩
  rw [qualifiedToken, hsplit]
  simp only [Parse.reference, token, ofArea?_write hr, Option.map_some, hunknown, Option.getD_some]

end Formula

namespace Books

/-- The formula that names the first cell of a sheet refers to it. -/
def Names (b : Books) (book : String) (s : Sheet) : Prop :=
  ∃ span, Node.parse { names := b.nameTable, book := some book } (sheetFormula s.name.toList ['A', '1']) =
    .reference span (some book) (some s.id) (Range.single { row := 0, col := 0 })

lemma fits_first : AreaForm.cells.Fits (Range.single { row := 0, col := 0 }) := ⟨by decide, by decide⟩

lemma write_first : AreaForm.cells.write (Range.single { row := 0, col := 0 }) = ['A', '1'] := by decide

section

variable {l : List Workbook} {book : String} {w : Workbook} {s : Sheet}

/-- A formula names a sheet, without a workbook at the front of its name, exactly if it is the last one of its workbook
with this name but for case. -/
theorem names_iff_named? (hl : ∀ w ∈ l, w.Built) (hw : (ofList l).book? book = some w) (hs : s ∈ w.sheets)
    (hname : s.name ≠ "") (hplain : ReferenceText.splitBook s.name.toList = none) :
    (ofList l).Names book s ↔ (w.named? s.name).map (·.id) = some s.id := by
  have hproper : (ofList l).Proper := proper_ofList fun w hw => (hl w hw).distinct.nodup
  have hid := sheetId?_nameTable hproper hw s.name
  obtain ⟨u, hu⟩ := Option.isSome_iff_exists.1 (Workbook.isSome_named? hs)
  rw [hu, Option.map_some] at hid ⊢
  obtain ⟨span, hspan⟩ := Node.parse_sheetFormula_plain (b := ⟨(ofList l).nameTable, some book⟩) rfl (by simpa using hname)
    hplain (by rwa [String.ofList_toList]) fits_first
  rw [write_first] at hspan
  constructor
  · rintro ⟨span', hparse⟩
    exact (Node.reference.inj (hparse.symm.trans hspan)).2.2.1.symm
  · intro hus
    exact ⟨span, by rw [hspan, hus]⟩

/-- Sheets can be named in formulas if no workbook stands at the front of their names and no other sheet of their
workbook has the same name but for case. -/
theorem names_of_plain (hl : ∀ w ∈ l, w.Built) (hw : (ofList l).book? book = some w) (hs : s ∈ w.sheets)
    (hname : s.name ≠ "") (hplain : ReferenceText.splitBook s.name.toList = none)
    (hother : ∀ u ∈ w.sheets, u.id ≠ s.id → upper u.name ≠ upper s.name) : (ofList l).Names book s :=
  (names_iff_named? hl hw hs hname hplain).2 (Workbook.named?_of_ne hs hother)

/-- The names of sheets in ASCII do not get into the way of each other. -/
theorem names_of_ascii (hl : ∀ w ∈ l, w.Built) (hmem : w ∈ l) (hw : (ofList l).book? book = some w) (hs : s ∈ w.sheets)
    (hname : s.name ≠ "") (hplain : ReferenceText.splitBook s.name.toList = none)
    (hascii : ∀ u ∈ w.sheets, ∀ c ∈ u.name.toList, c.toNat < 128) : (ofList l).Names book s :=
  (names_iff_named? hl hw hs hname hplain).2
    (Workbook.named?_of_ne hs fun _ hu => (hl w hmem).distinct.upper_ne hascii hs hu)

end

/-- A workbook of one sheet. -/
def oneSheet (name : String) : Workbook := { id := "b", name := "B", sheets := [{ id := "s", name }] }

lemma built_oneSheet (name : String) : (oneSheet name).Built := by
  have hadd : ({ id := "b", name := "B" } : Workbook).addSheet { id := "s", name } = .ok (oneSheet name) := rfl
  exact Workbook.Built.addSheet (.new "b" "B") hadd

lemma book?_oneSheet (name : String) : (ofList [oneSheet name]).book? "b" = some (oneSheet name) := by
  simp [ofList, insert, book?, oneSheet]

theorem names_of_plain_quotes :
    (∀ w ∈ [oneSheet "it's 'here'"], w.Built) ∧ (ofList [oneSheet "it's 'here'"]).Names "b" { id := "s", name := "it's 'here'" } := by
  have hbuilt : ∀ w ∈ [oneSheet "it's 'here'"], w.Built := by simpa using built_oneSheet _
  refine ⟨hbuilt, names_of_plain hbuilt (book?_oneSheet _) (by simp [oneSheet]) (by decide) (by decide) ?_⟩
  intro u hu hne
  obtain rfl := List.mem_singleton.1 hu
  exact absurd rfl hne

/-- A sheet whose name begins like that of another workbook cannot be named without its workbook. -/
theorem not_names_bracketed : ∃ w s, (∀ v ∈ [w], v.Built) ∧ (ofList [w]).book? "b" = some w ∧ s ∈ w.sheets ∧
    s.name ≠ "" ∧ ¬ (ofList [w]).Names "b" s := by
  refine ⟨oneSheet "[a]b", { id := "s", name := "[a]b" }, by simpa using built_oneSheet _, book?_oneSheet _,
    by simp [oneSheet], by decide, ?_⟩
  rintro ⟨span, hspan⟩
  have hunknown : (ofList [oneSheet "[a]b"]).nameTable.bookId? (String.ofList ['a']) = none := by decide +kernel
  have hsplit : ReferenceText.splitBook "[a]b".toList = some (['a'], ['b']) := by decide
  obtain ⟨span', hinvalid⟩ := Node.parse_sheetFormula_bracketed (b := ⟨(ofList [oneSheet "[a]b"]).nameTable, some "b"⟩)
    (by decide) hsplit hunknown fits_first
  rw [write_first, hspan] at hinvalid
  cases hinvalid

end Books

end Spreadsheet
