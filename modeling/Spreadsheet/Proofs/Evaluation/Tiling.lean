import Spreadsheet.Function.Builtin
import Spreadsheet.Proofs.Evaluation.Spill

/-! The arrays of a pass lie side by side: whatever is stored, marked and forgotten, no two of them overlap, and
what has spilled are their items. -/

namespace Spreadsheet

open Std Dependency

namespace Pass

/-- What is done to a pass between two looks at it. -/
inductive Change
  | store (a : Place) (v : Value)
  | markDirty (cells : List Place)
  | invalidate (p : Place)

variable (books : Books) (index : Index)

def change (s : Pass) : Change → Pass
  | .store a v => s.store books index a v
  | .markDirty cells => s.markDirty cells
  | .invalidate p => s.invalidate p

/-- Results belong to formulas, and arrays have as many items as rows and columns call for. -/
def Change.Sound : Change → Prop
  | store a v => index.cells.contains a = true ∧ ∀ g, v = .array g → g.Regular
  | markDirty _ | invalidate _ => True

/-- The change puts the array of an anchor up, replaces it or takes it down. -/
def Change.Moves (s : Pass) (c : Change) (a : Place) : Prop :=
  (s.change books index c).anchors[a]? ≠ s.anchors[a]? ∨ ∃ v, c = store a v ∧ (s.anchors[a]?).isSome

/-- Arrays start at their anchors, end on the sheet and lie apart from one another and from everything else; what
has spilled are their items. -/
structure Tiled (s : Pass) : Prop where
  formula : ∀ (a : Place) (r : Range), s.anchors[a]? = some r → index.cells.contains a = true
  disjoint : ∀ (a b : Place) (r t : Range), s.anchors[a]? = some r → s.anchors[b]? = some t → a ≠ b →
    (a.area r).overlaps (b.area t) = false
  corner : ∀ (a : Place) (r : Range), s.anchors[a]? = some r →
    r.start = { row := a.row, col := a.col } ∧ r.Normal ∧ r.stop.row < maxRows ∧ r.stop.col < maxCols
  covered : ∀ x : Place, s.spilled.contains x = true ↔
    ∃ (a : Place) (r : Range), s.anchors[a]? = some r ∧ (a.area r).contains x = true
  vacant : ∀ (a : Place) (r : Range) (x : Place), s.anchors[a]? = some r → (a.area r).contains x = true → x ≠ a →
    (∀ cell, books.cell? x = some cell → cell.isEmpty = true) ∧ index.cells.contains x = false
  items : ∀ (a : Place) (r : Range) (v : Value), s.anchors[a]? = some r → s.results[a]? = some v →
    ∃ g, v = .array g ∧ g.rows = r.rowCount ∧ g.cols = r.colCount ∧ ∀ i < g.rows, ∀ j < g.cols,
      ∃ u, g.get? i j = some u ∧ s.spilled[beside a (a.row + i, a.col + j)]? = some u

variable {books index} {s : Pass} {a b p x : Place} {r t : Range} {v w : Value} {g : Grid Value}

lemma exists_of_overlaps (hr : r.Normal) (ht : t.Normal) (h : (a.area r).overlaps (b.area t) = true) :
    ∃ x, (a.area r).contains x = true ∧ (b.area t).contains x = true := by
  simp only [Region.overlaps, Region.sameSheet, Place.area, Bool.and_eq_true, beq_iff_eq] at h
  obtain ⟨⟨hb, hs⟩, h⟩ := h
  obtain ⟨row, col, hr, ht⟩ := Range.contains_of_overlaps hr ht h
  exact ⟨⟨a.book, a.sheet, row, col⟩, by simp [Region.contains, Place.area, hr],
    by simp [Region.contains, Place.area, ht, hb, hs]⟩

lemma Tiled.not_contains (h : s.Tiled books index) (ha : s.anchors[a]? = some r) (hb : s.anchors[b]? = some t)
    (hne : a ≠ b) (hx : (a.area r).contains x = true) : (b.area t).contains x = false := by
  by_contra hbx
  have hover := Region.overlaps_of_contains hx (by simpa using hbx)
  rw [h.disjoint a b r t ha hb hne] at hover
  cases hover

lemma contains_beside (hr : r.start = { row := a.row, col := a.col }) (hn : r.Normal) {i j : Nat}
    (hi : i < r.rowCount) (hj : j < r.colCount) :
    (a.area r).contains (beside a (a.row + i, a.col + j)) = true := by
  have hrow : r.start.row = a.row := by rw [hr]
  have hcol : r.start.col = a.col := by rw [hr]
  simp only [Range.rowCount, Range.colCount, Range.Normal] at hi hj hn
  have hcontains : r.contains (a.row + i) (a.col + j) = true := by
    simp only [Range.contains, Bool.and_eq_true, decide_eq_true_eq]
    omega
  simp [Region.contains, Place.area, beside, hcontains]

/-! Withdrawing. -/

lemma contains_spilled_withdraw : (s.withdraw a).spilled.contains x = true ↔
    s.spilled.contains x = true ∧ ∀ r, s.anchors[a]? = some r → (a.area r).contains x = false := by
  rcases s.withdraw_cases a with ⟨hnone, heq⟩ | ⟨r, hr, heq⟩ <;> rw [heq]
  · simp [hnone]
  · simp only [ExtTreeMap.contains_eq_isSome_getElem?, Table.getElem?_foldl_erase, mem_covered, hr]
    cases hx : (a.area r).contains x <;> simp [hx]

lemma Tiled.withdraw (h : s.Tiled books index) (a : Place) : (s.withdraw a).Tiled books index := by
  have hold : ∀ (b : Place) (t : Range), (s.withdraw a).anchors[b]? = some t → b ≠ a ∧ s.anchors[b]? = some t := by
    intro b t hb
    rw [anchors_withdraw] at hb
    exact Option.ite_none_left_eq_some.1 hb
  refine ⟨fun b t hb => h.formula b t (hold b t hb).2, fun b c t q hb hc => ?_,
    fun b t hb => h.corner b t (hold b t hb).2, fun x => ?_, fun b t x hb => h.vacant b t x (hold b t hb).2, fun b t v hb hv => ?_⟩
  · exact h.disjoint b c t q (hold b t hb).2 (hold c q hc).2
  · rw [contains_spilled_withdraw, h.covered]
    constructor
    · rintro ⟨⟨b, t, hb, hx⟩, hn⟩
      have hne : b ≠ a := by
        rintro rfl
        rw [hn t hb] at hx
        cases hx
      exact ⟨b, t, by rw [anchors_withdraw, if_neg hne, hb], hx⟩
    · rintro ⟨b, t, hb, hx⟩
      obtain ⟨hne, hb⟩ := hold b t hb
      exact ⟨⟨b, t, hb, hx⟩, fun r hr => h.not_contains hb hr hne hx⟩
  · obtain ⟨hne, hb⟩ := hold b t hb
    rw [results_withdraw] at hv
    obtain ⟨g, rfl, hrows, hcols, hitems⟩ := h.items b t v hb hv
    refine ⟨g, rfl, hrows, hcols, fun i hi j hj => ?_⟩
    obtain ⟨u, hu, hspilled⟩ := hitems i hi j hj
    refine ⟨u, hu, (spilled_withdraw fun r hr => ?_).trans hspilled⟩
    exact h.not_contains hb hr hne (contains_beside (h.corner b t hb).1 (h.corner b t hb).2.1 (hrows ▸ hi) (hcols ▸ hj))

/-! Recording and spilling. -/

lemma Tiled.record (h : s.Tiled books index) (ha : s.anchors[a]? = none) (w : Value) :
    (s.record a w).Tiled books index := by
  refine ⟨h.formula, h.disjoint, h.corner, h.covered, h.vacant, fun b t v hb hv => ?_⟩
  have hne : b ≠ a := by
    rintro rfl
    exact nomatch ha.symm.trans hb
  rw [results_record, if_neg hne] at hv
  exact h.items b t v hb hv

lemma contains_spilled_place (ht : target? a g.rows g.cols = some r) (hg : g.Regular) (hpos : 0 < g.size) :
    (s.place a g r).spilled.contains x = true ↔ (a.area r).contains x = true ∨ s.spilled.contains x = true := by
  simp only [ExtTreeMap.contains_eq_isSome_getElem?]
  cases hx : (a.area r).contains x with
  | true =>
    obtain ⟨u, hu⟩ := exists_item ht hg hpos hx
    simp [spilled_place_of_mem hu]
  | false => simp [spilled_place hx]

lemma spilled_place_beside (ht : target? a g.rows g.cols = some r) (hg : g.Regular) {i j : Nat} (hi : i < g.rows)
    (hj : j < g.cols) : ∃ u, g.get? i j = some u ∧
      (s.place a g r).spilled[beside a (a.row + i, a.col + j)]? = some u := by
  have hlt : i * g.cols + j < g.items.length := by
    rw [hg]
    calc i * g.cols + j < i * g.cols + g.cols := by omega
      _ = (i + 1) * g.cols := by rw [Nat.succ_mul]
      _ ≤ g.rows * g.cols := Nat.mul_le_mul_right _ hi
  have hr := eq_of_target ht (Nat.zero_lt_of_lt hi) (Nat.zero_lt_of_lt hj)
  obtain ⟨hrows, hcols⟩ := size_of_target ht (Nat.zero_lt_of_lt hi) (Nat.zero_lt_of_lt hj)
  have hcells := Range.getElem?_cells (normal_of_target ht) (hrows ▸ hi) (hcols ▸ hj)
  rw [hcols] at hcells
  have hcovered : (covered a r)[i * g.cols + j]? = some (beside a (a.row + i, a.col + j)) := by
    rw [covered, List.getElem?_map, hcells, hr]
    rfl
  refine ⟨g.items[i * g.cols + j], by simp [Grid.get?, hi, hj, hlt], spilled_place_of_mem ?_⟩
  exact List.mem_of_getElem? (List.getElem?_zip_eq_some.2 ⟨hcovered, List.getElem?_eq_getElem hlt⟩)

lemma anchors_place_cases (h : (s.place a g r).anchors[b]? = some t) :
    b = a ∧ t = r ∨ b ≠ a ∧ s.anchors[b]? = some t := by
  rw [anchors_place] at h
  split at h
  · exact Or.inl ⟨by assumption, (Option.some.inj h).symm⟩
  · exact Or.inr ⟨by assumption, h⟩

lemma Tiled.not_contains_of_free (h : s.Tiled books index) (hformula : index.cells.contains a = true)
    (hfree : s.Free books index a r) (hne : b ≠ a) (hb : s.anchors[b]? = some t) (hx : (a.area r).contains x = true) :
    (b.area t).contains x = false := by
  by_cases hxa : x = a
  · -- the anchor itself is not looked at when room is sought, but it is a formula
    subst hxa
    by_contra hbx
    have hvacant := (h.vacant b t x hb (by simpa using hbx) (Ne.symm hne)).2
    rw [hformula] at hvacant
    cases hvacant
  · exact hfree.array x hx hxa b t hne hb

lemma Tiled.not_overlaps_of_free (h : s.Tiled books index) (hformula : index.cells.contains a = true)
    (hfree : s.Free books index a r) (hr : r.Normal) (hne : b ≠ a) (hb : s.anchors[b]? = some t) :
    (a.area r).overlaps (b.area t) = false := by
  by_contra hover
  obtain ⟨x, hax, hbx⟩ := exists_of_overlaps hr (h.corner b t hb).2.1 (by simpa using hover)
  rw [h.not_contains_of_free hformula hfree hne hb hax] at hbx
  cases hbx

lemma Tiled.covered_place (h : s.Tiled books index) (ha : s.anchors[a]? = none) (hg : g.Regular) (hpos : 0 < g.size)
    (ht : target? a g.rows g.cols = some r) : (s.place a g r).spilled.contains x = true ↔
      ∃ (b : Place) (t : Range), (s.place a g r).anchors[b]? = some t ∧ (b.area t).contains x = true := by
  rw [contains_spilled_place ht hg hpos, h.covered]
  constructor
  · rintro (hx | ⟨b, t, hb, hx⟩)
    · exact ⟨a, r, anchors_place_self s a g r, hx⟩
    · have hne : b ≠ a := by
        rintro rfl
        exact nomatch ha.symm.trans hb
      exact ⟨b, t, (anchors_place_of_ne s hne g r).trans hb, hx⟩
  · rintro ⟨b, t, hb, hx⟩
    rcases anchors_place_cases hb with ⟨rfl, rfl⟩ | ⟨-, hb⟩
    · exact Or.inl hx
    · exact Or.inr ⟨b, t, hb, hx⟩

lemma Tiled.place (h : s.Tiled books index) (ha : s.anchors[a]? = none) (hformula : index.cells.contains a = true)
    (hg : g.Regular) (hpos : 0 < g.size) (ht : target? a g.rows g.cols = some r) (hfree : s.Free books index a r) :
    ((s.place a g r).record a (.array g)).Tiled books index := by
  obtain ⟨hrows, hcols⟩ := pos_of_regular hg hpos
  obtain ⟨hrowCount, hcolCount⟩ := size_of_target ht hrows hcols
  have hnormal := normal_of_target ht
  constructor
  case formula =>
    intro b t hb
    rcases anchors_place_cases (g := g) hb with ⟨rfl, rfl⟩ | ⟨-, hb⟩
    · exact hformula
    · exact h.formula b t hb
  case disjoint =>
    intro b c t q hb hc hne
    rcases anchors_place_cases (g := g) hb with ⟨rfl, rfl⟩ | ⟨hba, hb'⟩ <;>
      rcases anchors_place_cases (g := g) hc with ⟨rfl, rfl⟩ | ⟨hca, hc'⟩
    · exact absurd rfl hne
    · exact h.not_overlaps_of_free hformula hfree hnormal hca hc'
    · rw [Region.overlaps_comm]
      exact h.not_overlaps_of_free hformula hfree hnormal hba hb'
    · exact h.disjoint b c t q hb' hc' hne
  case corner =>
    intro b t hb
    rcases anchors_place_cases (g := g) hb with ⟨rfl, rfl⟩ | ⟨-, hb⟩
    · exact ⟨by rw [eq_of_target ht hrows hcols], hnormal, stop_of_target ht hrows hcols⟩
    · exact h.corner b t hb
  case covered => exact fun x => h.covered_place ha hg hpos ht
  case vacant =>
    intro b t x hb hx hne
    rcases anchors_place_cases (g := g) hb with ⟨rfl, rfl⟩ | ⟨-, hb⟩
    · exact ⟨hfree.cell x hx hne, hfree.formula x hx hne⟩
    · exact h.vacant b t x hb hx hne
  case items =>
    intro b t v hb hv
    rcases anchors_place_cases (g := g) hb with ⟨rfl, rfl⟩ | ⟨hne, hb⟩
    · rw [results_record, if_pos rfl] at hv
      obtain rfl := Option.some.inj hv
      exact ⟨g, rfl, hrowCount.symm, hcolCount.symm, fun i hi j hj => spilled_place_beside ht hg hi hj⟩
    · rw [results_record, if_neg hne] at hv
      obtain ⟨g', rfl, hrows, hcols, hitems⟩ := h.items b t v hb hv
      refine ⟨g', rfl, hrows, hcols, fun i hi j hj => ?_⟩
      obtain ⟨u, hu, hspilled⟩ := hitems i hi j hj
      refine ⟨u, hu, (spilled_place ?_).trans hspilled⟩
      -- the old item is not written over, since its array lies apart
      by_contra hx
      have hbx := contains_beside (h.corner b t hb).1 (h.corner b t hb).2.1 (hrows ▸ hi) (hcols ▸ hj)
      rw [h.not_contains_of_free hformula hfree hne hb (by simpa using hx)] at hbx
      cases hbx

/-! Runs. -/

lemma Tiled.store (h : s.Tiled books index) (ha : index.cells.contains a = true)
    (hv : ∀ g, v = .array g → g.Regular) : (s.store books index a v).Tiled books index := by
  have hnone : (s.withdraw a).anchors[a]? = none := anchors_withdraw.trans (if_pos rfl)
  rcases s.store_cases books index a v with ⟨w, -, heq⟩ | ⟨g, r, rfl, hg, ht, hfree, heq⟩ <;> rw [heq]
  · exact (h.withdraw a).record hnone w
  · exact (h.withdraw a).place hnone ha (hv g rfl) (Nat.zero_lt_of_lt hg) ht hfree

lemma Tiled.invalidate (h : s.Tiled books index) (p : Place) : (s.invalidate p).Tiled books index := by
  unfold Pass.invalidate
  split
  · exact h
  · refine ⟨h.formula, h.disjoint, h.corner, h.covered, h.vacant, fun a r v ha hv => ?_⟩
    simp only [ExtTreeMap.getElem?_erase] at hv
    split at hv
    · cases hv
    · exact h.items a r v ha hv

lemma tiled_start : ({} : Pass).Tiled books index := by
  constructor <;> simp

variable {c : Change} {changes : List Change}

lemma Tiled.change (h : s.Tiled books index) (hc : c.Sound index) : (s.change books index c).Tiled books index := by
  cases c with
  | store a v => exact h.store hc.1 hc.2
  | markDirty cells => exact ⟨h.formula, h.disjoint, h.corner, h.covered, h.vacant, h.items⟩
  | invalidate p => exact h.invalidate p

lemma anchors_invalidate (s : Pass) (p : Place) : (s.invalidate p).anchors = s.anchors := by
  unfold Pass.invalidate
  split <;> rfl

lemma changedAnchors_invalidate (s : Pass) (p : Place) : (s.invalidate p).changedAnchors = s.changedAnchors := by
  unfold Pass.invalidate
  split <;> rfl

lemma mem_changedAnchors_of_moves (h : c.Moves books index s a) : a ∈ (s.change books index c).changedAnchors := by
  cases c with
  | store b v =>
    rcases h with h | ⟨w, hw, hsome⟩
    · have hab : a = b := by
        by_contra hab
        exact h (anchors_store hab)
      subst hab
      refine mem_changedAnchors_store.2 (Or.inl ⟨rfl, ?_⟩)
      by_contra hnone
      simp only [not_or, Option.not_isSome_iff_eq_none] at hnone
      exact h (hnone.2.trans hnone.1.symm)
    · cases hw
      exact mem_changedAnchors_store.2 (Or.inl ⟨rfl, Or.inl hsome⟩)
  | markDirty cells =>
    rcases h with h | ⟨w, hw, -⟩
    · exact absurd rfl h
    · cases hw
  | invalidate p =>
    rcases h with h | ⟨w, hw, -⟩
    · exact absurd (congrArg (·[a]?) (anchors_invalidate s p)) h
    · cases hw

lemma mem_changedAnchors_change (c : Change) (h : a ∈ s.changedAnchors) :
    a ∈ (s.change books index c).changedAnchors := by
  cases c with
  | store b v => exact mem_changedAnchors_store.2 (Or.inr h)
  | markDirty cells => exact h
  | invalidate p => exact changedAnchors_invalidate s p ▸ h

lemma Tiled.foldl (h : s.Tiled books index) (hc : ∀ c ∈ changes, c.Sound index) :
    (changes.foldl (Pass.change books index) s).Tiled books index := by
  induction changes generalizing s with
  | nil => exact h
  | cons c changes ih =>
    obtain ⟨hfirst, hrest⟩ := List.forall_mem_cons.1 hc
    exact ih (h.change hfirst) hrest

lemma mem_changedAnchors_foldl (h : a ∈ s.changedAnchors) (changes : List Change) :
    a ∈ (changes.foldl (Pass.change books index) s).changedAnchors := by
  induction changes generalizing s with
  | nil => exact h
  | cons c changes ih => exact ih (mem_changedAnchors_change c h)

variable (books index) in
def run (changes : List Change) : Pass := changes.foldl (Pass.change books index) {}

/-- Whatever is stored, marked and forgotten from the start on, arrays lie side by side, and every anchor whose
array has been put up, replaced or taken down on the way is on the list of changed anchors. -/
theorem tiled_run (h : ∀ c ∈ changes, c.Sound index) :
    (run books index changes).Tiled books index ∧
      ∀ done c rest a, changes = done ++ c :: rest → c.Moves books index (run books index done) a →
        a ∈ (run books index changes).changedAnchors := by
  refine ⟨tiled_start.foldl h, ?_⟩
  rintro done c rest a rfl hmoves
  rw [run, List.foldl_append, List.foldl_cons]
  exact mem_changedAnchors_foldl (mem_changedAnchors_of_moves hmoves) rest

/-- Two formulas above a text. -/
def sampleColumn : Books :=
  let sheet : Sheet := { id := "s", name := "S" }
  Books.ofList [{
    id := "b"
    name := "B"
    sheets := [((sheet.setFormula 0 0 { text := "=D1:D3&E1" }).setFormula 3 0 { text := "=E1:E9&D1" }).setValue 8 0
      (.text "x")] }]

/-- The array of the first formula shrinks when it is calculated again, and that of the second one, which had no
room before, reaches down to the text. -/
def sampleChanges : List Change :=
  let column (n : Nat) : Value := .array (.filled n 1 (.number 1))
  let first : Place := ⟨"b", "s", 0, 0⟩
  let second : Place := ⟨"b", "s", 3, 0⟩
  [.store second (column 7), .store first (column 3), .markDirty [second], .invalidate first,
    .store first (column 2), .store second (column 5)]

theorem tiled_run_sample :
    let index := Index.ofBooks .builtin sampleColumn
    (∀ c ∈ sampleChanges, c.Sound index) ∧ (run sampleColumn index sampleChanges).Tiled sampleColumn index ∧
      ⟨"b", "s", 0, 0⟩ ∈ (run sampleColumn index sampleChanges).changedAnchors := by
  have hsound : ∀ c ∈ sampleChanges, c.Sound (Index.ofBooks .builtin sampleColumn) := by
    simp only [sampleChanges, List.forall_mem_cons, Change.Sound, Value.array.injEq, forall_eq', Grid.regular_filled,
      and_true, true_and, List.not_mem_nil, false_implies, implies_true]
    decide +kernel
  obtain ⟨htiled, hmoved⟩ := @tiled_run sampleColumn _ _ hsound
  refine ⟨hsound, htiled, hmoved _ _ _ _ (show sampleChanges = sampleChanges.take 4 ++ _ :: _ from rfl) (Or.inl ?_)⟩
  decide +kernel

end Pass

end Spreadsheet
