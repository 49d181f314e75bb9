import Mathlib.Data.List.Nodup
import Mathlib.Data.List.Count
import Spreadsheet.Proofs.Grid
import Spreadsheet.Range

/-! Ranges as sets of cells. What two ranges share and what encloses them both is settled by their cells, which a range lists row
by row, and whole columns and rows lose only cells when they are cut to the bounds of a sheet. -/

namespace Spreadsheet

namespace Range

variable {r s t : Range} {row col : Nat} {p q : Nat × Nat}

lemma between_of_le {row₁ col₁ row₂ col₂ : Nat} (hr : row₁ ≤ row₂) (hc : col₁ ≤ col₂) :
    between row₁ col₁ row₂ col₂ = ⟨{ row := row₁, col := col₁ }, { row := row₂, col := col₂ }⟩ := by
  simp [between, corners, hr, hc]

lemma contains_between (row₁ col₁ row₂ col₂ : Nat) : (between row₁ col₁ row₂ col₂).contains row₁ col₁ = true := by
  by_cases hr : row₁ ≤ row₂ <;> by_cases hc : col₁ ≤ col₂ <;> simp [between, corners, contains, hr, hc] <;> omega

lemma contains_iff : r.contains row col = true ↔
    r.start.row ≤ row ∧ row ≤ r.stop.row ∧ r.start.col ≤ col ∧ col ≤ r.stop.col := by
  simp only [contains, Bool.and_eq_true, decide_eq_true_eq, and_assoc]

lemma mem_iff : p ∈ r ↔ r.start.row ≤ p.1 ∧ p.1 ≤ r.stop.row ∧ r.start.col ≤ p.2 ∧ p.2 ≤ r.stop.col := contains_iff

lemma mem_start (hr : r.Normal) : (r.start.row, r.start.col) ∈ r := mem_iff.mpr ⟨Nat.le_refl _, hr.1, Nat.le_refl _, hr.2⟩

lemma mem_stop (hr : r.Normal) : (r.stop.row, r.stop.col) ∈ r := mem_iff.mpr ⟨hr.1, Nat.le_refl _, hr.2, Nat.le_refl _⟩

lemma mem_corners (a b : Address) : (a.row, a.col) ∈ corners a b ∧ (b.row, b.col) ∈ corners a b := by
  by_cases hr : a.row ≤ b.row <;> by_cases hc : a.col ≤ b.col <;> simp [mem_iff, corners, hr, hc] <;> omega

/-! Sheets have a last row and a last column. -/

/-- Sheets can have the cells of the range. -/
def OnSheet (r : Range) : Prop := r.Normal ∧ r.stop.onSheet

lemma onSheet_corners {a b : Address} (ha : a.onSheet) (hb : b.onSheet) : (corners a b).OnSheet := by
  refine ⟨corners_normal a b, ?_⟩
  obtain ⟨har, hac⟩ := ha
  obtain ⟨hbr, hbc⟩ := hb
  simp only [corners, Address.onSheet]
  constructor <;> split <;> assumption

/-- The range reaches over neither all rows nor all columns. -/
def Bounded (r : Range) : Prop :=
  ¬ (r.start.row = 0 ∧ maxRows ≤ r.stop.row + 1) ∧ ¬ (r.start.col = 0 ∧ maxCols ≤ r.stop.col + 1)

lemma OnSheet.bounded (h : r.OnSheet) (hr : r.isWholeColumns = false) (hc : r.isWholeRows = false) : r.Bounded := by
  obtain ⟨-, hrow, hcol⟩ := h
  simp only [isWholeColumns, isWholeRows, Bool.and_eq_false_iff, beq_eq_false_iff_ne] at hr hc
  constructor <;> omega

/-! Parts of ranges. -/

/-- One range is a part of another. -/
def Inside (r s : Range) : Prop :=
  r.Normal ∧ s.start.row ≤ r.start.row ∧ s.start.col ≤ r.start.col ∧ r.stop.row ≤ s.stop.row ∧
    r.stop.col ≤ s.stop.col

lemma Inside.trans (h : r.Inside s) (h' : s.Inside t) : r.Inside t :=
  ⟨h.1, Nat.le_trans h'.2.1 h.2.1, Nat.le_trans h'.2.2.1 h.2.2.1, Nat.le_trans h.2.2.2.1 h'.2.2.2.1,
    Nat.le_trans h.2.2.2.2 h'.2.2.2.2⟩

lemma Inside.refl (h : r.Normal) : r.Inside r :=
  ⟨h, Nat.le_refl _, Nat.le_refl _, Nat.le_refl _, Nat.le_refl _⟩

lemma Inside.contains (h : r.Inside s) (hc : r.contains row col = true) : s.contains row col = true := by
  obtain ⟨_, h₁, h₂, h₃, h₄⟩ := h
  rw [contains_iff] at hc ⊢
  omega

lemma Inside.bounded (h : r.Inside s) (hs : s.Bounded) : r.Bounded := by
  obtain ⟨_, h₁, h₂, h₃, h₄⟩ := h
  obtain ⟨hr, hc⟩ := hs
  constructor <;> omega

lemma Inside.onSheet (h : r.Inside s) (hs : s.OnSheet) : r.OnSheet :=
  ⟨h.1, Nat.lt_of_le_of_lt h.2.2.2.1 hs.2.1, Nat.lt_of_le_of_lt h.2.2.2.2 hs.2.2⟩

lemma inside_iff_forall_mem (hr : r.Normal) : r.Inside s ↔ ∀ p ∈ r, p ∈ s := by
  constructor
  · exact fun h p hp => h.contains hp
  · intro h
    have hstart := mem_iff.mp (h _ (mem_start hr))
    have hstop := mem_iff.mp (h _ (mem_stop hr))
    exact ⟨hr, hstart.1, hstart.2.2.1, hstop.2.1, hstop.2.2.2⟩

/-! Two ranges. -/

lemma overlaps_iff : r.overlaps s = true ↔
    (r.start.row ≤ s.stop.row ∧ s.start.row ≤ r.stop.row) ∧ r.start.col ≤ s.stop.col ∧ s.start.col ≤ r.stop.col := by
  simp only [overlaps, Bool.and_eq_true, decide_eq_true_eq, and_assoc]

lemma contains_of_overlaps (hr : r.Normal) (ht : t.Normal) (h : r.overlaps t = true) :
    ∃ row col, r.contains row col = true ∧ t.contains row col = true := by
  refine ⟨max r.start.row t.start.row, max r.start.col t.start.col, ?_⟩
  simp only [overlaps_iff, contains_iff, Normal] at *
  omega

lemma overlaps_iff_exists_mem (hr : r.Normal) (hs : s.Normal) : r.overlaps s = true ↔ ∃ p, p ∈ r ∧ p ∈ s := by
  constructor
  · intro h
    obtain ⟨row, col, h⟩ := contains_of_overlaps hr hs h
    exact ⟨(row, col), h⟩
  · rintro ⟨p, hr, hs⟩
    rw [mem_iff] at hr hs
    rw [overlaps_iff]
    omega

lemma isSome_intersect? (r s : Range) : (r.intersect? s).isSome = r.overlaps s := by
  rw [intersect?]
  split <;> simp_all

lemma normal_mem_of_intersect? (hr : r.Normal) (hs : s.Normal) (h : r.intersect? s = some t) :
    t.Normal ∧ ∀ p, p ∈ t ↔ p ∈ r ∧ p ∈ s := by
  rw [intersect?, Option.ite_none_right_eq_some, overlaps_iff, Option.some.injEq] at h
  obtain ⟨ho, rfl⟩ := h
  obtain ⟨hrow, hcol⟩ := hr
  obtain ⟨hrow', hcol'⟩ := hs
  have h₁ : max r.start.row s.start.row ≤ min r.stop.row s.stop.row := by omega
  have h₂ : max r.start.col s.start.col ≤ min r.stop.col s.stop.col := by omega
  rw [between_of_le h₁ h₂]
  refine ⟨⟨h₁, h₂⟩, fun p => ?_⟩
  simp only [mem_iff]
  omega

lemma intersect?_inside (hr : r.Normal) (hs : s.Normal) (h : r.intersect? s = some t) : t.Inside r := by
  obtain ⟨ht, hmem⟩ := normal_mem_of_intersect? hr hs h
  exact (inside_iff_forall_mem ht).mpr fun p hp => ((hmem p).mp hp).1

lemma bounding_eq (hr : r.Normal) (hs : s.Normal) : r.bounding s =
    ⟨{ row := min r.start.row s.start.row, col := min r.start.col s.start.col },
      { row := max r.stop.row s.stop.row, col := max r.stop.col s.stop.col }⟩ := by
  obtain ⟨hrow, hcol⟩ := hr
  obtain ⟨hrow', hcol'⟩ := hs
  exact between_of_le (by omega) (by omega)

lemma normal_bounding (r s : Range) : (r.bounding s).Normal := corners_normal _ _

lemma bounding_inside_iff (hr : r.Normal) (hs : s.Normal) : (r.bounding s).Inside t ↔ r.Inside t ∧ s.Inside t := by
  have hnormal := normal_bounding r s
  simp only [Inside, bounding_eq hr hs, Nat.le_min, Nat.max_le] at hnormal ⊢
  constructor
  · rintro ⟨-, h₁, h₂, h₃, h₄⟩
    exact ⟨⟨hr, h₁.1, h₂.1, h₃.1, h₄.1⟩, hs, h₁.2, h₂.2, h₃.2, h₄.2⟩
  · rintro ⟨⟨-, h₁, h₂, h₃, h₄⟩, -, h₁', h₂', h₃', h₄'⟩
    exact ⟨hnormal, ⟨h₁, h₁'⟩, ⟨h₂, h₂'⟩, ⟨h₃, h₃'⟩, h₄, h₄'⟩

lemma mem_bounding (hr : r.Normal) (hs : s.Normal) (hp : p ∈ r ∨ p ∈ s) : p ∈ r.bounding s := by
  obtain ⟨hinside, hinside'⟩ := (bounding_inside_iff hr hs).mp (Inside.refl (normal_bounding r s))
  exact hp.elim (fun hp => hinside.contains hp) fun hp => hinside'.contains hp

lemma onSheet_bounding (hr : r.OnSheet) (hs : s.OnSheet) : (r.bounding s).OnSheet := by
  refine ⟨normal_bounding r s, ?_⟩
  rw [bounding_eq hr.1 hs.1]
  exact ⟨Nat.max_lt.mpr ⟨hr.2.1, hs.2.1⟩, Nat.max_lt.mpr ⟨hr.2.2, hs.2.2⟩⟩

/-! The cells of a range. -/

lemma mem_cells : (row, col) ∈ r.cells ↔ r.contains row col = true := by
  simp only [cells, List.mem_flatMap, List.mem_map, List.mem_range'_1, Prod.mk.injEq, contains_iff]
  constructor
  · rintro ⟨_, hr, _, hc, rfl, rfl⟩
    omega
  · intro h
    exact ⟨row, by omega, col, by omega, rfl, rfl⟩

lemma length_cells (h : r.Normal) : r.cells.length = r.rowCount * r.colCount := by
  obtain ⟨hr, hc⟩ := h
  simp only [cells, List.length_flatMap, List.length_map, List.length_range', List.map_const', List.sum_replicate_nat,
    rowCount, colCount]
  rw [Nat.sub_add_comm hr, Nat.sub_add_comm hc]

lemma getElem?_cells (hr : r.Normal) {i j : Nat} (hi : i < r.rowCount) (hj : j < r.colCount) :
    r.cells[i * r.colCount + j]? = some (r.start.row + i, r.start.col + j) := by
  have hrows : r.stop.row + 1 - r.start.row = r.rowCount := by
    rw [rowCount]
    have := hr.1
    omega
  have hcols : r.stop.col + 1 - r.start.col = r.colCount := by
    rw [colCount]
    have := hr.2
    omega
  have hrow : (List.range' r.start.row r.rowCount)[i]? = some (r.start.row + i) := by simp [hi]
  rw [cells, hrows, hcols, Grid.getElem?_flatMap_of_length (fun _ _ => by simp) hrow hj]
  simp [hj]

lemma pairwise_cells (r : Range) : r.cells.Pairwise fun p q => p.1 < q.1 ∨ p.1 = q.1 ∧ p.2 < q.2 := by
  rw [cells, List.pairwise_flatMap]
  constructor
  · intro row _
    exact List.pairwise_map.mpr ((List.pairwise_lt_range' 1).imp fun hlt => .inr ⟨rfl, hlt⟩)
  · refine (List.pairwise_lt_range' 1).imp fun hlt p hp q hq => .inl ?_
    obtain ⟨_, _, rfl⟩ := List.mem_map.mp hp
    obtain ⟨_, _, rfl⟩ := List.mem_map.mp hq
    exact hlt

lemma nodup_cells (r : Range) : r.cells.Nodup :=
  r.pairwise_cells.imp fun hlt heq => by subst heq; omega

lemma count_cells (r : Range) (p : Nat × Nat) : r.cells.count p = if p ∈ r then 1 else 0 := by
  have hmem : p ∈ r.cells ↔ p ∈ r := mem_cells
  rw [r.nodup_cells.count]
  simp only [hmem]

/-! Whole columns and whole rows. -/

lemma normal_clamp (h : r.Normal) (rows cols : Nat) : (r.clamp rows cols).Normal := by
  obtain ⟨hrow, hcol⟩ := h
  simp only [Normal, clamp, isWholeColumns, isWholeRows, Bool.and_eq_true, beq_iff_eq]
  constructor <;> split <;> omega

lemma clamp_of_not_whole (hr : r.isWholeColumns = false) (hc : r.isWholeRows = false) (rows cols : Nat) : r.clamp rows cols = r := by
  simp [clamp, hr, hc]

lemma mem_clamp {rows cols : Nat} (hrows : rows ≤ maxRows) (hcols : cols ≤ maxCols) : p ∈ r.clamp rows cols ↔
    p ∈ r ∧ (r.isWholeColumns = true → p.1 < max rows 1) ∧ (r.isWholeRows = true → p.2 < max cols 1) := by
  have hrow : 0 < maxRows := by decide
  have hcol : 0 < maxCols := by decide
  simp only [mem_iff, clamp, isWholeColumns, isWholeRows, Bool.and_eq_true, beq_iff_eq]
  split <;> split <;> omega

lemma clamp_inside (h : r.Normal) {rows cols : Nat} (hrows : rows ≤ maxRows) (hcols : cols ≤ maxCols) :
    (r.clamp rows cols).Inside r :=
  (inside_iff_forall_mem (normal_clamp h rows cols)).mpr fun _ hp => ((mem_clamp hrows hcols).mp hp).1

lemma out_of_clamp {rows cols : Nat} (h : r.contains row col = true) (hout : (r.clamp rows cols).contains row col = false) :
    rows ≤ row ∧ row < maxRows ∨ cols ≤ col ∧ col < maxCols := by
  have hrows : 0 < maxRows := by decide
  have hcols : 0 < maxCols := by decide
  simp only [contains, clamp, isWholeColumns, isWholeRows, Bool.and_eq_true, decide_eq_true_eq, beq_iff_eq] at h hout
  rw [← Bool.not_eq_true] at hout
  simp only [Bool.and_eq_true, decide_eq_true_eq] at hout
  split at hout <;> split at hout <;> omega

lemma Bounded.clamp (h : r.Bounded) (rows cols : Nat) : r.clamp rows cols = r := by
  obtain ⟨hr, hc⟩ := h
  refine clamp_of_not_whole ?_ ?_ rows cols
  · simp only [isWholeColumns, Bool.and_eq_false_iff, beq_eq_false_iff_ne]
    omega
  · simp only [isWholeRows, Bool.and_eq_false_iff, beq_eq_false_iff_ne]
    omega

lemma clamp_of_isSingle (h : r.isSingle = true) (rows cols : Nat) : r.clamp rows cols = r := by
  have hrows : maxRows - 1 ≠ 0 := by decide
  have hcols : maxCols - 1 ≠ 0 := by decide
  simp only [isSingle, Address.samePosition, Bool.and_eq_true, beq_iff_eq] at h
  refine clamp_of_not_whole ?_ ?_ rows cols
  · simp only [isWholeColumns, h.1, Bool.and_eq_false_iff, beq_eq_false_iff_ne]
    omega
  · simp only [isWholeRows, h.2, Bool.and_eq_false_iff, beq_eq_false_iff_ne]
    omega

/-- The operations on ranges are those on their sets of cells. -/
theorem cells_algebra (hr : r.OnSheet) (hs : s.OnSheet) :
    (r.overlaps s = true ↔ ∃ p, p ∈ r ∧ p ∈ s) ∧
      ((r.intersect? s).isSome = true ↔ ∃ p, p ∈ r ∧ p ∈ s) ∧
      (∀ t, r.intersect? s = some t → t.OnSheet ∧ ∀ p, p ∈ t ↔ p ∈ r ∧ p ∈ s) ∧
      ((r.bounding s).OnSheet ∧ (∀ p, p ∈ r ∨ p ∈ s → p ∈ r.bounding s) ∧
        ∀ t : Range, (∀ p, p ∈ r ∨ p ∈ s → p ∈ t) → ∀ p ∈ r.bounding s, p ∈ t) ∧
      ((∀ p, r.cells.count p = if p ∈ r then 1 else 0) ∧ r.cells.length = r.cellCount ∧
        r.cells.Pairwise fun p q => p.1 < q.1 ∨ p.1 = q.1 ∧ p.2 < q.2) ∧
      (∀ a b, (corners a b).Normal ∧ (a.row, a.col) ∈ corners a b ∧ (b.row, b.col) ∈ corners a b) ∧
      ∀ rows cols, rows ≤ maxRows → cols ≤ maxCols → (r.clamp rows cols).OnSheet ∧
        (∀ p, p ∈ r.clamp rows cols ↔
          p ∈ r ∧ (r.isWholeColumns = true → p.1 < max rows 1) ∧ (r.isWholeRows = true → p.2 < max cols 1)) ∧
        (r.isWholeColumns = false → r.isWholeRows = false → r.clamp rows cols = r) := by
  refine ⟨overlaps_iff_exists_mem hr.1 hs.1, ?_, fun t ht => ?_, ⟨onSheet_bounding hr hs, fun p => mem_bounding hr.1 hs.1, ?_⟩,
    ⟨count_cells r, length_cells hr.1, pairwise_cells r⟩, fun a b => ⟨corners_normal a b, mem_corners a b⟩,
    fun rows cols hrows hcols => ⟨(clamp_inside hr.1 hrows hcols).onSheet hr, fun p => mem_clamp hrows hcols,
      fun hcolumns hrows => clamp_of_not_whole hcolumns hrows rows cols⟩⟩
  · rw [isSome_intersect?]
    exact overlaps_iff_exists_mem hr.1 hs.1
  · exact ⟨(intersect?_inside hr.1 hs.1 ht).onSheet hr, (normal_mem_of_intersect? hr.1 hs.1 ht).2⟩
  · intro t ht p hp
    have hr' : r.Inside t := (inside_iff_forall_mem hr.1).mpr fun p hp => ht p (.inl hp)
    have hs' : s.Inside t := (inside_iff_forall_mem hs.1).mpr fun p hp => ht p (.inr hp)
    exact ((bounding_inside_iff hr.1 hs.1).mpr ⟨hr', hs'⟩).contains hp

theorem cells_algebra_wholeColumns :
    let r := wholeColumns 0 1
    let s := between 5 4 3 1
    let t := between 3 1 5 1
    r.OnSheet ∧ s.OnSheet ∧ r.intersect? s = some t ∧ (t.OnSheet ∧ ∀ p, p ∈ t ↔ p ∈ r ∧ p ∈ s) ∧ (9, 1) ∈ r.bounding s ∧
      (r.clamp 10 5).OnSheet ∧ ((9, 1) ∈ r.clamp 10 5 ↔ (9, 1) ∈ r ∧ (r.isWholeColumns = true → 9 < max 10 1) ∧
        (r.isWholeRows = true → 1 < max 5 1)) ∧ s.clamp 10 5 = s := by
  intro r s t
  have hr : r.OnSheet := ⟨by decide, by decide⟩
  have hs : s.OnSheet := ⟨by decide, by decide⟩
  have hshared : r.intersect? s = some t := by decide
  obtain ⟨-, -, hintersect, ⟨-, hbounding, -⟩, -, -, hclamp⟩ := cells_algebra hr hs
  have hclamp := hclamp 10 5 (by decide) (by decide)
  have hkept := (cells_algebra hs hr).2.2.2.2.2.2 10 5 (by decide) (by decide)
  exact ⟨hr, hs, hshared, hintersect t hshared, hbounding _ (.inl (by decide)), hclamp.1, hclamp.2.1 _,
    hkept.2.2 (by decide) (by decide)⟩

end Range

end Spreadsheet
