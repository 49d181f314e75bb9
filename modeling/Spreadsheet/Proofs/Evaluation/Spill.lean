import Mathlib.Data.List.Nodup
import Spreadsheet.Evaluation.Pass
import Spreadsheet.Proofs.Table
import Spreadsheet.Proofs.Value

/-! What storing a result does to the tables of a pass. -/

namespace Spreadsheet

open Std Dependency

/-- What a range covers on the sheet of a cell. -/
def Place.area (p : Place) (r : Range) : Region := ⟨p.book, p.sheet, r⟩

lemma Region.overlaps_of_contains {r s : Region} {p : Place} (hr : r.contains p = true) (hs : s.contains p = true) :
    r.overlaps s = true := by
  simp only [contains, Range.contains, Bool.and_eq_true, beq_iff_eq, decide_eq_true_eq] at hr hs
  simp only [overlaps, sameSheet, Range.overlaps, Bool.and_eq_true, beq_iff_eq, decide_eq_true_eq]
  exact ⟨⟨hr.1.1.trans hs.1.1.symm, hr.1.2.trans hs.1.2.symm⟩, by omega⟩

lemma Region.overlaps_comm (r s : Region) : r.overlaps s = s.overlaps r := by
  rw [Bool.eq_iff_iff]
  simp only [overlaps, sameSheet, Range.overlaps, Bool.and_eq_true, beq_iff_eq, decide_eq_true_eq]
  constructor
  · rintro ⟨⟨hb, hs⟩, h⟩
    exact ⟨⟨hb.symm, hs.symm⟩, by omega⟩
  · rintro ⟨⟨hb, hs⟩, h⟩
    exact ⟨⟨hb.symm, hs.symm⟩, by omega⟩

lemma Region.overlaps_region {r : Region} {p : Place} : r.overlaps p.region = r.contains p := by
  simp only [Region.overlaps, Region.sameSheet, Region.contains, Place.region, Region.cell, Range.cell,
    Range.between_of_le (Nat.le_refl _) (Nat.le_refl _), Range.overlaps, Range.contains]

lemma Place.contains_region {p x : Place} : p.region.contains x = true ↔ x = p := by
  simp only [Place.region, Region.cell, Region.contains, Range.cell, Range.contains,
    Range.between_of_le (Nat.le_refl _) (Nat.le_refl _), Bool.and_eq_true, beq_iff_eq, decide_eq_true_eq]
  constructor
  · rintro ⟨⟨hb, hs⟩, h⟩
    cases p
    cases x
    simp only [Place.mk.injEq] at *
    exact ⟨hb.symm, hs.symm, by omega, by omega⟩
  · rintro rfl
    simp

namespace Pass

variable {s : Pass} {books : Books} {index : Index} {a b x p q : Place} {r : Range} {v : Value} {g : Grid Value}

lemma beside_of_contains (h : (a.area r).contains x = true) : beside a (x.row, x.col) = x := by
  simp only [Place.area, Region.contains, Bool.and_eq_true, beq_iff_eq] at h
  obtain ⟨⟨hb, hs⟩, -⟩ := h
  cases x
  cases a
  simp_all [beside]

lemma mem_covered : x ∈ covered a r ↔ (a.area r).contains x = true := by
  simp only [covered, List.mem_map, Prod.exists, Range.mem_cells]
  constructor
  · rintro ⟨row, col, h, rfl⟩
    simpa [beside, Place.area, Region.contains] using h
  · intro h
    refine ⟨x.row, x.col, ?_, beside_of_contains h⟩
    simp only [Place.area, Region.contains, Bool.and_eq_true] at h
    exact h.2

lemma nodup_covered (a : Place) (r : Range) : (covered a r).Nodup := by
  refine (Range.nodup_cells r).map fun x y h => ?_
  have h := Place.mk.inj h
  exact Prod.ext h.2.2.1 h.2.2.2

/-! Withdrawing. -/

lemma withdraw_cases (s : Pass) (a : Place) : s.anchors[a]? = none ∧ s.withdraw a = s ∨
    ∃ r, s.anchors[a]? = some r ∧ s.withdraw a = { s with
      anchors := s.anchors.erase a
      spilled := (covered a r).foldl (fun m p => m.erase p) s.spilled
      changedAnchors := s.changedAnchors.insert a } := by
  unfold withdraw
  cases h : s.anchors[a]? with
  | none => exact Or.inl ⟨rfl, rfl⟩
  | some r => exact Or.inr ⟨r, rfl, rfl⟩

lemma anchors_withdraw : (s.withdraw a).anchors[b]? = if b = a then none else s.anchors[b]? := by
  rcases s.withdraw_cases a with ⟨h, heq⟩ | ⟨r, h, heq⟩ <;> rw [heq]
  · split
    · rename_i hb
      rw [hb, h]
    · rfl
  · simp only [ExtTreeMap.getElem?_erase, Std.compare_eq_iff_eq]
    exact if_congr eq_comm rfl rfl

lemma results_withdraw : (s.withdraw a).results = s.results := by
  rcases s.withdraw_cases a with ⟨_, heq⟩ | ⟨r, _, heq⟩ <;> rw [heq]

lemma dirty_withdraw : (s.withdraw a).dirty = s.dirty := by
  rcases s.withdraw_cases a with ⟨_, heq⟩ | ⟨r, _, heq⟩ <;> rw [heq]

lemma cycles_withdraw : (s.withdraw a).cycles = s.cycles := by
  rcases s.withdraw_cases a with ⟨_, heq⟩ | ⟨r, _, heq⟩ <;> rw [heq]

lemma spillArrays_withdraw : (s.withdraw a).spillArrays = s.spillArrays := by
  rcases s.withdraw_cases a with ⟨_, heq⟩ | ⟨r, _, heq⟩ <;> rw [heq]

lemma mem_changedAnchors_withdraw :
    b ∈ (s.withdraw a).changedAnchors ↔ b = a ∧ (s.anchors[a]?).isSome ∨ b ∈ s.changedAnchors := by
  rcases s.withdraw_cases a with ⟨h, heq⟩ | ⟨r, h, heq⟩ <;> rw [heq, h]
  · simp
  · simp only [ExtTreeSet.mem_insert, Std.compare_eq_iff_eq, Option.isSome_some, and_true]
    exact or_congr_left eq_comm

lemma spilled_withdraw (hx : ∀ r, s.anchors[a]? = some r → (a.area r).contains x = false) :
    (s.withdraw a).spilled[x]? = s.spilled[x]? := by
  rcases s.withdraw_cases a with ⟨_, heq⟩ | ⟨r, h, heq⟩ <;> rw [heq]
  simp only [Table.getElem?_foldl_erase, mem_covered]
  rw [if_neg (by simp [hx r h])]

lemma spilled_withdraw_of_some (h : (s.withdraw a).spilled[x]? = some v) : s.spilled[x]? = some v := by
  rcases s.withdraw_cases a with ⟨_, heq⟩ | ⟨r, _, heq⟩ <;> rw [heq] at h
  · exact h
  · simp only [Table.getElem?_foldl_erase] at h
    split at h
    · cases h
    · exact h

/-! Spilling. -/

lemma anchors_place (s : Pass) (a b : Place) (g : Grid Value) (r : Range) :
    (s.place a g r).anchors[b]? = if b = a then some r else s.anchors[b]? := by
  simp only [place, ExtTreeMap.getElem?_insert, Std.compare_eq_iff_eq]
  exact if_congr eq_comm rfl rfl

lemma anchors_place_self (s : Pass) (a : Place) (g : Grid Value) (r : Range) :
    (s.place a g r).anchors[a]? = some r := (s.anchors_place a a g r).trans (if_pos rfl)

lemma anchors_place_of_ne (s : Pass) {a b : Place} (hne : b ≠ a) (g : Grid Value) (r : Range) :
    (s.place a g r).anchors[b]? = s.anchors[b]? := (s.anchors_place a b g r).trans (if_neg hne)

lemma zip_unique {l : List Place} (hl : l.Nodup) (items : List Value) :
    ∀ x ∈ l.zip items, ∀ y ∈ l.zip items, x.1 = y.1 → x.2 = y.2 := by
  intro x hx y hy hxy
  have hsub : ∀ (l : List Place) (items : List Value), ((l.zip items).map Prod.fst).Sublist l := by
    intro l
    induction l with
    | nil => simp
    | cons p l ih =>
      rintro (_ | ⟨v, items⟩)
      · simp
      · exact (ih items).cons_cons p
  exact congrArg Prod.snd (List.inj_on_of_nodup_map (hl.sublist (hsub l items)) hx hy hxy)

lemma spilled_place (h : (a.area r).contains x = false) : (s.place a g r).spilled[x]? = s.spilled[x]? := by
  refine Option.ext fun v => ?_
  refine (Table.getElem?_foldl_insert Prod.fst (zip_unique (nodup_covered a r) g.items) s.spilled x v).trans ?_
  have hne : ∀ y ∈ (covered a r).zip g.items, y.1 ≠ x := by
    rintro y hy rfl
    have hmem := mem_covered.1 (List.of_mem_zip hy).1
    rw [h] at hmem
    cases hmem
  constructor
  · rintro (⟨y, hy, hx, -⟩ | ⟨-, hv⟩)
    · exact absurd hx (hne y hy)
    · exact hv
  · exact fun hv => Or.inr ⟨hne, hv⟩

lemma spilled_place_of_mem (h : (x, v) ∈ (covered a r).zip g.items) : (s.place a g r).spilled[x]? = some v :=
  (Table.getElem?_foldl_insert Prod.fst (zip_unique (nodup_covered a r) g.items) s.spilled x v).2
    (Or.inl ⟨_, h, rfl, rfl⟩)

/-- What a range that an array can spill into leaves alone. -/
structure Free (s : Pass) (books : Books) (index : Index) (a : Place) (r : Range) : Prop where
  cell : ∀ x, (a.area r).contains x = true → x ≠ a → ∀ cell, books.cell? x = some cell → cell.isEmpty = true
  formula : ∀ x, (a.area r).contains x = true → x ≠ a → index.cells.contains x = false
  array : ∀ x, (a.area r).contains x = true → x ≠ a → ∀ b q, b ≠ a → s.anchors[b]? = some q →
    (b.area q).contains x = false

lemma free_of_spillRange? (h : s.spillRange? books index a g = some r) :
    target? a g.rows g.cols = some r ∧ s.Free books index a r := by
  unfold spillRange? at h
  obtain ⟨t, ht, h⟩ := Option.bind_eq_some_iff.1 h
  rw [Option.ite_none_left_eq_some] at h
  obtain ⟨hany, h⟩ := h
  obtain rfl := Option.some.inj h
  have hfree : ∀ x, (a.area t).contains x = true → x ≠ a → s.isObstacle books index a x = false := by
    intro x hx _
    have hall := mt List.any_eq_true.2 hany
    simp only [not_exists, not_and, Bool.not_eq_true] at hall
    exact hall x (mem_covered.2 hx)
  refine ⟨ht, ?_, ?_, ?_⟩
  · intro x hx hne cell hcell
    have hx := hfree x hx hne
    simp only [isObstacle, bne_iff_ne.2 hne, Bool.true_and, Bool.or_eq_false_iff, hcell] at hx
    simpa using hx.1.1
  · intro x hx hne
    have hx := hfree x hx hne
    simp only [isObstacle, bne_iff_ne.2 hne, Bool.true_and, Bool.or_eq_false_iff] at hx
    exact hx.1.2
  · intro x hx hne b q hb hq
    have hx := hfree x hx hne
    simp only [isObstacle, bne_iff_ne.2 hne, Bool.true_and, Bool.or_eq_false_iff, coveredByOther] at hx
    have hnot := List.any_eq_false.1 hx.2 (b, q) (ExtTreeMap.mem_toList_iff_getElem?_eq_some.2 hq)
    simpa [bne_iff_ne.2 hb, Place.area, Region.contains] using hnot

lemma spillRange?_of_free (ht : target? a g.rows g.cols = some r) (h : s.Free books index a r) :
    s.spillRange? books index a g = some r := by
  refine Option.bind_eq_some_iff.2 ⟨r, ht, if_neg ?_⟩
  rw [List.any_eq_true]
  rintro ⟨x, hx, hobstacle⟩
  have hx := mem_covered.1 hx
  simp only [isObstacle, coveredByOther, Bool.and_eq_true, Bool.or_eq_true, bne_iff_ne] at hobstacle
  obtain ⟨hne, (hcell | hformula) | harray⟩ := hobstacle
  · cases hc : books.cell? x with
    | none => simp [hc] at hcell
    | some cell => simp [hc, h.cell x hx hne cell hc] at hcell
  · rw [h.formula x hx hne] at hformula
    cases hformula
  · obtain ⟨⟨b, q⟩, hb, hover⟩ := List.any_eq_true.1 harray
    simp only [Bool.and_eq_true, bne_iff_ne, beq_iff_eq] at hover
    have hclear := h.array x hx hne b q hover.1.1.1 (ExtTreeMap.mem_toList_iff_getElem?_eq_some.1 hb)
    simp [Place.area, Region.contains, hover.1.1.2, hover.1.2, hover.2] at hclear

lemma contains_target {rows cols : Nat} (h : target? a rows cols = some r) : (a.area r).contains a = true := by
  unfold target? at h
  simp only [Option.ite_none_right_eq_some, Option.some.injEq] at h
  obtain ⟨-, rfl⟩ := h
  simp only [Place.area, Region.contains, beq_self_eq_true, Bool.true_and]
  exact Range.contains_between _ _ _ _

lemma eq_of_target {rows cols : Nat} (h : target? a rows cols = some r) (hr : 0 < rows) (hc : 0 < cols) :
    r = ⟨{ row := a.row, col := a.col }, { row := a.row + rows - 1, col := a.col + cols - 1 }⟩ := by
  unfold target? at h
  simp only [Option.ite_none_right_eq_some, Option.some.injEq] at h
  obtain ⟨-, rfl⟩ := h
  exact Range.between_of_le (by omega) (by omega)

lemma stop_of_target {rows cols : Nat} (h : target? a rows cols = some r) (hr : 0 < rows) (hc : 0 < cols) :
    r.stop.row < maxRows ∧ r.stop.col < maxCols := by
  obtain rfl := eq_of_target h hr hc
  unfold target? at h
  exact (Option.ite_none_right_eq_some.1 h).1

lemma size_of_target {rows cols : Nat} (h : target? a rows cols = some r) (hr : 0 < rows) (hc : 0 < cols) :
    r.rowCount = rows ∧ r.colCount = cols := by
  obtain rfl := eq_of_target h hr hc
  simp only [Range.rowCount, Range.colCount]
  omega

lemma normal_of_target {rows cols : Nat} (h : target? a rows cols = some r) : r.Normal := by
  unfold target? at h
  simp only [Option.ite_none_right_eq_some, Option.some.injEq] at h
  exact h.2 ▸ Range.corners_normal _ _

lemma length_covered {rows cols : Nat} (h : target? a rows cols = some r) (hr : 0 < rows) (hc : 0 < cols) :
    (covered a r).length = rows * cols := by
  obtain ⟨hrows, hcols⟩ := size_of_target h hr hc
  rw [covered, List.length_map, Range.length_cells (normal_of_target h), hrows, hcols]

lemma covered_eq_cons {rows cols : Nat} (h : target? a rows cols = some r) (hr : 0 < rows) (hc : 0 < cols) :
    ∃ l, covered a r = a :: l := by
  obtain rfl := eq_of_target h hr hc
  have hrows : a.row + rows - 1 + 1 - a.row = (rows - 1) + 1 := by omega
  have hcols : a.col + cols - 1 + 1 - a.col = (cols - 1) + 1 := by omega
  simp only [covered, Range.cells, hrows, hcols, List.range'_succ, List.flatMap_cons, List.map_cons, List.cons_append]
  exact ⟨_, rfl⟩

lemma pos_of_regular (h : g.Regular) (hg : 0 < g.size) : 0 < g.rows ∧ 0 < g.cols := by
  rw [Grid.size, h] at hg
  exact ⟨Nat.pos_of_mul_pos_right hg, Nat.pos_of_mul_pos_left hg⟩

lemma exists_item (h : target? a g.rows g.cols = some r) (hg : g.Regular) (hpos : 0 < g.size)
    (hx : (a.area r).contains x = true) : ∃ u, (x, u) ∈ (covered a r).zip g.items := by
  obtain ⟨hrows, hcols⟩ := pos_of_regular hg hpos
  have hlength : (covered a r).length ≤ g.items.length := Nat.le_of_eq ((length_covered h hrows hcols).trans hg.symm)
  have hmem := mem_covered.2 hx
  rw [← List.map_fst_zip hlength] at hmem
  obtain ⟨⟨_, u⟩, hu, rfl⟩ := List.mem_map.1 hmem
  exact ⟨u, hu⟩

lemma first_item (h : target? a g.rows g.cols = some r) (hg : g.Regular) (hpos : 0 < g.size) :
    ∃ u, (a, u) ∈ (covered a r).zip g.items ∧ u.toScalar = (Value.array g).toScalar := by
  obtain ⟨hrows, hcols⟩ := pos_of_regular hg hpos
  obtain ⟨l, hl⟩ := covered_eq_cons h hrows hcols
  obtain ⟨rows, cols, items⟩ := g
  cases items with
  | nil => exact absurd hpos (Nat.lt_irrefl 0)
  | cons u items => exact ⟨u, by simp [hl], by rw [Value.toScalar]⟩

/-! Storing. -/

lemma store_cases (s : Pass) (books : Books) (index : Index) (a : Place) (v : Value) :
    (∃ w, (w = v ∧ (s.spillArrays = true → ∀ g, v = .array g → g.size ≤ 1) ∨ w = .error .spill) ∧
      s.store books index a v = (s.withdraw a).record a w) ∨
    ∃ g r, v = .array g ∧ 1 < g.size ∧ target? a g.rows g.cols = some r ∧ (s.withdraw a).Free books index a r ∧
      s.store books index a v = ((s.withdraw a).place a g r).record a v := by
  cases v with
  | array g =>
    by_cases hg : s.spillArrays = true ∧ 1 < g.size
    · cases hr : (s.withdraw a).spillRange? books index a g with
      | none =>
        refine Or.inl ⟨_, Or.inr rfl, ?_⟩
        simp only [store, spillArrays_withdraw, if_pos hg, hr]
      | some r =>
        obtain ⟨ht, hfree⟩ := free_of_spillRange? hr
        refine Or.inr ⟨g, r, rfl, hg.2, ht, hfree, ?_⟩
        simp only [store, spillArrays_withdraw, if_pos hg, hr]
    · refine Or.inl ⟨_, Or.inl ⟨rfl, ?_⟩, ?_⟩
      · rintro hs _ ⟨⟩
        exact Nat.not_lt.1 fun h => hg ⟨hs, h⟩
      · simp only [store, spillArrays_withdraw, if_neg hg]
  | _ => exact Or.inl ⟨_, Or.inl ⟨rfl, by rintro _ _ ⟨⟩⟩, rfl⟩

lemma store_of_free (hs : s.spillArrays = true) (hg : 1 < g.size) (ht : target? a g.rows g.cols = some r)
    (h : s.Free books index a r) :
    s.store books index a (.array g) = ((s.withdraw a).place a g r).record a (.array g) := by
  have hfree : (s.withdraw a).Free books index a r := by
    refine ⟨h.cell, h.formula, fun x hx hne b q hb hq => h.array x hx hne b q hb ?_⟩
    rwa [anchors_withdraw, if_neg hb] at hq
  simp only [store, spillArrays_withdraw, if_pos (And.intro hs hg), spillRange?_of_free ht hfree]

lemma store_of_not_array (h : ∀ g, v ≠ .array g) : s.store books index a v = (s.withdraw a).record a v := by
  cases v with
  | array g => exact absurd rfl (h g)
  | _ => rfl

lemma results_record {w : Value} : (s.record a w).results[q]? = if q = a then some w else s.results[q]? := by
  simp only [record, ExtTreeMap.getElem?_insert, Std.compare_eq_iff_eq]
  exact if_congr eq_comm rfl rfl

lemma results_store (s : Pass) (books : Books) (index : Index) (a : Place) (v : Value) :
    ∃ w, (w = v ∨ w = .error .spill) ∧
      ∀ q, (s.store books index a v).results[q]? = if q = a then some w else s.results[q]? := by
  rcases s.store_cases books index a v with ⟨w, hw, heq⟩ | ⟨g, r, -, -, -, -, heq⟩ <;> rw [heq]
  · refine ⟨w, hw.imp_left And.left, fun q => ?_⟩
    rw [results_record, results_withdraw]
  · refine ⟨v, Or.inl rfl, fun q => ?_⟩
    rw [results_record, show ((s.withdraw a).place a g r).results = s.results from results_withdraw]

lemma results_store_of_ne (h : q ≠ a) : (s.store books index a v).results[q]? = s.results[q]? := by
  obtain ⟨w, -, hresults⟩ := s.results_store books index a v
  rw [hresults, if_neg h]

lemma results_of_store {P : Value → Prop} (h : ∀ (q : Place) (w : Value), s.results[q]? = some w → P w) (hv : P v)
    (hspill : P (.error .spill)) :
    ∀ (q : Place) (w : Value), (s.store books index a v).results[q]? = some w → P w := by
  obtain ⟨u, hu, hresults⟩ := s.results_store books index a v
  intro q w hw
  rw [hresults] at hw
  split at hw
  · obtain rfl := Option.some.inj hw
    rcases hu with rfl | rfl
    · exact hv
    · exact hspill
  · exact h q w hw

lemma mem_dirty_store : q ∈ (s.store books index a v).dirty ↔ q ≠ a ∧ q ∈ s.dirty := by
  have hrecord : ∀ (t : Pass) (w : Value), t.dirty = s.dirty → (q ∈ (t.record a w).dirty ↔ q ≠ a ∧ q ∈ s.dirty) := by
    intro t w ht
    simp only [record, ExtTreeSet.mem_erase, ht]
    refine and_congr_left' (not_congr ?_)
    rw [Std.compare_eq_iff_eq, eq_comm]
  rcases s.store_cases books index a v with ⟨w, -, heq⟩ | ⟨g, r, -, -, -, -, heq⟩ <;> rw [heq]
  · exact hrecord _ _ dirty_withdraw
  · exact hrecord _ _ dirty_withdraw

lemma cycles_store : (s.store books index a v).cycles = s.cycles := by
  rcases s.store_cases books index a v with ⟨w, -, heq⟩ | ⟨g, r, -, -, -, -, heq⟩ <;> rw [heq]
  · exact cycles_withdraw
  · exact cycles_withdraw

lemma spillArrays_store : (s.store books index a v).spillArrays = s.spillArrays := by
  rcases s.store_cases books index a v with ⟨w, -, heq⟩ | ⟨g, r, -, -, -, -, heq⟩ <;> rw [heq]
  · exact spillArrays_withdraw
  · exact spillArrays_withdraw

lemma anchors_store (hb : b ≠ a) : (s.store books index a v).anchors[b]? = s.anchors[b]? := by
  have hw : (s.withdraw a).anchors[b]? = s.anchors[b]? := by rw [anchors_withdraw, if_neg hb]
  rcases s.store_cases books index a v with ⟨w, -, heq⟩ | ⟨g, r, -, -, -, -, heq⟩ <;> rw [heq]
  · exact hw
  · exact ((s.withdraw a).anchors_place_of_ne hb g r).trans hw

lemma store_of_some (h : (s.store books index a v).anchors[a]? = some r) :
    ∃ g, v = .array g ∧ 1 < g.size ∧ target? a g.rows g.cols = some r ∧ (s.withdraw a).Free books index a r ∧
      s.store books index a v = ((s.withdraw a).place a g r).record a v := by
  rcases s.store_cases books index a v with ⟨w, -, heq⟩ | ⟨g, t, hv, hg, ht, hfree, heq⟩ <;> rw [heq] at h
  · have hnone : (s.withdraw a).anchors[a]? = none := anchors_withdraw.trans (if_pos rfl)
    exact nomatch hnone.symm.trans h
  · obtain rfl := Option.some.inj (((s.withdraw a).anchors_place_self a g t).symm.trans h)
    exact ⟨g, hv, hg, ht, hfree, heq⟩

lemma anchors_store_of_array (hs : s.spillArrays = true) (hg : 1 < g.size)
    (h : (s.store books index a v).results[a]? = some (.array g)) :
    ∃ r, (s.store books index a v).anchors[a]? = some r := by
  rcases s.store_cases books index a v with ⟨w, hw, heq⟩ | ⟨t, r, -, -, -, -, heq⟩ <;> rw [heq] at h ⊢
  · rw [results_record, if_pos rfl] at h
    obtain rfl := Option.some.inj h
    rcases hw with ⟨rfl, hw⟩ | hw
    · exact absurd hg (Nat.not_lt.2 (hw hs g rfl))
    · exact nomatch hw
  · exact ⟨r, (s.withdraw a).anchors_place_self a t r⟩

lemma contains_of_anchors_store (h : (s.store books index a v).anchors[a]? = some r) :
    (a.area r).contains a = true := by
  obtain ⟨g, -, -, ht, -, -⟩ := store_of_some h
  exact contains_target ht

lemma spilled_store (hold : ∀ r, s.anchors[a]? = some r → (a.area r).contains x = false)
    (hnew : ∀ r, (s.store books index a v).anchors[a]? = some r → (a.area r).contains x = false) :
    (s.store books index a v).spilled[x]? = s.spilled[x]? := by
  rcases s.store_cases books index a v with ⟨w, -, heq⟩ | ⟨g, r, -, -, -, -, heq⟩ <;> rw [heq] at hnew ⊢
  · exact spilled_withdraw hold
  · have hr := hnew r ((s.withdraw a).anchors_place_self a g r)
    exact (spilled_place (s := s.withdraw a) (g := g) hr).trans (spilled_withdraw hold)

lemma spilled_store_of_left (hold : s.anchors[a]? = some r) (hx : (a.area r).contains x = true)
    (hnew : ∀ t, (s.store books index a v).anchors[a]? = some t → (a.area t).contains x = false) :
    (s.store books index a v).spilled[x]? = none := by
  have hw : (s.withdraw a).spilled[x]? = none := by
    rcases s.withdraw_cases a with ⟨h, -⟩ | ⟨t, h, heq⟩
    · exact nomatch h.symm.trans hold
    · obtain rfl := Option.some.inj (h.symm.trans hold)
      rw [heq]
      simp only [Table.getElem?_foldl_erase, mem_covered, if_pos hx]
  rcases s.store_cases books index a v with ⟨w, -, heq⟩ | ⟨g, t, -, -, -, -, heq⟩ <;> rw [heq] at hnew ⊢
  · exact hw
  · have ht := hnew t ((s.withdraw a).anchors_place_self a g t)
    exact (spilled_place (s := s.withdraw a) (g := g) ht).trans hw

lemma spilled_store_of_some {u : Value} (h : (s.store books index a v).spilled[x]? = some u) :
    s.spilled[x]? = some u ∨ ∃ g, v = .array g ∧ u ∈ g.items := by
  rcases s.store_cases books index a v with ⟨w, -, heq⟩ | ⟨g, r, hv, -, -, -, heq⟩ <;> rw [heq] at h
  · exact Or.inl (spilled_withdraw_of_some h)
  · rcases (Table.getElem?_foldl_insert Prod.fst (zip_unique (nodup_covered a r) g.items) _ x u).1 h with
      ⟨y, hy, -, rfl⟩ | ⟨-, h⟩
    · exact Or.inr ⟨g, hv, (List.of_mem_zip hy).2⟩
    · exact Or.inl (spilled_withdraw_of_some h)

lemma spilled_of_store {P : Value → Prop} (h : ∀ (q : Place) (w : Value), s.spilled[q]? = some w → P w)
    (hv : ∀ g, v = .array g → ∀ w ∈ g.items, P w) :
    ∀ (q : Place) (w : Value), (s.store books index a v).spilled[q]? = some w → P w := by
  intro q w hw
  rcases spilled_store_of_some hw with hold | ⟨g, hg, hmem⟩
  · exact h q w hold
  · exact hv g hg w hmem

lemma mem_changedAnchors_store : b ∈ (s.store books index a v).changedAnchors ↔
    b = a ∧ ((s.anchors[a]?).isSome ∨ ((s.store books index a v).anchors[a]?).isSome) ∨ b ∈ s.changedAnchors := by
  rcases s.store_cases books index a v with ⟨w, -, heq⟩ | ⟨g, r, -, -, -, -, heq⟩ <;> rw [heq]
  · have hnone : ((s.withdraw a).record a w).anchors[a]? = none := anchors_withdraw.trans (if_pos rfl)
    have hrecord : ((s.withdraw a).record a w).changedAnchors = (s.withdraw a).changedAnchors := rfl
    rw [hnone, hrecord, mem_changedAnchors_withdraw]
    simp
  · have hsome : (((s.withdraw a).place a g r).record a v).anchors[a]? = some r :=
      (s.withdraw a).anchors_place_self a g r
    have hchanged : b ∈ (((s.withdraw a).place a g r).record a v).changedAnchors ↔
        b = a ∨ b ∈ (s.withdraw a).changedAnchors := by
      simp only [record, place, ExtTreeSet.mem_insert, Std.compare_eq_iff_eq]
      rw [eq_comm]
    rw [hsome, hchanged, mem_changedAnchors_withdraw]
    simp only [Option.isSome_some, or_true, and_true, ← or_assoc]
    exact or_congr_left (or_iff_left_of_imp And.left)

/-! What lies over a place. -/

/-- The array of an anchor covers a place. -/
def Over (s : Pass) (a x : Place) : Prop := ∃ r, s.anchors[a]? = some r ∧ (a.area r).contains x = true

lemma over_store (hb : b ≠ a) : (s.store books index a v).Over b x ↔ s.Over b x := by
  simp only [Over, anchors_store hb]

lemma spilled_store_of_not_over (hold : ¬ s.Over a x) (hnew : ¬ (s.store books index a v).Over a x) :
    (s.store books index a v).spilled[x]? = s.spilled[x]? := by
  refine spilled_store (fun r hr => ?_) fun r hr => ?_
  · exact Bool.eq_false_iff.2 fun hx => hold ⟨r, hr, hx⟩
  · exact Bool.eq_false_iff.2 fun hx => hnew ⟨r, hr, hx⟩

/-- An array spills over no formula but its own, and over nothing that another array covers. -/
lemma clear_store (h : (s.store books index a v).Over a x) (hx : x ≠ a) :
    index.cells.contains x = false ∧ ∀ b, (s.store books index a v).Over b x → b = a := by
  obtain ⟨r, hr, hin⟩ := h
  obtain ⟨g, -, -, -, hfree, -⟩ := store_of_some hr
  refine ⟨hfree.formula x hin hx, fun b hb => ?_⟩
  by_contra hne
  obtain ⟨t, ht, hbx⟩ := (over_store hne).1 hb
  have hw : (s.withdraw a).anchors[b]? = some t := by rw [anchors_withdraw, if_neg hne, ht]
  rw [hfree.array x hin hx b t hne hw] at hbx
  cases hbx

lemma changed_of_over (h : s.Over a x ∨ (s.store books index a v).Over a x) :
    a ∈ (s.store books index a v).changedAnchors := by
  rw [mem_changedAnchors_store]
  refine Or.inl ⟨rfl, h.imp ?_ ?_⟩
  · rintro ⟨r, hr, -⟩
    rw [hr, Option.isSome_some]
  · rintro ⟨r, hr, -⟩
    rw [hr, Option.isSome_some]

lemma changed_store (h : b ∈ s.changedAnchors) : b ∈ (s.store books index a v).changedAnchors :=
  mem_changedAnchors_store.2 (Or.inr h)

end Pass

end Spreadsheet
