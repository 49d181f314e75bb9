import Mathlib.Tactic.Lemma
import Spreadsheet.Grid

/-! The items of a grid by row and column. A regular grid is settled by its shape and its items, and turning it over swaps rows
and columns. -/

namespace Spreadsheet

namespace Grid

variable {α : Type} {g h : Grid α} {rows cols i j : Nat} {f : Nat → Nat → α} {a b : α}

lemma length_build (rows cols : Nat) (f : Nat → Nat → α) : (build rows cols f).items.length = rows * cols :=
  regular_build rows cols f

lemma index_lt (hi : i < rows) (hj : j < cols) : i * cols + j < rows * cols :=
  calc i * cols + j < i * cols + cols := Nat.add_lt_add_left hj _
    _ = (i + 1) * cols := (Nat.succ_mul i cols).symm
    _ ≤ rows * cols := Nat.mul_le_mul_right cols hi

lemma getElem?_flatMap_of_length {β : Type} {row : β → List α} {l : List β} {x : β} (hlen : ∀ y ∈ l, (row y).length = cols)
    (hx : l[i]? = some x) (hj : j < cols) : (l.flatMap row)[i * cols + j]? = (row x)[j]? := by
  induction l generalizing i with
  | nil => cases hx
  | cons y l ih =>
    obtain ⟨hy, hl⟩ := List.forall_mem_cons.mp hlen
    rw [List.flatMap_cons]
    cases i with
    | zero =>
      obtain rfl : y = x := Option.some.inj hx
      rw [Nat.zero_mul, Nat.zero_add, List.getElem?_append_left (hy ▸ hj)]
    | succ i =>
      have hle : cols ≤ (i + 1) * cols + j := by rw [Nat.succ_mul]; omega
      have hsub : (i + 1) * cols + j - cols = i * cols + j := by rw [Nat.succ_mul]; omega
      rw [List.getElem?_append_right (hy.symm ▸ hle), hy, hsub, ih hl hx]

lemma get?_build (hi : i < rows) (hj : j < cols) : (build rows cols f).get? i j = some (f i j) := by
  have hrow : (List.range rows)[i]? = some i := List.getElem?_range hi
  rw [get?, if_pos ⟨hi, hj⟩]
  simp only [build]
  rw [getElem?_flatMap_of_length (fun _ _ => by simp) hrow hj, List.getElem?_map, List.getElem?_range hj, Option.map_some]

lemma get?_of_not_lt (hij : ¬ (i < g.rows ∧ j < g.cols)) : g.get? i j = none := if_neg hij

lemma lt_of_get? (ha : g.get? i j = some a) : i < g.rows ∧ j < g.cols := by
  rw [get?, Option.ite_none_right_eq_some] at ha
  exact ha.1

lemma Regular.exists_get? (hg : g.Regular) (hi : i < g.rows) (hj : j < g.cols) : ∃ a, g.get? i j = some a := by
  have hlt : i * g.cols + j < g.items.length := hg ▸ index_lt hi hj
  exact ⟨g.items[i * g.cols + j], by rw [get?, if_pos ⟨hi, hj⟩, List.getElem?_eq_getElem hlt]⟩

lemma Regular.eq (hg : g.Regular) (hh : h.Regular) (hrows : g.rows = h.rows) (hcols : g.cols = h.cols)
    (hget : ∀ i j, i < g.rows → j < g.cols → g.get? i j = h.get? i j) : g = h := by
  obtain ⟨rows, cols, items⟩ := g
  obtain ⟨_, _, items'⟩ := h
  obtain rfl : rows = _ := hrows
  obtain rfl : cols = _ := hcols
  have hlen : items.length = items'.length := hg.trans hh.symm
  have hitems : items = items' := by
    refine List.ext_getElem? fun n => ?_
    by_cases hn : n < rows * cols
    · have hpos : 0 < cols := Nat.pos_of_mul_pos_left (Nat.zero_lt_of_lt hn)
      have hi : n / cols < rows := Nat.div_lt_of_lt_mul (Nat.mul_comm rows cols ▸ hn)
      have hj : n % cols < cols := Nat.mod_lt n hpos
      have hitem := hget _ _ hi hj
      simpa only [get?, if_pos (And.intro hi hj), Nat.div_add_mod'] using hitem
    · have hn' : items.length ≤ n := Nat.le_trans (Nat.le_of_eq hg) (Nat.le_of_not_lt hn)
      rw [List.getElem?_eq_none hn', List.getElem?_eq_none (hlen ▸ hn')]
  rw [hitems]

lemma exists_get?_of_mem (hg : g.Regular) (ha : a ∈ g.items) : ∃ i j, g.get? i j = some a := by
  obtain ⟨n, hn, rfl⟩ := List.mem_iff_getElem.mp ha
  have hlt : n < g.rows * g.cols := hg ▸ hn
  have hpos : 0 < g.cols := Nat.pos_of_mul_pos_left (Nat.zero_lt_of_lt hlt)
  have hi : n / g.cols < g.rows := Nat.div_lt_of_lt_mul (Nat.mul_comm g.rows g.cols ▸ hlt)
  refine ⟨n / g.cols, n % g.cols, ?_⟩
  rw [get?, if_pos ⟨hi, Nat.mod_lt n hpos⟩, Nat.div_add_mod', List.getElem?_eq_getElem hn]

/-- Rows become columns. A regular grid has an item for every position, so the default stands nowhere. -/
def transpose [Inhabited α] (g : Grid α) : Grid α := build g.cols g.rows fun j i => (g.get? i j).getD default

lemma get?_transpose [Inhabited α] (hg : g.Regular) (i j : Nat) : g.transpose.get? j i = g.get? i j := by
  by_cases hij : i < g.rows ∧ j < g.cols
  · obtain ⟨a, ha⟩ := hg.exists_get? hij.1 hij.2
    rw [transpose, get?_build hij.2 hij.1, ha, Option.getD_some]
  · rw [get?_of_not_lt hij, get?_of_not_lt fun hji => hij hji.symm]

lemma isEmpty_transpose [Inhabited α] (hg : g.Regular) : g.transpose.isEmpty = g.isEmpty := by
  have hlen : g.transpose.items.length = g.items.length := (length_build _ _ _).trans ((Nat.mul_comm _ _).trans hg.symm)
  rw [isEmpty, isEmpty, Bool.eq_iff_iff, List.isEmpty_iff_length_eq_zero, List.isEmpty_iff_length_eq_zero, hlen]

/-- The item a grid shows at a position when its only row or column stands for all of them. -/
def Shows (g : Grid α) (i j : Nat) (a : α) : Prop :=
  ∃ row col, (row = i ∨ g.rows = 1) ∧ (col = j ∨ g.cols = 1) ∧ g.get? row col = some a

lemma stretched_eq_some : g.stretched i j = some a ↔ g.Shows i j a := by
  simp only [stretched, lookup_eq_get?]
  constructor
  · intro ha
    refine ⟨_, _, ?_, ?_, ha⟩
    · split <;> simp [*]
    · split <;> simp [*]
  · rintro ⟨row, col, hrow, hcol, ha⟩
    obtain ⟨hlt, hlt'⟩ := lt_of_get? ha
    have hrow' : (if g.rows = 1 then 0 else i) = row := by split <;> omega
    have hcol' : (if g.cols = 1 then 0 else j) = col := by split <;> omega
    rw [hrow', hcol', ha]

lemma stretched_eq_none : g.stretched i j = none ↔ ∀ a, ¬ g.Shows i j a := by
  simp only [Option.eq_none_iff_forall_ne_some, ne_eq, stretched_eq_some]

lemma shows_transpose [Inhabited α] (hg : g.Regular) : g.transpose.Shows j i a ↔ g.Shows i j a := by
  constructor
  · rintro ⟨col, row, hcol, hrow, ha⟩
    exact ⟨row, col, hrow, hcol, get?_transpose hg row col ▸ ha⟩
  · rintro ⟨row, col, hrow, hcol, ha⟩
    exact ⟨col, row, hcol, hrow, (get?_transpose hg row col).trans ha⟩

end Grid

end Spreadsheet
