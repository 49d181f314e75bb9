import Spreadsheet.Proofs.Grid
import Spreadsheet.Proofs.Value

/-! Operators over arrays. What an operator makes of two grids is settled position by position, so it does not matter whether
both grids are turned over before or after. -/

namespace Spreadsheet

/-- `k` is what the operator makes of `g` and `h`. -/
structure Grid.Combined (op : BinaryOp) (g h k : Grid Value) : Prop where
  regular : k.Regular
  rows : k.rows = max g.rows h.rows
  cols : k.cols = max g.cols h.cols
  both : ∀ i j a b, i < k.rows → j < k.cols → g.Shows i j a → h.Shows i j b → k.get? i j = some (Value.applyScalar op a b)
  missing : ∀ i j, i < k.rows → j < k.cols → (∀ a, ¬ g.Shows i j a) ∨ (∀ b, ¬ h.Shows i j b) →
    k.get? i j = some (.error .notAvailable)

namespace Value

variable {op : BinaryOp} {v w a b : Value} {g h k k' : Grid Value} {i j : Nat}

def isArray : Value → Bool
  | array _ => true
  | _ => false

/-- A value that is no array counts as a grid of one item. -/
def toGrid : Value → Grid Value
  | array g => g
  | v => Grid.single v

/-- Arrays turn over, other values stay. -/
def transpose : Value → Value
  | array g => array g.transpose
  | v => v

lemma toGrid_of_not_isArray (hv : v.isArray = false) : v.toGrid = Grid.single v := by
  cases v with
  | array => cases hv
  | _ => rfl

lemma toGrid_transpose (v : Value) : v.transpose.toGrid = v.toGrid.transpose := by cases v <;> rfl

lemma isArray_transpose (v : Value) : v.transpose.isArray = v.isArray := by cases v <;> rfl

lemma applyBinary_of_isArray (op : BinaryOp) (hvw : v.isArray = true ∨ w.isArray = true) :
    v.applyBinary op w = broadcast op v.toGrid w.toGrid := by
  cases v <;> cases w <;> first | rfl | simp [isArray] at hvw

lemma applyBinary_of_not_isArray (op : BinaryOp) (hv : v.isArray = false) (hw : w.isArray = false) :
    v.applyBinary op w = applyScalar op v w := by
  cases v <;> cases w <;> first | rfl | simp [isArray] at hv hw

/-! Errors pass through, the left one first. -/

lemma applyScalar_error_left (op : BinaryOp) (e : ErrorValue) (w : Value) : applyScalar op (error e) w = error e := rfl

lemma applyScalar_error_right (op : BinaryOp) (e : ErrorValue) (hv : v.isError = false) :
    applyScalar op v (error e) = error e := by
  cases v with
  | error => cases hv
  | _ => rfl

end Value

namespace Grid.Combined

variable {op : BinaryOp} {g h k k' : Grid Value} {i j : Nat}

lemma get?_cases (hk : Combined op g h k) (hi : i < k.rows) (hj : j < k.cols) :
    (∃ a b, g.Shows i j a ∧ h.Shows i j b ∧ k.get? i j = some (Value.applyScalar op a b)) ∨
      ((∀ a, ¬ g.Shows i j a) ∨ ∀ b, ¬ h.Shows i j b) ∧ k.get? i j = some (.error .notAvailable) := by
  by_cases hmissing : (∀ a, ¬ g.Shows i j a) ∨ ∀ b, ¬ h.Shows i j b
  · exact .inr ⟨hmissing, hk.missing i j hi hj hmissing⟩
  · simp only [not_or, Classical.not_forall, Classical.not_not] at hmissing
    obtain ⟨⟨a, ha⟩, b, hb⟩ := hmissing
    exact .inl ⟨a, b, ha, hb, hk.both i j a b hi hj ha hb⟩

lemma unique (hk : Combined op g h k) (hk' : Combined op g h k') : k = k' := by
  have hrows : k.rows = k'.rows := hk.rows.trans hk'.rows.symm
  have hcols : k.cols = k'.cols := hk.cols.trans hk'.cols.symm
  refine hk.regular.eq hk'.regular hrows hcols fun i j hi hj => ?_
  rcases hk.get?_cases hi hj with ⟨a, b, ha, hb, hget⟩ | ⟨hmissing, hget⟩
  · rw [hget, hk'.both i j a b (hrows ▸ hi) (hcols ▸ hj) ha hb]
  · rw [hget, hk'.missing i j (hrows ▸ hi) (hcols ▸ hj) hmissing]

lemma transpose (hg : g.Regular) (hh : h.Regular) (hk : Combined op g h k) :
    Combined op g.transpose h.transpose k.transpose where
  regular := Grid.regular_build _ _ _
  rows := hk.cols
  cols := hk.rows
  both j i a b hj hi ha hb := by
    rw [Grid.shows_transpose hg] at ha
    rw [Grid.shows_transpose hh] at hb
    rw [Grid.get?_transpose hk.regular]
    exact hk.both i j a b hi hj ha hb
  missing j i hj hi hmissing := by
    simp only [Grid.shows_transpose hg, Grid.shows_transpose hh] at hmissing
    rw [Grid.get?_transpose hk.regular]
    exact hk.missing i j hi hj hmissing

lemma isResult (hk : Combined op g h k) {x : Value} (hx : x ∈ k.items) : x.IsResult := by
  obtain ⟨i, j, hij⟩ := Grid.exists_get?_of_mem hk.regular hx
  obtain ⟨hi, hj⟩ := Grid.lt_of_get? hij
  rcases hk.get?_cases hi hj with ⟨a, b, -, -, hget⟩ | ⟨-, hget⟩
  · obtain rfl := Option.some.inj (hij.symm.trans hget)
    exact Value.isResult_applyScalar op a b
  · obtain rfl := Option.some.inj (hij.symm.trans hget)
    trivial

end Grid.Combined

namespace Value

variable {op : BinaryOp} {v w : Value} {g h k : Grid Value}

lemma exists_combined (op : BinaryOp) (hg : g.isEmpty = false) (hh : h.isEmpty = false) :
    ∃ k, broadcast op g h = array k ∧ Grid.Combined op g h k := by
  rw [broadcast, hg, hh, Bool.or_self, if_neg Bool.false_ne_true]
  refine ⟨_, rfl, Grid.regular_build _ _ _, rfl, rfl, fun i j a b hi hj ha hb => ?_, fun i j hi hj hmissing => ?_⟩
  · have hi : i < max g.rows h.rows := hi
    have hj : j < max g.cols h.cols := hj
    rw [Grid.get?_build hi hj, Grid.stretched_eq_some.mpr ha, Grid.stretched_eq_some.mpr hb]
  · have hi : i < max g.rows h.rows := hi
    have hj : j < max g.cols h.cols := hj
    rw [Grid.get?_build hi hj]
    rcases hmissing with hmissing | hmissing
    · rw [Grid.stretched_eq_none.mpr hmissing]
    · rw [Grid.stretched_eq_none.mpr hmissing]
      cases g.stretched i j <;> rfl

/-- An operator with an array among its operands works item by item, and turning both operands over turns the result over. -/
theorem applyBinary_pointwise (op : BinaryOp) (hvw : v.isArray = true ∨ w.isArray = true) (hv : v.toGrid.Regular)
    (hw : w.toGrid.Regular) (hv' : v.toGrid.isEmpty = false) (hw' : w.toGrid.isEmpty = false) :
    ∃ k, v.applyBinary op w = array k ∧ Grid.Combined op v.toGrid w.toGrid k ∧ (∀ x ∈ k.items, x.IsResult) ∧
      (∀ i j a b, i < k.rows → j < k.cols → v.toGrid.Shows i j a → w.toGrid.Shows i j b →
        (a.isArray = false → b.isArray = false → k.get? i j = some (a.applyBinary op b)) ∧
        (∀ e, a = error e → k.get? i j = some (error e)) ∧
        ∀ e, a.isError = false → b = error e → k.get? i j = some (error e)) ∧
      v.transpose.applyBinary op w.transpose = array k.transpose := by
  obtain ⟨k, hbroadcast, hk⟩ := exists_combined op hv' hw'
  refine ⟨k, (applyBinary_of_isArray op hvw).trans hbroadcast, hk, fun x => hk.isResult,
    fun i j a b hi hj ha hb => ⟨fun ha' hb' => ?_, ?_, ?_⟩, ?_⟩
  · rw [applyBinary_of_not_isArray op ha' hb']
    exact hk.both i j a b hi hj ha hb
  · rintro e rfl
    rw [hk.both i j _ b hi hj ha hb, applyScalar_error_left]
  · rintro e ha' rfl
    rw [hk.both i j a _ hi hj ha hb, applyScalar_error_right op e ha']
  · have hturned : v.transpose.isArray = true ∨ w.transpose.isArray = true := by rwa [isArray_transpose, isArray_transpose]
    rw [applyBinary_of_isArray op hturned, toGrid_transpose, toGrid_transpose]
    obtain ⟨k', hbroadcast', hk'⟩ := exists_combined op ((Grid.isEmpty_transpose hv).trans hv') ((Grid.isEmpty_transpose hw).trans hw')
    rw [hbroadcast', hk'.unique (hk.transpose hv hw)]

theorem applyBinary_pointwise_uneven :
    let v := array ⟨1, 3, [text "a", error .ref, boolean true]⟩
    let w := array ⟨2, 2, [blank, error .num, text "x", error .divZero]⟩
    v.toGrid.Regular ∧ w.toGrid.Regular ∧ v.toGrid.isEmpty = false ∧ w.toGrid.isEmpty = false ∧
      ∃ k, v.applyBinary .concat w = array k ∧ k.rows = 2 ∧ k.cols = 3 ∧ k.get? 1 0 = some (text "ax") ∧
        k.get? 0 1 = some (error .ref) ∧ k.get? 1 2 = some (error .notAvailable) ∧
        v.transpose.applyBinary .concat w.transpose = array k.transpose := by
  intro v w
  obtain ⟨k, hresult, hk, -, -, hturned⟩ := applyBinary_pointwise (v := v) (w := w) .concat (.inl rfl) rfl rfl rfl rfl
  have hrows : k.rows = 2 := hk.rows
  have hcols : k.cols = 3 := hk.cols
  have hshows : ∀ {u : Value} {i j x}, u.toGrid.stretched i j = some x → u.toGrid.Shows i j x := Grid.stretched_eq_some.mp
  refine ⟨rfl, rfl, rfl, rfl, k, hresult, hrows, hcols, ?_, ?_, ?_, hturned⟩
  · exact hk.both 1 0 _ _ (by omega) (by omega) (hshows rfl) (hshows rfl)
  · exact hk.both 0 1 _ _ (by omega) (by omega) (hshows rfl) (hshows rfl)
  · exact hk.missing 1 2 (by omega) (by omega) (.inr (Grid.stretched_eq_none.mp rfl))

end Value

end Spreadsheet
