import Spreadsheet.Proofs.Broadcast
import Spreadsheet.Proofs.Sorting

/-! Comparing two values has one of three outcomes, and with the operands in the other order the opposite one. So of `=`, `<` and
`>` exactly one holds, and an operator over arrays can be read from either side where no two errors meet. -/

namespace Spreadsheet

namespace BinaryOp

/-- The comparison that holds where this one does not. -/
def negated : BinaryOp → BinaryOp
  | equal => notEqual
  | notEqual => equal
  | less => greaterEqual
  | lessEqual => greater
  | greater => lessEqual
  | greaterEqual => less
  | op => op

/-- The comparison that says the same of the operands in the other order. -/
def mirrored : BinaryOp → BinaryOp
  | less => greater
  | lessEqual => greaterEqual
  | greater => less
  | greaterEqual => lessEqual
  | op => op

end BinaryOp

namespace Number

open Float.Model

lemma compare_unpacked_swap (a b : UnpackedFloat) : b.compare a = (a.compare b).map Ordering.swap := by
  have hfinite (m n : Nat) (d e : Int) : ((compare d e).then (compare m n)).swap = (compare e d).then (compare n m) := by
    rw [Ordering.swap_then, ← Std.OrientedCmp.eq_swap, ← Std.OrientedCmp.eq_swap]
  rcases a with (_ | _) | _ | (_ | _) | ⟨_ | _, m, d, _⟩ <;> rcases b with (_ | _) | _ | (_ | _) | ⟨_ | _, n, e, _⟩ <;>
    first
    | rfl
    | exact congrArg some (hfinite m n d e).symm
    | exact congrArg (some ·.swap) (hfinite m n d e).symm

lemma lt_iff_compare {x y : Float} : x < y ↔ x.toModel.unpack.compare y.toModel.unpack = some .lt := by
  change decide ((x.toModel.unpack.compare y.toModel.unpack == some .lt) = true) = true ↔ _
  rw [decide_eq_true_eq, beq_iff_eq]

lemma not_lt_of_lt {x y : Float} (h : x < y) : ¬ y < x := by
  rw [lt_iff_compare] at h ⊢
  rw [compare_unpacked_swap, h]
  exact fun h => nomatch h

end Number

namespace Value

variable {op : BinaryOp} {v w : Value} {o : Ordering} {g h k : Grid Value}

lemma compareNumbers_swap (x y : Float) : compareNumbers y x = (compareNumbers x y).swap := by
  rw [compareNumbers, compareNumbers]
  by_cases hlt : x < y
  · rw [if_pos hlt, if_neg (Number.not_lt_of_lt hlt), if_pos hlt, Ordering.swap]
  · rw [if_neg hlt, if_neg hlt]
    split <;> rfl

lemma compareItems_swap (v w : Value) : compareItems w v = (compareItems v w).swap := by
  rw [compareItems_eq, compareItems_eq, ← Std.OrientedCmp.eq_swap]

lemma comparePlain_mixed (h : (v.isNumber && w.isNumber) = false) :
    comparePlain v w = if v.isPlain && w.isPlain then .ok (compareItems v w) else .error .value := by
  cases v <;> cases w <;> first | rfl | cases h

lemma comparePlain_swap (v w : Value) : comparePlain w v = (comparePlain v w).map Ordering.swap := by
  cases h : v.isNumber && w.isNumber with
  | true =>
    cases v <;> cases w <;> first | exact congrArg Except.ok (compareNumbers_swap _ _) | cases h
  | false =>
    rw [comparePlain_mixed h, comparePlain_mixed ((Bool.and_comm _ _).trans h), Bool.and_comm, compareItems_swap v w]
    cases v.isPlain && w.isPlain <;> rfl

/-- What a value counts as beside another one. -/
def beside (v w : Value) : Value := if v.isBlank then w.blankBeside else v

lemma compareValues_eq (v w : Value) : compareValues v w = comparePlain (v.beside w) (w.beside v) := by
  cases v <;> cases w <;> rfl

lemma compareValues_swap (v w : Value) : compareValues w v = (compareValues v w).map Ordering.swap := by
  rw [compareValues_eq, compareValues_eq, comparePlain_swap]

/-- Numbers, texts, truth values and blanks. -/
def isComparable (v : Value) : Bool := v.isPlain || v.isBlank

lemma exists_compareValues (hv : v.isComparable = true) (hw : w.isComparable = true) : ∃ o, compareValues v w = .ok o := by
  cases v <;> cases w <;> first | exact ⟨_, rfl⟩ | simp [isComparable, isPlain, isNumber, isText, isBoolean, isBlank] at hv hw

lemma holds_negated (hop : op.isComparison = true) (o : Ordering) : holds op.negated o = !holds op o := by
  revert hop
  cases op <;> cases o <;> decide

lemma holds_mirrored (op : BinaryOp) (o : Ordering) : holds op.mirrored o.swap = holds op o := by
  cases op <;> cases o <;> rfl

lemma isComparison_negated (hop : op.isComparison = true) : op.negated.isComparison = true := by
  revert hop
  cases op <;> decide

lemma isComparison_mirrored (hop : op.isComparison = true) : op.mirrored.isComparison = true := by
  revert hop
  cases op <;> decide

/-- What a comparison makes of values that are neither errors nor pending. -/
def compared (op : BinaryOp) (x : Except ErrorValue Ordering) : Value := ofExcept (x.map fun o => boolean (holds op o))

lemma compared_mirrored (op : BinaryOp) (x : Except ErrorValue Ordering) : compared op.mirrored (x.map Ordering.swap) = compared op x := by
  cases x with
  | error e => rfl
  | ok o => exact congrArg boolean (holds_mirrored op o)

lemma applyScalar_of_comparison (hop : op.isComparison = true) (hv : v.isError = false) (hw : w.isError = false) :
    applyScalar op v w = if v.isPending || w.isPending then error .calculation else compared op (compareValues v w) := by
  have hv : v.error? = none := by simpa [isError] using hv
  have hw : w.error? = none := by simpa [isError] using hw
  unfold applyScalar
  simp only [hv, hw]
  revert hop
  cases op <;> first | exact fun _ => rfl | exact fun hop => nomatch hop

lemma applyScalar_mirrored (hop : op.isComparison = true) (h : ¬ (v.isError = true ∧ w.isError = true)) :
    applyScalar op.mirrored w v = applyScalar op v w := by
  cases hv : v.isError with
  | true =>
    have hw : w.isError = false := by simpa [hv] using h
    cases v with
    | error e => rw [applyScalar_error_left, applyScalar_error_right _ e hw]
    | _ => cases hv
  | false =>
    cases hw : w.isError with
    | true =>
      cases w with
      | error e => rw [applyScalar_error_left, applyScalar_error_right _ e hv]
      | _ => cases hw
    | false =>
      rw [applyScalar_of_comparison (isComparison_mirrored hop) hw hv, applyScalar_of_comparison hop hv hw, compareValues_swap,
        compared_mirrored, Bool.or_comm]

end Value

lemma Grid.Combined.mirrored {op : BinaryOp} {g h k : Grid Value} (hop : op.isComparison = true) (hk : Combined op g h k)
    (hclear : ∀ i j a b, i < k.rows → j < k.cols → g.Shows i j a → h.Shows i j b → ¬ (a.isError = true ∧ b.isError = true)) :
    Combined op.mirrored h g k where
  regular := hk.regular
  rows := hk.rows.trans (Nat.max_comm _ _)
  cols := hk.cols.trans (Nat.max_comm _ _)
  both i j b a hi hj hb ha := by
    rw [hk.both i j a b hi hj ha hb, Value.applyScalar_mirrored hop (hclear i j a b hi hj ha hb)]
  missing i j hi hj hmissing := hk.missing i j hi hj hmissing.symm

namespace Value

variable {op : BinaryOp} {v w : Value} {g h : Grid Value}

/-- At some position of the result both operands have an error. -/
def ErrorsMeet (v w : Value) : Prop :=
  ∃ i, i < max v.toGrid.rows w.toGrid.rows ∧ ∃ j, j < max v.toGrid.cols w.toGrid.cols ∧
    (v.toGrid.stretched i j).any isError = true ∧ (w.toGrid.stretched i j).any isError = true

instance (v w : Value) : Decidable (ErrorsMeet v w) := inferInstanceAs (Decidable (∃ i, i < _ ∧ ∃ j, j < _ ∧ _))

lemma broadcast_of_isEmpty (op : BinaryOp) (hgh : g.isEmpty = true ∨ h.isEmpty = true) : broadcast op g h = error .value := by
  rw [broadcast, if_pos (Bool.or_eq_true _ _ ▸ hgh)]

lemma broadcast_mirrored (hop : op.isComparison = true)
    (hclear : ∀ i j a b, i < max g.rows h.rows → j < max g.cols h.cols → g.Shows i j a → h.Shows i j b →
      ¬ (a.isError = true ∧ b.isError = true)) : broadcast op.mirrored h g = broadcast op g h := by
  by_cases hempty : g.isEmpty = true ∨ h.isEmpty = true
  · rw [broadcast_of_isEmpty op hempty, broadcast_of_isEmpty op.mirrored hempty.symm]
  · rw [not_or, Bool.not_eq_true, Bool.not_eq_true] at hempty
    obtain ⟨k, hbroadcast, hk⟩ := exists_combined op hempty.1 hempty.2
    obtain ⟨k', hbroadcast', hk'⟩ := exists_combined op.mirrored hempty.2 hempty.1
    have hmirrored := hk.mirrored hop fun i j a b hi hj => hclear i j a b (hk.rows ▸ hi) (hk.cols ▸ hj)
    rw [hbroadcast, hbroadcast', hk'.unique hmirrored]

lemma applyBinary_mirrored (hop : op.isComparison = true) (h : ¬ ErrorsMeet v w) :
    w.applyBinary op.mirrored v = v.applyBinary op w := by
  by_cases hvw : v.isArray = true ∨ w.isArray = true
  · rw [applyBinary_of_isArray op hvw, applyBinary_of_isArray op.mirrored hvw.symm]
    refine broadcast_mirrored hop fun i j a b hi hj ha hb herror => h ⟨i, hi, j, hj, ?_, ?_⟩
    · rw [Grid.stretched_eq_some.mpr ha, Option.any_some, herror.1]
    · rw [Grid.stretched_eq_some.mpr hb, Option.any_some, herror.2]
  · rw [not_or, Bool.not_eq_true, Bool.not_eq_true] at hvw
    obtain ⟨hv, hw⟩ := hvw
    rw [applyBinary_of_not_isArray op hv hw, applyBinary_of_not_isArray op.mirrored hw hv]
    refine applyScalar_mirrored hop fun herror => h ?_
    rw [ErrorsMeet, toGrid_of_not_isArray hv, toGrid_of_not_isArray hw]
    exact ⟨0, Nat.one_pos, 0, Nat.one_pos, herror⟩

lemma clear_of_isComparable (hv : v.isComparable = true) : v.isArray = false ∧ v.isError = false ∧ v.isPending = false := by
  cases v <;> first | exact ⟨rfl, rfl, rfl⟩ | cases hv

lemma applyBinary_of_comparable {o : Ordering} (hv : v.isComparable = true) (hw : w.isComparable = true)
    (ho : compareValues v w = .ok o) (hop : op.isComparison = true) : v.applyBinary op w = boolean (holds op o) := by
  obtain ⟨hvarray, hverror, hvpending⟩ := clear_of_isComparable hv
  obtain ⟨hwarray, hwerror, hwpending⟩ := clear_of_isComparable hw
  rw [applyBinary_of_not_isArray op hvarray hwarray, applyScalar_of_comparison hop hverror hwerror, hvpending, hwpending, ho]
  rfl

lemma existsUnique_holds (o : Ordering) :
    ∃! op : BinaryOp, op ∈ [BinaryOp.equal, .less, .greater] ∧ holds op o = true := by
  cases o with
  | eq => exact ⟨.equal, by decide, fun op => by cases op <;> decide⟩
  | lt => exact ⟨.less, by decide, fun op => by cases op <;> decide⟩
  | gt => exact ⟨.greater, by decide, fun op => by cases op <;> decide⟩

/-- Comparisons agree with each other: of `=`, `<` and `>` exactly one holds, and each comparison is the negation of its opposite
and says the same as its mirror image with the operands exchanged, over arrays too where no two errors meet. -/
theorem comparison_coherent (v w : Value) :
    (v.isComparable = true → w.isComparable = true →
      (∃! op : BinaryOp, op ∈ [BinaryOp.equal, .less, .greater] ∧ v.applyBinary op w = boolean true) ∧
      ∀ op : BinaryOp, op.isComparison = true → ∃ b, v.applyBinary op w = boolean b ∧
        v.applyBinary op.negated w = boolean (!b) ∧ w.applyBinary op.mirrored v = boolean b) ∧
    (¬ ErrorsMeet v w → ∀ op : BinaryOp, op.isComparison = true → w.applyBinary op.mirrored v = v.applyBinary op w) := by
  refine ⟨fun hv hw => ?_, fun h op hop => applyBinary_mirrored hop h⟩
  obtain ⟨o, ho⟩ := exists_compareValues hv hw
  have ho' : compareValues w v = .ok o.swap := by rw [compareValues_swap v w, ho]; rfl
  constructor
  · refine (existsUnique_congr fun op => and_congr_right fun hop => ?_).mp (existsUnique_holds o)
    have hcomparison : op.isComparison = true := by
      revert hop
      cases op <;> decide
    rw [applyBinary_of_comparable hv hw ho hcomparison, boolean.injEq]
  · intro op hop
    refine ⟨holds op o, applyBinary_of_comparable hv hw ho hop, ?_, ?_⟩
    · rw [applyBinary_of_comparable hv hw ho (isComparison_negated hop), holds_negated hop]
    · rw [applyBinary_of_comparable hw hv ho' (isComparison_mirrored hop), holds_mirrored]

-- the left one of two errors wins, so where two meet the operands cannot be exchanged
example : (error .ref).applyBinary .less (error .num) = error .ref ∧ (error .num).applyBinary .greater (error .ref) = error .num :=
  ⟨rfl, rfl⟩

theorem comparison_coherent_blank :
    let v := number (0 / 0)
    let g := array ⟨1, 2, [blank, error .ref]⟩
    let h := array ⟨3, 1, [number 2, text "b", boolean false]⟩
    v.isComparable = true ∧ blank.isComparable = true ∧ ¬ ErrorsMeet g h ∧ BinaryOp.less.isComparison = true ∧
      (∃! op : BinaryOp, op ∈ [BinaryOp.equal, .less, .greater] ∧ v.applyBinary op blank = boolean true) ∧
      (∃ b, v.applyBinary .less blank = boolean b ∧ v.applyBinary .greaterEqual blank = boolean (!b) ∧
        blank.applyBinary .greater v = boolean b) ∧
      h.applyBinary .greater g = g.applyBinary .less h := by
  intro v g h
  have hclear : ¬ ErrorsMeet g h := by decide
  have hcoherent := (comparison_coherent v blank).1 rfl rfl
  exact ⟨rfl, rfl, hclear, rfl, hcoherent.1, hcoherent.2 .less rfl, (comparison_coherent g h).2 hclear .less rfl⟩

end Value

end Spreadsheet
