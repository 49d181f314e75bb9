import Spreadsheet.Arithmetic
import Spreadsheet.Proofs.Range

/-! Values that a cell can hold, and references that stay inside given regions. -/

namespace Spreadsheet

namespace Value

def IsItem : Value → Prop
  | array _ | reference _ | pending _ => False
  | _ => True

/-- An item, or a full array of items. -/
def IsFlat : Value → Prop
  | array g => g.Regular ∧ ∀ v ∈ g.items, v.IsItem
  | reference _ | pending _ => False
  | _ => True

variable {v w : Value}

lemma IsItem.isFlat (h : v.IsItem) : v.IsFlat := by
  cases v with
  | array | reference | pending => exact h.elim
  | _ => trivial

lemma isItem_ofScalar (s : Scalar) : (ofScalar s).IsItem := by cases s <;> trivial

lemma IsItem.ofScalar_toScalar (h : v.IsItem) : ofScalar v.toScalar = v := by
  cases v with
  | array | reference | pending => exact h.elim
  | _ => simp [toScalar, ofScalar]

lemma IsFlat.topLeft_eq (h : v.IsFlat) : v.topLeft = ofScalar v.toScalar := by
  cases v with
  | array g =>
    obtain ⟨rows, cols, items⟩ := g
    cases items with
    | nil => simp [topLeft, Grid.first?, toScalar, ofScalar]
    | cons x items =>
      have hx : x.IsItem := h.2 x List.mem_cons_self
      simp [topLeft, Grid.first?, toScalar, hx.ofScalar_toScalar]
  | reference | pending => exact h.elim
  | _ => simp [topLeft, toScalar, ofScalar]

lemma IsFlat.isItem_topLeft (h : v.IsFlat) : v.topLeft.IsItem := h.topLeft_eq ▸ isItem_ofScalar _

lemma IsFlat.isPending_eq (h : v.IsFlat) : v.isPending = false := by
  cases v with
  | pending => exact h.elim
  | _ => rfl

lemma firstPending?_eq_none {vs : List Value} (h : ∀ v ∈ vs, v.isPending = false) :
    firstPending? vs = none := by
  rw [firstPending?, List.find?_eq_none]
  intro v hv
  simp [h v hv]

/-- What an operator gives: an item that is not blank. -/
def IsResult : Value → Prop
  | blank | array _ | reference _ | pending _ => False
  | _ => True

lemma IsResult.isItem (h : v.IsResult) : v.IsItem := by
  cases v with
  | blank | array | reference | pending => exact h.elim
  | _ => trivial

/-! Operators on items give items. -/

lemma isResult_ofFinite (x : Float) : (ofFinite x).IsResult := by
  unfold ofFinite
  split <;> trivial

lemma isItem_ofFinite (x : Float) : (ofFinite x).IsItem := (isResult_ofFinite x).isItem

lemma ofExcept_pure {P : Value → Prop} (h : P w) : P (ofExcept (pure w)) := h

lemma isItem_ofExcept_pure {w : Value} (h : w.IsItem) : (ofExcept (pure w)).IsItem := ofExcept_pure h

lemma ofExcept_bind {P : Value → Prop} {α : Type} {x : Except ErrorValue α} {f : α → Except ErrorValue Value}
    (herror : ∀ e, P (error e)) (h : ∀ a, P (ofExcept (f a))) : P (ofExcept (x >>= f)) := by
  cases x with
  | ok a => exact h a
  | error e => exact herror e

lemma isItem_ofExcept_bind {α : Type} {x : Except ErrorValue α} {f : α → Except ErrorValue Value}
    (h : ∀ a, (ofExcept (f a)).IsItem) : (ofExcept (x >>= f)).IsItem :=
  ofExcept_bind (fun _ => trivial) h

lemma isItem_ofExcept_map {α : Type} {x : Except ErrorValue α} {f : α → Value} (h : ∀ a, (f a).IsItem) :
    (ofExcept (x.map f)).IsItem := by
  cases x with
  | ok a => exact h a
  | error e => trivial

lemma isResult_arithmetic (op : BinaryOp) (x y : Float) : (arithmetic op x y).IsResult := by
  cases op <;> simp only [arithmetic] <;> (repeat' split) <;> first | trivial | exact isResult_ofFinite _

lemma isResult_applyScalar (op : BinaryOp) (v w : Value) : (applyScalar op v w).IsResult := by
  unfold applyScalar
  split
  · trivial
  · trivial
  split
  · trivial
  have herror : ∀ e, (error e).IsResult := fun _ => trivial
  cases op with
  | add | subtract | multiply | divide | power =>
    exact ofExcept_bind herror fun x => ofExcept_bind herror fun y => ofExcept_pure (isResult_arithmetic _ x y)
  | concat => exact ofExcept_bind herror fun s => ofExcept_bind herror fun t => trivial
  | equal | notEqual | less | lessEqual | greater | greaterEqual => exact ofExcept_bind herror fun o => trivial
  | range | intersect => trivial

lemma isItem_applyScalar (op : BinaryOp) (v w : Value) : (applyScalar op v w).IsItem := (isResult_applyScalar op v w).isItem

lemma isFlat_build {rows cols : Nat} {f : Nat → Nat → Value} (h : ∀ i j, (f i j).IsItem) :
    (array (Grid.build rows cols f)).IsFlat := by
  refine ⟨Grid.regular_build rows cols f, fun v hv => ?_⟩
  simp only [Grid.build, List.mem_flatMap, List.mem_map] at hv
  obtain ⟨i, _, j, _, rfl⟩ := hv
  exact h i j

lemma isFlat_broadcast (op : BinaryOp) (g h : Grid Value) : (broadcast op g h).IsFlat := by
  unfold broadcast
  split
  · trivial
  · refine isFlat_build fun i j => ?_
    split
    · exact isItem_applyScalar op _ _
    · trivial

lemma isFlat_applyBinary (op : BinaryOp) (v w : Value) : (v.applyBinary op w).IsFlat := by
  unfold applyBinary
  split
  · exact isFlat_broadcast op _ _
  · exact isFlat_broadcast op _ _
  · exact isFlat_broadcast op _ _
  · exact (isItem_applyScalar op _ _).isFlat

lemma IsItem.applyUnary (op : UnaryOp) (h : v.IsItem) : (v.applyUnary op).IsItem := by
  cases v with
  | array | reference | pending => exact h.elim
  | _ =>
    simp only [Value.applyUnary]
    split <;> trivial

lemma IsFlat.applyUnary (op : UnaryOp) (h : v.IsFlat) : (v.applyUnary op).IsFlat := by
  cases v with
  | array g =>
    obtain ⟨rows, cols, items⟩ := g
    have hall : ∀ items : List Value, applyUnaryAll op items = items.map (Value.applyUnary op) := by
      intro items
      induction items with
      | nil => rfl
      | cons v vs ih => rw [applyUnaryAll, ih, List.map_cons]
    rw [Value.applyUnary, hall]
    refine ⟨Grid.Regular.map h.1 _, fun x hx => ?_⟩
    obtain ⟨y, hy, rfl⟩ := List.mem_map.1 hx
    exact (h.2 y hy).applyUnary op
  | reference | pending => exact h.elim
  | blank | number | text | boolean | error => exact (IsItem.applyUnary op (by trivial)).isFlat

lemma le_foldl_max (l : List Nat) (a : Nat) : ∀ n ∈ a :: l, n ≤ l.foldl max a := by
  induction l generalizing a with
  | nil => simp
  | cons b l ih =>
    have hmax := ih (max a b)
    rw [List.forall_mem_cons] at hmax
    intro n hn
    rw [List.foldl_cons]
    rcases List.mem_cons.1 hn with rfl | hn
    · exact Nat.le_trans (Nat.le_max_left n b) hmax.1
    rcases List.mem_cons.1 hn with rfl | hn
    · exact Nat.le_trans (Nat.le_max_right a n) hmax.1
    · exact hmax.2 n hn

lemma regular_ofRows (rows : List (List Value)) (fill : Value) : (Grid.ofRows rows fill).Regular := by
  have hle : ∀ row ∈ rows, row.length ≤ (rows.map List.length).foldl max 0 := fun row hrow =>
    le_foldl_max _ 0 _ (List.mem_cons_of_mem _ (List.mem_map_of_mem hrow))
  simp only [Grid.Regular, Grid.ofRows, List.length_flatMap, List.length_append, List.length_replicate]
  generalize (rows.map List.length).foldl max 0 = cols at hle
  induction rows with
  | nil => simp
  | cons row rows ih =>
    obtain ⟨hrow, hrows⟩ := List.forall_mem_cons.1 hle
    rw [List.map_cons, List.sum_cons, ih hrows, List.length_cons, Nat.add_mul, Nat.add_sub_cancel' hrow]
    omega

lemma isFlat_ofRows {rows : List (List Value)} {fill : Value} (hr : ∀ row ∈ rows, ∀ v ∈ row, v.IsItem)
    (hf : fill.IsItem) : (array (Grid.ofRows rows fill)).IsFlat := by
  refine ⟨regular_ofRows rows fill, fun v hv => ?_⟩
  simp only [Grid.ofRows, List.mem_flatMap, List.mem_append, List.mem_replicate] at hv
  obtain ⟨row, hrow, hv | ⟨_, rfl⟩⟩ := hv
  · exact hr row hrow v hv
  · exact hf

end Value

/-- One region is a part of another on the same sheet. -/
def Region.Inside (r s : Region) : Prop := r.book = s.book ∧ r.sheet = s.sheet ∧ r.range.Inside s.range

lemma Region.Inside.contains {r s : Region} (h : r.Inside s) {p : Place} (hp : r.contains p = true) :
    s.contains p = true := by
  obtain ⟨hb, hs, hr⟩ := h
  simp only [Region.contains, Bool.and_eq_true] at hp ⊢
  exact ⟨hb ▸ hs ▸ hp.1, hr.contains hp.2⟩

/-- A flat value, or a reference inside one of the given regions. -/
def Value.Within (refs : List Region) (v : Value) : Prop :=
  v.IsFlat ∨ ∃ r, v = .reference r ∧ ∃ s ∈ refs, r.Inside s

lemma Value.Within.isPending_eq {refs : List Region} {v : Value} (h : v.Within refs) : v.isPending = false := by
  rcases h with h | ⟨r, rfl, _⟩
  · exact h.isPending_eq
  · rfl

end Spreadsheet
