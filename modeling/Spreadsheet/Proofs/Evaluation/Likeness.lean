import Mathlib.Data.List.Nodup
import Spreadsheet.Proofs.Evaluation.Depth
import Spreadsheet.Proofs.Formula.Layout
import Spreadsheet.Proofs.Function.Sealed

/-! Ways in which two evaluations can be alike. What can be said of the parts of a formula can be said of the formula, of the
cells and the definitions that it leads to, and of every level of evaluators. -/

namespace Spreadsheet

open Std Text Dependency Formula Value

/-- Values of a kind among the results and under the arrays of a pass. -/
structure Pass.Only (sound : Value → Prop) (s : Pass) : Prop where
  results : ∀ (p : Place) (v : Value), s.results[p]? = some v → sound v
  spilled : ∀ (p : Place) (v : Value), s.spilled[p]? = some v → sound v

lemma Pass.only_true (s : Pass) : s.Only fun _ => True := ⟨fun _ _ _ => trivial, fun _ _ _ => trivial⟩

/-- The same value, of a kind, or handles that stand for each other. -/
def Value.Like (sound : Value → Prop) (handles : Nat → Nat → Prop) (v w : Value) : Prop :=
  v = w ∧ sound v ∨ ∃ h k, v = .pending h ∧ w = .pending k ∧ handles h k

/-- Arguments prepared by the same rules, with values that go together. -/
def SameRule (values : Value → Value → Prop) (a b : ArgumentRule × Value) : Prop := a.1 = b.1 ∧ values a.2 b.2

namespace Value.Like

variable {sound : Value → Prop} {handles : Nat → Nat → Prop} {v w : Value} {vs ws : List Value}

lemma isPending_eq (h : Like sound handles v w) : v.isPending = w.isPending := by
  rcases h with ⟨rfl, -⟩ | ⟨h, k, rfl, rfl, -⟩ <;> rfl

lemma eq_of_isPending_eq_false (h : Like sound handles v w) (hv : v.isPending = false) : v = w ∧ sound v := by
  rcases h with h | ⟨h, k, rfl, rfl, -⟩
  · exact h
  · cases hv

/-- Among values that are alike the first handles stand for each other, or there are none and the values are the same. -/
lemma firstPending (h : List.Forall₂ (Like sound handles) vs ws) :
    (∃ p q, Value.firstPending? vs = some p ∧ Value.firstPending? ws = some q ∧ Like sound handles p q) ∨
      Value.firstPending? vs = none ∧ Value.firstPending? ws = none ∧ vs = ws ∧ ∀ v ∈ vs, sound v := by
  induction h with
  | nil => exact .inr ⟨rfl, rfl, rfl, fun _ hv => nomatch hv⟩
  | @cons v w vs ws hvw _ ih =>
    have hw := hvw.isPending_eq
    cases hv : v.isPending with
    | true =>
      rw [hv] at hw
      refine .inl ⟨v, w, ?_, ?_, hvw⟩
      · rw [Value.firstPending?, List.find?_cons_of_pos hv]
      · rw [Value.firstPending?, List.find?_cons_of_pos hw.symm]
    | false =>
      obtain ⟨rfl, hsound⟩ := hvw.eq_of_isPending_eq_false hv
      have hskip : ∀ l : List Value, Value.firstPending? (v :: l) = Value.firstPending? l :=
        fun l => List.find?_cons_of_neg (by rw [hv]; exact Bool.false_ne_true)
      rw [hskip, hskip]
      refine ih.imp_right ?_
      rintro ⟨hvs, hws, rfl, hall⟩
      exact ⟨hvs, hws, rfl, List.forall_mem_cons.2 ⟨hsound, hall⟩⟩

lemma eq (h : v.Like sound (fun _ _ => False) w) : v = w := by
  rcases h with ⟨h, -⟩ | ⟨_, _, _, _, h⟩
  · exact h
  · exact h.elim

end Value.Like

lemma SameRule.eq {sound : Value → Prop} {args args' : List (ArgumentRule × Value)}
    (h : List.Forall₂ (SameRule (Value.Like sound fun _ _ => False)) args args') : args = args' := by
  induction h with
  | nil => rfl
  | cons hab _ ih => rw [ih, Prod.ext hab.1 hab.2.eq]

/-- The snapshots have the same sheets and formulas, and names mean the same in them; they may differ in the functions. -/
structure Snapshot.Beside (snapshot snapshot' : Snapshot) : Prop where
  sheet? : ∀ book sheet, snapshot'.books.sheet? book sheet = snapshot.books.sheet? book sheet
  definition? : ∀ p name, snapshot'.definition? p name = snapshot.definition? p name
  index : snapshot'.index = snapshot.index
  depth : snapshot'.depth = snapshot.depth

lemma Snapshot.beside_self (snapshot : Snapshot) : snapshot.Beside snapshot := ⟨fun _ _ => rfl, fun _ _ => rfl, rfl, rfl⟩

/-- Of the workbooks a pass looks at the cells only. -/
lemma Pass.store_congr {books books' : Books} (h : ∀ p, books'.cell? p = books.cell? p) (s : Pass) (index : Index) (p : Place)
    (v : Value) : s.store books' index p v = s.store books index p v := by
  have hobstacle : ∀ (s : Pass) (anchor : Place), s.isObstacle books' index anchor = s.isObstacle books index anchor :=
    fun s anchor => funext fun q => by rw [isObstacle, isObstacle, h]
  have hrange : ∀ (s : Pass) (anchor : Place) (g : Grid Value),
      s.spillRange? books' index anchor g = s.spillRange? books index anchor g :=
    fun s anchor g => by simp only [spillRange?, hobstacle]
  simp only [store, hrange]

namespace Snapshot.Beside

variable {snapshot snapshot' : Snapshot} (h : snapshot.Beside snapshot')

include h

lemma formulas_eq : snapshot'.formulas = snapshot.formulas := by rw [formulas, h.index, formulas]

lemma cell?_eq (p : Place) : snapshot'.books.cell? p = snapshot.books.cell? p := by rw [Books.cell?, h.sheet?, Books.cell?]

lemma stored_eq (p : Place) : snapshot'.stored p = snapshot.stored p := by
  rw [stored, Books.value?, h.sheet?, ← Books.value?, stored]

lemma cursor_eq (p : Place) : snapshot'.books.cursor p = snapshot.books.cursor p := by
  rw [Books.cursor, Books.bounds, h.sheet?, ← Books.bounds, Books.cursor]

lemma store_eq (s : Pass) (p : Place) (v : Value) :
    s.store snapshot'.books snapshot'.formulas p v = s.store snapshot.books snapshot.formulas p v := by
  rw [h.formulas_eq, Pass.store_congr h.cell?_eq]

end Snapshot.Beside

/-- A quality of values that evaluation keeps: flat values and references have it, arrays have it from their items. -/
structure Value.Kept (sound : Value → Prop) : Prop where
  flat : ∀ v : Value, v.IsFlat → sound v
  reference : ∀ r, sound (.reference r)
  array : ∀ g : Grid Value, sound (.array g) ↔ ∀ v ∈ g.items, sound v

lemma Value.kept_true : Value.Kept fun _ => True :=
  ⟨fun _ _ => trivial, fun _ => trivial, fun _ => ⟨fun _ _ _ => trivial, fun _ => trivial⟩⟩

/-- A way in which an evaluation over a snapshot can be like one over another snapshot, which differs in the functions. It is
said with the places where calls of the formula may start, and with what the answers have in common. -/
structure Likeness (snapshot snapshot' : Snapshot) extends snapshot.Beside snapshot' where
  /-- Whether no two calls of a formula may start at the same place. -/
  strict : Prop
  /-- The values that are met, apart from handles. -/
  sound : Value → Prop
  /-- Handles that stand for each other. -/
  handles : Nat → Nat → Prop
  Holds : {α : Type} → List Nat → (α → α → Prop) → Scope → Eval α → Eval α → Prop
  kept : Value.Kept sound
  ret : ∀ {α : Type} {R : α → α → Prop} {scope : Scope} {a b : α}, R a b → Holds [] R scope (pure a) (pure b)
  bind : ∀ {α β : Type} {R : α → α → Prop} {R' : β → β → Prop} {l l' : List Nat} {scope : Scope} {x y : Eval α}
    {f g : α → Eval β}, Holds l R scope x y → (∀ a b, R a b → Holds l' R' scope (f a) (g b)) →
      Holds (l ++ l') R' scope (x >>= f) (y >>= g)
  widen : ∀ {α : Type} {R : α → α → Prop} {l l' : List Nat} {scope : Scope} {x y : Eval α},
    Holds l R scope x y → l ⊆ l' → Holds l' R scope x y
  ofRead : ∀ {α : Type} {R : α → α → Prop} {l : List Nat} {scope : Scope} {f g : Scope → Eval α},
    (∀ origin origin' generation generation', Holds l R scope (f { scope with origin, generation })
      (g { scope with origin := origin', generation := generation' })) → Holds l R scope (read >>= f) (read >>= g)
  ofGet : ∀ {α : Type} {R : α → α → Prop} {l : List Nat} {scope : Scope} {f g : Session → Eval α},
    (∀ s t : Session, s.pass = t.pass → s.pass.Only sound → Holds l R scope (f s) (g t)) →
      Holds l R scope (get >>= f) (get >>= g)
  store : ∀ {scope : Scope} {v : Value} (p : Place), sound v →
    Holds [] (fun _ _ => True) scope (Eval.modifyPass (·.store snapshot.books snapshot.formulas p v))
      (Eval.modifyPass (·.store snapshot.books snapshot.formulas p v))
  enterCell : ∀ {α : Type} {R : α → α → Prop} {l : List Nat} {scope : Scope} {c : Cursor} {x y : Eval α},
    c.place ∉ scope.cells → Holds l R (scope.enterCell c) x y →
      Holds [] R scope (withReader (·.enterCell c) x) (withReader (·.enterCell c) y)
  enterName : ∀ {α : Type} {R : α → α → Prop} {l : List Nat} {scope : Scope} {k : NameKey} {x y : Eval α},
    k ∉ scope.names → Holds l R (scope.enterName k) x y →
      Holds [] R scope (withReader (·.enterName k) x) (withReader (·.enterName k) y)
  definition : ∀ {scope : Scope} {name : String} {d : DefinedName} {k : NameKey},
    snapshot.definition? scope.cursor.place name = some d → k = ⟨scope.cursor.place.book, d.scope, upper name⟩ →
      Holds [] (fun n m => n = m ∧ (strict → n.callStarts.Nodup)) scope (Evaluator.definitionNode snapshot k d)
        (Evaluator.definitionNode snapshot' k d)
  call : ∀ {l : List Nat} {scope : Scope} {start count : Nat} {name : String}
    {arguments arguments' : FunctionDef → Eval (List (ArgumentRule × Value))}, (strict → start ∉ l) →
      (∀ f f' : FunctionDef, f.rules = f'.rules →
        Holds l (List.Forall₂ (SameRule (Value.Like sound handles))) scope (arguments f) (arguments' f')) →
      Holds (start :: l) (Value.Like sound handles) scope (Evaluator.call snapshot start name count arguments)
        (Evaluator.call snapshot' start name count arguments')

namespace Likeness

variable {snapshot snapshot' : Snapshot} (L : Likeness snapshot snapshot') {v w : Value} {vs ws : List Value}

/-- Answers that are alike. -/
abbrev Values (v w : Value) : Prop := Value.Like L.sound L.handles v w

variable {L}

lemma values_of_sound (h : L.sound v) : L.Values v v := .inl ⟨rfl, h⟩

lemma values_of_flat (h : v.IsFlat) : L.Values v v := .inl ⟨rfl, L.kept.flat v h⟩

lemma values_error (e : ErrorValue) : L.Values (.error e) (.error e) := values_of_flat trivial

lemma sound_topLeft (h : L.sound v) : L.sound v.topLeft := by
  cases v with
  | array g =>
    obtain ⟨rows, cols, items⟩ := g
    cases items with
    | nil => exact L.kept.flat _ trivial
    | cons v items => exact (L.kept.array _).1 h v List.mem_cons_self
  | _ => exact h

lemma Values.topLeft (h : L.Values v w) : L.Values v.topLeft w.topLeft := by
  rcases h with ⟨rfl, h⟩ | ⟨h, k, rfl, rfl, hk⟩
  · exact values_of_sound (sound_topLeft h)
  · exact .inr ⟨h, k, rfl, rfl, hk⟩

lemma sound_applyUnary (op : UnaryOp) : ∀ v : Value, L.sound v → L.sound (v.applyUnary op)
  | .array ⟨rows, cols, items⟩, h => by
    rw [Value.applyUnary, Value.applyUnaryAll_eq, L.kept.array]
    intro w hw
    obtain ⟨v, hv, rfl⟩ := List.mem_map.1 hw
    exact sound_applyUnary op v ((L.kept.array _).1 h v hv)
  | .blank, _ | .number _, _ | .text _, _ | .boolean _, _ | .error _, _ => by
    refine L.kept.flat _ (IsItem.isFlat (IsItem.applyUnary op ?_))
    trivial
  | .reference _, _ | .pending _, _ => by cases op <;> exact L.kept.flat _ trivial

lemma values_firstPending_getD (h : List.Forall₂ L.Values vs ws) {v w : Value}
    (hvw : vs = ws → (∀ u ∈ vs, L.sound u) → L.Values v w) :
    L.Values ((firstPending? vs).getD v) ((firstPending? ws).getD w) := by
  rcases Value.Like.firstPending h with ⟨p, q, hp, hq, hpq⟩ | ⟨hv, hw, heq, hsound⟩
  · rw [hp, hq]
    exact hpq
  · rw [hv, hw]
    exact hvw heq hsound

lemma values_joinReferences (op : BinaryOp) {v' w' : Value} (hv : L.Values v v') (hw : L.Values w w') :
    L.Values (Evaluator.joinReferences op v w) (Evaluator.joinReferences op v' w') := by
  unfold Evaluator.joinReferences
  rcases Value.Like.firstPending (.cons hv (.cons hw .nil)) with ⟨p, q, hp, hq, hpq⟩ | ⟨hp, hq, heq, -⟩
  · rw [hp, hq]
    exact hpq
  · simp only [List.cons.injEq, and_true] at heq
    obtain ⟨rfl, rfl⟩ := heq
    rw [hp]
    split
    · rename_i h
      cases h
    · exact values_error _
    · split
      · split
        · split
          · exact values_of_sound (L.kept.reference _)
          · exact values_error _
        · split
          · split
            · exact values_of_sound (L.kept.reference _)
            · exact values_error _
          · exact values_error _
      · exact values_error _

lemma sound_ofRows {rows : List (List Value)} (h : ∀ row ∈ rows, ∀ v ∈ row, L.sound v) :
    L.sound (.array (Grid.ofRows rows (.error .notAvailable))) := by
  rw [L.kept.array]
  intro v hv
  simp only [Grid.ofRows, List.mem_flatMap, List.mem_append, List.mem_replicate] at hv
  obtain ⟨row, hrow, hv | ⟨-, rfl⟩⟩ := hv
  · exact h row hrow v hv
  · exact L.kept.flat _ trivial

lemma values_unite (h : List.Forall₂ L.Values vs ws) : L.Values (Evaluator.unite vs) (Evaluator.unite ws) := by
  unfold Evaluator.unite
  rcases Value.Like.firstPending h with ⟨p, q, hp, hq, hpq⟩ | ⟨hv, -, rfl, hsound⟩
  · rw [hp, hq]
    exact hpq
  · rw [hv]
    split
    · rename_i h
      cases h
    · exact values_error _
    · refine values_of_sound (sound_ofRows ?_)
      rw [List.forall_mem_singleton]
      intro u hu
      obtain ⟨v, hvs, hu⟩ := List.mem_flatMap.1 hu
      have hitem := hsound v hvs
      cases v with
      | array g => exact (L.kept.array g).1 hitem u hu
      | _ =>
        rw [List.mem_singleton.1 hu]
        exact hitem

lemma eq_of_forall₂_rows {rows rows' : List (List Value)} (h : List.Forall₂ (List.Forall₂ L.Values) rows rows')
    (hpending : ∀ row ∈ rows, ∀ v ∈ row, v.isPending = false) : rows = rows' := by
  induction h with
  | nil => rfl
  | cons hrow _ ih =>
    obtain ⟨hhead, htail⟩ := List.forall_mem_cons.1 hpending
    rcases Value.Like.firstPending hrow with ⟨p, q, hp, -, -⟩ | ⟨-, -, rfl, -⟩
    · have hsome := List.find?_some hp
      rw [hhead p (List.mem_of_find?_eq_some hp)] at hsome
      cases hsome
    · rw [ih htail]

lemma values_makeArray {rows rows' : List (List Value)} (h : List.Forall₂ (List.Forall₂ L.Values) rows rows') :
    L.Values (Evaluator.makeArray rows) (Evaluator.makeArray rows') := by
  unfold Evaluator.makeArray
  rcases Value.Like.firstPending (List.rel_flatten h) with ⟨p, q, hp, hq, hpq⟩ | ⟨hv, hw, -, hsound⟩
  · rw [hp, hq]
    exact hpq
  · have hrows : ∀ row ∈ rows, ∀ v ∈ row, v ∈ rows.flatten := fun row hrow v hv => List.mem_flatten.2 ⟨row, hrow, hv⟩
    have hpending := List.find?_eq_none.1 hv
    obtain rfl := eq_of_forall₂_rows h fun row hrow v hv => by simpa using hpending v (hrows row hrow v hv)
    rw [hv]
    exact values_of_sound (sound_ofRows fun row hrow v hv => hsound v (hrows row hrow v hv))

/-! Cells, as long as the formulas below are alike. -/

variable {below below' : Evaluator} {scope : Scope}

/-- No two calls of a formula in a cell start at the same place. -/
def Distinct (snapshot : Snapshot) : Prop :=
  ∀ (p : Place) (e : Entry), snapshot.formulas.cell? p = some e → e.node.callStarts.Nodup

variable (L) in
/-- Evaluators that treat all formulas alike. -/
structure Under (below below' : Evaluator) : Prop where
  distinct : L.strict → Distinct snapshot
  evaluate : ∀ (scope : Scope) (n : Node), (L.strict → n.callStarts.Nodup) →
    L.Holds n.callStarts L.Values scope (below.evaluate n) (below'.evaluate n)
  materialize : ∀ (scope : Scope) (v w : Value), L.Values v w →
    L.Holds [] L.Values scope (below.materialize v) (below'.materialize w)

lemma under_bottom (hdistinct : L.strict → Distinct snapshot) : L.Under .bottom .bottom where
  distinct := hdistinct
  evaluate _ _ _ := L.widen (L.ret (values_error _)) (List.nil_subset _)
  materialize _ _ _ _ := L.ret (values_error _)

section Rules

variable {α β : Type} {R : α → α → Prop} {R' : β → β → Prop} {l : List Nat} {x y : Eval α} {f g : α → Eval β}

/-- What comes after an evaluation without calls of its own. -/
lemma bind_right (hx : L.Holds [] R scope x y) (hf : ∀ a b, R a b → L.Holds l R' scope (f a) (g b)) :
    L.Holds l R' scope (x >>= f) (y >>= g) := L.bind hx hf

/-- What comes after an evaluation and makes no calls of its own. -/
lemma bind_left (hx : L.Holds l R scope x y) (hf : ∀ a b, R a b → L.Holds [] R' scope (f a) (g b)) :
    L.Holds l R' scope (x >>= f) (y >>= g) := by
  have h := L.bind hx hf
  rwa [List.append_nil] at h

lemma map {f g : α → β} (hx : L.Holds l R scope x y) (hf : ∀ a b, R a b → R' (f a) (g b)) :
    L.Holds l R' scope (do return f (← x)) (do return g (← y)) := bind_left hx fun a b h => L.ret (hf a b h)

lemma mapM {γ : Type} {f g : γ → Eval α} {as : List γ} (h : ∀ a, L.Holds [] R scope (f a) (g a)) :
    L.Holds [] (List.Forall₂ R) scope (as.mapM f) (as.mapM g) := by
  induction as with
  | nil => exact L.ret .nil
  | cons a as ih =>
    rw [List.mapM_cons, List.mapM_cons]
    exact bind_right (h a) fun b b' hb => bind_right ih fun bs bs' hbs => L.ret (.cons hb hbs)

end Rules

lemma Under.value (h : L.Under below below') (scope : Scope) {n : Node} (hn : L.strict → n.callStarts.Nodup) :
    L.Holds n.callStarts L.Values scope (below.value n) (below'.value n) :=
  bind_left (h.evaluate scope n hn) fun v w hvw => h.materialize scope v w hvw

lemma isItem_stored (p : Place) : (snapshot.stored p).IsItem := by
  unfold Snapshot.stored
  split
  · exact isItem_ofScalar _
  · trivial

lemma holds_calculate (h : L.Under below below') (p : Place) :
    L.Holds [] L.Values scope (Evaluator.calculate snapshot below p) (Evaluator.calculate snapshot' below' p) := by
  unfold Evaluator.calculate
  refine L.ofRead fun _ _ _ _ => ?_
  simp only [L.store_eq]
  rw [L.formulas_eq, L.stored_eq, L.cursor_eq]
  by_cases hp : scope.cells.contains p = true
  · rw [if_pos hp, if_pos hp]
    exact L.ret (values_error _)
  · rw [if_neg hp, if_neg hp]
    cases he : snapshot.formulas.cell? p with
    | none => exact L.ret (values_of_flat (isItem_stored p).isFlat)
    | some e =>
      have hvalue := h.value (scope.enterCell (snapshot.books.cursor p)) fun hs => h.distinct hs p e he
      refine bind_right (L.enterCell (by rwa [ExtTreeSet.contains_iff_mem] at hp) hvalue) fun v w hvw => ?_
      rw [← hvw.isPending_eq]
      split
      · exact L.ret hvw
      · rename_i hv
        obtain ⟨rfl, hsound⟩ := hvw.eq_of_isPending_eq_false (by simpa using hv)
        refine bind_right (L.store p hsound) fun _ _ _ => L.ofGet fun s t hst hs => L.ret ?_
        rw [← hst]
        cases hr : s.pass.results[p]? with
        | none => exact values_of_flat trivial
        | some v => exact values_of_sound (hs.results p v hr)

lemma holds_readCell (h : L.Under below below') (p : Place) :
    L.Holds [] L.Values scope (Evaluator.readCell snapshot below p) (Evaluator.readCell snapshot' below' p) := by
  have hsettled : L.Holds [] L.Values scope (Evaluator.settledValue snapshot p) (Evaluator.settledValue snapshot' p) := by
    unfold Evaluator.settledValue
    refine L.ofGet fun s t hst hs => L.ret ?_
    rw [← hst, L.stored_eq]
    cases hr : s.pass.spilled[p]? with
    | none => exact values_of_flat (isItem_stored p).isFlat
    | some v => exact values_of_sound (hs.spilled p v hr)
  unfold Evaluator.readCell
  refine L.ofGet fun s t hst hs => ?_
  rw [← hst]
  dsimp only
  split
  · exact L.ret (values_error _)
  · cases hr : s.pass.results[p]? with
    | some v => exact L.ret (values_of_sound (sound_topLeft (hs.results p v hr)))
    | none =>
      dsimp only
      split
      · exact map (holds_calculate h p) fun v w hvw => hvw.topLeft
      · cases s.pass.dirtyAnchorOver? p with
        | none => exact hsettled
        | some anchor =>
          refine bind_right (holds_calculate h anchor) fun v w hvw => ?_
          rw [← hvw.isPending_eq]
          split
          · exact L.ret hvw
          · exact hsettled

lemma holds_readRegion (h : L.Under below below') (r : Region) :
    L.Holds [] L.Values scope (Evaluator.readRegion snapshot below r) (Evaluator.readRegion snapshot' below' r) := by
  unfold Evaluator.readRegion
  rw [L.sheet?]
  cases snapshot.books.sheet? r.book r.sheet with
  | none => exact L.ret (values_error _)
  | some sheet =>
    dsimp only
    split
    · exact holds_readCell h _
    · refine bind_right (mapM fun q => holds_readCell h q) fun vs ws hvs => L.ret ?_
      refine values_firstPending_getD hvs ?_
      rintro rfl hsound
      exact values_of_sound ((L.kept.array _).2 hsound)

lemma holds_materialize (h : L.Under below below') (hvw : L.Values v w) :
    L.Holds [] L.Values scope (Evaluator.materializeWith snapshot below v) (Evaluator.materializeWith snapshot' below' w) := by
  rcases hvw with ⟨rfl, hv⟩ | ⟨k, k', rfl, rfl, hk⟩
  · cases v with
    | reference r => exact holds_readRegion h r
    | _ => exact L.ret (values_of_sound hv)
  · exact L.ret (.inr ⟨k, k', rfl, rfl, hk⟩)

lemma values_unpack (h : L.Values v w) : L.Values (Evaluator.unpack v) (Evaluator.unpack w) := by
  rcases h with ⟨rfl, hv⟩ | ⟨k, k', rfl, rfl, hk⟩
  · refine values_of_sound ?_
    cases v with
    | array g =>
      unfold Evaluator.unpack
      dsimp only
      split
      · exact sound_topLeft hv
      · exact L.kept.flat _ trivial
    | _ => exact hv
  · exact .inr ⟨k, k', rfl, rfl, hk⟩

lemma holds_prepare (h : L.Under below below') (rule : ArgumentRule) (hvw : L.Values v w) :
    L.Holds [] L.Values scope (Evaluator.prepare snapshot below rule v) (Evaluator.prepare snapshot' below' rule w) := by
  have hmaterialize : L.Holds [] L.Values scope (Evaluator.materializeWith snapshot below v)
      (Evaluator.materializeWith snapshot' below' w) := holds_materialize h hvw
  unfold Evaluator.prepare
  rw [← hvw.isPending_eq]
  split
  · exact L.ret hvw
  · rename_i hv
    obtain ⟨rfl, hsound⟩ := hvw.eq_of_isPending_eq_false (by simpa using hv)
    cases rule with
    | reference =>
      refine L.ret (values_of_sound ?_)
      cases v with
      | reference | error => exact hsound
      | _ => exact L.kept.flat _ trivial
    | referenceOrArray =>
      refine L.ret (values_of_sound ?_)
      cases v with
      | reference | error | array => exact hsound
      | _ =>
        exact (L.kept.array _).2 (List.forall_mem_singleton.2 hsound)
    | scalar => exact map hmaterialize fun u u' hu => values_unpack hu
    | number =>
      refine bind_right hmaterialize fun u u' hu => L.ret ?_
      have hunpack := values_unpack hu
      rw [← hunpack.isPending_eq]
      split
      · exact hunpack
      · rename_i hpending
        obtain ⟨heq, -⟩ := hunpack.eq_of_isPending_eq_false (by simpa using hpending)
        rw [← heq]
        exact values_of_flat (isItem_ofExcept_map (f := Value.number) fun _ => trivial).isFlat
    | any | raw => exact hmaterialize

lemma holds_evaluateName (h : L.Under below below') (name : String) :
    L.Holds [] L.Values scope (Evaluator.evaluateName snapshot below name) (Evaluator.evaluateName snapshot' below' name) := by
  unfold Evaluator.evaluateName
  refine L.ofRead fun _ _ _ _ => ?_
  dsimp only
  rw [← Snapshot.definition?, ← Snapshot.definition?, L.definition?]
  cases hd : snapshot.definition? scope.cursor.place name with
  | none => exact L.ret (values_error _)
  | some d =>
    dsimp only
    split
    · exact L.ret (values_error _)
    · rename_i hk
      rw [ExtTreeSet.contains_iff_mem] at hk
      refine bind_right (L.definition hd rfl) ?_
      rintro n m ⟨rfl, hn⟩
      exact L.enterName hk (h.evaluate _ n hn)

/-! Whole formulas. -/

mutual

theorem holds_evaluate (h : L.Under below below') : ∀ n : Node, (L.strict → n.callStarts.Nodup) →
    L.Holds n.callStarts L.Values scope (Evaluator.evaluateWith snapshot below n) (Evaluator.evaluateWith snapshot' below' n)
  | .literal _ l, _ => by
    rw [Evaluator.evaluateWith, Evaluator.evaluateWith, Node.callStarts_literal]
    exact L.ret (values_of_flat (by cases l <;> trivial))
  | .missing _, _ => by
    rw [Evaluator.evaluateWith, Evaluator.evaluateWith, Node.callStarts_missing]
    exact L.ret (values_of_flat trivial)
  | .invalid _ _, _ => by
    rw [Evaluator.evaluateWith, Evaluator.evaluateWith, Node.callStarts_invalid]
    exact L.ret (values_error _)
  | .reference _ _ _ _, _ => by
    rw [Evaluator.evaluateWith, Evaluator.evaluateWith, Node.callStarts_reference]
    exact L.ofRead fun _ _ _ _ => L.ret (values_of_sound (L.kept.reference _))
  -- the tree of a definition is no part of this one: what is asked for it lies one level below
  | .name _ name, _ => by
    rw [Evaluator.evaluateWith, Evaluator.evaluateWith, Node.callStarts_name]
    exact holds_evaluateName h name
  | .unary _ op n, hn => by
    rw [Node.callStarts_unary] at hn ⊢
    rw [Evaluator.evaluateWith, Evaluator.evaluateWith]
    refine bind_left (holds_evaluate h n hn) fun v w hvw => bind_right (holds_materialize h hvw) fun v w hvw => ?_
    refine L.ret ?_
    rw [← hvw.isPending_eq]
    split
    · exact hvw
    · rename_i hv
      obtain ⟨rfl, hsound⟩ := hvw.eq_of_isPending_eq_false (by simpa using hv)
      exact values_of_sound (sound_applyUnary op v hsound)
  | .binary _ op l r, hn => by
    rw [Node.callStarts_binary] at hn ⊢
    have hl := holds_evaluate h l (fun hs => (hn hs).of_append_left)
    have hr := holds_evaluate h r (fun hs => (hn hs).of_append_right)
    rw [Evaluator.evaluateWith, Evaluator.evaluateWith]
    -- references are joined as they are, before anything that they refer to is read
    split
    · exact L.bind hl fun v v' hv => map hr fun w w' hw => values_joinReferences op hv hw
    · refine L.bind hl fun v v' hv => bind_right (holds_materialize h hv) fun v v' hv => ?_
      refine bind_left hr fun w w' hw => bind_right (holds_materialize h hw) fun w w' hw => L.ret ?_
      refine values_firstPending_getD (.cons hv (.cons hw .nil)) fun heq _ => ?_
      simp only [List.cons.injEq, and_true] at heq
      obtain ⟨rfl, rfl⟩ := heq
      exact values_of_flat (isFlat_applyBinary op v w)
  | .call _ _ args, hn => by
    rw [Node.callStarts_call, List.nodup_cons] at hn
    rw [Evaluator.evaluateWith, Evaluator.evaluateWith, Node.callStarts_call]
    exact L.call (fun hs => (hn hs).1) fun f f' hrules => holds_arguments h hrules 0 args fun hs => (hn hs).2
  | .array _ rows, hn => by
    rw [Node.callStarts_array] at hn ⊢
    rw [Evaluator.evaluateWith, Evaluator.evaluateWith]
    exact map (holds_rows h rows hn) fun _ _ hrows => values_makeArray hrows
  | .union _ items, hn => by
    rw [Node.callStarts_union] at hn ⊢
    rw [Evaluator.evaluateWith, Evaluator.evaluateWith]
    exact map (holds_all h items hn) fun _ _ hvs => values_unite hvs

theorem holds_arguments (h : L.Under below below') {f f' : FunctionDef} (hrules : f.rules = f'.rules) :
    ∀ (i : Nat) (ns : List Node),
    (L.strict → (Node.startsOfCalls (Node.nodesOfAll ns)).Nodup) →
      L.Holds (Node.startsOfCalls (Node.nodesOfAll ns)) (List.Forall₂ (SameRule L.Values)) scope
        (Evaluator.evaluateArguments snapshot below f i ns) (Evaluator.evaluateArguments snapshot' below' f' i ns)
  | _, [], _ => by
    rw [Evaluator.evaluateArguments, Evaluator.evaluateArguments]
    exact L.ret .nil
  | i, n :: ns, hn => by
    rw [Node.nodesOfAll, Node.startsOfCalls_append] at hn ⊢
    rw [Evaluator.evaluateArguments, Evaluator.evaluateArguments, ← hrules]
    refine L.bind (holds_evaluate h n (fun hs => (hn hs).of_append_left)) fun v w hvw => ?_
    refine bind_right (holds_prepare h (f.rules.rule i) hvw) fun v w hvw => ?_
    exact map (holds_arguments h hrules (i + 1) ns (fun hs => (hn hs).of_append_right)) fun _ _ hvs => .cons ⟨rfl, hvw⟩ hvs

theorem holds_all (h : L.Under below below') : ∀ ns : List Node,
    (L.strict → (Node.startsOfCalls (Node.nodesOfAll ns)).Nodup) →
    L.Holds (Node.startsOfCalls (Node.nodesOfAll ns)) (List.Forall₂ L.Values) scope
      (Evaluator.evaluateAll snapshot below ns) (Evaluator.evaluateAll snapshot' below' ns)
  | [], _ => by
    rw [Evaluator.evaluateAll, Evaluator.evaluateAll]
    exact L.ret .nil
  | n :: ns, hn => by
    rw [Node.nodesOfAll, Node.startsOfCalls_append] at hn ⊢
    rw [Evaluator.evaluateAll, Evaluator.evaluateAll]
    refine L.bind (holds_evaluate h n (fun hs => (hn hs).of_append_left)) fun v w hvw => ?_
    refine bind_right (holds_materialize h hvw) fun v w hvw => ?_
    exact map (holds_all h ns (fun hs => (hn hs).of_append_right)) fun _ _ hvs => .cons hvw hvs

theorem holds_rows (h : L.Under below below') : ∀ rows : List (List Node),
    (L.strict → (Node.startsOfCalls (Node.nodesOfRows rows)).Nodup) →
    L.Holds (Node.startsOfCalls (Node.nodesOfRows rows)) (List.Forall₂ (List.Forall₂ L.Values)) scope
      (Evaluator.evaluateRows snapshot below rows) (Evaluator.evaluateRows snapshot' below' rows)
  | [], _ => by
    rw [Evaluator.evaluateRows, Evaluator.evaluateRows]
    exact L.ret .nil
  | ns :: rows, hn => by
    rw [Node.nodesOfRows, Node.startsOfCalls_append] at hn ⊢
    rw [Evaluator.evaluateRows, Evaluator.evaluateRows]
    refine L.bind (holds_all h ns (fun hs => (hn hs).of_append_left)) fun vs ws hvs => ?_
    refine map (holds_rows h rows (fun hs => (hn hs).of_append_right)) fun _ _ hrows => .cons ?_ hrows
    rw [List.forall₂_map_left_iff, List.forall₂_map_right_iff]
    exact hvs.imp fun v w hvw => hvw.topLeft

end

theorem under_ofDepth (L : Likeness snapshot snapshot') (hdistinct : L.strict → Distinct snapshot) (depth : Nat) :
    L.Under (Evaluator.ofDepth snapshot depth) (Evaluator.ofDepth snapshot' depth) := by
  induction depth with
  | zero => exact under_bottom hdistinct
  | succ depth ih => exact ⟨hdistinct, fun _ n hn => holds_evaluate ih n hn, fun _ _ _ hvw => holds_materialize ih hvw⟩

lemma under_evaluator (L : Likeness snapshot snapshot') (hdistinct : L.strict → Distinct snapshot) :
    L.Under snapshot.evaluator snapshot'.evaluator := by
  rw [Snapshot.evaluator, Snapshot.evaluator, L.depth]
  exact under_ofDepth L hdistinct _

end Likeness

/-- A formula cell is calculated unless its result is there. -/
def Interpreter.cellAttempt (snapshot : Snapshot) (p : Place) : Eval Value := do
  match (← get).pass.results[p]? with
  | some v => return v
  | none => Evaluator.calculate snapshot snapshot.evaluator p

lemma Likeness.holds_cellAttempt {snapshot snapshot' : Snapshot} {L : Likeness snapshot snapshot'} {scope : Scope}
    (h : L.Under snapshot.evaluator snapshot'.evaluator) (p : Place) :
    L.Holds [] L.Values scope (Interpreter.cellAttempt snapshot p) (Interpreter.cellAttempt snapshot' p) := by
  refine L.ofGet fun s t hpass honly => ?_
  rw [← hpass]
  cases hv : s.pass.results[p]? with
  | some v => exact L.ret (values_of_sound (honly.results p v hv))
  | none => exact holds_calculate h p

/-- What can be said of evaluations one by one, with the places where calls of the formula may start and with what there is to
say of their results. -/
structure Habit (snapshot : Snapshot) where
  /-- Whether no two calls of a formula may start at the same place. -/
  strict : Prop
  Holds : {α : Type} → List Nat → (α → Prop) → Scope → Eval α → Prop
  ret : ∀ {α : Type} {Q : α → Prop} {scope : Scope} {a : α}, Q a → Holds [] Q scope (pure a)
  bind : ∀ {α β : Type} {Q : α → Prop} {Q' : β → Prop} {l l' : List Nat} {scope : Scope} {x : Eval α} {f : α → Eval β},
    Holds l Q scope x → (∀ a, Q a → Holds l' Q' scope (f a)) → Holds (l ++ l') Q' scope (x >>= f)
  widen : ∀ {α : Type} {Q Q' : α → Prop} {l l' : List Nat} {scope : Scope} {x : Eval α},
    Holds l Q scope x → l ⊆ l' → (∀ a, Q a → Q' a) → Holds l' Q' scope x
  ofRead : ∀ {α : Type} {Q : α → Prop} {l : List Nat} {scope : Scope} {f : Scope → Eval α},
    Holds l Q scope (f scope) → Holds l Q scope (read >>= f)
  ofGet : ∀ {α : Type} {Q : α → Prop} {l : List Nat} {scope : Scope} {f : Session → Eval α},
    (∀ s : Session, Holds l Q scope (f s)) → Holds l Q scope (get >>= f)
  store : ∀ {scope : Scope} (p : Place) (v : Value),
    Holds [] (fun _ => True) scope (Eval.modifyPass (·.store snapshot.books snapshot.formulas p v))
  enterCell : ∀ {α : Type} {Q : α → Prop} {l : List Nat} {scope : Scope} {c : Cursor} {x : Eval α},
    c.place ∉ scope.cells → Holds l Q (scope.enterCell c) x → Holds [] Q scope (withReader (·.enterCell c) x)
  enterName : ∀ {α : Type} {Q : α → Prop} {l : List Nat} {scope : Scope} {k : NameKey} {x : Eval α},
    k ∉ scope.names → Holds l Q (scope.enterName k) x → Holds [] Q scope (withReader (·.enterName k) x)
  definition : ∀ {scope : Scope} {name : String} {d : DefinedName} {k : NameKey},
    snapshot.definition? scope.cursor.place name = some d → k = ⟨scope.cursor.place.book, d.scope, upper name⟩ →
      Holds [] (fun n => strict → n.callStarts.Nodup) scope (Evaluator.definitionNode snapshot k d)
  call : ∀ {l : List Nat} {scope : Scope} {start count : Nat} {name : String}
    {arguments : FunctionDef → Eval (List (ArgumentRule × Value))}, (strict → start ∉ l) →
      (∀ f : FunctionDef, Holds l (fun _ => True) scope (arguments f)) →
      Holds (start :: l) (fun _ => True) scope (Evaluator.call snapshot start name count arguments)

namespace Habit

variable {snapshot : Snapshot} (H : Habit snapshot) {scope : Scope}

/-- The likeness of evaluations to themselves. -/
def likeness : Likeness snapshot snapshot where
  strict := H.strict
  sound _ := True
  handles _ _ := False
  Holds l R scope x _ := H.Holds l (fun a => ∃ b, R a b) scope x
  toBeside := snapshot.beside_self
  kept := Value.kept_true
  ret hab := H.ret ⟨_, hab⟩
  bind hx hf := H.bind hx fun a ⟨b, hab⟩ => hf a b hab
  widen h hl := H.widen h hl fun _ => id
  ofRead {_ _ _ scope _ _} h := H.ofRead (h scope.origin scope.origin scope.generation scope.generation)
  ofGet h := H.ofGet fun s => h s s rfl s.pass.only_true
  store p _ := H.widen (H.store p _) (List.Subset.refl _) fun _ _ => ⟨⟨⟩, trivial⟩
  enterCell := H.enterCell
  enterName := H.enterName
  definition hd hk := H.widen (H.definition hd hk) (List.Subset.refl _) fun n hn => ⟨n, rfl, hn⟩
  call hstart h := H.widen (H.call hstart fun f => H.widen (h f f rfl) (List.Subset.refl _) fun _ _ => trivial)
    (List.Subset.refl _) fun v _ => ⟨v, .inl ⟨rfl, trivial⟩⟩

lemma value (hdistinct : H.strict → Likeness.Distinct snapshot) {n : Node} (hn : H.strict → n.callStarts.Nodup) :
    H.Holds n.callStarts (fun _ => True) scope (snapshot.evaluator.value n) :=
  H.widen ((H.likeness.under_evaluator hdistinct).value scope hn) (List.Subset.refl _) fun _ _ => trivial

lemma cellAttempt (hdistinct : H.strict → Likeness.Distinct snapshot) (p : Place) :
    H.Holds [] (fun _ => True) scope (Interpreter.cellAttempt snapshot p) :=
  H.widen (Likeness.holds_cellAttempt (H.likeness.under_evaluator hdistinct) p) (List.Subset.refl _) fun _ _ => trivial

end Habit

end Spreadsheet
