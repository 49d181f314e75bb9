import Spreadsheet.Proofs.Evaluation.Alike
import Spreadsheet.Proofs.Table

/-! The levels of evaluators are never used up: every level enters a formula or a definition that is not under
evaluation yet, and there are more levels than formulas and definitions. -/

namespace Spreadsheet

open Std Text Dependency Formula

namespace Snapshot

variable {s : Snapshot} {p : Place} {name : String} {d : DefinedName}

/-- The definitions of all workbooks, by the keys under which they are evaluated. -/
def definitionKeys (s : Snapshot) : List NameKey :=
  s.books.byId.toList.flatMap fun x => x.2.names.map fun d => ⟨x.1, d.scope, upper d.name⟩

lemma depth_eq (s : Snapshot) : s.depth = s.formulas.cells.keys.length + s.definitionKeys.length + 1 := by
  have hsum : ∀ (l : List Workbook) (n : Nat),
      l.foldl (fun n b => n + b.names.length) n = n + (l.map fun b => b.names.length).sum := by
    intro l
    induction l with
    | nil => simp
    | cons b l ih =>
      intro n
      rw [List.foldl_cons, ih, List.map_cons, List.sum_cons, Nat.add_assoc]
  rw [depth, hsum, definitionKeys, List.length_flatMap, Books.toList, Table.values_eq, Index.size,
    ExtTreeMap.length_keys]
  simp [Function.comp_def]

lemma mem_definitionKeys (h : s.definition? p name = some d) : ⟨p.book, d.scope, upper name⟩ ∈ s.definitionKeys := by
  obtain ⟨b, hb, hd⟩ := Option.bind_eq_some_iff.1 h
  obtain ⟨hmem, hname⟩ := Workbook.mem_of_definition? hd
  refine List.mem_flatMap.2 ⟨(p.book, b), ExtTreeMap.mem_toList_iff_getElem?_eq_some.2 hb, ?_⟩
  exact List.mem_map.2 ⟨d, hmem, by rw [hname]⟩

lemma mem_keys_of_cell? {e : Entry} (h : s.formulas.cell? p = some e) : p ∈ s.formulas.cells.keys := by
  rw [ExtTreeMap.mem_keys, ← ExtTreeMap.isSome_getElem?_iff_mem]
  exact Option.isSome_iff_exists.2 ⟨e, h⟩

end Snapshot

/-- Enough levels are left for all that is not under evaluation. -/
structure Scope.Room (s : Snapshot) (levels : Nat) (scope : Scope) : Prop where
  cells : ∀ p ∈ scope.cells, p ∈ s.formulas.cells.keys
  names : ∀ k ∈ scope.names, k ∈ s.definitionKeys
  depth_le : s.depth ≤ scope.cells.size + scope.names.size + levels

namespace Scope

variable {s : Snapshot} {levels : Nat} {scope : Scope} {c : Cursor} {k : NameKey}

lemma size_insert_le {α : Type} [Ord α] [TransOrd α] [LawfulEqOrd α] {t : ExtTreeSet α} {a : α} {l : List α} (ha : a ∉ t)
    (hmem : a ∈ l) (ht : ∀ b ∈ t, b ∈ l) : (t.insert a).size = t.size + 1 ∧ t.size + 1 ≤ l.length := by
  have hsize : (t.insert a).size = t.size + 1 := by
    rw [ExtTreeSet.size_insert, if_neg (by rwa [ExtTreeSet.contains_iff_mem])]
  refine ⟨hsize, hsize ▸ Table.size_le_length fun b hb => ?_⟩
  rcases ExtTreeSet.mem_insert.1 hb with hab | hb
  · exact Std.compare_eq_iff_eq.1 hab ▸ hmem
  · exact ht b hb

lemma room_of_empty (hcells : scope.cells = ∅) (hnames : scope.names = ∅) : scope.Room s s.depth where
  cells := by simp [hcells]
  names := by simp [hnames]
  depth_le := Nat.le_add_left _ _

namespace Room

lemma mono {more : Nat} (h : scope.Room s levels) (hl : levels ≤ more) : scope.Room s more :=
  ⟨h.cells, h.names, Nat.le_trans h.depth_le (Nat.add_le_add_left hl _)⟩

lemma enterCell (h : scope.Room s levels) (hc : c.place ∉ scope.cells) (hmem : c.place ∈ s.formulas.cells.keys) :
    ∃ rest, levels = rest + 1 ∧ (scope.enterCell c).Room s rest := by
  obtain ⟨hsize, hle⟩ := size_insert_le hc hmem h.cells
  have hnames := Table.size_le_length h.names
  have hdepth := h.depth_le
  have heq := s.depth_eq
  refine ⟨levels - 1, by omega, fun p hp => ?_, h.names, ?_⟩
  · rcases ExtTreeSet.mem_insert.1 hp with hcp | hp
    · exact Std.compare_eq_iff_eq.1 hcp ▸ hmem
    · exact h.cells p hp
  · have hcells : (scope.enterCell c).cells.size = scope.cells.size + 1 := hsize
    have hsame : (scope.enterCell c).names.size = scope.names.size := rfl
    omega

lemma enterName (h : scope.Room s levels) (hk : k ∉ scope.names) (hmem : k ∈ s.definitionKeys) :
    ∃ rest, levels = rest + 1 ∧ (scope.enterName k).Room s rest := by
  obtain ⟨hsize, hle⟩ := size_insert_le hk hmem h.names
  have hcells := Table.size_le_length h.cells
  have hdepth := h.depth_le
  have heq := s.depth_eq
  refine ⟨levels - 1, by omega, h.cells, fun p hp => ?_, ?_⟩
  · rcases ExtTreeSet.mem_insert.1 hp with hkp | hp
    · exact Std.compare_eq_iff_eq.1 hkp ▸ hmem
    · exact h.names p hp
  · have hnames : (scope.enterName k).names.size = scope.names.size + 1 := hsize
    have hsame : (scope.enterName k).cells.size = scope.cells.size := rfl
    omega

end Room

end Scope

namespace Evaluator

open Eval

variable {s : Snapshot} {J : Pass → Prop} {Fine : Place → Value → Prop}

/-- Values of formulas are fine ones, and storing these in cells that may be due keeps a property of passes. -/
structure Admits (s : Snapshot) (J : Pass → Prop) (Fine : Place → Value → Prop) : Prop where
  value : ∀ p e, s.formulas.cell? p = some e → ∀ levels scope, scope.cursor.place = p →
    (∀ a, Due J a → InStep J scope (calculate s (ofDepth s levels) a) (calculate s (ofDepth s levels) a)) →
    InStep J scope ((ofDepth s (levels + 1)).value e.node) ((ofDepth s (levels + 1)).value e.node) →
      Alike (fun t => J t.pass) (Fine p) scope ((ofDepth s (levels + 1)).value e.node) ((ofDepth s (levels + 1)).value e.node)
  store : ∀ p e, s.formulas.cell? p = some e → Due J p → ∀ t v, J t → Fine p v → J (t.store s.books s.formulas p v)

/-- Where there is room, more levels make no difference. -/
lemma inStep_ofDepth (h : Admits s J Fine) (more levels : Nat) : ∀ scope : Scope, scope.Room s levels →
    (∀ a, Due J a → InStep J scope (calculate s (ofDepth s levels) a) (calculate s (ofDepth s (levels + more)) a)) ∧
      ∀ name, InStep J scope (evaluateName s (ofDepth s levels) name) (evaluateName s (ofDepth s (levels + more)) name) := by
  induction levels with
  | zero =>
    -- all formulas and definitions are under evaluation
    intro scope hroom
    constructor
    · intro a hdue
      refine inStep_calculate (Q := Fine a) (fun e he ha => ?_) fun e he => h.store a e he hdue
      obtain ⟨rest, hrest, -⟩ := hroom.enterCell (c := s.books.cursor a) ha (Snapshot.mem_keys_of_cell? he)
      omega
    · intro name
      refine inStep_evaluateName fun d n hd hk => ?_
      obtain ⟨rest, hrest, -⟩ := hroom.enterName hk (Snapshot.mem_definitionKeys hd)
      omega
  | succ levels ih =>
    intro scope hroom
    rw [Nat.add_right_comm]
    constructor
    · intro a hdue
      refine inStep_calculate (Q := Fine a) (fun e he ha => ?_) fun e he => h.store a e he hdue
      obtain ⟨rest, hrest, hroom⟩ := hroom.enterCell (c := s.books.cursor a) ha (Snapshot.mem_keys_of_cell? he)
      obtain rfl : levels = rest := by omega
      obtain ⟨hcell, hname⟩ := ih _ hroom
      have hvalue : InStep J (scope.enterCell (s.books.cursor a)) ((ofDepth s (levels + 1)).value e.node)
          ((ofDepth s (levels + more + 1)).value e.node) :=
        inStep_bind (inStep_evaluate (turns_of_due hcell) hname e.node) fun v => inStep_materialize (turns_of_due hcell) v
      have hfine := h.value a e he levels _ rfl (fun a ha => (hcell a ha).left) hvalue.left
      exact (hvalue.and hfine).mono fun v hv => hv.2
    · intro name
      refine inStep_evaluateName fun d n hd hk => ?_
      obtain ⟨rest, hrest, hroom⟩ := hroom.enterName hk (Snapshot.mem_definitionKeys hd)
      obtain rfl : levels = rest := by omega
      obtain ⟨hcell, hname⟩ := ih _ hroom
      exact inStep_evaluate (turns_of_due hcell) hname n

lemma admits_of_store (h : ∀ t p e v, s.formulas.cell? p = some e → J t → J (t.store s.books s.formulas p v)) :
    Admits s J fun _ _ => True where
  value _ _ _ _ _ _ _ hvalue := hvalue
  store p e he _ t v ht _ := h t p e v he ht

/-- The evaluator of a snapshot has levels enough. -/
theorem exec_value_ofDepth {scope : Scope} (hcells : scope.cells = ∅) (hnames : scope.names = ∅) (n : Node) (more : Nat)
    (t : Session) : exec ((ofDepth s (s.depth + 1 + more)).value n) scope t = exec (s.evaluator.value n) scope t := by
  obtain ⟨hcell, hname⟩ := inStep_ofDepth (J := fun _ => True) (admits_of_store fun _ _ _ _ _ _ => trivial) more s.depth
    scope (Scope.room_of_empty hcells hnames)
  have hvalue : InStep (fun _ => True) scope (s.evaluator.value n) ((ofDepth s (s.depth + more + 1)).value n) :=
    inStep_bind (inStep_evaluate (turns_of_due hcell) hname n) fun v => inStep_materialize (turns_of_due hcell) v
  rw [Nat.add_right_comm]
  exact ((hvalue t trivial).1).symm

namespace Admits

variable {scope : Scope} {p : Place}

/-! What a scope without anything under evaluation leads to. -/

lemma inStep_value (h : Admits s J Fine) (hcells : scope.cells = ∅) (hnames : scope.names = ∅) (n : Node) :
    InStep J scope (s.evaluator.value n) (s.evaluator.value n) := by
  obtain ⟨hcell, hname⟩ := inStep_ofDepth h 0 s.depth scope (Scope.room_of_empty hcells hnames)
  exact inStep_bind (inStep_evaluate (turns_of_due hcell) hname n) fun v => inStep_materialize (turns_of_due hcell) v

lemma alike_calculate (h : Admits s J Fine) (hcells : scope.cells = ∅) (hnames : scope.names = ∅) (hdue : Due J p)
    (hitem : ∀ v : Value, v.IsItem → Fine p v) (hresult : ∀ t v, J t → t.results[p]? = some v → Fine p v) :
    Alike (fun t => J t.pass) (Fine p) scope (calculate s s.evaluator p) (calculate s s.evaluator p) := by
  refine Evaluator.alike_calculate (fun e he hp => ?_) (fun e he => h.store p e he hdue) (fun _ hv => hv) hitem hresult
  obtain ⟨rest, hrest, hroom⟩ := (Scope.room_of_empty hcells hnames).enterCell (c := s.books.cursor p) hp
    (Snapshot.mem_keys_of_cell? he)
  obtain ⟨hcell, hname⟩ := inStep_ofDepth h 0 s.depth _ (hroom.mono (by omega))
  exact h.value p e he s.depth _ rfl hcell
    (inStep_bind (inStep_evaluate (turns_of_due hcell) hname e.node) fun v => inStep_materialize (turns_of_due hcell) v)

end Admits

end Evaluator

namespace Interpreter

open Eval

variable {s : Snapshot} {J : Pass → Prop} {Fine : Place → Value → Prop} {Q R : Value → Prop} {i : Interpreter}
  {waits : Bool} {origin : Origin} {act : Eval Value} {v : Value}

/-- Nothing is under evaluation. -/
structure Idle (i : Interpreter) : Prop where
  cells : i.scope.cells = ∅
  names : i.scope.names = ∅

lemma run_spec {o : Option Value} {j : Interpreter} (hrun : i.run waits origin act = (o, j))
    (h : Alike (fun t => J t.pass) Q { i.scope with waits, origin } act act) (hQ : ∀ v, Q v → R v.settled)
    (hR : R (.error .calculation)) (hJ : J i.session.pass) :
    J j.session.pass ∧ ∀ v, o = some v → R v ∧ j.scope = i.scope := by
  unfold run at hrun
  extract_lets before scope whole at hrun
  have hwhole : Alike (fun t => J t.pass) R scope whole whole := by
    cases waits with
    | true =>
      refine alike_bind (alike_waitFor h hQ hR _) fun v hv => ?_
      exact alike_bind (inStep_modify fun _ => rfl) fun _ _ => alike_pure hv
    | false => exact alike_map h hQ
  have hexec : (whole.run scope).run i.session = exec whole scope i.session := rfl
  obtain ⟨-, hpass, hvalue⟩ := hwhole i.session hJ
  rw [hexec] at hrun
  rcases hx : exec whole scope i.session with ⟨broken | v, t⟩
  · rw [hx] at hrun hpass
    obtain ⟨rfl, rfl⟩ := Prod.mk.inj hrun
    exact ⟨hpass, by rintro v ⟨⟩⟩
  · rw [hx] at hrun hpass hvalue
    obtain ⟨rfl, rfl⟩ := Prod.mk.inj hrun
    refine ⟨hpass, ?_⟩
    rintro w ⟨⟩
    exact ⟨hvalue v rfl, rfl⟩

lemma exec_waitFor {scope : Scope} {t t' : Session} (h : exec act scope { t with awaited := [] } = (.ok v, t'))
    (ha : t'.awaited = []) (rounds : Nat) : exec (waitFor act (rounds + 1)) scope t = (.ok v.settled, t') := by
  rw [waitFor, exec_modify_bind, exec_bind, h]
  simp only [exec_get_bind, ha, List.isEmpty_nil, if_true, exec_pure]

lemma run_of_exec {o : Option Value} {j : Interpreter} {u : Pass} (hrun : i.run waits origin act = (o, j))
    (h : ∀ t : Session, t.pass = i.session.pass → ∃ t' : Session,
      exec act { i.scope with waits, origin } t = (.ok v, t') ∧ t'.pass = u ∧ t'.awaited = t.awaited) :
    o = some v.settled ∧ j.scope = i.scope ∧ j.session.pass = u := by
  cases waits with
  | true =>
    obtain ⟨t, ht, hpass, hawaited⟩ := h { i.session with awaited := [] } rfl
    obtain ⟨rounds, hrounds⟩ := Nat.exists_eq_succ_of_ne_zero (n := maxRounds) (by decide)
    have hx := exec_waitFor ht hawaited rounds
    rw [← Nat.succ_eq_add_one, ← hrounds] at hx
    obtain ⟨rfl, rfl⟩ := Prod.mk.inj (hrun.symm.trans (run_waiting hx))
    exact ⟨rfl, rfl, hpass⟩
  | false =>
    obtain ⟨t, ht, hpass, -⟩ := h i.session rfl
    obtain ⟨rfl, rfl⟩ := Prod.mk.inj (hrun.symm.trans (run_ok ht))
    exact ⟨rfl, rfl, hpass⟩

lemma evaluate_spec {n : Node} {o : Option Value} {j : Interpreter} (hrun : i.evaluate s n waits = (o, j))
    (h : Evaluator.Admits s J Fine) (hidle : i.Idle) (hJ : J i.session.pass) :
    J j.session.pass ∧ ∀ v, o = some v → j.Idle := by
  have hvalue : ∀ scope : Scope, scope.cells = ∅ → scope.names = ∅ →
      InStep J scope (s.evaluator.value n) (s.evaluator.value n) := fun _ hcells hnames => h.inStep_value hcells hnames n
  unfold evaluate at hrun
  obtain ⟨hpass, hscope⟩ := run_spec (R := fun _ => True) hrun (hvalue _ hidle.cells hidle.names) (fun _ _ => trivial)
    trivial hJ
  refine ⟨hpass, fun v hv => ?_⟩
  obtain ⟨-, hscope⟩ := hscope v hv
  exact ⟨hscope ▸ hidle.cells, hscope ▸ hidle.names⟩

end Interpreter

end Spreadsheet
