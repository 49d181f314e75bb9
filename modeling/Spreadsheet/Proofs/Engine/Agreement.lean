import Spreadsheet.Proofs.Engine.Repair
import Spreadsheet.Proofs.Engine.Simple

/-! Right after a calculation, formulas give the results recorded for their cells. -/

namespace Spreadsheet

open Std Dependency Formula

namespace Calculation

variable {c : Config} {o : Options}

lemma flat_seededPass : (seededPass c o).Flat where
  results p v hv := by simp [seededPass_spare.1] at hv
  spilled p v hv := by
    obtain ⟨-, w, -, rfl⟩ := spilled_seededPass.1 hv
    exact Value.isItem_ofScalar w

lemma quiet_seededPass (p : Place) : (seededPass c o).Quiet p := by
  have hdirty : ∀ a, a ∉ (seededPass c o).dirty := fun a ha => by simp [seededPass_spare.2.2.1] at ha
  exact ⟨hdirty p, Pass.dirtyAnchorOver?_eq_none fun a _ ha => absurd ha (hdirty a)⟩

variable {c : Calculation} {p q x : Place} {e : Entry} {g : Grid Value} {d : Changes} {m : ItemMap Value}

lemma value_commit (hc : c.Plain d) (he : c.index.cell? p = some e) (hu : c.Undisturbed c.firstPass c.lastPass p e)
    (hsheet : ∀ q f, c.index.cell? q = some f → (c.config.books.sheet? q.book q.sheet).isSome) :
    ((seededPass (c.config.commit (c.report c.lastPass c.again m)) o).reading
        (c.config.commit (c.report c.lastPass c.again m)).books).value c.registry p e.node =
      (c.lastPass.reading c.config.books).value c.registry p e.node := by
  refine hc.value_congr he (fun x hx => ?_) ?_
  · exact cell_reading_commit hc (hsheet x) fun hmem => hu.alone x hmem (Or.inr hx)
  · exact funext₂ (Books.isSome_sheet?_congr Report.outline_applyTo)

lemma spillArrays_lastPass : c.lastPass.spillArrays = c.options.spillArrays := by
  rw [lastPass, spillArrays_sweep, (sameArrays_reopened c).spillArrays, firstPass, spillArrays_sweep, spillArrays_start]

lemma report_array (hc : c.Plain d) (hs : c.options.spillArrays = true) (hlone : c.lastPass.Over p p → c.Lone p)
    (hp : c.lastPass.results[p]? = some (.array g)) (hg : 1 < g.size) :
    ∃ r, (c.report c.lastPass c.again m).arrayRanges[p]? = some r ∧
      (Pass.covered p r).map ((c.report c.lastPass c.again m).arrayValues[·]?) =
        g.items.map fun u => some u.toScalar := by
  obtain ⟨hchanged, r, hr⟩ := (laying_lastPass hc).array p g hp hg (spillArrays_lastPass.trans hs)
  obtain ⟨g', hlaid⟩ := (laying_lastPass hc).laid p r hchanged hr
  obtain rfl : g = g' := Value.array.inj (hlaid.result _ hp)
  have hself : (p.area r).contains p = true := Pass.contains_target hlaid.target
  obtain ⟨hrows, hcols⟩ := Pass.pos_of_regular hlaid.regular (Nat.lt_of_succ_lt hg)
  have hlength : (Pass.covered p r).length = g.items.length :=
    (Pass.length_covered hlaid.target hrows hcols).trans hlaid.regular.symm
  refine ⟨r, by rw [report_arrayRanges, if_pos hchanged, hr], ?_⟩
  calc (Pass.covered p r).map ((c.report c.lastPass c.again m).arrayValues[·]?)
    _ = ((Pass.covered p r).zip g.items).map fun y => (c.report c.lastPass c.again m).arrayValues[y.1]? := by
      conv_lhs => rw [← List.map_fst_zip hlength.le]
      rw [List.map_map]
      rfl
    _ = ((Pass.covered p r).zip g.items).map fun y => some y.2.toScalar := by
      refine List.map_congr_left fun y hy => ?_
      have hspilled := hlaid.items y.1 y.2 hy (Or.inr (hlone ⟨r, hr, hself⟩))
      have hcovered := Pass.mem_covered.1 (List.of_mem_zip hy).1
      exact report_arrayValues.2 ⟨⟨p, r, hchanged, hr, hcovered⟩, by rw [hspilled]; rfl⟩
    _ = g.items.map fun u => some u.toScalar := by
      conv_rhs => rw [← List.map_snd_zip hlength.ge]
      rw [List.map_map]
      rfl

end Calculation

lemma Interpreter.evaluate_quiet {i : Interpreter} {snapshot : Snapshot} {n : Node} {p : Place}
    (hn : n.Plain snapshot.registry) (hp : i.scope.cursor.place = p) (hflat : i.session.pass.Flat)
    (hquiet : ∀ t ∈ referencesOf p.book p.sheet n, ∀ q, t.contains q = true → i.session.pass.Quiet q) :
    (i.evaluate snapshot n false).1 =
      some ((i.session.pass.reading snapshot.books).value snapshot.registry p n) := by
  subst hp
  let entry := i.session.entries + 1
  let start : Interpreter := { i with session := { i.session with entries := entry } }
  let scope : Scope := { i.scope with waits := false, origin := { entry } }
  have hreads : Evaluator.Reads snapshot (Evaluator.ofDepth snapshot snapshot.depth) scope i.session.pass
      (referencesOf scope.cursor.place.book scope.cursor.place.sheet n) (i.session.pass.reading snapshot.books) :=
    Evaluator.reads_of_quiet hflat (bounded_of_mem_references hn) hquiet
  obtain ⟨s, hx, -⟩ := (Evaluator.exec_value_steady (Registry.amountsTo_self _ False) hreads hn rfl start.session
    rfl).resolve_right fun h => h.1
  have hrun : start.run false { entry } (snapshot.evaluator.value n) = _ := run_ok hx
  have hflat := Reading.value_flat (ρ := i.session.pass.reading snapshot.books) (p := i.scope.cursor.place) hn
  change (start.run false { entry } (snapshot.evaluator.value n)).1 = _
  rw [hrun, hflat.settled_eq]

namespace Engine

variable {e : Engine} {p q : Place} {x : Entry}

/-- A formula that is evaluated outside a calculation gives what it means with the values and arrays that are kept. -/
lemma evaluate_eq (h : e.Plain) (hx : e.index.cell? p = some x) : (e.evaluate x.text p false).1 =
    ((Calculation.seededPass e.config e.options).reading e.config.books).value e.registry p x.node := by
  have hplain := h.index p x hx
  have hnode : x.node = Node.parse { names := e.config.names, book := some p.book } x.text := by
    rw [h.cell?, Option.map_eq_some_iff] at hx
    obtain ⟨f, -, rfl⟩ := hx
    rw [Entry.node_ofPlain, Entry.text_ofPlain]
  let snapshot : Snapshot :=
    { registry := e.registry, books := e.config.books, names := e.config.names, index := some e.index }
  have hn : x.node.Plain snapshot.registry := hplain.node
  have hvalue := Interpreter.evaluate_quiet (p := p)
    (i := { scope := { cursor := e.config.books.cursor p, generation := e.host.generations.latest },
            session := { host := e.host, pass := Calculation.seededPass e.config e.options } })
    hn rfl Calculation.flat_seededPass fun _ _ q _ => Calculation.quiet_seededPass q
  rw [evaluate, ← hnode]
  exact congrArg (Option.getD · (.error .calculation)) hvalue

lemma isSome_sheet?_of_cell? (h : e.Plain) (hx : e.index.cell? p = some x) :
    (e.config.books.sheet? p.book p.sheet).isSome := by
  rw [h.cell?, Option.map_eq_some_iff] at hx
  obtain ⟨f, hf, -⟩ := hx
  exact Books.isSome_sheet?_of_formula? hf

lemma evaluate_commit (h : e.Plain) {host : Host} (hafter : ({ e with host }.commit e.report).Plain)
    (hx : e.index.cell? p = some x)
    (hu : e.calculation.Undisturbed e.calculation.firstPass e.calculation.lastPass p x) :
    (({ e with host }.commit e.report).evaluate x.text p false).1 =
      (e.calculation.lastPass.reading e.config.books).value e.registry p x.node := by
  have hc := plain_calculation h
  have hconfig : ({ e with host }.commit e.report).config = e.config.commit e.report := config_commit
  have hregistry : ({ e with host }.commit e.report).registry = e.registry := registry_commit
  generalize { e with host }.commit e.report = y at hafter hconfig hregistry ⊢
  have hsame : (e.config.commit e.report).books.SameInputs e.config.books :=
    Report.sameInputs_applyTo fun p hp => values_report h hp
  have hy : ∃ t, y.index.cell? p = some t ∧ t.text = x.text ∧ t.node = x.node := by
    rw [h.cell?, Option.map_eq_some_iff] at hx
    obtain ⟨f, hf, rfl⟩ := hx
    refine ⟨Entry.ofPlain y.registry y.config.names p f.text (y.config.output p), ?_, ?_, ?_⟩
    · rw [hafter.cell?, hconfig, hsame.formula?, hf, Option.map_some]
    · rw [Entry.text_ofPlain, Entry.text_ofPlain]
    · rw [Entry.node_ofPlain, Entry.node_ofPlain, hconfig, Config.names_commit]
  obtain ⟨t, ht, htext, hnode⟩ := hy
  rw [← htext, evaluate_eq hafter ht, hnode, hconfig, hregistry]
  have hvalue := Calculation.value_commit (c := e.calculation) (o := y.options) (m := ∅) hc hx hu fun q f hf =>
    isSome_sheet?_of_cell? h hf
  exact hvalue

/-- Right after a calculation the formula of a calculated cell gives the result recorded for it, item by item if it
has spilled, as long as nothing has disturbed the cell and its array found room. -/
theorem evaluate_calculated (h : e.Reached) (hs : e.options.spillArrays = true) :
    let c := e.calculation
    let first := (c.firstRound e.host.issueGeneration e.cursor).session.pass
    let last := (c.secondRound e.host.issueGeneration e.cursor).session.pass
    let after := (e.calculate false).2
    ∃ r, (e.calculate false).1 = .completed r ∧ ∀ p ∈ c.calculated (c.spillReaders first),
      ∃ x v, e.index.cell? p = some x ∧ r.values[p]? = some v ∧
        (c.Undisturbed first last p x → v ≠ .error .spill →
          (after.evaluate x.text p false).1.toScalar = v ∧
            ∀ g, (after.evaluate x.text p false).1 = .array g → 1 < g.size →
              ∃ range, r.arrayRanges[p]? = some range ∧
                (Pass.covered p range).map (r.arrayValues[·]?) = g.items.map fun u => some u.toScalar) := by
  intro c first last after
  have hplain := h.plain.2
  have hc : c.Plain e.pending := plain_calculation hplain
  have hfirst : first = c.firstPass := (Calculation.firstRound_spec hc rfl).1
  have hlast : last = c.lastPass := (Calculation.secondRound_spec hc rfl).1
  rw [hfirst, hlast]
  obtain ⟨host, hcalculate, hafter⟩ := calculate_plain hplain
  refine ⟨e.report, by rw [hcalculate], fun p hp => ?_⟩
  obtain ⟨x, hx⟩ := Calculation.exists_entry hc (Or.inr hp)
  obtain ⟨w, hw, hvalue⟩ := Calculation.result_lastPass hc hp hx
  refine ⟨x, w.toScalar, hx, Calculation.report_values.2 ⟨Or.inr hp, w, hw, rfl⟩, fun hu hspill => ?_⟩
  have hw' := (hvalue hu).resolve_right fun heq => hspill (by rw [heq]; rfl)
  have hcommit : after = { e with host }.commit e.report := by
    simp only [after, hcalculate]
  have hevaluate : (after.evaluate x.text p false).1 = w := by
    rw [hw', hcommit]
    exact evaluate_commit hplain hafter hx hu
  rw [hevaluate]
  refine ⟨rfl, ?_⟩
  rintro g rfl hg
  exact Calculation.report_array hc hs (fun hover => (hu.alone p (Or.inr hp) (Or.inl rfl) p hover).2.2) hw hg

/-- A sheet with an array and a cell that reads what the array spills. -/
def spillBooks : Books :=
  let sheet : Sheet := { id := "s", name := "S" }
  Books.ofList [{
    id := "b"
    name := "B"
    sheets := [(sheet.setFormula 0 0 { text := "=\x7b\"x\";\"y\"\x7d" }).setFormula 0 1 { text := "=A2" }] }]

def spillEngine : Engine := Engine.load { registry := .builtin } { books := spillBooks, force := true }

lemma proper_spillBooks : spillBooks.Proper := Books.proper_ofList (by decide +kernel)

lemma reached_spillEngine : spillEngine.Reached := by
  have hbare : ({ books := spillBooks, force := true } : Dataset).Bare := ⟨⟨rfl, rfl, rfl, rfl, rfl⟩, rfl⟩
  refine .load rfl hbare.toOwn (Config.anchored_load hbare) proper_spillBooks ?_
  exact Books.forall_formula? proper_spillBooks (P := fun p f => f.isSimple spillBooks.nameTable p = true)
    (by decide +kernel)

lemma arrayRanges_spillEngine : spillEngine.config.arrayRanges = ∅ :=
  Config.arrayRanges_load ⟨⟨rfl, rfl, rfl, rfl, rfl⟩, rfl⟩

/-- The cell that holds the array. -/
def spillAnchor : Place := ⟨"b", "s", 0, 0⟩

/-- The cell that reads what the array spills. -/
def spillReader : Place := ⟨"b", "s", 0, 1⟩

def spillEntry : Entry := Entry.ofPlain .builtin spillBooks.nameTable spillReader "=A2" spillReader.region

lemma cell?_spillReader : spillEngine.index.cell? spillReader = some spillEntry := by
  have hbooks : spillEngine.config.books = spillBooks := Config.books_load ⟨rfl, rfl, rfl, rfl, rfl⟩
  have hnames : spillEngine.config.names = spillBooks.nameTable := Config.names_load ⟨rfl, rfl, rfl, rfl, rfl⟩
  have hformula : (spillBooks.formula? spillReader).map (·.text) = some "=A2" := by decide +kernel
  obtain ⟨f, hf, htext⟩ := Option.map_eq_some_iff.1 hformula
  have houtput : spillEngine.config.output spillReader = spillReader.region := by
    rw [Config.output, arrayRanges_spillEngine, ExtTreeMap.getElem?_empty]
  rw [reached_spillEngine.plain.2.cell?, hbooks, hf, hnames, houtput, Option.map_some, htext]
  rfl

lemma eq_of_cell?_spillEngine (hx : spillEngine.index.cell? p = some x) :
    (p = spillAnchor ∨ p = spillReader) ∧ x.output = p.region := by
  have hbooks : spillEngine.config.books = spillBooks := Config.books_load ⟨rfl, rfl, rfl, rfl, rfl⟩
  rw [reached_spillEngine.plain.2.cell?, hbooks, Option.map_eq_some_iff] at hx
  obtain ⟨f, hf, rfl⟩ := hx
  refine ⟨Books.forall_formula? proper_spillBooks (P := fun p _ => p = spillAnchor ∨ p = spillReader)
    (by decide +kernel) p f hf, ?_⟩
  change spillEngine.config.output p = _
  rw [Config.output, arrayRanges_spillEngine, ExtTreeMap.getElem?_empty]

lemma references_spillEntry : spillEntry.references = [⟨"b", "s", Range.cell 1 0⟩] := by decide +kernel

lemma not_reads_spillReader : ¬ spillEngine.index.Reads spillReader q := by
  rintro ⟨x, f, hx, hf, t, ht, ho⟩
  obtain rfl := Option.some.inj (cell?_spillReader.symm.trans hx)
  rw [references_spillEntry, List.mem_singleton] at ht
  obtain ⟨hq, houtput⟩ := eq_of_cell?_spillEngine hf
  rw [ht, houtput] at ho
  rcases hq with rfl | rfl
  · exact absurd ho (by decide)
  · exact absurd ho (by decide)

lemma mem_cells_spillEngine : spillReader ∈ spillEngine.calculation.plan.cells := by
  refine Plan.mem_cells.2 ⟨closed_dirty.cell _ _ cell?_spillReader ?_ (Or.inl (Or.inl rfl)), fun hcycle => ?_⟩
  · rw [show spillEngine.pending.excluded = ∅ from reached_spillEngine.plain.2.excluded]
    simp
  · obtain ⟨q, hq, -⟩ := Relation.TransGen.head'_iff.1 hcycle
    exact not_reads_spillReader hq.1

lemma value_spillReader (ρ : Reading) (g : Grid Value) : ρ.value .builtin spillReader spillEntry.node ≠ .array g := by
  have hnode : ∃ s, spillEntry.node = .reference s none none (Range.cell 1 0) := ⟨_, rfl⟩
  obtain ⟨s, hs⟩ := hnode
  rw [hs, Reading.value, Reading.meaning, Reading.materialize, Reading.region]
  split
  · simp
  · rw [if_pos (by decide)]
    generalize ρ.cell _ = v
    cases v <;> simp [Value.ofScalar]

lemma undisturbed_spillReader : spillEngine.calculation.Undisturbed spillEngine.calculation.firstPass
    spillEngine.calculation.lastPass spillReader spillEntry := by
  have hc : spillEngine.calculation.Plain spillEngine.pending := plain_calculation reached_spillEngine.plain.2
  have hranges : ∀ a : Place, spillEngine.calculation.config.arrayRanges[a]? = none := fun a => by
    rw [show spillEngine.calculation.config.arrayRanges = ∅ from arrayRanges_spillEngine, ExtTreeMap.getElem?_empty]
  obtain ⟨hfirst, hlast⟩ := Calculation.not_moved_of_single (c := spillEngine.calculation) (p := spillReader)
    (fun x hx => Option.some.inj (cell?_spillReader.symm.trans hx) ▸ value_spillReader) (hranges _)
  have hanchor : ∀ a, spillEngine.calculation.Moved spillEngine.calculation.lastPass a → a = spillAnchor := by
    intro a ha
    obtain ⟨x, hx⟩ := Calculation.exists_entry hc (Or.inr (Calculation.calculated_of_moved ha))
    refine (eq_of_cell?_spillEngine hx).1.resolve_right ?_
    rintro rfl
    exact hlast ha
  refine .of_not_moved hfirst (fun q hq => ?_) fun x hmem hx a ha => ?_
  · by_contra hn
    obtain ⟨a, ha⟩ := Calculation.exists_moved_of_mem_spillReaders (Calculation.mem_again_of_moved hq hn)
    obtain ⟨x, hx⟩ := Calculation.exists_entry hc (Or.inr (Calculation.mem_calculated.2
      (Or.inl (Calculation.mem_cells_of_moved ha))))
    rcases (eq_of_cell?_spillEngine hx).1 with rfl | rfl
    · exact hn (hanchor q hq ▸ ha)
    · exact hfirst ha
  · obtain ⟨t, ht⟩ := Calculation.exists_entry hc hmem
    obtain ⟨r, hr, hax⟩ := ha
    have hmoved : spillEngine.calculation.Moved spillEngine.calculation.lastPass a := by
      rw [Calculation.Moved, hr, hranges]
      simp
    obtain ⟨g, hlaid, -⟩ := Calculation.exists_laid hc (Calculation.calculated_of_moved hmoved) hr
    obtain rfl := hanchor a hmoved
    rcases (eq_of_cell?_spillEngine ht).1 with rfl | rfl
    · refine absurd hx (not_or.2 ⟨by decide, ?_⟩)
      rintro ⟨t, ht, hin⟩
      rw [references_spillEntry, List.mem_singleton] at ht
      rw [ht] at hin
      exact absurd hin (by decide)
    · have hnone := (hlaid.clear _ hax (by decide)).1
      exact nomatch hnone.symm.trans ht

theorem evaluate_calculated_reader : ∃ r v, (spillEngine.calculate false).1 = .completed r ∧
    r.values[spillReader]? = some v ∧ (v ≠ .error .spill →
      ((spillEngine.calculate false).2.evaluate "=A2" spillReader false).1.toScalar = v) := by
  have hc : spillEngine.calculation.Plain spillEngine.pending := plain_calculation reached_spillEngine.plain.2
  obtain ⟨r, hr, hcells⟩ := evaluate_calculated reached_spillEngine rfl
  obtain ⟨x, v, hx, hv, hvalue⟩ := hcells _ (Calculation.mem_calculated.2 (Or.inl mem_cells_spillEngine))
  obtain rfl := Option.some.inj (cell?_spillReader.symm.trans hx)
  refine ⟨r, v, hr, hv, fun hspill => (hvalue ?_ hspill).1⟩
  rw [(Calculation.firstRound_spec hc rfl).1, (Calculation.secondRound_spec hc rfl).1]
  exact undisturbed_spillReader

end Engine

end Spreadsheet
