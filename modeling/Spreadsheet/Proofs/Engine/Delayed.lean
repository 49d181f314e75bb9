import Spreadsheet.Proofs.Engine.Simple
import Spreadsheet.Proofs.Evaluation.Waiting

/-! A calculation that waits for answers reports what it would report if functions gave them directly. -/

namespace Spreadsheet

open Std Dependency Formula

namespace Calculation

variable {c : Calculation} {bound : Nat} {d : Changes} {host : Host}

/-- No two calls of a formula start at one place of the text, and there are so few that all can be waited for. -/
def Bounded (c : Calculation) (bound : Nat) : Prop := ∀ p e, c.index.cell? p = some e →
  e.node.callStarts.Nodup ∧ e.node.callStarts.length * bound < Eval.maxRounds

lemma follows_of_waits {r : Registry} {stops : Prop} (hw : c.waits = true) (hr : c.registry.AmountsTo r stops bound)
    (hb : c.Bounded bound) : c.Follows stops r fun s => s.answers = ∅ ∧ s.host.Proper where
  pass _ _ := id
  step i p e hcells hgeneration hcurrent hK he hplain hres hflat hquiet := by
    obtain ⟨hanswers, hproper⟩ := hK
    let scope : Scope := { i.scope with waits := true, origin := {} }
    have hreads : Evaluator.Reads c.snapshot (Evaluator.ofDepth c.snapshot c.snapshot.depth)
        (scope.enterCell (c.snapshot.books.cursor p)) i.session.pass (referencesOf p.book p.sheet e.node)
        (i.session.pass.reading c.config.books) :=
      Evaluator.reads_of_quiet hflat (bounded_of_mem_references hplain) hquiet
    have hcurrent : i.session.host.generations.isCurrent scope.generation = true := by
      rw [show scope.generation = c.generation from hgeneration]
      exact hcurrent
    obtain ⟨act, hcell, hbroken, hact⟩ := exists_attempt c i he
    obtain ⟨hstarts, hrounds⟩ := hb p e he
    have hformula : c.snapshot.formulas.cell? p = some e := he
    have hregistry : c.snapshot.registry.AmountsTo r stops bound := hr
    -- waiting ends with the value, or breaks off; the pass is then the one that direct answers would leave
    rcases Evaluator.exec_waitFor_calculate hregistry hformula hplain rfl (by simp [scope, hcells]) _
        hreads hstarts hrounds (fun s hs => hact scope s (by rw [hs, hres])) rfl hanswers hproper hcurrent with
      ⟨v, s, hx, hs⟩ | ⟨hstops, there, s, hx, hgeneration, hs⟩
    · have hpass : s.pass = (c.direct r).settle i.session.pass p := by
        rw [@settle_eq (c.direct r) p e he]
        exact hs.pass
      have hrun : i.run c.waits {} act = (some v, ⟨i.scope, { s with answers := ∅ }, none⟩) := by
        rw [hw]
        exact Interpreter.run_waiting hx
      obtain ⟨hevaluate, hends⟩ := hcell v { s with answers := ∅ } hrun
        (by rw [show ({ s with answers := ∅ } : Session).pass = _ from hpass]
            exact results_settle (c := c.direct r) he)
      exact Or.inl ⟨_, hevaluate, hends, hpass, hs.generations, rfl, hs.proper⟩
    · have hrun : i.run c.waits {} act = (none, ⟨there, s, some i.scope.cursor⟩) := by
        rw [hw]
        exact Interpreter.run_waiting_error hx
      obtain ⟨hevaluate, hbreaks⟩ := hbroken _ hrun
      refine Or.inr ⟨hstops, _, hevaluate.trans (recordResult_reset hgeneration p _), hbreaks, ?_, hs.generations, rfl,
        hs.proper⟩
      dsimp only
      rw [hs.pass]

end Calculation

namespace Dependency

variable {r r' : Registry} {books : Books} {names : NameTable}

lemma Entry.ofText_congr (h : ∀ name, r.isVolatile name = r'.isVolatile name) (book sheet text : String)
    (output : Region) : Entry.ofText ⟨r, books, names⟩ book sheet text output =
      Entry.ofText ⟨r', books, names⟩ book sheet text output := by
  have hvolatile : callsVolatile r = callsVolatile r' := funext fun n => by
    rw [callsVolatile, callsVolatile, show r.isVolatile = r'.isVolatile from funext h]
  simp only [Entry.ofText, hvolatile]

end Dependency

lemma Config.index_congr {r r' : Registry} (h : ∀ name, r.isVolatile name = r'.isVolatile name) (c : Config) :
    c.index r = c.index r' := by
  simp only [index, Index.build, Entry.ofText_congr h]

namespace Engine

variable {e : Engine} {bound : Nat}

/-- The engine as it would be if its functions gave their answers directly. -/
def resolved (e : Engine) : Engine := { e with registry := e.registry.resolved }

lemma resolved_reindex (e : Engine) : e.reindex.resolved = e.resolved.reindex := by
  simp only [reindex, resolved, Config.index_congr e.registry.isVolatile_resolved]

lemma resolved_load (e : Engine) (d : Dataset) : (e.load d).resolved = e.resolved.load d := resolved_reindex _

lemma resolved_commit (e : Engine) (r : Report) : (e.commit r).resolved = e.resolved.commit r := by
  rw [commit_eq, commit_eq]
  split
  · rfl
  · exact resolved_reindex _

lemma bounded_of_plain {r : Registry} (h : ({ e with registry := r } : Engine).Plain)
    (hb : ∀ p x, e.index.cell? p = some x → x.node.callStarts.length * bound < Eval.maxRounds) :
    ({ e.calculation with waits := true } : Calculation).Bounded bound := by
  refine fun p x hx => ⟨?_, hb p x hx⟩
  have hx : ({ e with registry := r } : Engine).index.cell? p = some x := hx
  rw [h.cell?, Option.map_eq_some_iff] at hx
  obtain ⟨f, -, rfl⟩ := hx
  rw [Entry.node_ofPlain]
  exact (Node.callStarts_parse _ _ _).nodup

theorem calculate_resolved (h : e.resolved.Plain) (hd : e.registry.Delays bound)
    (hb : ∀ p x, e.index.cell? p = some x → x.node.callStarts.length * bound < Eval.maxRounds) (hp : e.host.Proper) :
    (e.calculate true).1 = (e.resolved.calculate false).1 ∧ (e.calculate true).2.host.Proper ∧
      (e.calculate true).2.resolved =
        { (e.resolved.calculate false).2 with host := (e.calculate true).2.host } := by
  obtain ⟨host, hdirect⟩ := calculate_completed h
  let c : Calculation := { e.calculation with waits := true }
  have hbounded : c.Bounded bound := bounded_of_plain h hb
  have hgeneration : e.host.issueGeneration.generations.latest = c.generation := rfl
  obtain ⟨s, ⟨-, hproper⟩, hrun⟩ := (Calculation.follows_of_waits (c := c) rfl (hd.amountsTo False) hbounded).run_completed
    (plain_calculation h) hgeneration e.cursor ⟨rfl, hp⟩
  have hwaiting : e.calculate true = (.completed e.resolved.report, { e with host := s.host }.commit e.resolved.report) :=
    calculate_of_run hrun
  rw [hwaiting, hdirect]
  have hleft : { e with host := s.host }.commit e.resolved.report = { e.commit e.resolved.report with host := s.host } :=
    commit_host _
  have hright : { e.resolved with host }.commit e.resolved.report = { e.resolved.commit e.resolved.report with host } :=
    commit_host _
  rw [hleft, hright, ← resolved_commit]
  generalize e.commit e.resolved.report = after
  exact ⟨rfl, hproper, rfl⟩

/-- Whatever is loaded, a calculation that waits for answers reports what is reported where functions give them
directly. -/
theorem calculate_load_resolved {d : Dataset} (hd : d.Own) (ha : (Config.load d).Anchored) (hb : d.books.Proper)
    (hown : ∀ p f, d.books.formula? p = some f → f.hasText = true)
    (htext : ∀ p f, d.books.formula? p = some f → PlainText e.registry.resolved d.books.nameTable p f.text)
    (hdelays : e.registry.Delays bound)
    (hrounds : ∀ p x, (e.load d).index.cell? p = some x → x.node.callStarts.length * bound < Eval.maxRounds)
    (hp : e.host.Proper) : ((e.load d).calculate true).1 = ((e.resolved.load d).calculate false).1 := by
  have hplain : (e.resolved.load d).Plain := plain_load hd ha hb hown htext
  rw [← resolved_load] at hplain ⊢
  exact (calculate_resolved hplain hdelays hrounds hp).1

/-- Where no answer comes later, it makes no difference whether answers are waited for. -/
theorem calculate_waits (h : e.Reached) (hp : e.host.Proper) : (e.calculate true).1 = (e.calculate false).1 := by
  obtain ⟨hregistry, hplain⟩ := h.plain
  have hself : e.resolved = e := by rw [resolved, hregistry, Registry.resolved_builtin, ← hregistry]
  have hdelays : e.registry.Delays 0 := by
    intro name f hf args site
    rw [hregistry] at hf
    obtain ⟨v, hv⟩ := Registry.direct_builtin hf args site
    rw [hv]
    trivial
  have hrounds : ∀ p x, e.index.cell? p = some x → x.node.callStarts.length * 0 < Eval.maxRounds := by
    intro p x _
    rw [Nat.mul_zero]
    decide
  have hresolved := (calculate_resolved (hself.symm ▸ hplain) hdelays hrounds hp).1
  rwa [hself] at hresolved

end Engine

end Spreadsheet
