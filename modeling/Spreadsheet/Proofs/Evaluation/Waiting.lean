import Mathlib.Algebra.Order.BigOperators.Group.Finset
import Spreadsheet.Evaluation.Interpreter
import Spreadsheet.Proofs.Evaluation.Pass
import Spreadsheet.Proofs.Evaluation.Promise
import Spreadsheet.Proofs.Formula.Layout
import Spreadsheet.Proofs.Table

/-! Waiting for answers ends, and then the answers are those that were owed, unless the work behind one breaks off. -/

namespace Spreadsheet

open Std Formula

/-- Functions of a registry do nothing but put their answers off, so many times at most. -/
def Registry.Delays (r : Registry) (bound : Nat) : Prop :=
  ∀ name f, r.find? name = some f → ∀ args site, (f.run args site).Delays bound

lemma Registry.Delays.amountsTo {r : Registry} {bound : Nat} (h : r.Delays bound) (stops : Prop) :
    r.AmountsTo r.resolved stops bound := by
  intro name
  rw [find?_resolved]
  cases hf : r.find? name with
  | none => exact .none
  | some f => exact .some (FunctionDef.amountsTo_resolved (h name f hf) stops)

namespace Eval

variable {scope : Scope} {s : Session}

/-- A session of a calculation at rest: nothing is known of the host but that it knows no more than it should. -/
structure Rests (pass : Pass) (generations : Generations) (s : Session) : Prop where
  pass : s.pass = pass
  proper : s.host.Proper
  generations : s.host.generations = generations

/-- What is known of the calls of an evaluation: what each will give, and how many handles may still lie before it. -/
structure Recalls (stops : Prop) (pass : Pass) (generations : Generations) (meant : CallKey → Value)
    (keys : Finset CallKey) (bound : Nat) (budget : CallKey → Nat) (s : Session) : Prop extends
    Rests pass generations s where
  answer : ∀ k v, s.answers[k]? = some v → s.host.Owes stops (meant k) (budget k) v
  fresh : ∀ k, s.answers[k]? = none → bound ≤ budget k
  awaited : ∀ x ∈ s.awaited, x.1 ∈ keys ∧ s.host.Owes stops (meant x.1) (budget x.1) (.pending x.2)

variable {stops : Prop} {pass : Pass} {generations : Generations} {meant : CallKey → Value} {keys : Finset CallKey}
  {bound : Nat} {budget : CallKey → Nat}

lemma exec_mapM_resolve {f : CallKey × Nat → Eval (CallKey × Value)}
    (hf : ∀ x, f x = do return (x.1, ← ask (·.resolve x.2))) (hmeant : ∀ k ∈ keys, (meant k).isPending = false)
    {l : List (CallKey × Nat)} (hp : s.host.Proper)
    (hl : ∀ x ∈ l, x.1 ∈ keys ∧ s.host.Owes stops (meant x.1) (budget x.1) (.pending x.2)) :
    (∃ (answers : List (CallKey × Value)) (host : Host), exec (l.mapM f) scope s = (.ok answers, { s with host }) ∧
      answers.map (·.1) = l.map (·.1) ∧ (∀ y ∈ answers, host.Owes stops (meant y.1) (budget y.1 - 1) y.2) ∧
      s.host.Keeps host ∧ host.Proper ∧ host.generations = s.host.generations) ∨
    stops ∧ BreaksOff (Rests s.pass s.host.generations) scope (l.mapM f) s := by
  -- on the calls: those that come later are still owed their answers, since resolving one keeps what the others wait for
  induction l generalizing s with
  | nil => exact Or.inl ⟨[], s.host, rfl, rfl, fun _ h => (nomatch h), Host.Keeps.refl _, hp, rfl⟩
  | cons x l ih =>
    obtain ⟨⟨hkey, howed⟩, hrest⟩ := List.forall_mem_cons.1 hl
    obtain ⟨n, hn⟩ := Nat.exists_eq_succ_of_ne_zero (howed.pos (hmeant x.1 hkey)).ne'
    rw [hn] at howed
    rw [List.mapM_cons, hf, bind_assoc]
    rcases Host.resolve_owed hp (hmeant x.1 hkey) howed with
      ⟨u, h', hresolve, hu, hkeeps, hproper, hgenerations⟩ | ⟨hstops, hresolve⟩
    · have hask : exec (ask (·.resolve x.2)) scope s = (.ok u, { s with host := h' }) := by rw [exec_ask, hresolve]
      rcases ih (s := { s with host := h' }) hproper fun y hy => ⟨(hrest y hy).1, hkeeps _ _ _ _ (hrest y hy).2⟩ with
        ⟨answers, host, hx, hkeys, hanswers, hkeeps', hproper', hgenerations'⟩ | ⟨hstops, hbreaks⟩
      · refine Or.inl ⟨(x.1, u) :: answers, host, ?_, by rw [List.map_cons, List.map_cons, hkeys], ?_,
          hkeeps.trans hkeeps', hproper', hgenerations'.trans hgenerations⟩
        · rw [exec_bind, hask]
          dsimp only
          rw [pure_bind, exec_bind, hx]
          rfl
        · refine List.forall_mem_cons.2 ⟨hkeeps' _ _ _ _ ?_, hanswers⟩
          rwa [hn]
      · refine Or.inr ⟨hstops, .of_exec hask ?_⟩
        rw [pure_bind, ← hgenerations]
        exact hbreaks.bind _
    · refine Or.inr ⟨hstops, .bind ⟨scope, s, ?_, rfl, rfl, hp, rfl⟩ _⟩
      rw [exec_ask, hresolve]

lemma exec_forIn_remember {f : CallKey × Value → PUnit → Eval (ForInStep PUnit)}
    (hf : ∀ x u, f x u = do remember x.1 x.2; return .yield u) (l : List (CallKey × Value)) :
    exec (forIn l PUnit.unit f) scope s =
      (.ok PUnit.unit, { s with answers := l.foldl (fun m x => m.insert x.1 x.2) s.answers }) := by
  induction l generalizing s with
  | nil => rfl
  | cons x l ih =>
    rw [List.forIn_cons, hf, bind_assoc, exec_bind]
    exact ih (s := { s with answers := s.answers.insert x.1 x.2 })

/-- One handle less lies before each of some calls. -/
def spend (l : List CallKey) (budget : CallKey → Nat) (k : CallKey) : Nat := if k ∈ l then budget k - 1 else budget k

lemma Recalls.sum_spend_lt (h : Recalls stops pass generations meant keys bound budget s)
    (hmeant : ∀ k ∈ keys, (meant k).isPending = false) (hne : s.awaited ≠ []) :
    ∑ k ∈ keys, spend (s.awaited.map (·.1)) budget k < ∑ k ∈ keys, budget k := by
  obtain ⟨x, hx⟩ := List.exists_mem_of_ne_nil _ hne
  obtain ⟨hkey, howed⟩ := h.awaited x hx
  refine Finset.sum_lt_sum (fun k _ => ?_) ⟨x.1, hkey, ?_⟩
  · rw [spend]
    split <;> omega
  · rw [spend, if_pos (List.mem_map_of_mem hx)]
    exact Nat.sub_lt (howed.pos (hmeant x.1 hkey)) Nat.one_pos

/-- A round of answers brings every call that was waited for one step nearer. -/
lemma exec_answerAwaited (h : Recalls stops pass generations meant keys bound budget s)
    (hmeant : ∀ k ∈ keys, (meant k).isPending = false) :
    (∃ answers host, exec answerAwaited scope s = (.ok answers, { s with host, awaited := [] }) ∧
      Recalls stops pass generations meant keys bound (spend (s.awaited.map (·.1)) budget)
        { s with host, awaited := [], answers := answers.foldl (fun m x => m.insert x.1 x.2) s.answers }) ∨
    stops ∧ BreaksOff (Rests pass generations) scope answerAwaited s := by
  rcases @exec_mapM_resolve scope { s with awaited := [] } stops meant keys budget
      (fun x => do return (x.1, ← ask (·.resolve x.2))) (fun _ => rfl) hmeant s.awaited.reverse h.proper
      (fun x hx => h.awaited x (List.mem_reverse.1 hx)) with
    ⟨answers, host, hx, hkeys, hanswers, hkeeps, hproper, hgenerations⟩ | ⟨hstops, there, t, hx, hgeneration, hrests⟩
  · have hspend : ∀ k, (∃ y ∈ answers, y.1 = k) ↔ k ∈ s.awaited.map (·.1) := fun k => by
      rw [← List.mem_map, hkeys, List.map_reverse, List.mem_reverse]
    refine Or.inl ⟨answers, host, ?_, ⟨h.pass, hproper, hgenerations.trans h.generations⟩, ?_, ?_, fun _ h => nomatch h⟩
    · rw [answerAwaited, exec_get_bind, exec_bind]
      exact hx
    -- a key that was asked for has its new answer, any other the answer that it had
    · intro k v hv
      rw [Table.getElem?_foldl_insert_last, Option.or_eq_some_iff, Option.map_eq_none_iff] at hv
      rcases hv with hv | ⟨hnone, hv⟩
      · obtain ⟨y, hy, rfl⟩ := Option.map_eq_some_iff.1 hv
        have hmem := List.mem_reverse.1 (List.mem_of_find?_eq_some hy)
        obtain rfl : y.1 = k := by simpa using List.find?_some hy
        rw [spend, if_pos ((hspend y.1).1 ⟨y, hmem, rfl⟩)]
        exact hanswers y hmem
      · rw [spend, if_neg fun hk => ?_]
        · exact hkeeps _ _ _ _ (h.answer k v hv)
        · obtain ⟨y, hy, rfl⟩ := (hspend k).2 hk
          exact List.find?_eq_none.1 hnone y (List.mem_reverse.2 hy) (beq_self_eq_true _)
    · intro k hk
      rw [Table.getElem?_foldl_insert_last, Option.or_eq_none_iff, Option.map_eq_none_iff] at hk
      rw [spend, if_neg fun hmem => ?_]
      · exact h.fresh k hk.2
      · obtain ⟨y, hy, rfl⟩ := (hspend k).2 hmem
        exact List.find?_eq_none.1 hk.1 y (List.mem_reverse.2 hy) (beq_self_eq_true _)
  · refine Or.inr ⟨hstops, there, t, ?_, hgeneration, hrests.pass.trans h.pass, hrests.proper,
      hrests.generations.trans h.generations⟩
    rw [answerAwaited, exec_get_bind, exec_bind]
    exact hx

lemma exec_waitFor_again {act : Eval Value} {v : Value} {t u : Session} {answers : List (CallKey × Value)}
    (hx : exec act scope { s with awaited := [] } = (.ok v, t)) (ha : t.awaited ≠ [])
    (hanswer : exec answerAwaited scope t = (.ok answers, u)) (hcurrent : u.host.generations.isCurrent scope.generation = true)
    (rounds : Nat) : exec (waitFor act (rounds + 1)) scope s =
      exec (waitFor act rounds) scope { u with answers := answers.foldl (fun m x => m.insert x.1 x.2) u.answers } := by
  rw [waitFor, exec_modify_bind, exec_bind, hx]
  dsimp only
  rw [exec_get_bind, if_neg (by simpa using ha), exec_bind, hanswer]
  dsimp only
  rw [exec_bind, exec_forIn_remember (by rintro ⟨k, v⟩ _; rfl)]
  dsimp only
  rw [exec_get_bind, exec_read_bind, if_pos hcurrent]

lemma exec_waitFor {act : Eval Value} {done : Session → Prop}
    (hmeant : ∀ k ∈ keys, (meant k).isPending = false) (hcurrent : generations.isCurrent scope.generation = true)
    (hact : ∀ budget s, Recalls stops pass generations meant keys bound budget s → s.awaited = [] →
      (∃ v s', exec act scope s = (.ok v, s') ∧ (done s' ∧ s'.awaited = [] ∨
        Recalls stops pass generations meant keys bound budget s' ∧ s'.awaited ≠ [])) ∨
      stops ∧ BreaksOff (Rests pass generations) scope act s)
    {rounds : Nat} (h : Recalls stops pass generations meant keys bound budget { s with awaited := [] })
    (hrounds : ∑ k ∈ keys, budget k < rounds) :
    (∃ v s', exec (waitFor act rounds) scope s = (.ok v, s') ∧ done s') ∨
      stops ∧ BreaksOff (Rests pass generations) scope (waitFor act rounds) s := by
  induction rounds generalizing budget s with
  | zero => exact absurd hrounds (Nat.not_lt_zero _)
  | succ rounds ih =>
    rcases hact budget { s with awaited := [] } h rfl with ⟨v, t, hx, ⟨hdone, ha⟩ | ⟨hrecalls, ha⟩⟩ |
      ⟨hstops, there, u, hx, hrest⟩
    · refine Or.inl ⟨v.settled, t, ?_, hdone⟩
      rw [waitFor, exec_modify_bind, exec_bind, hx]
      dsimp only
      rw [exec_get_bind, ha]
      rfl
    · rcases @exec_answerAwaited scope _ _ _ _ _ _ _ _ hrecalls hmeant with
        ⟨answers, host, hanswer, hnext⟩ | ⟨hstops, there, u, hanswer, hrest⟩
      · have hlt := hrecalls.sum_spend_lt hmeant ha
        have hagain := exec_waitFor_again hx ha hanswer (by rwa [show host.generations = _ from hnext.generations]) rounds
        simp only [BreaksOff, hagain]
        exact ih hnext (by omega)
      · refine Or.inr ⟨hstops, there, u, ?_, hrest⟩
        rw [waitFor, exec_modify_bind, exec_bind, hx]
        dsimp only
        rw [exec_get_bind, if_neg (by simpa using ha), exec_bind, hanswer]
    · refine Or.inr ⟨hstops, there, u, ?_, hrest⟩
      rw [waitFor, exec_modify_bind, exec_bind, hx]

namespace Recalls

variable {k : CallKey} {v : Value} {handle : Nat} {host : Host}

lemma await (h : Recalls stops pass generations meant keys bound budget s) (hk : k ∈ keys)
    (ho : s.host.Owes stops (meant k) (budget k) (.pending handle)) :
    Recalls stops pass generations meant keys bound budget { s with awaited := (k, handle) :: s.awaited } :=
  ⟨⟨h.pass, h.proper, h.generations⟩, h.answer, h.fresh, List.forall_mem_cons.2 ⟨⟨hk, ho⟩, h.awaited⟩⟩

lemma remember (h : Recalls stops pass generations meant keys bound budget s)
    (ho : s.host.Owes stops (meant k) (budget k) v) :
    Recalls stops pass generations meant keys bound budget { s with answers := s.answers.insert k v } := by
  refine ⟨⟨h.pass, h.proper, h.generations⟩, fun j w hw => ?_, fun j hj => ?_, h.awaited⟩
  · simp only [ExtTreeMap.getElem?_insert, Std.compare_eq_iff_eq] at hw
    split at hw
    · rename_i heq
      subst heq
      exact Option.some.inj hw ▸ ho
    · exact h.answer j w hw
  · simp only [ExtTreeMap.getElem?_insert, Std.compare_eq_iff_eq] at hj
    split at hj
    · cases hj
    · exact h.fresh j hj

lemma proceed (h : Recalls stops pass generations meant keys bound budget s) (hk : s.host.Keeps host) (hp : host.Proper)
    (hg : host.generations = s.host.generations) :
    Recalls stops pass generations meant keys bound budget { s with host } :=
  ⟨⟨h.pass, hp, hg.trans h.generations⟩, fun j w hw => hk _ _ _ _ (h.answer j w hw), h.fresh, fun x hx =>
    ⟨(h.awaited x hx).1, hk _ _ _ _ (h.awaited x hx).2⟩⟩

end Recalls

end Eval

namespace Evaluator

open Dependency Eval Formula.Node

variable {scope : Scope} {stops : Prop} {pass : Pass} {generations : Generations} {meant : CallKey → Value}
  {keys : Finset CallKey} {bound : Nat} {budget : CallKey → Nat} {snapshot : Snapshot} {below : Evaluator} {root : Node}
  {ρ : Reading} {r : Registry}

lemma attempts_run_delayed {f g : FunctionDef} {key : CallKey} {args : List Value} (hw : scope.waits = true)
    (hf : f.AmountsTo g stops bound) (hg : g.Steady) (hk : key ∈ keys) (hp : (meant key).isPending = false)
    (hmeant : meant key = g.answer args scope.cursor.place) (hbound : bound ≤ budget key) :
    Attempts stops (Recalls stops pass generations meant keys bound budget) scope (run key f args)
      (· = g.answer args scope.cursor.place) (·.isPending = true) := by
  intro s hs
  rcases Host.call_owed hs.proper hf hg args scope.cursor.place scope.cursor.rowCount scope.cursor.colCount with
    ⟨v, host, hcall, howes, hkeeps, hproper, hgenerations⟩ | ⟨hstops, host, hcall, hkeeps, hproper, hgenerations⟩
  · have howes := howes.mono hbound
    rw [← hmeant] at howes ⊢
    have hnext := hs.proceed hkeeps hproper hgenerations
    refine Or.inl ?_
    rw [run, exec_read_bind, exec_bind, exec_ask, hcall]
    dsimp only
    rw [if_pos hw]
    rcases howes.eq_or_pending with rfl | ⟨handle, rfl⟩
    · refine ⟨meant key, _, ?_, hnext.remember howes, Or.inl ⟨rfl, rfl⟩⟩
      cases hv : meant key with
      | pending handle => simp [hv, Value.isPending] at hp
      | _ => rfl
    · exact ⟨_, _, rfl, (hnext.await hk howes).remember howes, Or.inr ⟨hw, rfl, List.cons_ne_nil _ _⟩⟩
  · refine Or.inr ⟨hstops, scope, { s with host }, ?_, rfl, hs.proceed hkeeps hproper hgenerations⟩
    rw [run, exec_read_bind, exec_bind, exec_ask, hcall]

/-- Every call of a formula has a key, and what is meant by the key is what the call means. -/
def Keyed (r : Registry) (scope : Scope) (root : Node) (ρ : Reading) (meant : CallKey → Value)
    (keys : Finset CallKey) : Prop :=
  ∀ n ∈ root.nodes, n.nodes ⊆ root.nodes → n.isCall = true → scope.callKey n.span.start ∈ keys ∧
    meant (scope.callKey n.span.start) = ρ.meaning r scope.cursor.place n

/-- Formulas whose functions put their answers off, where these are waited for. -/
lemma meets_of_waits (hr : snapshot.registry.AmountsTo r stops bound) (hroot : root.Plain r) (hw : scope.waits = true)
    (h : Reads snapshot below scope pass (referencesOf scope.cursor.place.book scope.cursor.place.sheet root) ρ)
    (hmeant : Keyed r scope root ρ meant keys) :
    Meets stops snapshot below scope pass (Recalls stops pass generations meant keys bound budget) r root ρ where
  plain := hroot
  reads := h
  pass _ hs := hs.pass
  call span name args hn hargs := by
    have hmem : .call span name args ∈ root.nodes := by
      rw [nodes, List.cons_subset] at hn
      exact hn.1
    obtain ⟨hk, hv⟩ : scope.callKey span.start ∈ keys ∧ meant (scope.callKey span.start) = _ := hmeant _ hmem hn rfl
    have hp : (meant (scope.callKey span.start)).isPending = false := by
      rw [hv]
      exact (Reading.meaning_within hroot _ hn).isPending_eq
    refine attempts_call hr hroot hn hargs ?_ ?_
    · intro s hs _ v hanswer
      have howes := hs.answer _ v hanswer
      rcases howes.eq_or_pending with rfl | ⟨handle, rfl⟩
      · exact Or.inl ⟨hv, hp⟩
      · exact Or.inr ⟨handle, rfl, hs.await hk howes⟩
    · intro s hs hmiss f g hfg hg values _ hmeaning
      exact attempts_run_delayed hw hfg hg hk hp (hv.trans hmeaning) (hs.fresh _ (hmiss hw))

lemma exists_meant {r : Registry} (hroot : root.Plain r) (hstarts : root.callStarts.Nodup) (scope : Scope)
    (ρ : Reading) : ∃ (keys : Finset CallKey) (meant : CallKey → Value), keys.card ≤ root.callStarts.length ∧
      (∀ k ∈ keys, (meant k).isPending = false) ∧ Keyed r scope root ρ meant keys := by
  have hmeant : ∀ k, ∃ v : Value, v.isPending = false ∧ ∀ n ∈ root.nodes, n.nodes ⊆ root.nodes → n.isCall = true →
      scope.callKey n.span.start = k → v = ρ.meaning r scope.cursor.place n := by
    intro k
    by_cases hex : ∃ n ∈ root.nodes, n.nodes ⊆ root.nodes ∧ n.isCall = true ∧ scope.callKey n.span.start = k
    · obtain ⟨n, hn, hsub, hcall, rfl⟩ := hex
      refine ⟨ρ.meaning r scope.cursor.place n, (Reading.meaning_within hroot n hsub).isPending_eq, ?_⟩
      intro m hm _ hmcall hkey
      have hstart : n.span.start = m.span.start := congrArg CallKey.start hkey.symm
      rw [List.inj_on_of_nodup_map hstarts (List.mem_filter.2 ⟨hn, hcall⟩) (List.mem_filter.2 ⟨hm, hmcall⟩) hstart]
    · exact ⟨.blank, rfl, fun n hn hsub hcall hkey => (hex ⟨n, hn, hsub, hcall, hkey⟩).elim⟩
  choose meant hpending hmeant using hmeant
  refine ⟨(root.callStarts.map scope.callKey).toFinset, meant, ?_, fun k _ => hpending k, fun n hn hsub hcall => ?_⟩
  · exact (List.toFinset_card_le _).trans (List.length_map _).le
  · refine ⟨?_, hmeant _ n hn hsub hcall rfl⟩
    rw [List.mem_toFinset]
    exact List.mem_map_of_mem (List.mem_map_of_mem (List.mem_filter.2 ⟨hn, hcall⟩))

section Cells

variable {p : Place} {e : Entry} {s : Session}

lemma exec_calculate_delayed (hr : snapshot.registry.AmountsTo r stops bound) (he : snapshot.formulas.cell? p = some e)
    (hplain : e.node.Plain r) (hw : scope.waits = true) (hp : p ∉ scope.cells) (depth : Nat)
    (h : Reads snapshot (ofDepth snapshot depth) (scope.enterCell (snapshot.books.cursor p)) pass
      (referencesOf p.book p.sheet e.node) ρ)
    (hmeant : Keyed r (scope.enterCell (snapshot.books.cursor p)) e.node ρ meant keys)
    (hs : Recalls stops pass generations meant keys bound budget s) (ha : s.awaited = []) :
    (∃ v s', exec (calculate snapshot (ofDepth snapshot (depth + 1)) p) scope s = (.ok v, s') ∧
      (Rests (pass.store snapshot.books snapshot.formulas p (ρ.value r p e.node)) generations s' ∧ s'.awaited = [] ∨
        Recalls stops pass generations meant keys bound budget s' ∧ s'.awaited ≠ [])) ∨
    stops ∧ BreaksOff (Rests pass generations) scope (calculate snapshot (ofDepth snapshot (depth + 1)) p) s := by
  have hw : (scope.enterCell (snapshot.books.cursor p)).waits = true := hw
  rcases attempts_value (meets_of_waits hr hplain hw h hmeant) s hs with ⟨v, t, hx, ht, hend⟩ | ⟨hstops, hbreaks⟩
  · left
    rcases hend with ⟨rfl, hsame⟩ | ⟨-, hv, hne⟩
    · refine ⟨_, _, exec_calculate_of_isFlat he hp (Reading.value_flat hplain) hx, Or.inl ⟨?_, hsame.trans ha⟩⟩
      exact ⟨congrArg (Pass.store · _ _ _ _) ht.pass, ht.proper, ht.generations⟩
    · exact ⟨v, t, exec_calculate_of_isPending he hp hv hx, Or.inr ⟨ht, hne⟩⟩
  · exact Or.inr ⟨hstops, (breaksOff_calculate he hp hbreaks).mono fun _ ht => ht.toRests⟩

lemma exec_waitFor_calculate {act : Eval Value} {rounds : Nat} (hr : snapshot.registry.AmountsTo r stops bound)
    (he : snapshot.formulas.cell? p = some e) (hplain : e.node.Plain r) (hw : scope.waits = true) (hp : p ∉ scope.cells)
    (depth : Nat) (h : Reads snapshot (ofDepth snapshot depth) (scope.enterCell (snapshot.books.cursor p)) pass
      (referencesOf p.book p.sheet e.node) ρ)
    (hstarts : e.node.callStarts.Nodup) (hrounds : e.node.callStarts.length * bound < rounds)
    (hact : ∀ s, s.pass = pass →
      exec act scope s = exec (calculate snapshot (ofDepth snapshot (depth + 1)) p) scope s)
    (hs : s.pass = pass) (hanswers : s.answers = ∅) (hproper : s.host.Proper)
    (hcurrent : s.host.generations.isCurrent scope.generation = true) :
    (∃ v s', exec (waitFor act rounds) scope s = (.ok v, s') ∧
      Rests (pass.store snapshot.books snapshot.formulas p (ρ.value r p e.node)) s.host.generations s') ∨
    stops ∧ BreaksOff (Rests pass s.host.generations) scope (waitFor act rounds) s := by
  obtain ⟨keys, meant, hcard, hpending, hmeant⟩ :=
    exists_meant hplain hstarts (scope.enterCell (snapshot.books.cursor p)) ρ
  have hstart : Recalls stops pass s.host.generations meant keys bound (fun _ => bound) { s with awaited := [] } := by
    refine ⟨⟨hs, hproper, rfl⟩, fun k v hv => ?_, fun _ _ => Nat.le_refl _, fun _ h => nomatch h⟩
    simp [hanswers] at hv
  have hbudget : ∑ k ∈ keys, bound < rounds := by
    rw [Finset.sum_const_nat fun _ _ => rfl]
    exact (Nat.mul_le_mul_right bound hcard).trans_lt hrounds
  refine exec_waitFor hpending hcurrent (fun budget t ht ha => ?_) hstart hbudget
  simp only [BreaksOff, hact t ht.pass]
  exact exec_calculate_delayed hr he hplain hw hp depth h hmeant ht ha

end Cells

end Evaluator

end Spreadsheet
