import Spreadsheet.Proofs.Evaluation.Invariant

/-! What becomes of a host while formulas are evaluated. Functions run and answers are asked for, whatever the formulas: no
generation is taken back, the time stands still, and nothing is known of handles that were not given out. -/

namespace Spreadsheet

open Std Dependency Formula

namespace Host

variable {h h' : Host} {handle : Nat}

/-- There is work only behind handles that were given out, and answers only to them. -/
def Bounded (h : Host) : Prop := ∀ handle, h.Known handle → handle < h.nextHandle

/-- What can become of a host. -/
structure Later (h h' : Host) : Prop where
  latest : h.generations.latest ≤ h'.generations.latest
  moment : h'.moment = h.moment
  nextHandle : h.nextHandle ≤ h'.nextHandle
  bounded : h.Bounded → h'.Bounded

lemma Later.refl (h : Host) : h.Later h := ⟨Nat.le_refl _, rfl, Nat.le_refl _, id⟩

lemma Later.trans {h'' : Host} (hl : h.Later h') (hl' : h'.Later h'') : h.Later h'' :=
  ⟨hl.latest.trans hl'.latest, hl'.moment.trans hl.moment, hl.nextHandle.trans hl'.nextHandle, hl'.bounded ∘ hl.bounded⟩

lemma later_issueGeneration (h : Host) : h.Later h.issueGeneration := ⟨Nat.le_succ _, rfl, Nat.le_refl _, id⟩

lemma later_defer (h : Host) (work : Task) : h.Later (h.defer work).2 := by
  refine ⟨Nat.le_refl _, rfl, Nat.le_succ _, fun hb handle hk => ?_⟩
  simp only [defer, Known, ExtTreeMap.mem_insert, Std.compare_eq_iff_eq] at hk ⊢
  rcases hk with (rfl | hwaiting) | hsettled
  · exact Nat.lt_succ_self _
  · exact Nat.lt_succ_of_lt (hb handle (.inl hwaiting))
  · exact Nat.lt_succ_of_lt (hb handle (.inr hsettled))

lemma later_perform (h : Host) (work : Task) : h.Later (h.perform work).2 := by
  induction work generalizing h with
  | supersede next ih => exact (later_issueGeneration h).trans (ih h.issueGeneration)
  | later work => exact later_defer h work
  | _ => exact Later.refl h

lemma later_call (h : Host) (f : FunctionDef) (args : List Value) (p : Place) (rows cols : Nat) :
    h.Later (h.call f args p rows cols).2 := by
  have hrun : h.Later (h.countRun f.name).draw.2 := ⟨Nat.le_refl _, rfl, Nat.le_refl _, id⟩
  exact hrun.trans (later_perform _ _)

lemma later_resolve (h : Host) (handle : Nat) : h.Later (h.resolve handle).2 := by
  unfold resolve
  split
  · exact Later.refl h
  · exact Later.refl h
  · rename_i work _ hwork
    have hperform := later_perform h work
    rcases hp : h.perform work with ⟨_ | v, t⟩ <;> rw [hp] at hperform
    · exact hperform
    · refine ⟨hperform.latest, hperform.moment, hperform.nextHandle, fun hb other hk => ?_⟩
      simp only [Known, ExtTreeMap.mem_insert, Std.compare_eq_iff_eq] at hk
      rcases hk with hwaiting | rfl | hsettled
      · exact hperform.bounded hb other (.inl hwaiting)
      · have hmem : handle ∈ h.waiting := ExtTreeMap.mem_iff_isSome_getElem?.2 (by rw [hwork]; rfl)
        exact (hb handle (.inl hmem)).trans_le hperform.nextHandle
      · exact hperform.bounded hb other (.inr hsettled)

lemma invariant_later (snapshot : Snapshot) (h : Host) : Session.Invariant snapshot fun s => h.Later s.host where
  call s f args p rows cols hs := hs.trans (later_call s.host f args p rows cols)
  resolve s handle hs := hs.trans (later_resolve s.host handle)
  store _ _ _ hs := hs
  definition _ _ _ _ _ hs := hs
  answers _ _ _ _ hs := hs

end Host

namespace Interpreter

variable {i j : Interpreter} {waits : Bool} {snapshot : Snapshot} {o : Option Value}

lemma later_evaluate {n : Node} (hrun : i.evaluate snapshot n waits = (o, j)) : i.session.host.Later j.session.host := by
  have hlater : i.session.host.Later (i.evaluate snapshot n waits).2.session.host :=
    invariant_evaluate (i.session.host.invariant_later snapshot) n (.refl i.session.host)
  rwa [hrun] at hlater

lemma later_evaluateCell {p : Place} (hrun : i.evaluateCell snapshot p waits = .ok (o, j)) :
    i.session.host.Later j.session.host :=
  invariant_evaluateCell (i.session.host.invariant_later snapshot) hrun (.refl i.session.host)

end Interpreter

end Spreadsheet
