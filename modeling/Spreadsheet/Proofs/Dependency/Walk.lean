import Mathlib.Data.Finset.Card
import Mathlib.Data.Finset.Range
import Mathlib.Logic.Relation
import Mathlib.Tactic.Lemma
import Spreadsheet.Dependency.Walk

/-! Depth-first walks reach all that can be reached, and finish a vertex after its successors unless these
lead back to it. -/

namespace Spreadsheet.Dependency

open Relation

variable (next : Nat → List Nat) (size : Nat)

/-- One item stands before another one in a list. -/
def Before {α : Type} (l : List α) (a b : α) : Prop := [a, b].Sublist l

lemma Before.filter {α : Type} {l : List α} {a b : α} (h : Before l a b) {keep : α → Bool} (ha : keep a = true)
    (hb : keep b = true) : Before (l.filter keep) a b := by
  simpa only [Before, List.filter_cons_of_pos ha, List.filter_cons_of_pos hb, List.filter_nil] using
    List.Sublist.filter keep h

def Leads (u v : Nat) : Prop := v ∈ next u ∧ v < size

/-- Along a list of finished vertices, last one first: what a vertex leads to was finished before it, or
leads back to it. -/
def Settled : List Nat → Prop
  | [] => True
  | u :: l => (∀ v, Leads next size u v → v ∈ l ∨ ReflTransGen (Leads next size) v u) ∧ Settled l

namespace Walk

def Open (w : Walk) (v : Nat) : Prop := v < size ∧ w.isReached v = true ∧ v ∉ w.finished

def unreached (w : Walk) : Finset Nat := (Finset.range size).filter fun v => w.isReached v = false

structure Proper (w : Walk) : Prop where
  size_eq : w.reached.size = size
  finished : ∀ v ∈ w.finished, v < size ∧ w.isReached v = true
  nodup : w.finished.Nodup
  closed : ∀ u ∈ w.finished, ∀ v, Leads next size u v → w.isReached v = true
  settled : Settled next size w.finished

/-- From one walk to a later one, where everything new was reached from the given vertices. -/
structure Onward (origins : List Nat) (w w' : Walk) : Prop where
  proper : w'.Proper next size
  mono : ∀ v, w.isReached v = true → w'.isReached v = true
  opens : ∀ v, w'.Open size v ↔ w.Open size v
  fresh : ∀ v < size, w'.isReached v = true →
    w.isReached v = true ∨ ∃ u ∈ origins, u < size ∧ ReflTransGen (Leads next size) u v
  origins : ∀ v ∈ origins, w'.isReached v = true

variable {next size}

lemma isReached_reach (w : Walk) (v u : Nat) :
    (w.reach v).isReached u = (u == v || w.isReached u) := by
  by_cases h : v = u
  · subst h
    by_cases hv : v < w.reached.size <;> simp [isReached, reach, hv]
  · have h' : (u == v) = false := by simpa using Ne.symm h
    simp [isReached, reach, h, h']

@[simp] lemma isReached_finish (w : Walk) (v u : Nat) : (w.finish v).isReached u = w.isReached u := rfl

lemma unreached_reach_lt {w : Walk} {v : Nat} (hv : v < size) (h : w.isReached v = false) :
    ((w.reach v).unreached size).card < (w.unreached size).card := by
  apply Finset.card_lt_card
  refine Finset.ssubset_iff_of_subset ?_ |>.2 ⟨v, by simp [unreached, hv, h], ?_⟩
  · intro u hu
    simp only [unreached, Finset.mem_filter, isReached_reach, Bool.or_eq_false_iff] at hu ⊢
    exact ⟨hu.1, hu.2.2⟩
  · simp [unreached, isReached_reach]

lemma unreached_card_le {w w' : Walk} (h : ∀ v, w.isReached v = true → w'.isReached v = true) :
    (w'.unreached size).card ≤ (w.unreached size).card := by
  apply Finset.card_le_card
  intro v hv
  simp only [unreached, Finset.mem_filter] at hv ⊢
  refine ⟨hv.1, ?_⟩
  by_contra hr
  simp [h v (by simpa using hr)] at hv

lemma Onward.refl {w : Walk} (hw : w.Proper next size) : Onward next size [] w w :=
  ⟨hw, fun _ h => h, fun _ => Iff.rfl, fun _ _ h => Or.inl h, by simp⟩

lemma Onward.trans {us vs : List Nat} {w₁ w₂ w₃ : Walk} (h₁ : Onward next size us w₁ w₂)
    (h₂ : Onward next size vs w₂ w₃) : Onward next size (us ++ vs) w₁ w₃ where
  proper := h₂.proper
  mono v hv := h₂.mono v (h₁.mono v hv)
  opens v := (h₂.opens v).trans (h₁.opens v)
  fresh v hv hr := by
    rcases h₂.fresh v hv hr with hr | ⟨u, hu, hp⟩
    · rcases h₁.fresh v hv hr with hr | ⟨u, hu, hp⟩
      · exact Or.inl hr
      · exact Or.inr ⟨u, List.mem_append_left _ hu, hp⟩
    · exact Or.inr ⟨u, List.mem_append_right _ hu, hp⟩
  origins v hv := by
    rcases List.mem_append.1 hv with hv | hv
    · exact h₂.mono v (h₁.origins v hv)
    · exact h₂.origins v hv

lemma proper_start : Proper next size ⟨Array.replicate size false, []⟩ :=
  ⟨by simp, by simp, by simp, by simp, trivial⟩

lemma not_open_start (v : Nat) : ¬ Open size ⟨Array.replicate size false, []⟩ v := by
  rintro ⟨hv, hr, _⟩
  simp [isReached, hv] at hr

lemma Onward.foldl {visit : Walk → Nat → Walk} {depth : Nat}
    (hvisit : ∀ w v, w.Proper next size → (w.unreached size).card < depth →
      (v < size → ∀ u, w.Open size u → ReflTransGen (Leads next size) u v) →
      Onward next size [v] w (visit w v))
    {w : Walk} (hw : w.Proper next size) (hd : (w.unreached size).card < depth) (vs : List Nat)
    (ho : ∀ v ∈ vs, v < size → ∀ u, w.Open size u → ReflTransGen (Leads next size) u v) :
    Onward next size vs w (vs.foldl visit w) := by
  induction vs generalizing w with
  | nil => exact Onward.refl hw
  | cons v vs ih =>
    have hv := hvisit w v hw hd (ho v (by simp))
    have hrest := ih hv.proper ((unreached_card_le hv.mono).trans_lt hd)
      fun x hx hs u hu => ho x (List.mem_cons_of_mem _ hx) hs u ((hv.opens u).1 hu)
    exact hv.trans hrest

lemma lt_size_of_not_reached {w : Walk} (hw : w.Proper next size) {v : Nat}
    (h : w.isReached v = false) : v < size := by
  by_contra hv
  have hs := hw.size_eq
  simp [isReached, Array.getElem?_eq_none (show w.reached.size ≤ v by omega)] at h

lemma Proper.reach {w : Walk} (hw : w.Proper next size) (v : Nat) : (w.reach v).Proper next size where
  size_eq := by simpa [Walk.reach] using hw.size_eq
  finished u hu := ⟨(hw.finished u hu).1, by simp [isReached_reach, (hw.finished u hu).2]⟩
  nodup := hw.nodup
  closed u hu x hx := by simp [isReached_reach, hw.closed u hu x hx]
  settled := hw.settled

lemma open_reach {w : Walk} (hw : w.Proper next size) {v : Nat} (h : w.isReached v = false) (u : Nat) :
    (w.reach v).Open size u ↔ u = v ∨ w.Open size u := by
  have hv := lt_size_of_not_reached hw h
  have hf : v ∉ w.finished := fun hm => by simp [(hw.finished v hm).2] at h
  constructor
  · rintro ⟨hs, hr, hu⟩
    rw [isReached_reach, Bool.or_eq_true, beq_iff_eq] at hr
    exact hr.imp id fun hr => ⟨hs, hr, hu⟩
  · rintro (rfl | ⟨hs, hr, hu⟩)
    · exact ⟨hv, by simp [isReached_reach], hf⟩
    · exact ⟨hs, by simp [isReached_reach, hr], hu⟩

lemma Onward.finish {w w' : Walk} {v : Nat} (hw : w.Proper next size) (hv : w.isReached v = false)
    (ho : ∀ u, w.Open size u → ReflTransGen (Leads next size) u v)
    (h : Onward next size (next v) (w.reach v) w') : Onward next size [v] w (w'.finish v) := by
  have hs := lt_size_of_not_reached hw hv
  -- `v` is open while its successors are walked through, and the only one that is not open any more afterwards
  have hopen : w'.Open size v := (h.opens v).2 ((open_reach hw hv v).2 (Or.inl rfl))
  have hproper : (w'.finish v).Proper next size := by
    refine ⟨h.proper.size_eq, ?_, List.nodup_cons.2 ⟨hopen.2.2, h.proper.nodup⟩, ?_, ?_, h.proper.settled⟩
    · intro u hu
      rcases List.mem_cons.1 hu with rfl | hu
      · exact ⟨hs, hopen.2.1⟩
      · exact h.proper.finished u hu
    · intro u hu x hx
      rcases List.mem_cons.1 hu with rfl | hu
      · exact h.origins x hx.1
      · exact h.proper.closed u hu x hx
    · intro x hx
      by_cases hm : x ∈ w'.finished
      · exact Or.inl hm
      · have hx' := (open_reach hw hv x).1 ((h.opens x).1 ⟨hx.2, h.origins x hx.1, hm⟩)
        rcases hx' with rfl | hx'
        · exact Or.inr .refl
        · exact Or.inr (ho x hx')
  constructor
  case proper => exact hproper
  case mono =>
    intro u hu
    exact h.mono u (by simp [isReached_reach, hu])
  case opens =>
    intro u
    have hiff : (w'.finish v).Open size u ↔ u ≠ v ∧ w'.Open size u := by
      simp only [Open, Walk.finish, List.mem_cons, not_or]
      tauto
    have hne : w.Open size u → u ≠ v := by
      rintro hu rfl
      simp [hu.2.1] at hv
    rw [hiff, h.opens, open_reach hw hv]
    tauto
  case fresh =>
    intro u hu hr
    rcases h.fresh u hu hr with hr | ⟨x, hx, hxs, hp⟩
    · rw [isReached_reach, Bool.or_eq_true, beq_iff_eq] at hr
      rcases hr with rfl | hr
      · exact Or.inr ⟨u, by simp, hs, .refl⟩
      · exact Or.inl hr
    · exact Or.inr ⟨v, by simp, hs, ReflTransGen.head ⟨hx, hxs⟩ hp⟩
  case origins => simpa using hopen.2.1

lemma onward_visit (depth : Nat) (w : Walk) (v : Nat) (hw : w.Proper next size)
    (hd : (w.unreached size).card < depth)
    (ho : v < size → ∀ u, w.Open size u → ReflTransGen (Leads next size) u v) :
    Onward next size [v] w (visit next depth w v) := by
  induction depth generalizing w v with
  | zero => omega
  | succ depth ih =>
    cases hv : w.isReached v with
    | true =>
      simp only [visit, hv, if_true]
      exact { Onward.refl hw with fresh := fun _ _ h => Or.inl h, origins := by simpa using hv }
    | false =>
      have hs := lt_size_of_not_reached hw hv
      simp only [visit, hv, Bool.false_eq_true, if_false]
      refine Onward.finish hw hv (ho hs) (Onward.foldl ih (hw.reach v) ?_ (next v) ?_)
      · exact Nat.lt_of_lt_of_le (unreached_reach_lt hs hv) (Nat.le_of_lt_succ hd)
      · intro x hx hxs u hu
        rcases (open_reach hw hv u).1 hu with rfl | hu
        · exact .single ⟨hx, hxs⟩
        · exact (ho hs u hu).tail ⟨hx, hxs⟩

variable (next size) in
lemma onward_start (vs : List Nat) : Onward next size vs ⟨Array.replicate size false, []⟩
    (vs.foldl (visit next (size + 1)) ⟨Array.replicate size false, []⟩) := by
  refine Onward.foldl (onward_visit (size + 1)) proper_start ?_ vs fun _ _ _ u hu => (not_open_start u hu).elim
  exact Nat.lt_succ_of_le ((Finset.card_filter_le _ _).trans_eq (Finset.card_range size))

lemma Onward.finished_of_reached {vs : List Nat} {w : Walk}
    (h : Onward next size vs ⟨Array.replicate size false, []⟩ w) {v : Nat} (hv : v < size)
    (hr : w.isReached v = true) : v ∈ w.finished := by
  by_contra hm
  exact not_open_start v ((h.opens v).1 ⟨hv, hr, hm⟩)

end Walk

variable {next size}

lemma mem_finishOrder {v : Nat} : v ∈ finishOrder next size ↔ v < size := by
  have h := Walk.onward_start next size (List.range size)
  rw [finishOrder, List.mem_reverse]
  exact ⟨fun hv => (h.proper.finished v hv).1,
    fun hv => h.finished_of_reached hv (h.origins v (List.mem_range.2 hv))⟩

lemma nodup_finishOrder : (finishOrder next size).Nodup := by
  rw [finishOrder, List.nodup_reverse]
  exact (Walk.onward_start next size (List.range size)).proper.nodup

lemma Settled.before {l : List Nat} (h : Settled next size l) (hn : l.Nodup) {u v : Nat} (hu : u ∈ l)
    (huv : Leads next size u v) : Before l.reverse v u ∨ ReflTransGen (Leads next size) v u := by
  induction l with
  | nil => simp at hu
  | cons x l ih =>
    rw [List.reverse_cons]
    rcases List.mem_cons.1 hu with rfl | hu
    · refine (h.1 v huv).imp (fun hv => ?_) id
      exact (List.singleton_sublist.2 (List.mem_reverse.2 hv)).append (List.Sublist.refl [u])
    · exact (ih h.2 (List.nodup_cons.1 hn).2 hu).imp (·.trans (List.sublist_append_left _ _)) id

/-- A vertex stands behind what it leads to, unless that leads back to it. -/
lemma finishOrder_before {u v : Nat} (hu : u < size) (huv : Leads next size u v) :
    Before (finishOrder next size) v u ∨ ReflTransGen (Leads next size) v u := by
  have h := Walk.onward_start next size (List.range size)
  exact h.proper.settled.before h.proper.nodup
    (List.mem_reverse.1 (mem_finishOrder.2 hu)) huv

lemma nodup_reachable (v : Nat) : (reachable next size v).Nodup :=
  (Walk.onward_start next size (next v)).proper.nodup

lemma mem_reachable {u v : Nat} : v ∈ reachable next size u ↔ TransGen (Leads next size) u v := by
  have h := Walk.onward_start next size (next u)
  constructor
  · intro hv
    obtain ⟨hs, hr⟩ := h.proper.finished v hv
    rcases h.fresh v hs hr with hr | ⟨x, hx, hxs, hp⟩
    · simp [Walk.isReached, hs] at hr
    · exact TransGen.head' ⟨hx, hxs⟩ hp
  · intro hp
    induction hp with
    | single he => exact h.finished_of_reached he.2 (h.origins _ he.1)
    | tail _ he ih => exact h.finished_of_reached he.2 (h.proper.closed _ ih _ he)

end Spreadsheet.Dependency
