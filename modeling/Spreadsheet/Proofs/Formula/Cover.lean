import Spreadsheet.Proofs.Formula.Scan

/-! The tokens, the malformed stretches and the brackets of a formula tile its text. Siblings follow one another, what a
group holds lies between its brackets, only blanks and the leading equals sign are left out, and no character belongs to
two of them. -/

namespace Spreadsheet.Formula

open Text

def GroupKind.opener : GroupKind → Char
  | paren => '('
  | brace => '\x7b'
  | bracket => '['

lemma GroupKind.utf8Size_opener (k : GroupKind) : k.opener.utf8Size = 1 := by cases k <;> rfl

lemma GroupKind.utf8Size_closer (k : GroupKind) : k.closer.utf8Size = 1 := by cases k <;> rfl

/-! What the kind of a piece says of its characters. -/

def PieceKind.isLeaf : PieceKind → Bool
  | .token _ | .malformed _ => true
  | .blank | .opening _ | .closing => false

namespace Piece

variable {o : Separators} {ctx : Context} {c : Char} {x cs rest : List Char} {k : PieceKind}

/-- Blanks are blank, and brackets are those of the groups that they open and close. -/
def Suits (ctx : Context) (x : List Char) : PieceKind → Prop
  | .token _ | .malformed _ => True
  | .blank => ∀ c ∈ x, isBlank c = true
  | .opening k => x = [k.opener] ∧ ctx.opened.length < maxGroupDepth
  | .closing => ∃ k opened, ctx.opened = k :: opened ∧ x = [k.closer]

lemma suits_of_isLeaf (h : k.isLeaf = true) : Suits ctx x k := by
  cases k with
  | token | malformed => trivial
  | _ => cases h

lemma suits_opening (k : GroupKind) : Suits ctx [k.opener] (opening ctx k) := by
  unfold opening
  split
  · trivial
  · exact ⟨rfl, by omega⟩

lemma suits_closing : Suits ctx [c] (closing ctx c) := by
  unfold closing
  split
  · rename_i k opened hopened
    split
    · rename_i hc
      exact ⟨k, opened, hopened, by rw [hc]⟩
    · trivial
  · trivial

lemma suits_blanks (hc : isBlank c = true) : Suits ctx (c :: rest.take (blanks ctx rest).2) (blanks ctx rest).1 := by
  rw [blanks_snd]
  unfold blanks
  dsimp only
  generalize (ctx.afterOperand && _) = intersects
  cases intersects with
  | true => trivial
  | false =>
    refine List.forall_mem_cons.2 ⟨hc, fun d hd => ?_⟩
    rw [← List.prefix_iff_eq_take.1 (List.takeWhile_prefix _)] at hd
    exact List.mem_takeWhile_imp hd

lemma suits_cut (o : Separators) (ctx : Context) (c : Char) (rest : List Char) :
    Suits ctx (c :: rest.take (cut o ctx c rest).2) (cut o ctx c rest).1 := by
  have hcut := cut_spec o ctx c rest
  generalize cut o ctx c rest = y at hcut ⊢
  let Leaf : PieceKind → Prop := (·.isLeaf = true)
  have hmalformed : ∀ m, Leaf (.malformed m) := fun _ => rfl
  cases hcut with
  | blanks hc => exact suits_blanks hc
  | paren => exact suits_opening .paren
  | brace => exact suits_opening .brace
  | closing => exact suits_closing
  | bracket hdepth =>
    unfold referenceOr
    split
    · trivial
    · exact ⟨rfl, hdepth⟩
  | text => exact suits_of_isLeaf (kind_text hmalformed fun _ => rfl)
  | errorText => exact suits_of_isLeaf (kind_errorText hmalformed fun _ => rfl)
  | quote | mark => exact suits_of_isLeaf (kind_referenceOr (P := Leaf) (fun _ => rfl) (hmalformed _))
  | digit => exact suits_of_isLeaf (kind_referenceOr (fun _ => rfl) (kind_number hmalformed fun _ => rfl))
  | point => exact suits_of_isLeaf (kind_number hmalformed fun _ => rfl)
  | word =>
    exact suits_of_isLeaf (kind_identifier (P := Leaf) (fun _ => rfl) (fun _ => rfl) (fun _ => rfl) fun _ => rfl)
  | sign => exact suits_of_isLeaf (kind_operatorSign hmalformed fun _ => rfl)
  | column | row | argument | tooDeep => trivial

lemma Cuts.suits {p : Piece} {ps : List Piece} (h : Cuts o ctx (p :: ps)) :
    p.chars ≠ [] ∧ Suits ctx p.chars p.kind ∧ Cuts o (advance ctx p.kind) ps := by
  obtain ⟨c, x, hchars, hcut, hrest⟩ := h
  have hsuits := suits_cut o ctx c (x ++ ps.flatMap Piece.chars)
  rw [hcut, List.take_left, ← hchars] at hsuits
  exact ⟨by simp [hchars], hsuits, hrest⟩

end Piece

namespace TokenTree

mutual

/-- The node and all nodes below it. -/
def subtrees : TokenTree → List TokenTree
  | token t s => [token t s]
  | malformed m s => [malformed m s]
  | group kind children s closed => group kind children s closed :: subtreesIn children

def subtreesIn : List TokenTree → List TokenTree
  | [] => []
  | n :: ns => n.subtrees ++ subtreesIn ns

end

mutual

/-- The stretches of text that are tokens, malformed or brackets, in the order of the text. -/
def portions : TokenTree → List Span
  | token _ s | malformed _ s => [s]
  | group _ children s closed =>
    ⟨s.start, s.start + 1⟩ :: (portionsIn children ++ if closed then [⟨s.stop - 1, s.stop⟩] else [])

def portionsIn : List TokenTree → List Span
  | [] => []
  | n :: ns => n.portions ++ portionsIn ns

end

mutual

/-- How many groups are open at the deepest place. -/
def nesting : TokenTree → Nat
  | token _ _ | malformed _ _ => 0
  | group _ children _ _ => nestingIn children + 1

def nestingIn : List TokenTree → Nat
  | [] => 0
  | n :: ns => max n.nesting (nestingIn ns)

end

/-- A token or a malformed stretch over some characters. Only the mark for a missing equals sign is without any. -/
def IsLeaf (n : TokenTree) (s : Span) (x : List Char) : Prop :=
  (∃ t, n = token t s ∧ x ≠ []) ∨ ∃ m, n = malformed m s ∧ (m = .noEquals ∨ x ≠ [])

/-- The nodes cover a text that starts at a position, with blanks between them. Groups nest no deeper than there is room,
and those that are not closed end where all text ends. -/
inductive Covers (stop : Nat) : (room pos : Nat) → List Char → List TokenTree → Prop
  | nil {room pos : Nat} : Covers stop room pos [] []
  | blank {room pos : Nat} {c : Char} {cs : List Char} {nodes : List TokenTree} (hc : isBlank c = true)
      (h : Covers stop room (pos + c.utf8Size) cs nodes) : Covers stop room pos (c :: cs) nodes
  | leaf {room pos : Nat} {n : TokenTree} {x cs : List Char} {nodes : List TokenTree}
      (hn : n.IsLeaf ⟨pos, pos + byteLength x⟩ x) (h : Covers stop room (pos + byteLength x) cs nodes) :
      Covers stop room pos (x ++ cs) (n :: nodes)
  | closed {room pos : Nat} {k : GroupKind} {inner cs : List Char} {children nodes : List TokenTree}
      (hi : Covers stop room (pos + 1) inner children) (h : Covers stop (room + 1) (pos + 1 + byteLength inner + 1) cs nodes) :
      Covers stop (room + 1) pos (k.opener :: (inner ++ k.closer :: cs))
        (.group k children ⟨pos, pos + 1 + byteLength inner + 1⟩ true :: nodes)
  | unclosed {room pos : Nat} {k : GroupKind} {inner cs : List Char} {children nodes : List TokenTree}
      (hi : Covers stop room (pos + 1) inner children) (hstop : pos + 1 + byteLength inner = stop)
      (h : Covers stop (room + 1) stop cs nodes) :
      Covers stop (room + 1) pos (k.opener :: (inner ++ cs)) (.group k children ⟨pos, stop⟩ false :: nodes)

namespace Covers

variable {stop room pos : Nat} {cs ds : List Char} {nodes more : List TokenTree} {n : TokenTree}

lemma append (h : Covers stop room pos cs nodes) (h' : Covers stop room (pos + byteLength cs) ds more) :
    Covers stop room pos (cs ++ ds) (nodes ++ more) := by
  induction h with
  | nil => exact h'
  | blank hc _ ih =>
    refine .blank hc (ih ?_)
    rwa [byteLength, ← Nat.add_assoc] at h'
  | @leaf room pos n x cs nodes hn _ ih =>
    rw [byteLength_append, ← Nat.add_assoc] at h'
    rw [List.append_assoc]
    exact .leaf hn (ih h')
  | @closed room pos k inner cs children nodes hi _ _ ih =>
    rw [byteLength, byteLength_append, byteLength, k.utf8Size_opener, k.utf8Size_closer] at h'
    rw [List.cons_append, List.append_assoc, List.cons_append]
    exact .closed hi (ih (by convert h' using 1; omega))
  | @unclosed room pos k inner cs children nodes hi hstop _ _ ih =>
    rw [byteLength, byteLength_append, k.utf8Size_opener] at h'
    rw [List.cons_append, List.append_assoc]
    exact .unclosed hi hstop (ih (by convert h' using 1; omega))

lemma blanks (h : ∀ c ∈ cs, isBlank c = true) : Covers stop room pos cs [] := by
  induction cs generalizing pos with
  | nil => exact .nil
  | cons c cs ih =>
    obtain ⟨hc, hcs⟩ := List.forall_mem_cons.1 h
    exact .blank hc (ih hcs)

end Covers

/-! Nesting the pieces of a text. -/

/-- What has been read so far is covered, by the nodes of each open group between its bracket and the next one. -/
def Half (stop start : Nat) : (room : Nat) → List OpenGroup → (level : List TokenTree) → List Char → Prop
  | room, [], level, cs => Covers stop room start cs level.reverse
  | room, g :: opened, level, cs => ∃ before inner, cs = before ++ g.kind.opener :: inner ∧
      g.start = start + byteLength before ∧ Half stop start (room + 1) opened g.before before ∧
      Covers stop room (g.start + 1) inner level.reverse

namespace Half

variable {o : Separators} {ctx : Context} {stop start room : Nat} {opened : List OpenGroup} {level nodes : List TokenTree}
  {cs ds : List Char} {g : OpenGroup} {ps : List Piece}

lemma append (h : Half stop start room opened level cs)
    (hd : Covers stop room (start + byteLength cs) ds nodes) :
    Half stop start room opened (nodes.reverse ++ level) (cs ++ ds) := by
  have hlevel : (nodes.reverse ++ level).reverse = level.reverse ++ nodes := by simp
  cases opened with
  | nil =>
    rw [Half, hlevel]
    exact Covers.append h hd
  | cons g opened =>
    obtain ⟨before, inner, rfl, hstart, hopened, hinner⟩ := h
    refine ⟨before, inner ++ ds, by simp, hstart, hopened, ?_⟩
    rw [hlevel]
    refine hinner.append ?_
    rw [byteLength_append, byteLength, g.kind.utf8Size_opener] at hd
    convert hd using 1
    omega

lemma push {pos : Nat} {n : TokenTree} {x : List Char} (h : Half stop start room opened level cs)
    (hpos : pos = start + byteLength cs) (hn : n.IsLeaf ⟨pos, pos + byteLength x⟩ x) :
    Half stop start room opened (n :: level) (cs ++ x) := by
  have hone : Covers stop room pos (x ++ []) [n] := .leaf hn .nil
  rw [hpos, List.append_nil] at hone
  exact h.append hone

lemma enter (h : Half stop start (room + 1) opened level cs) (k : GroupKind) :
    Half stop start room (⟨k, start + byteLength cs, level⟩ :: opened) [] (cs ++ [k.opener]) :=
  ⟨cs, [], rfl, rfl, h, .nil⟩

lemma leave (h : Half stop start room (g :: opened) level cs) :
    Half stop start (room + 1) opened
      (.group g.kind level.reverse ⟨g.start, start + byteLength cs + 1⟩ true :: g.before) (cs ++ [g.kind.closer]) := by
  obtain ⟨before, inner, rfl, hstart, hopened, hinner⟩ := h
  rw [hstart] at hinner
  have hgroup := hopened.append (.closed (k := g.kind) hinner .nil)
  have hstop : start + byteLength (before ++ g.kind.opener :: inner) + 1 =
      start + byteLength before + 1 + byteLength inner + 1 := by
    rw [byteLength_append, byteLength, g.kind.utf8Size_opener]
    omega
  rw [hstop, hstart]
  simpa using hgroup

lemma closeAll (h : Half stop start room opened level cs) (hstop : start + byteLength cs = stop) :
    Covers stop (room + opened.length) start cs (closeAll stop opened level) := by
  induction opened generalizing room level cs with
  | nil => exact h
  | cons g opened ih =>
    obtain ⟨before, inner, rfl, hstart, hopened, hinner⟩ := h
    rw [byteLength_append, byteLength, g.kind.utf8Size_opener] at hstop
    rw [hstart] at hinner
    have hgroup := hopened.append (.unclosed (k := g.kind) hinner (by omega) .nil)
    rw [List.append_nil] at hgroup
    rw [TokenTree.closeAll, hstart, List.length_cons, Nat.add_comm opened.length, ← Nat.add_assoc]
    exact ih hgroup (by rw [byteLength_append, byteLength, g.kind.utf8Size_opener]; omega)

/-- The innermost group is closed by its own bracket, and one more is opened where there is room for it. -/
lemma nest {pos : Nat} (h : Half stop start room opened level cs) (hpos : pos = start + byteLength cs)
    (hps : Piece.Cuts o ctx ps) (hopened : ctx.opened = opened.map (·.kind)) (hroom : room + opened.length = maxGroupDepth)
    (hstop : pos + byteLength (ps.flatMap Piece.chars) = stop) :
    Covers stop maxGroupDepth start (cs ++ ps.flatMap Piece.chars) (nest opened level pos ps) := by
  have hadvance : ∀ {pos : Nat} {cs : List Char} (x : List Char), pos = start + byteLength cs →
      pos + byteLength x = start + byteLength (cs ++ x) := by
    intro pos cs x hpos
    rw [byteLength_append, hpos, Nat.add_assoc]
  fun_induction TokenTree.nest opened level pos ps generalizing ctx room cs
  case case1 opened level pos =>
    rw [List.flatMap_nil, byteLength, Nat.add_zero] at hstop
    subst hstop
    rw [← hroom, List.flatMap_nil, List.append_nil]
    exact h.closeAll hpos.symm
  case case2 opened level pos p ps next hkind ih =>
    rw [List.flatMap_cons, byteLength_append, ← Nat.add_assoc] at hstop
    rw [List.flatMap_cons, ← List.append_assoc]
    obtain ⟨-, hsuits, hrest⟩ := hps.suits
    rw [hkind] at hsuits hrest
    exact ih (h.append (.blanks hsuits)) (hadvance p.chars hpos) hrest hopened hroom hstop
  case case3 opened level pos p ps next t hkind ih =>
    rw [List.flatMap_cons, byteLength_append, ← Nat.add_assoc] at hstop
    rw [List.flatMap_cons, ← List.append_assoc]
    obtain ⟨hne, -, hrest⟩ := hps.suits
    rw [hkind] at hrest
    have hleaf : IsLeaf (.token t ⟨pos, next⟩) ⟨pos, next⟩ p.chars := .inl ⟨t, rfl, hne⟩
    exact ih (h.push hpos hleaf) (hadvance p.chars hpos) hrest hopened hroom hstop
  case case4 opened level pos p ps next m hkind ih =>
    rw [List.flatMap_cons, byteLength_append, ← Nat.add_assoc] at hstop
    rw [List.flatMap_cons, ← List.append_assoc]
    obtain ⟨hne, -, hrest⟩ := hps.suits
    rw [hkind] at hrest
    have hleaf : IsLeaf (.malformed m ⟨pos, next⟩) ⟨pos, next⟩ p.chars := .inr ⟨m, rfl, .inr hne⟩
    exact ih (h.push hpos hleaf) (hadvance p.chars hpos) hrest hopened hroom hstop
  -- an opening bracket: what stands before it waits in the stack, and one level of room is used up
  case case5 opened level pos p ps next k hkind ih =>
    rw [List.flatMap_cons, byteLength_append, ← Nat.add_assoc] at hstop
    rw [List.flatMap_cons, ← List.append_assoc]
    obtain ⟨-, hsuits, hrest⟩ := hps.suits
    rw [hkind] at hsuits hrest
    obtain ⟨hchars, hdepth⟩ := hsuits
    rw [hopened, List.length_map] at hdepth
    obtain ⟨room, rfl⟩ : ∃ r, room = r + 1 := ⟨room - 1, by omega⟩
    have henter := h.enter k
    rw [← hpos, ← hchars] at henter
    refine ih henter (hadvance p.chars hpos) hrest ?_ ?_ hstop
    · rw [Piece.advance, hopened, List.map_cons]
    · rw [List.length_cons]
      omega
  -- a closing bracket: the innermost group goes to the end of the level that it was opened on
  case case6 level pos p ps next g opened hkind ih =>
    rw [List.flatMap_cons, byteLength_append, ← Nat.add_assoc] at hstop
    rw [List.flatMap_cons, ← List.append_assoc]
    obtain ⟨-, hsuits, hrest⟩ := hps.suits
    rw [hkind] at hsuits hrest
    obtain ⟨k, outer, houter, hchars⟩ := hsuits
    rw [hopened, List.map_cons] at houter
    obtain ⟨rfl, rfl⟩ := List.cons.inj houter
    have hnext : start + byteLength cs + 1 = pos + byteLength p.chars := by
      rw [hpos, hchars, byteLength, g.kind.utf8Size_closer, byteLength]
    have hleave := h.leave
    rw [hnext, ← hchars] at hleave
    refine ih hleave (hadvance p.chars hpos) hrest ?_ ?_ hstop
    · rw [Piece.advance, hopened, List.map_cons, List.tail_cons]
    · rw [List.length_cons] at hroom
      omega
  -- pieces are cut so that no bracket closes what is not open
  case case7 level pos p ps next hkind ih =>
    obtain ⟨-, hsuits, -⟩ := hps.suits
    rw [hkind] at hsuits
    obtain ⟨k, outer, houter, -⟩ := hsuits
    rw [hopened] at houter
    cases houter

end Half

/-! What the text that nodes cover looks like. -/

/-- The position lies between two characters of the text, or at one of its ends. -/
def Boundary (cs : List Char) (p : Nat) : Prop := ∃ before after, cs = before ++ after ∧ byteLength before = p

/-- The character stands at the position. -/
def StandsAt (cs : List Char) (p : Nat) (c : Char) : Prop := ∃ before after, cs = before ++ c :: after ∧ byteLength before = p

/-- Nodes that follow one another without overlapping. -/
def Successive (nodes : List TokenTree) : Prop := nodes.Pairwise fun m n => m.span.stop ≤ n.span.start

/-- The brackets of a group stand around what it holds. A group that is not closed reaches up to the end of the text. -/
def Encloses (cs : List Char) : TokenTree → Prop
  | group k children s closed =>
    StandsAt cs s.start k.opener ∧
      (if closed then s.start + 1 < s.stop ∧ StandsAt cs (s.stop - 1) k.closer else s.stop = byteLength cs) ∧
      Successive children ∧
      ∀ n ∈ children, s.start + 1 ≤ n.span.start ∧ n.span.stop ≤ if closed then s.stop - 1 else s.stop
  | _ => True

/-- How a node lies in the text. Only the mark for a missing equals sign takes up no room. -/
structure Placed (cs : List Char) (n : TokenTree) : Prop where
  start : Boundary cs n.span.start
  stop : Boundary cs n.span.stop
  extent : n.span.start < n.span.stop ∨ n.span.start = n.span.stop ∧ ∃ s, n = .malformed .noEquals s
  encloses : n.Encloses cs

/-- Stretches of text with blanks between them are all of a text that starts at a position. -/
inductive Fills : Nat → List Char → List Span → Prop
  | nil {pos : Nat} : Fills pos [] []
  | blank {pos : Nat} {c : Char} {cs : List Char} {spans : List Span} (hc : isBlank c = true)
      (h : Fills (pos + c.utf8Size) cs spans) : Fills pos (c :: cs) spans
  | span {pos : Nat} {x cs : List Char} {spans : List Span} (h : Fills (pos + byteLength x) cs spans) :
      Fills pos (x ++ cs) (⟨pos, pos + byteLength x⟩ :: spans)

/-- The position lies in the stretch. -/
def holds (p : Nat) (s : Span) : Bool := s.start ≤ p ∧ p < s.stop

lemma byteLength_pos {x : List Char} (h : x ≠ []) : 0 < byteLength x := by
  cases x with
  | nil => exact absurd rfl h
  | cons c x => exact Nat.add_pos_left (Char.utf8Size_pos c) _

namespace Fills

variable {pos p : Nat} {cs ds before after : List Char} {spans more : List Span} {c : Char}

lemma append (h : Fills pos cs spans) (h' : Fills (pos + byteLength cs) ds more) : Fills pos (cs ++ ds) (spans ++ more) := by
  induction h with
  | nil => exact h'
  | blank hc _ ih =>
    rw [byteLength, ← Nat.add_assoc] at h'
    exact .blank hc (ih h')
  | span _ ih =>
    rw [byteLength_append, ← Nat.add_assoc] at h'
    rw [List.append_assoc]
    exact .span (ih h')

lemma character (c : Char) (hc : c.utf8Size = 1) (h : Fills (pos + 1) cs spans) :
    Fills pos (c :: cs) (⟨pos, pos + 1⟩ :: spans) := by
  have hlength : byteLength [c] = 1 := by rw [byteLength, hc, byteLength]
  have hspan := Fills.span (x := [c]) (hlength ▸ h)
  rwa [hlength] at hspan

lemma countP_of_lt (h : Fills pos cs spans) (hp : p < pos) : spans.countP (holds p) = 0 := by
  induction h with
  | nil => rfl
  | blank _ _ ih => exact ih (by omega)
  | span _ ih =>
    rw [List.countP_cons_of_neg (by simp [holds]; omega)]
    exact ih (by omega)

lemma countP_span (h : Fills (pos + byteLength ds) cs spans) (hp : p < pos + byteLength ds) (hpos : pos ≤ p) :
    (⟨pos, pos + byteLength ds⟩ :: spans).countP (holds p) = 1 := by
  rw [List.countP_cons_of_pos (by simp [holds, hp, hpos]), h.countP_of_lt hp]

lemma countP_eq_one (h : Fills pos (before ++ c :: after) spans) (hc : isBlank c = false) :
    spans.countP (holds (pos + byteLength before)) = 1 := by
  generalize hcs : before ++ c :: after = cs at h
  induction h generalizing before with
  | nil => simp at hcs
  | @blank pos b cs spans hb _ ih =>
    cases before with
    | nil =>
      obtain ⟨rfl, -⟩ := List.cons.inj hcs
      rw [hb] at hc
      cases hc
    | cons d before =>
      obtain ⟨rfl, htail⟩ := List.cons.inj hcs
      rw [byteLength, ← Nat.add_assoc]
      exact ih htail
  | @span pos x cs spans h ih =>
    rcases List.append_eq_append_iff.1 hcs with ⟨inside, rfl, hinside⟩ | ⟨behind, rfl, hbehind⟩
    · cases inside with
      | nil =>
        rw [List.append_nil] at h ih ⊢
        rw [List.countP_cons_of_neg (by simp [holds])]
        exact ih (show [] ++ c :: after = cs from hinside)
      | cons d inside =>
        refine countP_span h ?_ (Nat.le_add_right ..)
        rw [byteLength_append]
        have := byteLength_pos (List.cons_ne_nil d inside)
        omega
    · rw [byteLength_append, ← Nat.add_assoc, List.countP_cons_of_neg (by simp [holds])]
      exact ih hbehind.symm

end Fills

namespace Covers

variable {stop room pos : Nat} {cs : List Char} {nodes : List TokenTree}

lemma fills (h : Covers stop room pos cs nodes) : Fills pos cs (portionsIn nodes) := by
  induction h with
  | nil => exact .nil
  | blank hc _ ih => exact .blank hc ih
  | leaf hn _ ih =>
    rcases hn with ⟨t, rfl, -⟩ | ⟨m, rfl, -⟩ <;> exact .span ih
  | @closed room pos k inner cs children nodes _ _ ihi ih =>
    rw [portionsIn, portions, List.cons_append, List.append_assoc]
    refine .character _ k.utf8Size_opener (ihi.append ?_)
    exact .character _ k.utf8Size_closer ih
  | @unclosed room pos k inner cs children nodes _ hstop _ ihi ih =>
    rw [portionsIn, portions, List.cons_append, List.append_assoc]
    rw [← hstop] at ih
    exact .character _ k.utf8Size_opener (ihi.append ih)

lemma nesting_le (h : Covers stop room pos cs nodes) : nestingIn nodes ≤ room := by
  induction h with
  | nil => exact Nat.zero_le _
  | blank _ _ ih => exact ih
  | leaf hn _ ih =>
    rcases hn with ⟨t, rfl, -⟩ | ⟨m, rfl, -⟩ <;> exact Nat.max_le.2 ⟨Nat.zero_le _, ih⟩
  | closed _ _ ihi ih => exact Nat.max_le.2 ⟨Nat.succ_le_succ ihi, ih⟩
  | unclosed _ _ _ ihi ih => exact Nat.max_le.2 ⟨Nat.succ_le_succ ihi, ih⟩

lemma within (h : Covers stop room pos cs nodes) :
    ∀ n ∈ nodes, pos ≤ n.span.start ∧ n.span.stop ≤ pos + byteLength cs := by
  induction h with
  | nil => exact fun _ hn => nomatch hn
  | blank _ _ ih =>
    intro n hn
    rw [byteLength]
    have := ih n hn
    omega
  | @leaf room pos n x cs nodes hn _ ih =>
    have hspan : n.span = ⟨pos, pos + byteLength x⟩ := by rcases hn with ⟨t, rfl, -⟩ | ⟨m, rfl, -⟩ <;> rfl
    rw [byteLength_append]
    refine List.forall_mem_cons.2 ⟨?_, fun m hm => ?_⟩
    · rw [hspan]
      dsimp only
      omega
    · have := ih m hm
      omega
  | @closed room pos k inner cs children nodes _ _ _ ih =>
    rw [byteLength, byteLength_append, byteLength, k.utf8Size_opener, k.utf8Size_closer]
    refine List.forall_mem_cons.2 ⟨?_, fun m hm => ?_⟩
    · dsimp only [span]
      omega
    · have := ih m hm
      omega
  | @unclosed room pos k inner cs children nodes _ hstop _ _ ih =>
    rw [byteLength, byteLength_append, k.utf8Size_opener]
    refine List.forall_mem_cons.2 ⟨?_, fun m hm => ?_⟩
    · dsimp only [span]
      omega
    · have := ih m hm
      omega

lemma successive (h : Covers stop room pos cs nodes) : Successive nodes := by
  induction h with
  | nil => exact .nil
  | blank _ _ ih => exact ih
  | leaf hn h ih =>
    refine List.pairwise_cons.2 ⟨fun m hm => ?_, ih⟩
    rcases hn with ⟨t, rfl, -⟩ | ⟨_, rfl, -⟩ <;> exact (h.within m hm).1
  | closed _ h _ ih => exact List.pairwise_cons.2 ⟨fun m hm => (h.within m hm).1, ih⟩
  | unclosed _ _ h _ ih => exact List.pairwise_cons.2 ⟨fun m hm => (h.within m hm).1, ih⟩

lemma boundary {before after whole : List Char} (hwhole : whole = before ++ (cs ++ after)) (hpos : byteLength before = pos) :
    Boundary whole pos ∧ Boundary whole (pos + byteLength cs) :=
  ⟨⟨before, cs ++ after, hwhole, hpos⟩, before ++ cs, after, by simp [hwhole], by rw [byteLength_append, hpos]⟩

lemma placed {before after whole : List Char} (h : Covers stop room pos cs nodes) (hwhole : whole = before ++ (cs ++ after))
    (hpos : byteLength before = pos) (hstop : byteLength whole = stop) : ∀ n ∈ subtreesIn nodes, Placed whole n := by
  -- on the nodes, with what stands before and after them in the whole text: nodes inside of a group have the bracket on
  -- either side, and those behind it have the whole group before them
  induction h generalizing before after with
  | nil => exact fun _ hn => nomatch hn
  | @blank room pos c cs nodes _ _ ih =>
    have hnext : whole = (before ++ [c]) ++ (cs ++ after) := by simp [hwhole]
    exact ih hnext (by simp [byteLength, hpos])
  | @leaf room pos n x cs nodes hn _ ih =>
    rw [List.append_assoc] at hwhole
    obtain ⟨hstart, hend⟩ := boundary hwhole hpos
    have hnext : whole = (before ++ x) ++ (cs ++ after) := by simp [hwhole]
    have hrest := ih hnext (by rw [byteLength_append, hpos])
    have hextent : x ≠ [] → pos < pos + byteLength x := fun hx => Nat.lt_add_of_pos_right (byteLength_pos hx)
    rcases hn with ⟨t, rfl, hx⟩ | ⟨m, rfl, hx⟩
    · exact List.forall_mem_cons.2 ⟨⟨hstart, hend, .inl (hextent hx), trivial⟩, hrest⟩
    · refine List.forall_mem_cons.2 ⟨⟨hstart, hend, ?_, trivial⟩, hrest⟩
      rcases eq_or_ne x [] with rfl | hne
      · exact .inr ⟨rfl, _, by rw [hx.resolve_right fun h => h rfl]⟩
      · exact .inl (hextent hne)
  | @closed room pos k inner cs children nodes hi _ ihi ih =>
    have hlength : byteLength (k.opener :: (inner ++ [k.closer])) = 1 + byteLength inner + 1 := by
      simp [byteLength, k.utf8Size_opener, k.utf8Size_closer, Nat.add_assoc]
    have hgroup : whole = before ++ ((k.opener :: (inner ++ [k.closer])) ++ (cs ++ after)) := by simp [hwhole]
    obtain ⟨hstart, hend⟩ := boundary hgroup hpos
    have hbelow : whole = (before ++ [k.opener]) ++ (inner ++ k.closer :: (cs ++ after)) := by simp [hwhole]
    have hinner := ihi hbelow (by simp [byteLength, hpos, k.utf8Size_opener])
    have hnext : whole = (before ++ (k.opener :: (inner ++ [k.closer]))) ++ (cs ++ after) := by simp [hwhole]
    have hrest := ih hnext (by rw [byteLength_append, hpos, hlength]; omega)
    rw [hlength] at hend
    rw [subtreesIn, subtrees]
    refine List.forall_mem_append.2 ⟨List.forall_mem_cons.2 ⟨⟨hstart, ?_, .inl ?_, ?_, ?_, hi.successive, ?_⟩, hinner⟩, hrest⟩
    · convert hend using 1
      dsimp only [span]
      omega
    · dsimp only [span]
      omega
    · exact ⟨before, _, hgroup, hpos⟩
    · rw [if_pos rfl]
      dsimp only
      refine ⟨by omega, before ++ k.opener :: inner, cs ++ after, by simp [hwhole], ?_⟩
      rw [byteLength_append, byteLength, hpos, k.utf8Size_opener]
      omega
    · rw [if_pos rfl]
      exact hi.within
  | @unclosed room pos k inner cs children nodes hi hend _ ihi ih =>
    have hlength : byteLength (k.opener :: inner) = 1 + byteLength inner := by rw [byteLength, k.utf8Size_opener]
    have hgroup : whole = before ++ ((k.opener :: inner) ++ (cs ++ after)) := by simp [hwhole]
    obtain ⟨hstart, hbound⟩ := boundary hgroup hpos
    have hbelow : whole = (before ++ [k.opener]) ++ (inner ++ (cs ++ after)) := by simp [hwhole]
    have hinner := ihi hbelow (by simp [byteLength, hpos, k.utf8Size_opener])
    have hnext : whole = (before ++ (k.opener :: inner)) ++ (cs ++ after) := by simp [hwhole]
    have hrest := ih hnext (by rw [byteLength_append, hpos, hlength]; omega)
    rw [hlength, ← Nat.add_assoc, hend] at hbound
    rw [subtreesIn, subtrees]
    refine List.forall_mem_append.2
      ⟨List.forall_mem_cons.2 ⟨⟨hstart, hbound, .inl ?_, ?_, ?_, hi.successive, ?_⟩, hinner⟩, hrest⟩
    · dsimp only [span]
      omega
    · exact ⟨before, _, hgroup, hpos⟩
    · exact hstop.symm
    · rw [← hend]
      exact hi.within

end Covers

/-- How a tree lies in its text. The stretches that it names are all of the text, but for the blanks between them and an
equals sign at the front, and every other character belongs to one of them. -/
structure Tiles (cs : List Char) (nodes : List TokenTree) : Prop where
  successive : Successive nodes
  placed : ∀ n ∈ subtreesIn nodes, Placed cs n
  once : ∀ before c after, cs = before ++ c :: after → isBlank c = false →
    (portionsIn nodes).countP (holds (byteLength before)) = if c = '=' ∧ before.all isBlank = true then 0 else 1
  fills : ∃ lead sign rest, cs = lead ++ (sign ++ rest) ∧ (∀ c ∈ lead, isBlank c = true) ∧
    (sign = [] ∧ (∀ c ∈ rest.head?, c ≠ '=') ∨ sign = ['=']) ∧ Fills (byteLength (lead ++ sign)) rest (portionsIn nodes)
  depth : nestingIn nodes ≤ maxGroupDepth

lemma exists_after_blanks {lead rest before after : List Char} {c : Char} (hlead : ∀ c ∈ lead, isBlank c = true)
    (hc : isBlank c = false) (h : lead ++ rest = before ++ c :: after) :
    ∃ between, before = lead ++ between ∧ rest = between ++ c :: after := by
  rcases List.append_eq_append_iff.1 h with ⟨between, rfl, hrest⟩ | ⟨inside, rfl, hinside⟩
  · exact ⟨between, rfl, hrest⟩
  · cases inside with
    | nil => exact ⟨[], by simp, hinside.symm⟩
    | cons d inside =>
      obtain ⟨rfl, -⟩ := List.cons.inj hinside
      rw [hlead c (by simp)] at hc
      cases hc

lemma tiles_of_covers {lead sign rest : List Char} {nodes : List TokenTree} (hlead : ∀ c ∈ lead, isBlank c = true)
    (hsign : sign = [] ∧ (∀ c ∈ rest.head?, isBlank c = false ∧ c ≠ '=') ∨ sign = ['='])
    (h : Covers (byteLength (lead ++ (sign ++ rest))) maxGroupDepth (byteLength (lead ++ sign)) rest nodes) :
    Tiles (lead ++ (sign ++ rest)) nodes where
  successive := h.successive
  placed := h.placed (show _ = (lead ++ sign) ++ (rest ++ []) by simp) rfl rfl
  once := by
    intro before c after hbefore hc
    obtain ⟨between, rfl, hbetween⟩ := exists_after_blanks hlead hc hbefore
    rcases hsign with ⟨rfl, hhead⟩ | rfl
    · obtain rfl : rest = between ++ c :: after := hbetween
      rw [if_neg, byteLength_append, ← h.fills.countP_eq_one hc, List.append_nil]
      rintro ⟨rfl, hblank⟩
      cases between with
      | nil => exact (hhead '=' rfl).2 rfl
      | cons d between => simp [(hhead d rfl).1] at hblank
    · cases between with
      | nil =>
        obtain ⟨rfl, -⟩ := List.cons.inj hbetween
        rw [if_pos ⟨rfl, by simpa using hlead⟩, h.fills.countP_of_lt]
        simp [byteLength, Char.utf8Size_pos]
      | cons d between =>
        obtain ⟨rfl, rfl⟩ := List.cons.inj hbetween
        rw [if_neg (by simp [show isBlank '=' = false by decide]), ← h.fills.countP_eq_one hc]
        simp [byteLength, Nat.add_assoc]
  fills := ⟨lead, sign, rest, rfl, hlead, hsign.imp_left fun h => ⟨h.1, fun c hc => (h.2 c hc).2⟩, h.fills⟩
  depth := h.nesting_le

lemma covers_pieces (o : Separators) (start : Nat) (cs : List Char) (level : List TokenTree)
    (h : Covers (start + byteLength cs) maxGroupDepth start [] level.reverse) :
    Covers (start + byteLength cs) maxGroupDepth start cs (nest [] level start (pieces o cs)) := by
  have hcuts := Piece.cuts_scan o cs.length {} cs (Nat.le_refl _)
  have hchars := Piece.flatMap_scan o cs.length {} cs (Nat.le_refl _)
  have hhalf : Half (start + byteLength cs) start maxGroupDepth [] level [] := h
  have hnest := hhalf.nest (by rw [byteLength, Nat.add_zero]) hcuts rfl (Nat.add_zero _) (by rw [hchars])
  rwa [hchars, List.nil_append] at hnest

/-- Every text is tiled by its tree, whatever separators it is read with. -/
theorem ofText_tiles (o : Separators) (s : String) : Tiles s.toList (ofText o s) := by
  have hlead : ∀ c ∈ s.toList.takeWhile isBlank, isBlank c = true := fun c hc => List.mem_takeWhile_imp hc
  have hbody : ∀ c ∈ (s.toList.dropWhile isBlank).head?, isBlank c = false := by
    intro c hc
    have hnot := List.head?_dropWhile_not isBlank s.toList
    rw [hc] at hnot
    simpa using hnot
  rw [← s.toList.takeWhile_append_dropWhile (p := isBlank)]
  unfold ofText ofChars
  dsimp only
  generalize s.toList.takeWhile isBlank = lead at *
  generalize s.toList.dropWhile isBlank = body at *
  split
  · rename_i rest
    have hsign : byteLength (lead ++ ['=']) = byteLength lead + 1 := by simp [byteLength, show '='.utf8Size = 1 by decide]
    have hcovers := covers_pieces o (byteLength lead + 1) rest [] .nil
    rw [← hsign, ← byteLength_append, List.append_assoc] at hcovers
    exact tiles_of_covers hlead (.inr rfl) (hsign ▸ hcovers)
  · rename_i hne
    have hmark : Covers (byteLength lead + byteLength body) maxGroupDepth (byteLength lead) []
        [.malformed .noEquals ⟨byteLength lead, byteLength lead⟩] :=
      .leaf (x := []) (.inr ⟨.noEquals, rfl, .inl rfl⟩) .nil
    show Tiles (lead ++ ([] ++ body)) _
    refine tiles_of_covers hlead (.inl ⟨rfl, fun c hc => ⟨hbody c hc, ?_⟩⟩) ?_
    · rintro rfl
      obtain ⟨rest, rfl⟩ := List.head?_eq_some_iff.1 hc
      exact hne rest rfl
    · rw [List.append_nil, List.nil_append, byteLength_append]
      exact covers_pieces o _ _ [_] hmark

end TokenTree

end Spreadsheet.Formula
