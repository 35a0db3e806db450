import WorkloadMap.Pattern.Parser
import WorkloadMap.Proofs.Pattern.Match
import WorkloadMap.Proofs.Pattern.Tail

/-!
Patterns as they are read. What is read in a group is what the text in it reads as by itself,
whatever stands around the group. Main statements: a text goes through the same patterns in a group
and by itself, a text that does not read by itself closes the group around it, and no pattern that
was read asks for more repetitions than it allows.
-/
namespace WorkloadMap.Pattern

variable {r r' s s' : Reading} {l l' : Level} {t : Token} {cs rest more : List Char} {n : Nat}

/-- What a level has read, without what only the limits depend on. -/
structure Shape where
  flags : Flags := {}
  alternatives : List Pattern := []
  items : List (Pattern × Bool) := []

/-- Patterns one after the other. -/
def ofSequence : List Pattern → Pattern
  | [p] => p
  | ps => ps.foldr .seq .empty

def Shape.pattern (shape : Shape) : Pattern :=
  match (ofSequence (shape.items.reverse.map (·.1)) :: shape.alternatives).reverse with
  | [] => .empty
  | first :: more => more.foldl .alt first

def Level.shape (l : Level) : Shape :=
  ⟨l.flags, l.alternatives.map (·.pattern), l.items.map fun (item, whole) => (item.pattern, whole)⟩

theorem Item.pattern_sequence (items : List Item) :
    (Item.sequence items).pattern = ofSequence (items.map (·.pattern)) := by
  rcases items with _ | ⟨first, _ | ⟨second, more⟩⟩
  · rfl
  · rfl
  · simp [Item.sequence, ofSequence, List.foldr_map]

theorem Item.pattern_alternatives (first : Item) (more : List Item) :
    (Item.alternatives first more).pattern = (more.map (·.pattern)).foldl .alt first.pattern := by
  cases more with
  | nil => rfl
  | cons second more => simp [Item.alternatives, List.foldl_map]

theorem Level.pattern_sequence (l : Level) :
    l.sequence.pattern = ofSequence (l.shape.items.reverse.map (·.1)) := by
  simp [Level.sequence, Level.shape, Item.pattern_sequence, Function.comp_def]

theorem Level.shape_addBar (l : Level) : l.addBar.shape =
    { l.shape with
      alternatives := ofSequence (l.shape.items.reverse.map (·.1)) :: l.shape.alternatives
      items := [] } := by
  simp [Level.shape, Level.addBar, Level.pattern_sequence]

theorem Level.pattern_toItem (l : Level) : l.toItem.pattern = l.shape.pattern := by
  have hmap : (ofSequence (l.shape.items.reverse.map (·.1)) :: l.shape.alternatives).reverse =
      (l.sequence :: l.alternatives).reverse.map (·.pattern) := by
    simp [Level.pattern_sequence, Level.shape]
  unfold Level.toItem Shape.pattern
  rw [hmap]
  cases (l.sequence :: l.alternatives).reverse with
  | nil => rfl
  | cons first more => exact Item.pattern_alternatives first more

/-- A reading goes on as another one does, on top of some more open levels. -/
structure Inside (around : List Shape) (r s : Reading) : Prop where
  level : s.level.shape = r.level.shape
  outer : s.outer.map Level.shape = r.outer.map Level.shape ++ around

namespace Inside

variable {around : List Shape}

theorem flags_eq (h : Inside around r s) : s.level.flags = r.level.flags :=
  congrArg Shape.flags h.level

theorem add {item item' : Item} (h : Inside around r s) (hitem : item'.pattern = item.pattern) :
    Inside around { r with level := r.level.add item } { s with level := s.level.add item' } where
  level := by
    have hlevel := h.level
    simp only [Level.shape, Level.add, List.map_cons, Shape.mk.injEq] at hlevel ⊢
    exact ⟨hlevel.1, hlevel.2.1, by rw [hlevel.2.2, hitem]⟩
  outer := h.outer

theorem openGroup (h : Inside around r s) (index index' : Option Nat) (changes : FlagChanges) :
    Inside around (r.openGroup index changes) (s.openGroup index' changes) where
  level := by simp [Level.shape, Reading.openGroup, h.flags_eq]
  outer := by simp [Reading.openGroup, h.level, h.outer]

theorem closeGroup {below below' : Level} {outer outer' : List Level} (h : Inside around r s)
    (hr : r.outer = below :: outer) (hs : s.outer = below' :: outer') (index index' : Option Nat) :
    Inside around { r with level := below.add (r.level.toItem.group index), outer }
      { s with level := below'.add (s.level.toItem.group index'), outer := outer' } := by
  have houter := h.outer
  rw [hr, hs, List.map_cons, List.map_cons, List.cons_append, List.cons.injEq] at houter
  have hbelow : Inside around { r with level := below, outer }
      { s with level := below', outer := outer' } := ⟨houter.1, houter.2⟩
  refine hbelow.add ?_
  show s.level.toItem.pattern = r.level.toItem.pattern
  rw [Level.pattern_toItem, Level.pattern_toItem, h.level]

/-- Numbers and names of groups apart, the two take the same step. -/
theorem step (h : Inside around r s) (hr : r.step t = some r') (hs : s.step t = some s') :
    Inside around r' s' := by
  have hflags := h.flags_eq
  have hlevel := h.level
  simp only [Level.shape, Shape.mk.injEq] at hlevel
  obtain ⟨-, halternatives, hitems⟩ := hlevel
  cases t with
  | set | assertion =>
    cases hr
    cases hs
    exact h.add rfl
  | char | dot | caret | dollar =>
    cases hr
    cases hs
    rw [hflags]
    exact h.add rfl
  | bar =>
    cases hr
    cases hs
    exact ⟨by simp [Level.shape_addBar, h.level], h.outer⟩
  | times least most =>
    simp only [Reading.step] at hr hs
    split at hr
    next item items hr' =>
      split at hs
      next item' items' hs' =>
        cases hr
        cases hs
        simp only [hr', hs', List.map_cons, List.cons.injEq, Prod.mk.injEq] at hitems
        refine ⟨?_, h.outer⟩
        simp [Level.shape, hflags, halternatives, hitems, Item.times]
      · cases hs
    · cases hr
  | setFlags changes =>
    cases hr
    cases hs
    refine ⟨?_, h.outer⟩
    simp [Level.shape, hflags, halternatives, hitems]
  | openGroup changes =>
    cases hr
    cases hs
    exact h.openGroup _ _ changes
  | openNumbered name =>
    have hnames : ∀ names names' groups groups',
        Inside around { r with names, groups } { s with names := names', groups := groups' } :=
      fun _ _ _ _ => ⟨h.level, h.outer⟩
    simp only [Reading.step] at hr hs
    cases name with
    | none =>
      cases hr
      cases hs
      exact (hnames _ _ _ _).openGroup _ _ []
    | some name =>
      simp only [Option.ite_none_left_eq_some, Option.some.injEq] at hr hs
      rw [← hr.2, ← hs.2]
      exact (hnames _ _ _ _).openGroup _ _ []
  | closeGroup =>
    simp only [Reading.step] at hr hs
    split at hr
    · cases hr
    next hr' =>
      split at hs
      · cases hs
      next hs' =>
        cases hr
        cases hs
        exact h.closeGroup hr' hs' _ _

end Inside

/-- From a reading of a text to a reading of the rest of it, one lexeme after the other. -/
inductive Reads : Reading → List Char → Reading → List Char → Prop
  | done (r : Reading) (cs : List Char) : Reads r cs r cs
  | next {r r₁ r' : Reading} {cs cs₁ cs' : List Char} {t : Token}
      (token : token? r.level.flags.caseless cs = some (t, cs₁)) (step : r.step t = some r₁)
      (more : Reads r₁ cs₁ r' cs') : Reads r cs r' cs'

namespace Reads

theorem of_run (h : Reading.run n r cs = some r') : Reads r cs r' [] := by
  induction n generalizing r cs with
  | zero =>
    cases cs with
    | nil =>
      cases h
      exact .done _ _
    | cons c cs => cases h
  | succ n ih =>
    cases cs with
    | nil =>
      cases h
      exact .done _ _
    | cons c cs =>
      obtain ⟨⟨t, rest⟩, htoken, h⟩ := Option.bind_eq_some_iff.1 h
      obtain ⟨r₁, hstep, h⟩ := Option.bind_eq_some_iff.1 h
      exact .next htoken hstep (ih h)

/-- A reading goes on in one way only. -/
theorem step_of_token? (h : Reads r cs r' [])
    (htoken : token? r.level.flags.caseless cs = some (t, rest)) :
    ∃ r₁, r.step t = some r₁ ∧ Reads r₁ rest r' [] := by
  cases h with
  | done => cases htoken
  | next token step more =>
    rw [htoken] at token
    cases token
    exact ⟨_, step, more⟩

/-- What has been read is part of any reading of the whole. -/
theorem after {r₁ : Reading} {cs₁ : List Char} (h : Reads r cs r' []) (h₁ : Reads r cs r₁ cs₁) :
    Reads r₁ cs₁ r' [] := by
  induction h₁ with
  | done => exact h
  | next token step _ ih =>
    obtain ⟨r₂, hstep, hrest⟩ := h.step_of_token? token
    rw [step] at hstep
    cases hstep
    exact ih hrest

theorem append_paren (h : Reads r cs r' []) (more : List Char) :
    Reads r (cs ++ ')' :: more) r' (')' :: more) := by
  generalize hend : ([] : List Char) = final at h
  induction h with
  | done =>
    subst hend
    exact .done _ _
  | next token step _ ih => exact .next (undisturbed_token? _ _ _ _ more token) step (ih hend)

/-- What reads as a pattern by itself is read in the same way in a group around it. -/
theorem inside {around : List Shape} (h : Reads r cs r' []) (hinside : Inside around r s)
    (hs : Reads s (cs ++ ')' :: more) s' []) :
    ∃ s₁, Inside around r' s₁ ∧ Reads s₁ (')' :: more) s' [] := by
  generalize hend : ([] : List Char) = final at h
  induction h generalizing s with
  | done =>
    subst hend
    exact ⟨s, hinside, hs⟩
  | next token step _ ih =>
    have htoken := undisturbed_token? _ _ _ _ more token
    rw [← hinside.flags_eq] at htoken
    obtain ⟨s₁, hstep, hrest⟩ := hs.step_of_token? htoken
    exact ih (hinside.step step hstep) hrest hend

end Reads

/-! What lexemes may be. -/

/-- A repetition asks for no more than it allows, and the end of a group is a parenthesis. -/
def Token.Stands (t : Token) (cs rest : List Char) : Prop :=
  match t with
  | .times least most => ∀ m ∈ most, least ≤ m
  | .closeGroup => cs = ')' :: rest
  | _ => True

theorem Token.stands_of_counts? (h : counts? cs = some (t, rest)) (cs' : List Char) :
    t.Stands cs' rest := by
  obtain ⟨⟨least, rest'⟩, -, h⟩ := Option.bind_eq_some_iff.1 h
  dsimp only at h
  split at h
  · cases h
    simp [Token.Stands]
  · cases h
    simp [Token.Stands]
  · obtain ⟨⟨most, rest''⟩, -, h⟩ := Option.bind_eq_some_iff.1 h
    split at h
    · split at h
      next hle =>
        cases h
        simpa [Token.Stands] using hle
      · cases h
    · cases h
  · cases h

theorem Token.stands_of_group? (h : group? cs = some (t, rest)) (cs' : List Char) :
    t.Stands cs' rest := by
  unfold group? at h
  split at h
  case h_1 | h_2 =>
    obtain ⟨_, -, heq⟩ := Option.map_eq_some_iff.1 h
    cases heq
    trivial
  case h_3 =>
    dsimp only at h
    split at h
    · obtain ⟨_, -, heq⟩ := Option.map_eq_some_iff.1 h
      cases heq
      trivial
    · split at h
      · cases h
      · obtain ⟨_, -, heq⟩ := Option.map_eq_some_iff.1 h
        cases heq
        trivial
    · cases h
  case h_4 =>
    cases h
    trivial

theorem Token.stands_of_token? {caseless : Bool} (h : token? caseless cs = some (t, rest)) :
    t.Stands cs rest := by
  unfold token? at h
  split at h
  case h_1 => cases h
  case h_2 => exact Token.stands_of_group? h _
  case h_8 | h_9 | h_10 =>
    cases h
    simp [Token.Stands]
  case h_11 => exact Token.stands_of_counts? h _
  case h_12 =>
    obtain ⟨_, -, heq⟩ := Option.map_eq_some_iff.1 h
    cases heq
    trivial
  case h_13 =>
    obtain ⟨⟨_ | _ | _, _⟩, -, heq⟩ := Option.map_eq_some_iff.1 h <;>
      cases heq <;>
      trivial
  all_goals
    cases h
    trivial

/-! What reads by itself. -/

theorem Reading.outer_le_of_step (hr : r.step t = some r') (ht : t ≠ .closeGroup) :
    r.outer.length ≤ r'.outer.length := by
  cases t with
  | closeGroup => exact (ht rfl).elim
  | times least most =>
    simp only [Reading.step] at hr
    split at hr <;> cases hr
    exact Nat.le_refl _
  | openNumbered name =>
    cases name with
    | none =>
      cases hr
      exact Nat.le_succ _
    | some name =>
      simp only [Reading.step, Option.ite_none_left_eq_some, Option.some.injEq] at hr
      rw [← hr.2]
      exact Nat.le_succ _
  | openGroup =>
    cases hr
    exact Nat.le_succ _
  | _ =>
    cases hr
    exact Nat.le_refl _

theorem Reading.names_of_step (hr : r.step t = some r') (hs : s.step t = some s')
    (hnames : s.names = r.names) : s'.names = r'.names := by
  cases t with
  | closeGroup | times =>
    simp only [Reading.step] at hr hs
    split at hr <;> cases hr
    split at hs <;> cases hs
    exact hnames
  | openNumbered name =>
    cases name with
    | none =>
      cases hr
      cases hs
      exact hnames
    | some name =>
      simp only [Reading.step, Option.ite_none_left_eq_some, Option.some.injEq] at hr hs
      rw [← hr.2, ← hs.2]
      exact congrArg (name :: ·) hnames
  | _ =>
    cases hr
    cases hs
    exact hnames

/-- What one of two readings can go on with the other can too, but for the end of a group around
it. -/
theorem Inside.exists_step {around : List Shape} (h : Inside around r s)
    (hnames : s.names = r.names) (hs : s.step t = some s') :
    (∃ r', r.step t = some r') ∨ t = .closeGroup ∧ r.outer = [] := by
  cases t with
  | closeGroup =>
    cases houter : r.outer with
    | nil => exact .inr ⟨rfl, rfl⟩
    | cons below outer => exact .inl (Option.isSome_iff_exists.1 (by simp [Reading.step, houter]))
  | times least most =>
    have hitems := congrArg Shape.items h.level
    simp only [Reading.step] at hs
    split at hs
    next item items hs' =>
      cases hr' : r.level.items with
      | nil => simp [Level.shape, hs', hr'] at hitems
      | cons first items' =>
        obtain ⟨item', whole⟩ := first
        simp only [Level.shape, hs', hr', List.map_cons, List.cons.injEq, Prod.mk.injEq] at hitems
        obtain rfl : whole = true := hitems.1.2.symm
        exact .inl (Option.isSome_iff_exists.1 (by simp [Reading.step, hr']))
    · cases hs
  | openNumbered name =>
    cases name with
    | none => exact .inl ⟨_, rfl⟩
    | some name =>
      simp only [Reading.step, Option.ite_none_left_eq_some] at hs
      have hnew : name ∉ r.names := hnames ▸ hs.1
      exact .inl (Option.isSome_iff_exists.1 (by simp [Reading.step, hnew]))
  | _ => exact .inl ⟨_, rfl⟩

namespace Reads

theorem not_brace (h : Reads r ('\x7b' :: [')', '$']) r' []) : False := by
  cases h with
  | next token step more => cases token

/-- The dollar closes no group. -/
theorem outer_of_dollar (h : Reads r cs r' []) (hcs : cs <:+ ['$']) :
    r'.outer = r.outer := by
  cases h with
  | done => rfl
  | next token step more =>
    rcases List.suffix_cons_iff.1 hcs with rfl | hnil
    · cases token
      cases step
      cases more with
      | done => rfl
      | next token => cases token
    · rw [List.suffix_nil] at hnil
      subst hnil
      cases token

/-- A text that is read in a group that its own parenthesis closes is read by itself, or it comes
to a parenthesis while none of its own groups is open. -/
theorem alone_or_unopened {around : Shape} (hinside : Inside [around] r s)
    (hnames : s.names = r.names) (hs : Reads s (cs ++ [')', '$']) s' []) (hend : s'.outer = []) :
    (∃ r', Reads r cs r' [] ∧ r'.outer = []) ∨
      ∃ r' outside, Reads r cs r' (')' :: outside) ∧ r'.outer = [] := by
  generalize hlong : cs ++ [')', '$'] = long at hs
  generalize hfinal : ([] : List Char) = final at hs
  induction hs generalizing r cs with
  | done =>
    subst hfinal
    simp at hlong
  | @next s s₁ s' long rest final t token step more ih =>
    subst hlong hfinal
    cases hown : token? r.level.flags.caseless cs with
    | some found =>
      obtain ⟨t', rest'⟩ := found
      have hboth := undisturbed_token? _ _ _ _ ['$'] hown
      rw [← hinside.flags_eq, token] at hboth
      cases hboth
      rcases hinside.exists_step hnames step with ⟨r₁, hr₁⟩ | ⟨rfl, hopen⟩
      · refine (ih (hinside.step hr₁ step) (Reading.names_of_step hr₁ step hnames) hend rfl rfl).imp
          ?_ ?_
        · exact fun ⟨r', hrest, hclosed⟩ => ⟨r', .next hown hr₁ hrest, hclosed⟩
        · exact fun ⟨r', outside, hrest, hclosed⟩ => ⟨r', outside, .next hown hr₁ hrest, hclosed⟩
      · obtain rfl : cs = ')' :: rest' := Token.stands_of_token? hown
        exact .inr ⟨r, rest', .done r _, hopen⟩
    | none =>
      have houter := congrArg List.length hinside.outer
      simp only [List.length_map, List.length_append, List.length_singleton] at houter
      rw [hinside.flags_eq] at token
      by_cases hnil : cs = []
      · -- The text is at its end, and so is the group around it.
        subst hnil
        cases token
        have hdollar := more.outer_of_dollar List.suffix_rfl
        simp only [Reading.step] at step
        split at step
        · cases step
        next hs =>
          cases step
          rw [hend] at hdollar
          dsimp only at hdollar
          rw [hs, ← hdollar, List.length_singleton] at houter
          exact .inl ⟨r, .done r _, List.length_eq_zero_iff.1 (by omega)⟩
      · have hclose : t ≠ .closeGroup := by
          rintro rfl
          have hparen : cs ++ [')', '$'] = ')' :: rest := Token.stands_of_token? token
          cases cs with
          | nil => exact hnil rfl
          | cons c cs =>
            cases hparen
            cases hown
        have hdeep := Reading.outer_le_of_step step hclose
        rcases token?_append_end hown token with hdollar | rfl
        · have hlength := congrArg List.length (more.outer_of_dollar hdollar)
          rw [hend, List.length_nil] at hlength
          omega
        · exact more.not_brace.elim

end Reads

/-! Repetitions. -/

/-- Nothing that a level has read asks for more than it allows. -/
structure Shape.WellCounted (shape : Shape) : Prop where
  alternatives : ∀ p ∈ shape.alternatives, p.WellCounted
  items : ∀ p ∈ shape.items, p.1.WellCounted

theorem wellCounted_ofSequence {ps : List Pattern} (h : ∀ p ∈ ps, p.WellCounted) :
    (ofSequence ps).WellCounted := by
  have hfold : ∀ ps : List Pattern, (∀ p ∈ ps, p.WellCounted) →
      (ps.foldr Pattern.seq .empty).WellCounted := by
    intro ps hps
    induction ps with
    | nil => trivial
    | cons p ps ih =>
      obtain ⟨hp, hps⟩ := List.forall_mem_cons.1 hps
      exact ⟨hp, ih hps⟩
  unfold ofSequence
  split
  · exact h _ List.mem_cons_self
  · exact hfold ps h

theorem wellCounted_foldl_alt {first : Pattern} {more : List Pattern} (hfirst : first.WellCounted)
    (hmore : ∀ p ∈ more, p.WellCounted) : (more.foldl .alt first).WellCounted := by
  induction more generalizing first with
  | nil => exact hfirst
  | cons p more ih =>
    exact ih ⟨hfirst, hmore p List.mem_cons_self⟩ fun q hq => hmore q (List.mem_cons_of_mem p hq)

theorem Shape.WellCounted.sequence {shape : Shape} (h : shape.WellCounted) :
    (ofSequence (shape.items.reverse.map (·.1))).WellCounted := by
  refine wellCounted_ofSequence fun p hp => ?_
  obtain ⟨item, hitem, rfl⟩ := List.mem_map.1 hp
  exact h.items item (List.mem_reverse.1 hitem)

theorem Shape.WellCounted.pattern {shape : Shape} (h : shape.WellCounted) :
    shape.pattern.WellCounted := by
  have hall : ∀ p ∈ (ofSequence (shape.items.reverse.map (·.1)) :: shape.alternatives).reverse,
      p.WellCounted := by
    intro p hp
    rcases List.mem_cons.1 (List.mem_reverse.1 hp) with rfl | hp
    · exact h.sequence
    · exact h.alternatives p hp
  unfold Shape.pattern
  split
  · trivial
  next first more heq =>
    rw [heq] at hall
    exact wellCounted_foldl_alt (hall first List.mem_cons_self) fun p hp =>
      hall p (List.mem_cons_of_mem first hp)

/-- The levels of a reading, the innermost first. -/
def Reading.WellCounted (r : Reading) : Prop := ∀ l ∈ r.level :: r.outer, l.shape.WellCounted

namespace Shape.WellCounted

variable {item : Item}

theorem fresh (flags : Flags) (index : Option Nat) :
    ({ flags, index } : Level).shape.WellCounted :=
  ⟨by simp [Level.shape], by simp [Level.shape]⟩

theorem add (h : l.shape.WellCounted) (hitem : item.pattern.WellCounted) :
    (l.add item).shape.WellCounted :=
  ⟨h.alternatives, List.forall_mem_cons.2 ⟨hitem, h.items⟩⟩

theorem addBar (h : l.shape.WellCounted) : l.addBar.shape.WellCounted := by
  rw [Level.shape_addBar]
  exact ⟨List.forall_mem_cons.2 ⟨h.sequence, h.alternatives⟩, by simp⟩

end Shape.WellCounted

theorem Reading.WellCounted.openGroup (h : r.WellCounted) (index : Option Nat)
    (changes : FlagChanges) : (r.openGroup index changes).WellCounted :=
  List.forall_mem_cons.2 ⟨.fresh _ index, h⟩

theorem Reading.WellCounted.step (h : r.WellCounted) (ht : t.Stands cs rest)
    (hr : r.step t = some r') : r'.WellCounted := by
  obtain ⟨hlevel, houter⟩ := List.forall_mem_cons.1 h
  cases t with
  | char | dot | set | caret | dollar | assertion =>
    cases hr
    exact List.forall_mem_cons.2 ⟨hlevel.add trivial, houter⟩
  | bar =>
    cases hr
    exact List.forall_mem_cons.2 ⟨hlevel.addBar, houter⟩
  | times least most =>
    simp only [Reading.step] at hr
    split at hr
    next item items hitems =>
      cases hr
      have hold := hlevel.items
      simp only [Level.shape, hitems, List.map_cons, List.forall_mem_cons] at hold
      exact List.forall_mem_cons.2
        ⟨⟨hlevel.alternatives, List.forall_mem_cons.2 ⟨⟨hold.1, ht⟩, hold.2⟩⟩, houter⟩
    · cases hr
  | setFlags changes =>
    cases hr
    exact List.forall_mem_cons.2
      ⟨⟨hlevel.alternatives, List.forall_mem_cons.2 ⟨trivial, hlevel.items⟩⟩, houter⟩
  | openGroup changes =>
    cases hr
    exact h.openGroup none changes
  | openNumbered name =>
    cases name with
    | none =>
      cases hr
      exact Reading.WellCounted.openGroup (r := { r with groups := r.groups + 1 }) h _ []
    | some name =>
      simp only [Reading.step, Option.ite_none_left_eq_some, Option.some.injEq] at hr
      rw [← hr.2]
      exact List.forall_mem_cons.2 ⟨.fresh _ _, h⟩
  | closeGroup =>
    simp only [Reading.step] at hr
    split at hr
    · cases hr
    next below outer hopen =>
      cases hr
      rw [hopen, List.forall_mem_cons] at houter
      have hgroup : (r.level.toItem.group r.level.index).pattern.WellCounted := by
        show r.level.toItem.pattern.WellCounted
        rw [Level.pattern_toItem]
        exact hlevel.pattern
      exact List.forall_mem_cons.2 ⟨houter.1.add hgroup, houter.2⟩

theorem Reads.wellCounted (h : Reads r cs r' rest) (hr : r.WellCounted) : r'.WellCounted := by
  induction h with
  | done => exact hr
  | next token step _ ih => exact ih (hr.step (Token.stands_of_token? token) step)

end WorkloadMap.Pattern
