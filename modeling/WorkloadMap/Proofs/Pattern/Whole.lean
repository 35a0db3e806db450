import WorkloadMap.Cache.Basic
import WorkloadMap.Config
import WorkloadMap.Proofs.Pattern.Reading

/-!
Namespace patterns and whole names. The text of a pattern is read in a group between the marks for
both ends of a name, and nothing but that group keeps what it reads as together. Main statements, for
the syntax that is read here: a text that reads as a pattern by itself stands for the names that it
spans from end to end, a text that is accepted and does not closes the group around it, and where a
bar follows that, both marks hold for one side of the bar only.
-/
namespace WorkloadMap.Pattern

variable {text ns : String} {p q qa qb : Pattern} {s s' : Reading} {rest : List Char} {i j : Nat}

/-- What a text reads as by itself, whatever room that takes. -/
def ReadsAs (text : String) (q : Pattern) : Prop :=
  ∃ r, Reads {} text.toList r [] ∧ r.outer = [] ∧ r.level.toItem.pattern = q

/-- A text that by itself comes to the end of a group while none is open. -/
def Unopened (text : String) : Prop :=
  ∃ r outside, Reads {} text.toList r (')' :: outside) ∧ r.outer = []

theorem readsAs_of_parse? (h : parse? text = some q) : ReadsAs text q := by
  obtain ⟨r, hrun, h⟩ := Option.bind_eq_some_iff.1 h
  split at h
  next houter =>
    dsimp only at h
    split at h
    · cases h
      exact ⟨r, .of_run hrun, List.isEmpty_iff.1 houter, rfl⟩
    · cases h
  · cases h

theorem ReadsAs.not_unopened (h : ReadsAs text q) : ¬Unopened text := by
  rintro ⟨r', outside, hparen, hclosed⟩
  obtain ⟨r, hall, -, -⟩ := h
  obtain ⟨r₁, hstep, -⟩ := (hall.after hparen).step_of_token? rfl
  simp only [Reading.step, hclosed] at hstep
  cases hstep

/-! The marks around a text. -/

/-- The level around the group, as long as that is open. -/
def aroundGroup : Shape := { items := [(.assertion .textStart, true)] }

/-- Inside the group. -/
def inGroup : Reading :=
  { outer := [{ items := [(.ofAssertion .textStart, true)] }] }

theorem inside_inGroup : Inside [aroundGroup] {} inGroup := ⟨rfl, rfl⟩

theorem exists_reads_of_ofNamespaces? (h : ofNamespaces? text = some p) (hne : text ≠ "**") :
    ∃ s, Reads inGroup (text.toList ++ [')', '$']) s [] ∧ s.outer = [] ∧
      s.level.toItem.pattern = p := by
  unfold ofNamespaces? at h
  rw [if_neg hne] at h
  obtain ⟨s, hreads, houter, hp⟩ := readsAs_of_parse? h
  have htext : ("^(?:" ++ text ++ ")$").toList =
      '^' :: '(' :: '?' :: ':' :: (text.toList ++ [')', '$']) := by
    simp [String.toList_append]
  rw [htext] at hreads
  obtain ⟨s₁, hstep, hreads⟩ := hreads.step_of_token? rfl
  cases hstep
  obtain ⟨s₂, hstep, hreads⟩ := hreads.step_of_token? rfl
  cases hstep
  exact ⟨s, hreads, houter, hp⟩

theorem wellCounted_of_ofNamespaces? (h : ofNamespaces? text = some p) (hne : text ≠ "**") :
    p.WellCounted := by
  obtain ⟨s, hreads, -, rfl⟩ := exists_reads_of_ofNamespaces? h hne
  have hstart : inGroup.WellCounted := by
    intro l hl
    simp only [inGroup, List.mem_cons, List.not_mem_nil, or_false] at hl
    rcases hl with rfl | rfl
    · exact .fresh {} none
    · exact .add (.fresh {} none) trivial
  rw [Level.pattern_toItem]
  exact (hreads.wellCounted hstart _ List.mem_cons_self).pattern

/-- The end of a group makes one item of what was read in it. -/
theorem Reads.closeGroup {r : Reading} {below : Shape} {around : List Shape}
    (h : Reads s (')' :: rest) s' []) (hinside : Inside (below :: around) r s)
    (hr : r.outer = []) :
    ∃ s₁, s₁.level.shape = { below with items := (r.level.toItem.pattern, true) :: below.items } ∧
      s₁.outer.map Level.shape = around ∧ Reads s₁ rest s' [] := by
  obtain ⟨s₁, hstep, hrest⟩ := h.step_of_token? rfl
  have houter := hinside.outer
  rw [hr, List.map_nil, List.nil_append] at houter
  simp only [Reading.step] at hstep
  split at hstep
  · cases hstep
  next hs =>
    cases hstep
    rw [hs, List.map_cons, List.cons.injEq] at houter
    obtain ⟨rfl, rfl⟩ := houter
    refine ⟨_, ?_, rfl, hrest⟩
    have hpattern : s.level.toItem.pattern = r.level.toItem.pattern := by
      rw [Level.pattern_toItem, Level.pattern_toItem, hinside.level]
    simp [Level.shape, Level.add, Item.group, hpattern]

/-- The mark for the end of a name. -/
theorem Reads.dollar {shape : Shape} (h : Reads s ['$'] s' []) (hs : s.level.shape = shape)
    (hflags : shape.flags = {}) : s'.level.shape =
      { shape with items := (.assertion .textEnd, true) :: shape.items } := by
  obtain ⟨s₁, hstep, hrest⟩ := h.step_of_token? rfl
  subst hs
  have hflags : s.level.flags = {} := hflags
  cases hstep
  cases hrest with
  | done => simp [Level.shape, Level.add, Item.ofAssertion, hflags]
  | next token => cases token

/-- A pattern between the marks for both ends. -/
def anchored (q : Pattern) : Pattern :=
  .seq (.assertion .textStart) (.seq q (.seq (.assertion .textEnd) .empty))

/-- Two patterns of which each has one of the marks. -/
def halfAnchored (qa qb : Pattern) : Pattern :=
  .alt (.seq (.assertion .textStart) (.seq qa .empty)) (.seq qb (.seq (.assertion .textEnd) .empty))

/-- A text that reads as a pattern by itself stays in its group. -/
theorem ReadsAs.ofNamespaces?_eq (hq : ReadsAs text q) (h : ofNamespaces? text = some p)
    (hne : text ≠ "**") : p = anchored q := by
  obtain ⟨s, hreads, -, rfl⟩ := exists_reads_of_ofNamespaces? h hne
  obtain ⟨r, hr, hclosed, rfl⟩ := hq
  obtain ⟨s₁, hinside, hreads⟩ := hr.inside inside_inGroup hreads
  obtain ⟨s₂, hlevel, -, hreads⟩ := hreads.closeGroup hinside hclosed
  rw [Level.pattern_toItem, hreads.dollar hlevel rfl]
  rfl

theorem split_ne (a b : String) : a ++ ")|(?:" ++ b ≠ "**" := by
  intro heq
  have hmem := congrArg (fun text : String => ')' ∈ text.toList) heq
  simp [String.toList_append] at hmem

/-- A text that closes its group and opens another one after a bar leaves a side to each mark. -/
theorem ofNamespaces?_split_eq {a b : String} (ha : ReadsAs a qa) (hb : ReadsAs b qb)
    (h : ofNamespaces? (a ++ ")|(?:" ++ b) = some p) : p = halfAnchored qa qb := by
  obtain ⟨s, hreads, -, rfl⟩ := exists_reads_of_ofNamespaces? h (split_ne a b)
  have htext : (a ++ ")|(?:" ++ b).toList ++ [')', '$'] =
      a.toList ++ ')' :: '|' :: '(' :: '?' :: ':' :: (b.toList ++ ')' :: ['$']) := by
    simp [String.toList_append]
  rw [htext] at hreads
  obtain ⟨ra, hra, hcloseda, rfl⟩ := ha
  obtain ⟨rb, hrb, hclosedb, rfl⟩ := hb
  obtain ⟨s₁, hinside, hreads⟩ := hra.inside inside_inGroup hreads
  obtain ⟨s₂, hlevel, houter, hreads⟩ := hreads.closeGroup hinside hcloseda
  obtain ⟨s₃, hstep, hreads⟩ := hreads.step_of_token? rfl
  cases hstep
  obtain ⟨s₄, hstep, hreads⟩ := hreads.step_of_token? rfl
  cases hstep
  have hflags : s₂.level.flags = {} := congrArg Shape.flags hlevel
  have hbar := Level.shape_addBar s₂.level
  rw [hlevel] at hbar
  have hinside : Inside [s₂.level.addBar.shape] {}
      (Reading.openGroup { s₂ with level := s₂.level.addBar } none []) := by
    refine ⟨?_, ?_⟩
    · simp [Reading.openGroup, Level.shape, Level.addBar, hflags, Flags.changeAll]
    · simp [Reading.openGroup, houter]
  obtain ⟨s₅, hinside, hreads⟩ := hrb.inside hinside hreads
  obtain ⟨s₆, hlevel, -, hreads⟩ := hreads.closeGroup hinside hclosedb
  rw [hbar] at hlevel
  rw [Level.pattern_toItem, hreads.dollar hlevel rfl]
  rfl

/-! What the marks leave. -/

/-- A pattern spans a text from end to end. -/
def SpansAll (q : Pattern) (text : String) : Prop :=
  Spans text.toList.toArray q 0 text.toList.length

def Begins (q : Pattern) (text : String) : Prop := ∃ j, Spans text.toList.toArray q 0 j

def Ends (q : Pattern) (text : String) : Prop :=
  ∃ i, i ≤ text.toList.length ∧ Spans text.toList.toArray q i text.toList.length

/-- Whatever a pattern spans is a text from end to end. -/
def IsWhole (p : Pattern) : Prop :=
  ∀ (text : String) (i j : Nat), i ≤ text.toList.length → Spans text.toList.toArray p i j →
    i = 0 ∧ j = text.toList.length

theorem spans_seq_empty_iff {chars : Array Char} :
    Spans chars (.seq q .empty) i j ↔ Spans chars q i j := by
  constructor
  · rintro (_ | _ | _ | ⟨left, _ | _⟩)
    exact left
  · exact fun h => .seq h (.empty j)

theorem spans_textStart_iff {chars : Array Char} :
    Spans chars (.seq (.assertion .textStart) q) i j ↔ i = 0 ∧ Spans chars q 0 j := by
  constructor
  · rintro (_ | _ | _ | ⟨_ | _ | hstart, right⟩)
    obtain rfl : i = 0 := by simpa [Assertion.holds] using hstart
    exact ⟨rfl, right⟩
  · rintro ⟨rfl, h⟩
    exact .seq (.assertion rfl) h

theorem spans_textEnd_iff {chars : Array Char} :
    Spans chars (.seq q (.seq (.assertion .textEnd) .empty)) i j ↔
      j = chars.size ∧ Spans chars q i j := by
  constructor
  · rintro (_ | _ | _ | ⟨left, right⟩)
    rw [spans_seq_empty_iff] at right
    cases right with
    | assertion hend => exact ⟨by simpa [Assertion.holds] using hend, left⟩
  · rintro ⟨rfl, h⟩
    exact .seq h (spans_seq_empty_iff.2 (.assertion (by simp [Assertion.holds])))

theorem spans_anchored_iff : Spans text.toList.toArray (anchored q) i j ↔
    i = 0 ∧ j = text.toList.length ∧ q.SpansAll text := by
  unfold anchored SpansAll
  rw [spans_textStart_iff, spans_textEnd_iff, List.size_toArray]
  constructor
  · rintro ⟨hi, rfl, h⟩
    exact ⟨hi, rfl, h⟩
  · rintro ⟨hi, rfl, h⟩
    exact ⟨hi, rfl, h⟩

theorem isWhole_anchored (q : Pattern) : IsWhole (anchored q) := fun _ _ _ _ h =>
  ⟨(spans_anchored_iff.1 h).1, (spans_anchored_iff.1 h).2.1⟩

theorem matches_anchored_iff : (anchored q).Matches text ↔ q.SpansAll text := by
  constructor
  · rintro ⟨i, j, -, h⟩
    exact (spans_anchored_iff.1 h).2.2
  · exact fun h => ⟨0, _, Nat.zero_le _, spans_anchored_iff.2 ⟨rfl, rfl, h⟩⟩

theorem matches_halfAnchored_iff :
    (halfAnchored qa qb).Matches text ↔ qa.Begins text ∨ qb.Ends text := by
  constructor
  · rintro ⟨i, j, hi, h⟩
    cases h with
    | altLeft left =>
      rw [spans_textStart_iff, spans_seq_empty_iff] at left
      exact .inl ⟨j, left.2⟩
    | altRight right =>
      rw [spans_textEnd_iff, List.size_toArray] at right
      obtain ⟨rfl, right⟩ := right
      exact .inr ⟨i, hi, right⟩
  · rintro (⟨j, h⟩ | ⟨i, hi, h⟩)
    · exact ⟨0, j, Nat.zero_le _, .altLeft (spans_textStart_iff.2 ⟨rfl, spans_seq_empty_iff.2 h⟩)⟩
    · exact ⟨i, _, hi, .altRight (spans_textEnd_iff.2 ⟨List.size_toArray.symm, h⟩)⟩

/-- Each side has to do without the mark that it lacks. -/
theorem isWhole_halfAnchored_iff : IsWhole (halfAnchored qa qb) ↔
    (∀ (text : String) (j : Nat), Spans text.toList.toArray qa 0 j → j = text.toList.length) ∧
      ∀ (text : String) (i : Nat), i ≤ text.toList.length →
        Spans text.toList.toArray qb i text.toList.length → i = 0 := by
  constructor
  · intro hwhole
    constructor
    · intro text j h
      have left := spans_textStart_iff.2 ⟨rfl, spans_seq_empty_iff.2 h⟩
      exact (hwhole text 0 j (Nat.zero_le _) (.altLeft left)).2
    · intro text i hi h
      have right := spans_textEnd_iff.2 ⟨List.size_toArray.symm, h⟩
      exact (hwhole text i _ hi (.altRight right)).1
  · rintro ⟨hleft, hright⟩ text i j hi h
    cases h with
    | altLeft left =>
      rw [spans_textStart_iff, spans_seq_empty_iff] at left
      obtain ⟨rfl, left⟩ := left
      exact ⟨rfl, hleft text j left⟩
    | altRight right =>
      rw [spans_textEnd_iff, List.size_toArray] at right
      obtain ⟨rfl, right⟩ := right
      exact ⟨hright text i hi right, rfl⟩

/-! Lists of patterns. -/

/-- The names that a text should stand for. -/
def StandsFor (text ns : String) : Prop :=
  text = "**" ∨ ∃ q, ReadsAs text q ∧ q.SpansAll ns

/-- What the pattern `p` of a text matches. -/
structure Settles (text : String) (p : Pattern) : Prop where
  /-- The only texts that do not read as a pattern by themselves are those that close the group
  around them. -/
  alone : text ≠ "**" → (Unopened text ↔ ¬∃ q, ReadsAs text q)
  /-- All others match whole names only, and those that they should. -/
  whole : text ≠ "**" → ¬Unopened text → p.IsWhole
  standsFor : ¬Unopened text → ∀ ns, p.isMatch ns = true ↔ StandsFor text ns
  /-- Where a bar follows the end of the group, the name may go on after what is before the bar, and
  may begin before what is after it, unless these see to the other end themselves. -/
  split : ∀ a b qa qb, text = a ++ ")|(?:" ++ b → ReadsAs a qa → ReadsAs b qb →
    Unopened text ∧ (∀ ns, p.isMatch ns = true ↔ qa.Begins ns ∨ qb.Ends ns) ∧
      (p.IsWhole ↔
        (∀ (ns : String) (j : Nat), Spans ns.toList.toArray qa 0 j → j = ns.toList.length) ∧
        ∀ (ns : String) (i : Nat), i ≤ ns.toList.length →
          Spans ns.toList.toArray qb i ns.toList.length → i = 0)

theorem unopened_or_readsAs (h : ofNamespaces? text = some p) (hne : text ≠ "**") :
    Unopened text ∨ ∃ q, ReadsAs text q := by
  obtain ⟨s, hreads, houter, -⟩ := exists_reads_of_ofNamespaces? h hne
  rcases hreads.alone_or_unopened inside_inGroup rfl houter with ⟨r, hr, hclosed⟩ | hunopened
  · exact .inr ⟨_, r, hr, hclosed, rfl⟩
  · exact .inl hunopened

theorem ReadsAs.unopened {a : String} (ha : ReadsAs a qa) (outside : List Char)
    (htext : text.toList = a.toList ++ ')' :: outside) : Unopened text := by
  obtain ⟨r, hr, hclosed, -⟩ := ha
  refine ⟨r, outside, ?_, hclosed⟩
  rw [htext]
  exact hr.append_paren outside

/-- What two stars stand for matches at the start of any name. -/
theorem isMatch_everything (h : ofNamespaces? "**" = some p) (ns : String) :
    p.isMatch ns = true := by
  obtain ⟨s, hreads, -, rfl⟩ := readsAs_of_parse? (h : parse? ".*" = some p)
  obtain ⟨s₁, hstep, hreads⟩ := hreads.step_of_token? rfl
  cases hstep
  obtain ⟨s₂, hstep, hreads⟩ := hreads.step_of_token? rfl
  cases hstep
  cases hreads with
  | done =>
    refine (isMatch_iff_matches ?_ ns).2 ⟨0, 0, Nat.zero_le _, .done⟩
    exact ⟨trivial, by simp⟩
  | next token => cases token

theorem settles (h : ofNamespaces? text = some p) : Settles text p where
  alone hne := by
    constructor
    · rintro hunopened ⟨q, hq⟩
      exact hq.not_unopened hunopened
    · exact (unopened_or_readsAs h hne).resolve_right
  whole hne hopened := by
    obtain ⟨q, hq⟩ := (unopened_or_readsAs h hne).resolve_left hopened
    rw [hq.ofNamespaces?_eq h hne]
    exact isWhole_anchored q
  standsFor hopened ns := by
    by_cases heq : text = "**"
    · subst heq
      exact iff_of_true (isMatch_everything h ns) (.inl rfl)
    · rw [isMatch_iff_matches (wellCounted_of_ofNamespaces? h heq)]
      constructor
      · intro hmatch
        obtain ⟨q, hq⟩ := (unopened_or_readsAs h heq).resolve_left hopened
        rw [hq.ofNamespaces?_eq h heq, matches_anchored_iff] at hmatch
        exact .inr ⟨q, hq, hmatch⟩
      · rintro (hall | ⟨q, hq, hspan⟩)
        · exact (heq hall).elim
        · rw [hq.ofNamespaces?_eq h heq, matches_anchored_iff]
          exact hspan
  split a b qa qb htext ha hb := by
    subst htext
    have hunopened : Unopened (a ++ ")|(?:" ++ b) :=
      ha.unopened ('|' :: '(' :: '?' :: ':' :: b.toList) (by simp [String.toList_append])
    have hwell := wellCounted_of_ofNamespaces? h (split_ne a b)
    rw [ofNamespaces?_split_eq ha hb h] at hwell ⊢
    refine ⟨hunopened, fun ns => ?_, isWhole_halfAnchored_iff⟩
    rw [isMatch_iff_matches hwell, matches_halfAnchored_iff]

theorem forall₂_settles {texts : List String} {ps : List Pattern}
    (h : texts.mapM ofNamespaces? = some ps) : List.Forall₂ Settles texts ps := by
  induction texts generalizing ps with
  | nil =>
    cases h
    exact .nil
  | cons text texts ih =>
    rw [List.mapM_cons] at h
    obtain ⟨p, hp, h⟩ := Option.bind_eq_some_iff.1 h
    obtain ⟨ps, hps, h⟩ := Option.bind_eq_some_iff.1 h
    cases h
    exact .cons (settles hp) (ih hps)

theorem any_isMatch_iff {texts : List String} {ps : List Pattern}
    (h : List.Forall₂ Settles texts ps) (hopened : ∀ text ∈ texts, ¬Unopened text) :
    ps.any (·.isMatch ns) = true ↔ ∃ text ∈ texts, StandsFor text ns := by
  induction h with
  | nil => simp
  | cons hsettles _ ih =>
    obtain ⟨hfirst, hrest⟩ := List.forall_mem_cons.1 hopened
    rw [List.any_cons, Bool.or_eq_true, ih hrest, hsettles.standsFor hfirst]
    simp

/-- Each pattern is settled by its text. Where no text closes the group around it, a namespace may
be read, or is served from a cache whose kinds were all listed, if and only if a text stands for its
whole name. -/
theorem namespaces_settled {texts : List String} {ps : List Pattern}
    (h : texts.mapM ofNamespaces? = some ps) :
    List.Forall₂ Settles texts ps ∧
      ((∀ text ∈ texts, ¬Unopened text) → ∀ ns,
        (∀ c : Config, c.accessible = some ps →
          (c.isAccessible ns = true ↔ ∃ text ∈ texts, StandsFor text ns)) ∧
        ∀ c : Cache, c.patterns = ps →
          (c.serves ns = true ↔
            (∀ k ∈ CachedKind.all, k ∈ c.listed) ∧ ∃ text ∈ texts, StandsFor text ns)) := by
  have hall := forall₂_settles h
  refine ⟨hall, fun hopened ns => ⟨fun c hc => ?_, fun c hc => ?_⟩⟩
  · unfold Config.isAccessible
    rw [hc]
    exact any_isMatch_iff hall hopened
  · unfold Cache.serves
    rw [hc, Bool.and_eq_true, any_isMatch_iff hall hopened, List.all_eq_true]
    simp only [decide_eq_true_eq]

/-- Part of the name `bookinfo-2` is not enough for these two. -/
theorem bookinfo_namespaces_settled :
    ∃ ps, ["bookinfo", "team-.*"].mapM ofNamespaces? = some ps ∧
      ps.any (·.isMatch "team-a") = true ∧ ps.any (·.isMatch "bookinfo-2") = false ∧
      List.Forall₂ Settles ["bookinfo", "team-.*"] ps := by
  have hmatch : ((["bookinfo", "team-.*"].mapM ofNamespaces?).any fun ps =>
      ps.any (·.isMatch "team-a") && !ps.any (·.isMatch "bookinfo-2")) = true := by
    decide +kernel
  obtain ⟨ps, hps, hmatch⟩ := (Option.any_eq_true _ _).1 hmatch
  rw [Bool.and_eq_true, Bool.not_eq_true'] at hmatch
  exact ⟨ps, hps, hmatch.1, hmatch.2, (namespaces_settled hps).1⟩

/-- The name `ab` is accepted for its first letter, and for its last one, but not as a whole. -/
theorem splitText_matches_part :
    ∃ p, ofNamespaces? "a)|(?:b" = some p ∧
      ({ accessible := some [p] } : Config).isAccessible "ab" = true ∧ ¬p.SpansAll "ab" := by
  have hmatch : (ofNamespaces? "a)|(?:b").any (·.isMatch "ab") = true := by decide +kernel
  obtain ⟨p, hp, hmatch⟩ := (Option.any_eq_true _ _).1 hmatch
  refine ⟨p, hp, by simp [Config.isAccessible, hmatch], fun hspan => ?_⟩
  have ha : ReadsAs "a" (.set (.single 'a')) := ⟨_, .next rfl rfl (.done _ _), rfl, rfl⟩
  have hb : ReadsAs "b" (.set (.single 'b')) := ⟨_, .next rfl rfl (.done _ _), rfl, rfl⟩
  have heq : "a)|(?:b" = "a" ++ ")|(?:" ++ "b" := by decide
  rw [heq] at hp
  have hlength : "ab".toList.length = 2 := by decide
  rw [ofNamespaces?_split_eq ha hb hp, SpansAll, hlength] at hspan
  cases hspan with
  | altLeft left =>
    rw [spans_textStart_iff, spans_seq_empty_iff] at left
    cases left.2
  | altRight right =>
    rw [spans_textEnd_iff] at right
    cases right.2

end WorkloadMap.Pattern
