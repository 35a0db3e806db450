import Mathlib.Data.List.Basic
import WorkloadMap.Selector.Parser

/-!
Where the text of a selector is cut. Main statement: the pieces are what the commas outside of
parentheses separate, and there are none only if the parentheses do not balance.
-/
namespace WorkloadMap.Selector

variable {depth : Nat} {cs : List Char} {c : Char} {terms : List (List Char)}

/-- With so many parentheses open at the start, none is closed that is not open, and none is open at
the end. -/
structure Closes (depth : Nat) (cs : List Char) : Prop where
  opened : ∀ before, before <+: cs → before.count ')' ≤ depth + before.count '('
  closed : depth + cs.count '(' = cs.count ')'

/-- A piece is cut no further: its commas stand between parentheses. -/
structure IsTerm (depth : Nat) (cs : List Char) : Prop extends Closes depth cs where
  nested : ∀ before, before ++ [','] <+: cs → before.count ')' < depth + before.count '('

theorem count_cons_eq (x c : Char) (cs : List Char) :
    (c :: cs).count x = [c].count x + cs.count x := by
  rw [← List.count_append, List.singleton_append]

theorem closes_nil_iff : Closes depth [] ↔ depth = 0 := by
  constructor
  · intro h
    simpa using h.closed
  · rintro rfl
    exact ⟨fun before h => by simp [List.prefix_nil.1 h], rfl⟩

/-- One character opens or closes at most one parenthesis. -/
theorem closes_cons_iff : Closes depth (c :: cs) ↔
    ∃ d, d + [c].count ')' = depth + [c].count '(' ∧ Closes d cs := by
  constructor
  · rintro ⟨hopened, hclosed⟩
    have hfirst := hopened [c] (List.cons_prefix_cons.2 ⟨rfl, List.nil_prefix⟩)
    refine ⟨depth + [c].count '(' - [c].count ')', by omega, fun before h => ?_, ?_⟩
    · have hbefore := hopened (c :: before) (List.cons_prefix_cons.2 ⟨rfl, h⟩)
      rw [count_cons_eq ')' c before, count_cons_eq '(' c before] at hbefore
      omega
    · rw [count_cons_eq ')' c cs, count_cons_eq '(' c cs] at hclosed
      omega
  · rintro ⟨d, hd, hopened, hclosed⟩
    refine ⟨fun before h => ?_, by rw [count_cons_eq ')' c cs, count_cons_eq '(' c cs]; omega⟩
    rcases List.prefix_cons_iff.1 h with rfl | ⟨rest, rfl, hrest⟩
    · simp
    · have hbefore := hopened rest hrest
      rw [count_cons_eq ')' c rest, count_cons_eq '(' c rest]
      omega

theorem isTerm_nil_iff : IsTerm depth [] ↔ depth = 0 :=
  ⟨fun h => closes_nil_iff.1 h.toCloses,
    fun h => ⟨closes_nil_iff.2 h, fun before hb => by simp at hb⟩⟩

theorem isTerm_cons_iff : IsTerm depth (c :: cs) ↔ ¬(c = ',' ∧ depth = 0) ∧
    ∃ d, d + [c].count ')' = depth + [c].count '(' ∧ IsTerm d cs := by
  constructor
  · rintro ⟨hcloses, hnested⟩
    obtain ⟨d, hd, hrest⟩ := closes_cons_iff.1 hcloses
    refine ⟨?_, d, hd, hrest, fun before h => ?_⟩
    · rintro ⟨rfl, rfl⟩
      simpa using hnested [] (List.cons_prefix_cons.2 ⟨rfl, List.nil_prefix⟩)
    · have hbefore := hnested (c :: before) (List.cons_prefix_cons.2 ⟨rfl, h⟩)
      rw [count_cons_eq ')' c before, count_cons_eq '(' c before] at hbefore
      omega
  · rintro ⟨hcomma, d, hd, hcloses, hnested⟩
    refine ⟨closes_cons_iff.2 ⟨d, hd, hcloses⟩, fun before h => ?_⟩
    cases before with
    | nil =>
      obtain rfl : ',' = c := (List.cons_prefix_cons.1 h).1
      simp at hcomma ⊢
      omega
    | cons b before =>
      obtain ⟨rfl, hrest⟩ := List.cons_prefix_cons.1 h
      have hbefore := hnested before hrest
      rw [count_cons_eq ')' b before, count_cons_eq '(' b before]
      omega

/-- Characters that are neither parentheses nor commas to be cut at change nothing. -/
theorem isTerm_append_iff {plain : List Char}
    (h : ∀ c ∈ plain, c ≠ '(' ∧ c ≠ ')' ∧ (c = ',' → depth ≠ 0)) :
    IsTerm depth (plain ++ cs) ↔ IsTerm depth cs := by
  induction plain with
  | nil => rfl
  | cons c plain ih =>
    obtain ⟨hopen, hclose, hcomma⟩ := h c List.mem_cons_self
    have hrest := ih fun d hd => h d (List.mem_cons_of_mem c hd)
    have hcount : [c].count '(' = 0 ∧ [c].count ')' = 0 := by simp [hopen, hclose]
    rw [List.cons_append, isTerm_cons_iff, hcount.1, hcount.2, ← hrest]
    constructor
    · rintro ⟨-, d, rfl, hterm⟩
      exact hterm
    · exact fun hterm => ⟨fun hcut => hcomma hcut.1 hcut.2, depth, rfl, hterm⟩

/-! The cut follows the same steps. -/

theorem splitTerms_comma (cs : List Char) :
    splitTerms 0 (',' :: cs) = (splitTerms 0 cs).map ([] :: ·) := by
  simp [splitTerms]

theorem splitTerms_cons {d : Nat} (hcomma : ¬(c = ',' ∧ depth = 0))
    (hd : d + [c].count ')' = depth + [c].count '(') :
    splitTerms depth (c :: cs) = (splitTerms d cs).map (grow c) := by
  by_cases hopen : c = '('
  · subst hopen
    obtain rfl : d = depth + 1 := by simpa using hd
    simp [splitTerms]
  · by_cases hclose : c = ')'
    · subst hclose
      obtain rfl : d + 1 = depth := by simpa using hd
      simp [splitTerms]
    · obtain rfl : d = depth := by simpa [List.count_cons, hopen, hclose] using hd
      simp [splitTerms, hopen, hclose, hcomma]

theorem splitTerms_cons_eq_none (h : ∀ d, d + [c].count ')' ≠ depth + [c].count '(') :
    splitTerms depth (c :: cs) = none := by
  have hcount : [c].count ')' ≤ 1 := List.count_le_length
  have hdepth : depth = 0 := by
    by_contra hne
    exact h (depth + [c].count '(' - [c].count ')') (by omega)
  have hclose : c = ')' := by
    by_contra hne
    exact h (depth + [c].count '(') (by simp [hne])
  subst hdepth hclose
  rfl

theorem isSome_splitTerms_iff : (splitTerms depth cs).isSome ↔ Closes depth cs := by
  induction cs generalizing depth with
  | nil =>
    rw [closes_nil_iff]
    by_cases hdepth : depth = 0 <;> simp [splitTerms, hdepth]
  | cons c cs ih =>
    rw [closes_cons_iff]
    by_cases hstep : ∃ d, d + [c].count ')' = depth + [c].count '('
    · obtain ⟨d, hd⟩ := hstep
      have hunique : (∃ e, e + [c].count ')' = depth + [c].count '(' ∧ Closes e cs) ↔
          Closes d cs := by
        constructor
        · rintro ⟨e, he, hcloses⟩
          obtain rfl : e = d := by omega
          exact hcloses
        · exact fun h => ⟨d, hd, h⟩
      rw [hunique, ← ih]
      by_cases hcomma : c = ',' ∧ depth = 0
      · obtain ⟨rfl, rfl⟩ := hcomma
        obtain rfl : d = 0 := by simpa using hd
        rw [splitTerms_comma, Option.isSome_map]
      · rw [splitTerms_cons hcomma hd, Option.isSome_map]
    · have hnone : ∀ d, d + [c].count ')' ≠ depth + [c].count '(' := fun d hd => hstep ⟨d, hd⟩
      rw [splitTerms_cons_eq_none hnone]
      simp [hnone]

/-- The first piece goes on from the depth at the start, and each of the others begins anew. -/
structure CutsFrom (depth : Nat) (cs first : List Char) (rest : List (List Char)) : Prop where
  joined : [','].intercalate (first :: rest) = cs
  first : IsTerm depth first
  rest : ∀ term ∈ rest, IsTerm 0 term

theorem cutsFrom_comma {first : List Char} {rest : List (List Char)}
    (h : CutsFrom 0 cs first rest) : CutsFrom 0 (',' :: cs) [] (first :: rest) where
  joined := by rw [List.intercalate_cons_cons, h.joined]; rfl
  first := isTerm_nil_iff.2 rfl
  rest term hterm := by
    rcases List.mem_cons.1 hterm with rfl | hterm
    · exact h.first
    · exact h.rest term hterm

theorem cutsFrom_of_splitTerms (h : splitTerms depth cs = some terms) :
    ∃ first rest, terms = first :: rest ∧ CutsFrom depth cs first rest := by
  induction cs generalizing depth terms with
  | nil =>
    by_cases hdepth : depth = 0
    · rw [splitTerms, if_pos hdepth, Option.some.injEq] at h
      exact ⟨[], [], h.symm, rfl, isTerm_nil_iff.2 hdepth, by simp⟩
    · rw [splitTerms, if_neg hdepth] at h
      cases h
  | cons c cs ih =>
    by_cases hcomma : c = ',' ∧ depth = 0
    · obtain ⟨rfl, rfl⟩ := hcomma
      rw [splitTerms_comma, Option.map_eq_some_iff] at h
      obtain ⟨_, hsplit, rfl⟩ := h
      obtain ⟨first, rest, rfl, hcuts⟩ := ih hsplit
      exact ⟨[], first :: rest, rfl, cutsFrom_comma hcuts⟩
    · by_cases hstep : ∃ d, d + [c].count ')' = depth + [c].count '('
      · obtain ⟨d, hd⟩ := hstep
        rw [splitTerms_cons hcomma hd, Option.map_eq_some_iff] at h
        obtain ⟨_, hsplit, rfl⟩ := h
        obtain ⟨first, rest, rfl, hcuts⟩ := ih hsplit
        refine ⟨c :: first, rest, rfl, ?_, isTerm_cons_iff.2 ⟨hcomma, d, hd, hcuts.first⟩,
          hcuts.rest⟩
        rw [List.intercalate_cons_cons_left, hcuts.joined]
      · rw [splitTerms_cons_eq_none fun d hd => hstep ⟨d, hd⟩] at h
        cases h

theorem splitTerms_of_cutsFrom {first : List Char} {rest : List (List Char)}
    (h : CutsFrom depth cs first rest) : splitTerms depth cs = some (first :: rest) := by
  induction cs generalizing depth first rest with
  | nil =>
    obtain ⟨hjoined, hfirst, -⟩ := h
    cases rest with
    | nil =>
      rw [List.intercalate_singleton] at hjoined
      subst hjoined
      rw [splitTerms, if_pos (isTerm_nil_iff.1 hfirst)]
    | cons second rest => simp [List.intercalate_cons_cons] at hjoined
  | cons c cs ih =>
    obtain ⟨hjoined, hfirst, hrest⟩ := h
    cases first with
    | nil =>
      obtain rfl := isTerm_nil_iff.1 hfirst
      cases rest with
      | nil => simp at hjoined
      | cons second rest =>
        rw [List.intercalate_cons_cons] at hjoined
        obtain ⟨rfl, htail⟩ := List.cons.inj hjoined
        have hcuts : CutsFrom 0 cs second rest :=
          ⟨htail, hrest second List.mem_cons_self, fun t ht => hrest t (.tail _ ht)⟩
        rw [splitTerms_comma, ih hcuts]
        rfl
    | cons b first =>
      rw [List.intercalate_cons_cons_left] at hjoined
      obtain ⟨rfl, htail⟩ := List.cons.inj hjoined
      obtain ⟨hcomma, d, hd, hterm⟩ := isTerm_cons_iff.1 hfirst
      rw [splitTerms_cons hcomma hd, ih ⟨htail, hterm, hrest⟩]
      rfl

/-- Parentheses are closed only where they are open, and all of them are. -/
def Balanced (cs : List Char) : Prop :=
  (∀ before, before <+: cs → before.count ')' ≤ before.count '(') ∧ cs.count '(' = cs.count ')'

/-- The pieces between the commas outside of parentheses. In each of them by itself the parentheses
balance, so that a comma between two pieces is outside of any. -/
structure IsCut (cs : List Char) (terms : List (List Char)) : Prop where
  nonempty : terms ≠ []
  joined : [','].intercalate terms = cs
  balanced : ∀ term ∈ terms, Balanced term
  nested : ∀ term ∈ terms, ∀ before, before ++ [','] <+: term → before.count ')' < before.count '('

theorem closes_zero_iff : Closes 0 cs ↔ Balanced cs := by
  constructor
  · rintro ⟨hopened, hclosed⟩
    exact ⟨fun before h => by simpa using hopened before h, by simpa using hclosed⟩
  · rintro ⟨hopened, hclosed⟩
    exact ⟨fun before h => by simpa using hopened before h, by simpa using hclosed⟩

theorem isTerm_zero_iff : IsTerm 0 cs ↔ Balanced cs ∧
    ∀ before, before ++ [','] <+: cs → before.count ')' < before.count '(' := by
  constructor
  · rintro ⟨hcloses, hnested⟩
    exact ⟨closes_zero_iff.1 hcloses, fun before h => by simpa using hnested before h⟩
  · rintro ⟨hbalanced, hnested⟩
    exact ⟨closes_zero_iff.2 hbalanced, fun before h => by simpa using hnested before h⟩

theorem splitTerms_eq_some_iff : splitTerms 0 cs = some terms ↔ IsCut cs terms := by
  constructor
  · intro h
    obtain ⟨first, rest, rfl, hcuts⟩ := cutsFrom_of_splitTerms h
    have hterms : ∀ term ∈ first :: rest, IsTerm 0 term := by
      intro term hterm
      rcases List.mem_cons.1 hterm with rfl | hterm
      · exact hcuts.first
      · exact hcuts.rest term hterm
    exact ⟨by simp, hcuts.joined, fun t ht => (isTerm_zero_iff.1 (hterms t ht)).1,
      fun t ht => (isTerm_zero_iff.1 (hterms t ht)).2⟩
  · rintro ⟨hne, hjoined, hbalanced, hnested⟩
    obtain ⟨first, rest, rfl⟩ := List.exists_cons_of_ne_nil hne
    have hterms : ∀ term ∈ first :: rest, IsTerm 0 term :=
      fun t ht => isTerm_zero_iff.2 ⟨hbalanced t ht, hnested t ht⟩
    exact splitTerms_of_cutsFrom ⟨hjoined, hterms first List.mem_cons_self,
      fun t ht => hterms t (List.mem_cons_of_mem first ht)⟩

theorem splitTerms_eq_none_iff : splitTerms 0 cs = none ↔ ¬Balanced cs := by
  rw [← closes_zero_iff, ← isSome_splitTerms_iff, Option.not_isSome_iff_eq_none]

end WorkloadMap.Selector
