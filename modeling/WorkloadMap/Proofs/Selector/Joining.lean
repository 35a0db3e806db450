import WorkloadMap.Proofs.Selector.Spelling

/-!
Selector texts put together. A comma at which nothing is open ends all that is before it, so that
what is on its two sides is read apart, and commas and blanks there say nothing. Main statement: two
texts with a comma between them ask for all that each of them asks for.
-/
namespace WorkloadMap

namespace Text

variable {ws cs : List Char}

theorem trim_blank_append (h : Blank ws) (cs : List Char) : trim (ws ++ cs) = trim cs := by
  unfold trim
  rw [trimStart_append h]

theorem trim_append_blank (h : Blank ws) (cs : List Char) : trim (cs ++ ws) = trim cs := by
  have hws : ws.dropWhile isBlank = [] := List.dropWhile_eq_nil_iff.2 h
  unfold trim trimStart
  rw [List.dropWhile_append]
  split
  next hblank => rw [hws, List.isEmpty_iff.1 hblank]
  next => exact trimEnd_append h _

end Text

namespace Selector

variable {depth : Nat} {cs others before after filler ws : List Char} {c : Char}
  {terms terms' : List (List Char)} {rs : List Requirement} {text text' : String} {s : Selector}

/-! What is closed takes no part in what comes after it. -/

theorem closes_append_iff (h : Closes depth before) :
    Closes depth (before ++ after) ↔ Closes 0 after := by
  induction before generalizing depth with
  | nil =>
    obtain rfl := closes_nil_iff.1 h
    rfl
  | cons c before ih =>
    obtain ⟨d, hd, hrest⟩ := closes_cons_iff.1 h
    rw [List.cons_append, closes_cons_iff]
    constructor
    · rintro ⟨e, he, hwhole⟩
      obtain rfl : e = d := by omega
      exact (ih hrest).1 hwhole
    · exact fun hafter => ⟨d, hd, (ih hrest).2 hafter⟩

theorem balanced_append_iff (h : Balanced before) :
    Balanced (before ++ after) ↔ Balanced after := by
  rw [← closes_zero_iff, ← closes_zero_iff]
  exact closes_append_iff (closes_zero_iff.2 h)

/-- Commas and blanks. -/
def IsFiller (cs : List Char) : Prop := ∀ c ∈ cs, c = ',' ∨ Text.isBlank c = true

instance : Decidable (IsFiller cs) :=
  decidable_of_iff (cs.all fun c => c == ',' || Text.isBlank c) (by simp [IsFiller])

theorem IsFiller.paren_notMem (h : IsFiller filler) : '(' ∉ filler ∧ ')' ∉ filler := by
  constructor
  · intro hmem
    rcases h '(' hmem with hc | hc <;> cases hc
  · intro hmem
    rcases h ')' hmem with hc | hc <;> cases hc

theorem IsFiller.count_eq_zero (h : IsFiller filler) :
    filler.count '(' = 0 ∧ filler.count ')' = 0 :=
  ⟨List.count_eq_zero_of_not_mem h.paren_notMem.1, List.count_eq_zero_of_not_mem h.paren_notMem.2⟩

theorem IsFiller.balanced (h : IsFiller filler) : Balanced filler := by
  refine ⟨fun before hbefore => ?_, h.count_eq_zero.1.trans h.count_eq_zero.2.symm⟩
  rw [List.count_eq_zero_of_not_mem fun hmem => h.paren_notMem.2 (hbefore.subset hmem)]
  exact Nat.zero_le _

theorem balanced_append_filler_iff (h : IsFiller filler) :
    Balanced (cs ++ filler) ↔ Balanced cs := by
  constructor
  · rintro ⟨hopened, hclosed⟩
    rw [List.count_append, List.count_append, h.count_eq_zero.1, h.count_eq_zero.2] at hclosed
    exact ⟨fun before hbefore => hopened before (hbefore.trans (List.prefix_append cs filler)),
      hclosed⟩
  · exact fun hcs => (balanced_append_iff hcs).2 h.balanced

theorem isFiller_comma : IsFiller [','] :=
  List.forall_mem_singleton.2 (.inl rfl)

theorem isFiller_of_blank (h : Text.Blank ws) : IsFiller ws := fun c hc => .inr (h c hc)

theorem balanced_comma_iff (h : Balanced before) :
    Balanced (before ++ ',' :: after) ↔ Balanced after := by
  rw [List.append_cons]
  exact balanced_append_iff ((balanced_append_filler_iff isFiller_comma).2 h)

/-! Cuts of texts that are put together. -/

theorem intercalate_append (hterms : terms ≠ []) (hterms' : terms' ≠ []) :
    [','].intercalate (terms ++ terms') =
      [','].intercalate terms ++ ',' :: [','].intercalate terms' := by
  induction terms with
  | nil => exact absurd rfl hterms
  | cons first rest ih =>
    cases rest with
    | nil =>
      obtain ⟨second, others, rfl⟩ := List.exists_cons_of_ne_nil hterms'
      simp [List.intercalate_cons_cons]
    | cons second rest =>
      have hrest := ih (List.cons_ne_nil second rest)
      rw [List.cons_append] at hrest ⊢
      rw [List.cons_append, List.intercalate_cons_cons, hrest, List.intercalate_cons_cons]
      simp

theorem IsCut.append (h : IsCut cs terms) (h' : IsCut others terms') :
    IsCut (cs ++ ',' :: others) (terms ++ terms') where
  nonempty := List.append_ne_nil_of_left_ne_nil h.nonempty _
  joined := by rw [intercalate_append h.nonempty h'.nonempty, h.joined, h'.joined]
  balanced := List.forall_mem_append.2 ⟨h.balanced, h'.balanced⟩
  nested := List.forall_mem_append.2 ⟨h.nested, h'.nested⟩

theorem isCut_iff_isTerm : IsCut cs terms ↔
    terms ≠ [] ∧ [','].intercalate terms = cs ∧ ∀ term ∈ terms, IsTerm 0 term := by
  constructor
  · exact fun h => ⟨h.nonempty, h.joined,
      fun term hterm => isTerm_zero_iff.2 ⟨h.balanced term hterm, h.nested term hterm⟩⟩
  · exact fun ⟨hne, hjoined, hterms⟩ => ⟨hne, hjoined,
      fun term hterm => (isTerm_zero_iff.1 (hterms term hterm)).1,
      fun term hterm => (isTerm_zero_iff.1 (hterms term hterm)).2⟩

theorem IsCut.isBalanced (h : IsCut cs terms) : Balanced cs := by
  by_contra hnot
  have hnone := splitTerms_eq_none_iff.2 hnot
  rw [splitTerms_eq_some_iff.2 h] at hnone
  cases hnone

/-- Blanks in front of a text go to its first piece. -/
theorem IsCut.blank_append (h : IsCut cs terms) (hws : Text.Blank ws) :
    ∃ terms', IsCut (ws ++ cs) terms' ∧ kept terms' = kept terms := by
  obtain ⟨hne, rfl, hterms⟩ := isCut_iff_isTerm.1 h
  obtain ⟨first, rest, rfl⟩ := List.exists_cons_of_ne_nil hne
  rw [List.forall_mem_cons] at hterms
  refine ⟨(ws ++ first) :: rest, isCut_iff_isTerm.2 ⟨List.cons_ne_nil _ _, ?_,
    List.forall_mem_cons.2 ⟨hterms.1.flat_append (isFlat_of_blank hws), hterms.2⟩⟩, ?_⟩
  · cases rest <;> simp [List.intercalate_cons_cons]
  · unfold kept
    rw [List.map_cons, List.map_cons, Text.trim_blank_append hws]

/-- Blanks behind a text go to its last piece. -/
theorem IsCut.append_blank (h : IsCut cs terms) (hws : Text.Blank ws) :
    ∃ terms', IsCut (cs ++ ws) terms' ∧ kept terms' = kept terms := by
  obtain ⟨hne, rfl, hterms⟩ := isCut_iff_isTerm.1 h
  obtain ⟨init, last, rfl⟩ := (List.eq_nil_or_concat' terms).resolve_left hne
  rw [List.forall_mem_append, List.forall_mem_singleton] at hterms
  refine ⟨init ++ [last ++ ws], isCut_iff_isTerm.2 ⟨by simp, ?_, List.forall_mem_append.2
    ⟨hterms.1, List.forall_mem_singleton.2 (hterms.2.append_flat (isFlat_of_blank hws))⟩⟩, ?_⟩
  · by_cases hinit : init = []
    · simp [hinit]
    · rw [intercalate_append hinit (List.cons_ne_nil _ _),
        intercalate_append hinit (List.cons_ne_nil _ _)]
      simp
  · unfold kept
    simp only [List.map_append, List.map_cons, List.map_nil, Text.trim_append_blank hws]

/-! What is read of a text. -/

/-- A text reads as these requirements. -/
def ReadsAs (cs : List Char) (rs : List Requirement) : Prop :=
  ∃ terms, IsCut cs terms ∧ List.Forall₂ Derives (kept terms) rs

theorem parse_eq_ok_iff_readsAs :
    parse text = .ok s ↔ ∃ rs, ReadsAs text.toList rs ∧ s = .requirements rs := by
  constructor
  · intro h
    have hbalanced : Balanced text.toList := by
      by_contra hnot
      rw [parse_eq_unbalanced_iff.2 hnot] at h
      cases h
    obtain ⟨terms, hcut⟩ := exists_isCut hbalanced
    obtain ⟨rs, hrs, rfl⟩ := (parse_eq_ok_iff hcut).1 h
    exact ⟨rs, ⟨terms, hcut, hrs⟩, rfl⟩
  · rintro ⟨rs, ⟨terms, hcut, hrs⟩, rfl⟩
    exact (parse_eq_ok_iff hcut).2 ⟨rs, hrs, rfl⟩

theorem readsAs_nil_iff : ReadsAs [] rs ↔ rs = [] := by
  have hcut : IsCut [] [[]] := splitTerms_eq_some_iff.1 rfl
  constructor
  · rintro ⟨terms, hterms, hrs⟩
    obtain rfl := hcut.unique hterms
    exact List.forall₂_nil_left_iff.1 hrs
  · rintro rfl
    exact ⟨_, hcut, .nil⟩

theorem forall₂_append_iff {α β : Type} {r : α → β → Prop} {as as' : List α} {bs : List β} :
    List.Forall₂ r (as ++ as') bs ↔
      ∃ bs₁ bs₂, List.Forall₂ r as bs₁ ∧ List.Forall₂ r as' bs₂ ∧ bs = bs₁ ++ bs₂ := by
  constructor
  · intro h
    exact ⟨_, _, List.forall₂_take_append bs as as' h.flip |>.flip,
      (List.forall₂_drop_append bs as as' h.flip).flip, (List.take_append_drop _ bs).symm⟩
  · rintro ⟨bs₁, bs₂, h₁, h₂, rfl⟩
    exact List.rel_append h₁ h₂

/-- A comma outside of parentheses parts a text. -/
theorem readsAs_comma_iff (h : Balanced before) : ReadsAs (before ++ ',' :: after) rs ↔
    ∃ rs₁ rs₂, ReadsAs before rs₁ ∧ ReadsAs after rs₂ ∧ rs = rs₁ ++ rs₂ := by
  have hkept : ∀ terms terms', kept (terms ++ terms') = kept terms ++ kept terms' := by
    simp [kept]
  constructor
  · rintro ⟨whole, hwhole, hrs⟩
    obtain ⟨terms, hterms⟩ := exists_isCut h
    obtain ⟨terms', hterms'⟩ := exists_isCut ((balanced_comma_iff h).1 hwhole.isBalanced)
    obtain rfl := (hterms.append hterms').unique hwhole
    rw [hkept, forall₂_append_iff] at hrs
    obtain ⟨rs₁, rs₂, hrs₁, hrs₂, rfl⟩ := hrs
    exact ⟨rs₁, rs₂, ⟨terms, hterms, hrs₁⟩, ⟨terms', hterms', hrs₂⟩, rfl⟩
  · rintro ⟨rs₁, rs₂, ⟨terms, hterms, hrs₁⟩, ⟨terms', hterms', hrs₂⟩, rfl⟩
    refine ⟨terms ++ terms', hterms.append hterms', ?_⟩
    rw [hkept]
    exact forall₂_append_iff.2 ⟨rs₁, rs₂, hrs₁, hrs₂, rfl⟩

/-! What says nothing. -/

theorem readsAs_congr (hbalanced : Balanced others → Balanced cs)
    (hcut : ∀ terms, IsCut cs terms → ∃ terms', IsCut others terms' ∧ kept terms' = kept terms) :
    ReadsAs others rs ↔ ReadsAs cs rs := by
  constructor
  · rintro ⟨whole, hwhole, hrs⟩
    obtain ⟨terms, hterms⟩ := exists_isCut (hbalanced hwhole.isBalanced)
    obtain ⟨terms', hterms', hkept⟩ := hcut terms hterms
    obtain rfl := hterms'.unique hwhole
    exact ⟨terms, hterms, hkept ▸ hrs⟩
  · rintro ⟨terms, hterms, hrs⟩
    obtain ⟨terms', hterms', hkept⟩ := hcut terms hterms
    exact ⟨terms', hterms', hkept ▸ hrs⟩

theorem readsAs_blank_append_iff (h : Text.Blank ws) : ReadsAs (ws ++ cs) rs ↔ ReadsAs cs rs :=
  readsAs_congr (balanced_append_iff (isFiller_of_blank h).balanced).1
    fun _ hterms => hterms.blank_append h

theorem readsAs_append_blank_iff (h : Text.Blank ws) : ReadsAs (cs ++ ws) rs ↔ ReadsAs cs rs :=
  readsAs_congr (balanced_append_filler_iff (isFiller_of_blank h)).1
    fun _ hterms => hterms.append_blank h

theorem readsAs_comma_cons_iff : ReadsAs (',' :: cs) rs ↔ ReadsAs cs rs := by
  have hnil : Balanced [] := IsFiller.balanced (List.forall_mem_nil _)
  have hcomma : ReadsAs ([] ++ ',' :: cs) rs ↔ _ := readsAs_comma_iff hnil
  refine hcomma.trans ⟨?_, fun h => ?_⟩
  · rintro ⟨rs₁, rs₂, hrs₁, hrs₂, rfl⟩
    obtain rfl := readsAs_nil_iff.1 hrs₁
    exact hrs₂
  · exact ⟨[], rs, readsAs_nil_iff.2 rfl, h, rfl⟩

/-- A comma behind a text whose parentheses do not balance does not balance them. -/
theorem readsAs_concat_comma_iff : ReadsAs (cs ++ [',']) rs ↔ ReadsAs cs rs := by
  by_cases hcs : Balanced cs
  · refine (readsAs_comma_iff hcs).trans ⟨?_, fun h => ?_⟩
    · rintro ⟨rs₁, rs₂, hrs₁, hrs₂, rfl⟩
      obtain rfl := readsAs_nil_iff.1 hrs₂
      rwa [List.append_nil]
    · exact ⟨rs, [], h, readsAs_nil_iff.2 rfl, (List.append_nil rs).symm⟩
  · constructor
    · rintro ⟨terms, hterms, -⟩
      exact absurd ((balanced_append_filler_iff isFiller_comma).1 hterms.isBalanced) hcs
    · rintro ⟨terms, hterms, -⟩
      exact absurd hterms.isBalanced hcs

theorem readsAs_filler_append_iff (h : IsFiller filler) :
    ReadsAs (filler ++ cs) rs ↔ ReadsAs cs rs := by
  induction filler with
  | nil => rfl
  | cons c filler ih =>
    obtain ⟨hc, hrest⟩ := List.forall_mem_cons.1 h
    rw [← ih hrest]
    rcases hc with rfl | hblank
    · exact readsAs_comma_cons_iff
    · have hws : Text.Blank [c] := List.forall_mem_singleton.2 hblank
      exact readsAs_blank_append_iff hws

theorem readsAs_append_filler_iff (h : IsFiller filler) :
    ReadsAs (cs ++ filler) rs ↔ ReadsAs cs rs := by
  induction filler generalizing cs with
  | nil => rw [List.append_nil]
  | cons c filler ih =>
    obtain ⟨hc, hrest⟩ := List.forall_mem_cons.1 h
    rw [List.append_cons, ih hrest]
    rcases hc with rfl | hblank
    · exact readsAs_concat_comma_iff
    · exact readsAs_append_blank_iff (List.forall_mem_singleton.2 hblank)

/-- The places where commas and blanks may be put: the two ends of a text, and the two sides of a
comma outside of parentheses. -/
inductive Seam : List Char → List Char → Prop
  | start {after : List Char} : Seam [] after
  | finish {before : List Char} : Seam before []
  | beforeComma {before after : List Char} (h : Balanced before) : Seam before (',' :: after)
  | afterComma {before after : List Char} (h : Balanced before) : Seam (before ++ [',']) after

theorem readsAs_seam_iff (hseam : Seam before after) (h : IsFiller filler) :
    ReadsAs (before ++ filler ++ after) rs ↔ ReadsAs (before ++ after) rs := by
  cases hseam with
  | start => exact readsAs_filler_append_iff h
  | finish => rw [List.append_nil, List.append_nil, readsAs_append_filler_iff h]
  | beforeComma hbefore =>
    rw [readsAs_comma_iff hbefore, readsAs_comma_iff ((balanced_append_filler_iff h).2 hbefore)]
    simp only [readsAs_append_filler_iff h]
  | @afterComma before after hbefore =>
    simp only [List.append_assoc, List.cons_append, List.nil_append]
    rw [readsAs_comma_iff hbefore, readsAs_comma_iff hbefore]
    simp only [readsAs_filler_append_iff h]

/-- One text with commas and blanks put in at one place. -/
def Loosened (text text' : String) : Prop :=
  ∃ before filler after, Seam before after ∧ IsFiller filler ∧
    text.toList = before ++ after ∧ text'.toList = before ++ filler ++ after

theorem parse_eq_ok_iff_of_loosened (h : Loosened text text') :
    parse text' = .ok s ↔ parse text = .ok s := by
  obtain ⟨before, filler, after, hseam, hfiller, htext, htext'⟩ := h
  simp only [parse_eq_ok_iff_readsAs, htext, htext', readsAs_seam_iff hseam hfiller]

theorem ReadsAs.balanced (h : ReadsAs cs rs) : Balanced cs := by
  obtain ⟨terms, hterms, -⟩ := h
  exact hterms.isBalanced

/-- Two texts that are read, with a comma between them, are read as the requirements of the first
and then those of the second, and so select what both select. Wherever commas and blanks are put in,
and however often, a text is read as it was, or is still not read. -/
theorem parse_joined :
    (∀ (text text' : String) (s s' : Selector), parse text = .ok s → parse text' = .ok s' →
      ∃ rs rs', s = .requirements rs ∧ s' = .requirements rs' ∧
        parse (text ++ "," ++ text') = .ok (.requirements (rs ++ rs')) ∧
        ∀ labels, (Selector.requirements (rs ++ rs')).selects labels =
          (s.selects labels && s'.selects labels)) ∧
    ∀ text text' : String, Relation.ReflTransGen Loosened text text' →
      ∀ s, parse text' = .ok s ↔ parse text = .ok s := by
  refine ⟨fun text text' s s' h h' => ?_, fun text text' h s => ?_⟩
  · obtain ⟨rs, hrs, rfl⟩ := parse_eq_ok_iff_readsAs.1 h
    obtain ⟨rs', hrs', rfl⟩ := parse_eq_ok_iff_readsAs.1 h'
    have htext : (text ++ "," ++ text').toList = text.toList ++ ',' :: text'.toList := by simp
    refine ⟨rs, rs', rfl, rfl, parse_eq_ok_iff_readsAs.2 ⟨_, ?_, rfl⟩, fun labels => ?_⟩
    · rw [htext]
      exact (readsAs_comma_iff hrs.balanced).2 ⟨rs, rs', hrs, hrs', rfl⟩
    · exact List.all_append
  · induction h with
    | refl => rfl
    | tail _ hlast ih => exact (parse_eq_ok_iff_of_loosened hlast).trans ih

theorem webTiers_joined :
    (parse "app=web" = .ok (.requirements [.oneOf "app" (.ofList ["web"])]) ∧
      parse " tier in (a,b)" = .ok (.requirements [.oneOf "tier" (.ofList ["a", "b"])]) ∧
      ∃ rs rs', Selector.requirements [.oneOf "app" (.ofList ["web"])] = .requirements rs ∧
        Selector.requirements [.oneOf "tier" (.ofList ["a", "b"])] = .requirements rs' ∧
        parse "app=web, tier in (a,b)" = .ok (.requirements (rs ++ rs')) ∧
        ∀ labels, (Selector.requirements (rs ++ rs')).selects labels =
          ((Selector.requirements [.oneOf "app" (.ofList ["web"])]).selects labels &&
            (Selector.requirements [.oneOf "tier" (.ofList ["a", "b"])]).selects labels)) ∧
    Relation.ReflTransGen Loosened "app=web, tier in (a,b)" "app=web\u2003,,, tier in (a,b)\n," ∧
      ∀ s, parse "app=web\u2003,,, tier in (a,b)\n," = .ok s ↔
        parse "app=web, tier in (a,b)" = .ok s := by
  have hweb : parse "app=web" = .ok (.requirements [.oneOf "app" (.ofList ["web"])]) := by decide
  have htier : parse " tier in (a,b)" =
      .ok (.requirements [.oneOf "tier" (.ofList ["a", "b"])]) := by decide
  have hbefore : Balanced "app=web".toList := (parse_eq_ok_iff_readsAs.1 hweb).choose_spec.1.balanced
  have hfiller : IsFiller "\u2003,,".toList ∧ IsFiller "\n,".toList := by decide
  have hfirst : Loosened "app=web, tier in (a,b)" "app=web\u2003,,, tier in (a,b)" :=
    ⟨"app=web".toList, "\u2003,,".toList, ", tier in (a,b)".toList, .beforeComma hbefore,
      hfiller.1, by decide +kernel, by decide +kernel⟩
  have hsecond : Loosened "app=web\u2003,,, tier in (a,b)" "app=web\u2003,,, tier in (a,b)\n," :=
    ⟨"app=web\u2003,,, tier in (a,b)".toList, "\n,".toList, [], .finish, hfiller.2,
      (List.append_nil _).symm, (List.append_nil _).symm⟩
  have hloosened := (Relation.ReflTransGen.single hfirst).tail hsecond
  exact ⟨⟨hweb, htier, parse_joined.1 _ _ _ _ hweb htier⟩, hloosened,
    parse_joined.2 _ _ hloosened⟩

end Selector

end WorkloadMap
