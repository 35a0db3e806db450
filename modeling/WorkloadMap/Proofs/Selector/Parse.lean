import WorkloadMap.Proofs.Selector.Cut
import WorkloadMap.Proofs.Selector.Fault

/-!
Selector text as a whole. Main statement: a text is read exactly as its grammar has it, and where it
is not, what is said is that its parentheses do not balance, or what is at fault in the first piece
that is no requirement.
-/
namespace WorkloadMap.Selector

variable {text : String} {terms : List (List Char)} {rs : List Requirement} {s : Selector}
  {e : Error}

/-- The pieces that are read, without the blanks around them. Blank pieces are passed over. -/
def kept (terms : List (List Char)) : List (List Char) :=
  (terms.map Text.trim).filter (!·.isEmpty)

theorem isTrimmed_of_mem_kept {piece : List Char} (h : piece ∈ kept terms) :
    Text.IsTrimmed piece := by
  obtain ⟨term, -, rfl⟩ := List.mem_map.1 (List.mem_filter.1 h).1
  exact Text.isTrimmed_trim term

theorem parse_of_isCut (h : IsCut text.toList terms) :
    parse text = ((kept terms).mapM requirement).map .requirements := by
  unfold parse
  rw [splitTerms_eq_some_iff.2 h]
  rfl

theorem mapM_kept_eq_ok_iff :
    (kept terms).mapM requirement = .ok rs ↔ List.Forall₂ Derives (kept terms) rs := by
  rw [mapM_eq_ok_iff]
  constructor
  · intro h
    have htrimmed := (List.forall₂_and_left _ _).2 ⟨fun p hp => isTrimmed_of_mem_kept hp, h⟩
    exact htrimmed.imp fun piece r hread => derives_of_requirement hread.1 hread.2
  · exact List.Forall₂.imp fun piece r hderives => requirement_of_derives hderives

theorem parse_eq_ok_iff (h : IsCut text.toList terms) : parse text = .ok s ↔
    ∃ rs, List.Forall₂ Derives (kept terms) rs ∧ s = .requirements rs := by
  rw [parse_of_isCut h]
  constructor
  · intro hread
    obtain ⟨rs, hrs, rfl⟩ := exists_of_map_eq_ok hread
    exact ⟨rs, mapM_kept_eq_ok_iff.1 hrs, rfl⟩
  · rintro ⟨rs, hrs, rfl⟩
    rw [mapM_kept_eq_ok_iff.2 hrs]
    rfl

/-- The first piece that is no requirement. -/
def FirstFault (pieces : List (List Char)) (piece : List Char) : Prop :=
  ∃ before after, pieces = before ++ piece :: after ∧
    (∀ p ∈ before, ∃ r, Derives p r) ∧ ∀ r, ¬Derives piece r

theorem not_derives_of_error {piece : List Char} (h : requirement piece = .error e)
    (r : Requirement) : ¬Derives piece r := by
  intro hderives
  rw [requirement_of_derives hderives] at h
  cases h

theorem parse_eq_error_iff (h : IsCut text.toList terms) : parse text = .error e ↔
    ∃ piece, FirstFault (kept terms) piece ∧ requirement piece = .error e := by
  rw [parse_of_isCut h]
  constructor
  · intro hread
    obtain ⟨before, piece, after, hpieces, hbefore, hfault⟩ :=
      mapM_eq_error_iff.1 (error_of_map_eq_error hread)
    refine ⟨piece, ⟨before, after, hpieces, fun p hp => ?_, not_derives_of_error hfault⟩, hfault⟩
    obtain ⟨r, hr⟩ := hbefore p hp
    have hkept : p ∈ kept terms := by rw [hpieces]; exact List.mem_append_left _ hp
    exact ⟨r, derives_of_requirement (isTrimmed_of_mem_kept hkept) hr⟩
  · rintro ⟨piece, ⟨before, after, hpieces, hbefore, -⟩, hfault⟩
    have hread : (kept terms).mapM requirement = .error e := by
      refine mapM_eq_error_iff.2 ⟨before, piece, after, hpieces, fun p hp => ?_, hfault⟩
      obtain ⟨r, hr⟩ := hbefore p hp
      exact ⟨r, requirement_of_derives hr⟩
    rw [hread]
    rfl

theorem exists_isCut {cs : List Char} (h : Balanced cs) : ∃ terms, IsCut cs terms := by
  cases hsplit : splitTerms 0 cs with
  | none => exact absurd h (splitTerms_eq_none_iff.1 hsplit)
  | some terms => exact ⟨terms, splitTerms_eq_some_iff.1 hsplit⟩

theorem IsCut.unique {cs : List Char} {others : List (List Char)} (h : IsCut cs terms)
    (h' : IsCut cs others) : others = terms :=
  Option.some.inj ((splitTerms_eq_some_iff.2 h').symm.trans (splitTerms_eq_some_iff.2 h))

theorem parse_eq_unbalanced_iff :
    parse text = .error (.unbalanced text) ↔ ¬Balanced text.toList := by
  constructor
  · intro h hbalanced
    obtain ⟨terms, hcut⟩ := exists_isCut hbalanced
    obtain ⟨piece, -, hfault⟩ := (parse_eq_error_iff hcut).1 h
    exact requirement_blames hfault
  · intro h
    unfold parse
    rw [splitTerms_eq_none_iff.2 h]

/-- A text that is one piece as it stands: it is neither cut nor trimmed nor passed over. -/
structure IsPiece (cs : List Char) : Prop where
  term : IsTerm 0 cs
  trimmed : Text.IsTrimmed cs
  nonempty : cs ≠ []

/-- There is nothing in such a text to be cut at. -/
def IsFlat (cs : List Char) : Prop := ∀ c ∈ cs, c ≠ '(' ∧ c ≠ ')' ∧ c ≠ ','

theorem IsPlain.isFlat {cs : List Char} (h : IsPlain cs) : IsFlat cs := fun _ hc =>
  ⟨ne_of_mem_of_not_mem hc (h.ne (by decide)), ne_of_mem_of_not_mem hc (h.ne (by decide)),
    ne_of_mem_of_not_mem hc (h.ne (by decide))⟩

theorem IsFlat.isTerm {cs : List Char} (h : IsFlat cs) : IsTerm 0 cs := by
  have hterm : IsTerm 0 (cs ++ []) :=
    (isTerm_append_iff fun c hc => ⟨(h c hc).1, (h c hc).2.1, fun heq => absurd heq (h c hc).2.2⟩).2
      (isTerm_nil_iff.2 rfl)
  rwa [List.append_nil] at hterm

theorem IsFlat.isPiece {cs : List Char} (h : IsFlat cs) (htrimmed : Text.IsTrimmed cs)
    (hne : cs ≠ []) : IsPiece cs :=
  ⟨h.isTerm, htrimmed, hne⟩

theorem IsPlain.isPiece {cs : List Char} (h : IsPlain cs) (hne : cs ≠ []) : IsPiece cs :=
  h.isFlat.isPiece (Text.Solid.isTrimmed fun _ hc => h.isBlank_eq_false hc) hne

theorem kept_of_isPiece (h : ∀ term ∈ terms, IsPiece term) : kept terms = terms := by
  have hmap : terms.map Text.trim = terms.map id :=
    List.map_congr_left fun term hterm => (h term hterm).trimmed.trim_eq
  unfold kept
  rw [hmap, List.map_id]
  exact List.filter_eq_self.2 fun term hterm => by simp [(h term hterm).nonempty]

/-- Pieces with commas between them are read one by one. -/
theorem parse_of_isPiece (hne : terms ≠ []) (h : ∀ term ∈ terms, IsPiece term)
    (htext : text.toList = [','].intercalate terms) (hderives : List.Forall₂ Derives terms rs) :
    parse text = .ok (.requirements rs) := by
  have hcut : IsCut text.toList terms :=
    ⟨hne, htext.symm, fun t ht => (isTerm_zero_iff.1 (h t ht).term).1,
      fun t ht => (isTerm_zero_iff.1 (h t ht).term).2⟩
  refine (parse_eq_ok_iff hcut).2 ⟨rs, ?_, rfl⟩
  rwa [kept_of_isPiece h]

/-- The parentheses of a text do not balance, or it has one cut into pieces: then it is read as the
requirements that are derived from them, unless one of them is none. -/
theorem parse_exact (text : String) :
    (parse text = .error (.unbalanced text) ↔ ¬Balanced text.toList) ∧
    (Balanced text.toList → ∃ terms, (∀ others, IsCut text.toList others ↔ others = terms) ∧
      (∀ s, parse text = .ok s ↔
        ∃ rs, List.Forall₂ Derives (kept terms) rs ∧ s = .requirements rs) ∧
      ∀ e, parse text = .error e ↔ ∃ piece, FirstFault (kept terms) piece ∧
        requirement piece = .error e ∧ e.Blames piece) ∧
    ∀ piece r r', Derives piece r → Derives piece r' → r = r' := by
  refine ⟨parse_eq_unbalanced_iff, fun hbalanced => ?_, fun piece r r' => Derives.unique⟩
  obtain ⟨terms, hcut⟩ := exists_isCut hbalanced
  refine ⟨terms, fun others => ⟨hcut.unique, ?_⟩, fun s => parse_eq_ok_iff hcut, fun e => ?_⟩
  · rintro rfl
    exact hcut
  · rw [parse_eq_error_iff hcut]
    constructor
    · rintro ⟨piece, hfirst, hfault⟩
      exact ⟨piece, hfirst, hfault, requirement_blames hfault⟩
    · rintro ⟨piece, hfirst, hfault, -⟩
      exact ⟨piece, hfirst, hfault⟩

/-- Of signs that overlap the first leaves a value that is none. A piece of blanks is passed over. -/
example : parse "a!==b" = .error (.value "=b") ∧
    parse "a, \u00a0 ,!b" = .ok (.requirements [.present "a", .absent "b"]) := by
  decide

end WorkloadMap.Selector
