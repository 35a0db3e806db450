import WorkloadMap.Proofs.Selector.RoundTrip

/-!
The ways to write one selector. Blanks around the terms are taken off before a term is read, so what
is derived from a term does not depend on them. Main statement: however the entries of a map are
written, the text selects what the equalities of the map select, and a term with a denial selects
just what the term without it leaves out.
-/
namespace WorkloadMap

namespace Text

variable {ws ws' cs first last : List Char}

instance (cs : List Char) : Decidable (Blank cs) :=
  decidable_of_iff (cs.all isBlank = true) List.all_eq_true

theorem IsTrimmed.trim_between (h : IsTrimmed cs) (hne : cs ≠ []) (hws : Blank ws)
    (hws' : Blank ws') : trim (ws ++ cs ++ ws') = cs := by
  have hstart : ∀ c ∈ (cs ++ ws').head?, isBlank c = false := by
    rw [List.head?_append_of_ne_nil _ hne]
    exact h.start
  unfold trim
  rw [List.append_assoc, trimStart_append hws, trimStart_eq_self hstart, trimEnd_append hws',
    trimEnd_eq_self h.finish]

theorem IsTrimmed.around (h : IsTrimmed first) (hne : first ≠ []) (h' : IsTrimmed last)
    (hne' : last ≠ []) (middle : List Char) : IsTrimmed (first ++ middle ++ last) where
  start c hc := by
    rw [List.append_assoc, List.head?_append_of_ne_nil _ hne] at hc
    exact h.start c hc
  finish c hc := by
    rw [List.getLast?_append_of_ne_nil _ hne'] at hc
    exact h'.finish c hc

theorem Blank.append (h : Blank ws) (h' : Blank ws') : Blank (ws ++ ws') :=
  List.forall_mem_append.2 ⟨h, h'⟩

end Text

namespace Selector

variable {depth : Nat} {cs ws ws' core term denial : List Char} {terms : List (List Char)}
  {k v : String} {r : Requirement} {rs : List Requirement} {text : String} {labels : Labels}

/-! What is cut at the commas keeps its blanks. -/

theorem IsFlat.append (h : IsFlat cs) (h' : IsFlat ws) : IsFlat (cs ++ ws) :=
  List.forall_mem_append.2 ⟨h, h'⟩

theorem isFlat_of_blank (h : Text.Blank ws) : IsFlat ws := fun _ hc =>
  ⟨ne_of_mem_of_not_mem hc (h.notMem (by decide)), ne_of_mem_of_not_mem hc (h.notMem (by decide)),
    ne_of_mem_of_not_mem hc (h.notMem (by decide))⟩

theorem IsTerm.append_flat (h : IsTerm depth cs) (hflat : IsFlat ws) :
    IsTerm depth (cs ++ ws) := by
  induction cs generalizing depth with
  | nil =>
    obtain rfl := isTerm_nil_iff.1 h
    exact hflat.isTerm
  | cons c cs ih =>
    obtain ⟨hcomma, d, hd, hrest⟩ := isTerm_cons_iff.1 h
    exact isTerm_cons_iff.2 ⟨hcomma, d, hd, ih hrest⟩

theorem IsTerm.flat_append (h : IsTerm depth cs) (hflat : IsFlat ws) : IsTerm depth (ws ++ cs) :=
  (isTerm_append_iff fun c hc =>
    ⟨(hflat c hc).1, (hflat c hc).2.1, fun heq => absurd heq (hflat c hc).2.2⟩).2 h

theorem isFlat_of_mem_signs {mark : List Char} {build : String → NameSet → Requirement}
    (h : (mark, build) ∈ signs) : IsFlat mark := by
  rcases mem_signs_iff.1 h with ⟨rfl, -⟩ | ⟨rfl, -⟩ | ⟨rfl, -⟩ <;> simp [IsFlat]

theorem isFlat_of_mem_setWords {word : List Char} {build : String → NameSet → Requirement}
    (h : (word, build) ∈ setWords) : IsFlat word := by
  rcases mem_setWords_iff.1 h with ⟨rfl, -⟩ | ⟨rfl, -⟩ <;> simp [IsFlat]

theorem Derives.isTerm (h : Derives cs r) : IsTerm 0 cs := by
  cases h with
  | present hk => exact hk.isPlain.isFlat.isTerm
  | absent hws hk =>
    have hmark : IsFlat ['!'] := by simp [IsFlat]
    exact ((hmark.append (isFlat_of_blank hws)).append hk.isPlain.isFlat).isTerm
  | sign hmark hk hws hws' hv =>
    have hbefore := (hk.isPlain.isFlat.append (isFlat_of_blank hws)).append
      (isFlat_of_mem_signs hmark)
    exact ((hbefore.append (isFlat_of_blank hws')).append hv.isPlain.isFlat).isTerm
  | set hword hk hws _ hws₁ hlist hws₂ =>
    have hbefore := ((hk.isPlain.isFlat.append (isFlat_of_blank hws)).append
      (isFlat_of_mem_setWords hword)).append (isFlat_of_blank hws₁)
    simpa using (isTerm_set hbefore hlist).append_flat (isFlat_of_blank hws₂)

/-! What is read has lost them. -/

theorem Derives.ne_nil (h : Derives cs r) : cs ≠ [] := by
  rintro rfl
  exact not_derives_of_error rfl r h

theorem derives_trim_of_isTrimmed (h : Derives cs r) (htrimmed : Text.IsTrimmed cs)
    (hws : Text.Blank ws) (hws' : Text.Blank ws') : Derives (Text.trim (ws ++ cs ++ ws')) r := by
  rwa [htrimmed.trim_between h.ne_nil hws hws']

/-- Blanks around a term change nothing, not even where they run into those before an empty value
or behind a list. -/
theorem Derives.trim (h : Derives cs r) (hws : Text.Blank ws) (hws' : Text.Blank ws') :
    Derives (Text.trim (ws ++ cs ++ ws')) r := by
  cases h with
  | present hk =>
    exact derives_trim_of_isTrimmed (.present hk) hk.solid.isTrimmed hws hws'
  | @absent ws₁ k hws₁ hk =>
    have hmark : Text.IsTrimmed ['!'] := Text.Solid.isTrimmed (by simp [Text.Solid]; decide)
    have htrimmed : Text.IsTrimmed ('!' :: ws₁ ++ k.toList) :=
      hmark.around (List.cons_ne_nil _ _) hk.solid.isTrimmed hk.toList_ne_nil ws₁
    exact derives_trim_of_isTrimmed (.absent hws₁ hk) htrimmed hws hws'
  | @sign k v ws₁ ws₂ mark build hmark hk hws₁ hws₂ hv =>
    have hmarkTrimmed : Text.IsTrimmed mark ∧ mark ≠ [] := by
      rcases mem_signs_iff.1 hmark with ⟨rfl, -⟩ | ⟨rfl, -⟩ | ⟨rfl, -⟩ <;>
        exact ⟨Text.Solid.isTrimmed (by simp [Text.Solid]; decide), by simp⟩
    by_cases hempty : v.toList = []
    · have htrimmed : Text.IsTrimmed (k.toList ++ ws₁ ++ mark) :=
        hk.solid.isTrimmed.around hk.toList_ne_nil hmarkTrimmed.1 hmarkTrimmed.2 ws₁
      have hderives : Derives (k.toList ++ ws₁ ++ mark ++ [] ++ v.toList) (build k (.ofList [v])) :=
        .sign hmark hk hws₁ .nil hv
      rw [hempty, List.append_nil, List.append_nil] at hderives
      simpa [hempty] using derives_trim_of_isTrimmed hderives htrimmed hws (hws₂.append hws')
    · have htrimmed : Text.IsTrimmed (k.toList ++ ws₁ ++ mark ++ ws₂ ++ v.toList) := by
        simpa using hk.solid.isTrimmed.around hk.toList_ne_nil hv.solid.isTrimmed hempty
          (ws₁ ++ mark ++ ws₂)
      exact derives_trim_of_isTrimmed (.sign hmark hk hws₁ hws₂ hv) htrimmed hws hws'
  | @set k vs ws₁ ws₂ ws₃ word list build hword hk hws₁ hne hws₂ hlist hws₃ =>
    have hclose : Text.IsTrimmed [')'] := Text.Solid.isTrimmed (by simp [Text.Solid]; decide)
    have htrimmed :
        Text.IsTrimmed (k.toList ++ ws₁ ++ word ++ ws₂ ++ '(' :: list ++ ')' :: []) := by
      simpa using hk.solid.isTrimmed.around hk.toList_ne_nil hclose (List.cons_ne_nil _ _)
        (ws₁ ++ word ++ ws₂ ++ '(' :: list)
    have hderives := Derives.set hword hk hws₁ hne hws₂ hlist .nil
    simpa using derives_trim_of_isTrimmed hderives htrimmed hws (hws₃.append hws')

/-- A term with blanks around it. -/
def Padded (core term : List Char) : Prop :=
  ∃ ws ws', Text.Blank ws ∧ Text.Blank ws' ∧ term = ws ++ core ++ ws'

/-- A term that is one of these once the blanks around it are taken off. -/
def Reads (term : List Char) (r : Requirement) : Prop := ∃ core, Derives core r ∧ Padded core term

theorem Reads.derives_trim (h : Reads term r) : Derives (Text.trim term) r := by
  obtain ⟨core, hcore, ws, ws', hws, hws', rfl⟩ := h
  exact hcore.trim hws hws'

theorem Reads.isTerm (h : Reads term r) : IsTerm 0 term := by
  obtain ⟨core, hcore, ws, ws', hws, hws', rfl⟩ := h
  exact (hcore.isTerm.flat_append (isFlat_of_blank hws)).append_flat (isFlat_of_blank hws')

theorem exists_reads_of_mem (h : List.Forall₂ Reads terms rs) (hterm : term ∈ terms) :
    ∃ r, Reads term r := by
  induction h with
  | nil => cases hterm
  | @cons _ r _ _ hfirst _ ih =>
    rcases List.mem_cons.1 hterm with rfl | hterm
    · exact ⟨r, hfirst⟩
    · exact ih hterm

theorem kept_of_reads (h : List.Forall₂ Reads terms rs) : kept terms = terms.map Text.trim := by
  refine List.filter_eq_self.2 fun piece hpiece => ?_
  obtain ⟨term, hterm, rfl⟩ := List.mem_map.1 hpiece
  obtain ⟨r, hr⟩ := exists_reads_of_mem h hterm
  simp [hr.derives_trim.ne_nil]

/-- Terms with commas between them are read one by one, whatever blanks are around them. -/
theorem parse_of_reads (h : List.Forall₂ Reads terms rs)
    (htext : text.toList = [','].intercalate terms) : parse text = .ok (.requirements rs) := by
  by_cases hne : terms = []
  · subst hne
    obtain rfl := List.forall₂_nil_left_iff.1 h
    obtain rfl : text = "" := String.toList_injective htext
    rfl
  · have hterm : ∀ term ∈ terms, IsTerm 0 term := fun term hmem =>
      (exists_reads_of_mem h hmem).elim fun _ => Reads.isTerm
    have hcut : IsCut text.toList terms :=
      ⟨hne, htext.symm, fun t ht => (isTerm_zero_iff.1 (hterm t ht)).1,
        fun t ht => (isTerm_zero_iff.1 (hterm t ht)).2⟩
    refine (parse_eq_ok_iff hcut).2 ⟨rs, ?_, rfl⟩
    rw [kept_of_reads h]
    exact List.forall₂_map_left_iff.2 (h.imp fun _ _ => Reads.derives_trim)

theorem parse_of_padded (h : Derives core r) (hpadded : Padded core text.toList) :
    parse text = .ok (.requirements [r]) :=
  parse_of_reads (.cons ⟨core, h, hpadded⟩ .nil) List.intercalate_singleton.symm

/-! The ways to write that a key has a value, and a term and its denial. -/

/-- A key with its value, behind one equal sign or two, or as the only one of a list. -/
inductive Spells (k v : String) : List Char → Prop
  | sign {ws ws' mark : List Char} (hmark : mark = ['='] ∨ mark = ['=', '='])
      (hws : Text.Blank ws) (hws' : Text.Blank ws') :
      Spells k v (k.toList ++ ws ++ mark ++ ws' ++ v.toList)
  | set {ws ws₁ ws₂ ws₃ : List Char} (hws : Text.Blank ws) (hne : ws ≠ [])
      (hws₁ : Text.Blank ws₁) (hws₂ : Text.Blank ws₂) (hws₃ : Text.Blank ws₃) :
      Spells k v (k.toList ++ ws ++ ['i', 'n'] ++ ws₁ ++ '(' :: (ws₂ ++ v.toList ++ ws₃) ++ [')'])

/-- A term and what it denies: that the key is there, that it has a value, or that its value is in
a list. -/
inductive Denies : List Char → List Char → Prop
  | key {k : String} {ws : List Char} (hk : IsKey k) (hws : Text.Blank ws) :
      Denies ('!' :: ws ++ k.toList) k.toList
  | value {k v : String} {ws ws' ws₁ ws₂ mark : List Char} (hk : IsKey k) (hv : IsValue v)
      (hws : Text.Blank ws) (hws' : Text.Blank ws') (hmark : mark = ['='] ∨ mark = ['=', '='])
      (hws₁ : Text.Blank ws₁) (hws₂ : Text.Blank ws₂) :
      Denies (k.toList ++ ws ++ ['!', '='] ++ ws' ++ v.toList)
        (k.toList ++ ws₁ ++ mark ++ ws₂ ++ v.toList)
  | list {k : String} {vs : List String} {ws ws' ws₁ ws₂ list list' : List Char} (hk : IsKey k)
      (hws : Text.Blank ws) (hne : ws ≠ []) (hws' : Text.Blank ws') (hlist : Lists list vs)
      (hws₁ : Text.Blank ws₁) (hne₁ : ws₁ ≠ []) (hws₂ : Text.Blank ws₂) (hlist' : Lists list' vs) :
      Denies (k.toList ++ ws ++ ['n', 'o', 't', 'i', 'n'] ++ ws' ++ '(' :: list ++ [')'])
        (k.toList ++ ws₁ ++ ['i', 'n'] ++ ws₂ ++ '(' :: list' ++ [')'])

theorem mem_signs_of_equal {mark : List Char} (h : mark = ['='] ∨ mark = ['=', '=']) :
    (mark, Requirement.oneOf) ∈ signs :=
  mem_signs_iff.2 (h.imp (⟨·, rfl⟩) fun h => .inl ⟨h, rfl⟩)

theorem Spells.derives (h : Spells k v core) (hk : IsKey k) (hv : IsValue v) :
    Derives core (.oneOf k (.ofList [v])) := by
  cases h with
  | sign hmark hws hws' => exact .sign (mem_signs_of_equal hmark) hk hws hws' hv
  | set hws hne hws₁ hws₂ hws₃ =>
    exact .set (mem_setWords_iff.2 (.inl ⟨rfl, rfl⟩)) hk hws hne hws₁ (.one hws₂ hws₃ hv) .nil

/-- The requirement of the denial holds of just those labels of which the other does not. -/
theorem Denies.derives (h : Denies denial core) : ∃ r r', Derives core r ∧ Derives denial r' ∧
    ∀ labels, r'.holds labels = !r.holds labels := by
  cases h with
  | @key k _ hk hws => exact ⟨.present k, .absent k, .present hk, .absent hws hk, fun _ => rfl⟩
  | @value k v _ _ _ _ _ hk hv hws hws' hmark hws₁ hws₂ =>
    have hunequal : (['!', '='], Requirement.noneOf) ∈ signs :=
      mem_signs_iff.2 (.inr (.inr ⟨rfl, rfl⟩))
    exact ⟨.oneOf k (.ofList [v]), .noneOf k (.ofList [v]),
      .sign (mem_signs_of_equal hmark) hk hws₁ hws₂ hv, .sign hunequal hk hws hws' hv,
      fun _ => rfl⟩
  | @list k vs _ _ _ _ _ _ hk hws hne hws' hlist hws₁ hne₁ hws₂ hlist' =>
    have hnotin : (['n', 'o', 't', 'i', 'n'], Requirement.noneOf) ∈ setWords :=
      mem_setWords_iff.2 (.inr ⟨rfl, rfl⟩)
    exact ⟨.oneOf k (.ofList vs), .noneOf k (.ofList vs),
      .set (mem_setWords_iff.2 (.inl ⟨rfl, rfl⟩)) hk hws₁ hne₁ hws₂ hlist' .nil,
      .set hnotin hk hws hne hws' hlist .nil, fun _ => rfl⟩

theorem holds_oneOf_singleton_iff :
    (Requirement.oneOf k (.ofList [v])).holds labels = true ↔ labels.find? k = some v := by
  have hmem : ∀ w, (NameSet.ofList [v]).contains w = true ↔ w = v := fun w =>
    NameMap.mem_keys_iff.symm.trans (NameSet.mem_toList_ofList.trans List.mem_singleton)
  simp only [Requirement.holds, Option.any_eq_true, hmem, exists_eq_right]

/-- The requirement that an entry of a map stands for. -/
def entryRequirement (e : String × String) : Requirement := .oneOf e.1 (.ofList [e.2])

theorem reads_of_spells {entries : List (String × String)}
    (hvalid : ∀ e ∈ entries, IsKey e.1 ∧ IsValue e.2)
    (h : List.Forall₂ (fun e term => ∃ core, Spells e.1 e.2 core ∧ Padded core term) entries
      terms) :
    List.Forall₂ Reads terms (entries.map entryRequirement) := by
  have hboth := (List.forall₂_and_left _ _).2 ⟨hvalid, h⟩
  refine (List.forall₂_map_left_iff.2 (hboth.imp fun e term he => ?_)).flip
  obtain ⟨⟨hk, hv⟩, core, hspells, hpadded⟩ := he
  exact ⟨core, hspells.derives hk hv, hpadded⟩

theorem selects_entryRequirements {wanted : Labels} {entries : List (String × String)}
    (h : entries.Perm wanted.entries) (labels : Labels) :
    (Selector.requirements (entries.map entryRequirement)).selects labels =
      (Selector.equalities wanted).selects labels := by
  refine Bool.eq_iff_iff.2 ?_
  rw [selects_requirements, selects_equalities, List.forall_mem_map, Prod.forall]
  refine forall_congr' fun k => forall_congr' fun v => ?_
  rw [h.mem_iff, NameMap.mem_entries_iff]
  exact imp_congr_right fun _ => holds_oneOf_singleton_iff

/-- However the entries of a map are written, and in whatever order, the text selects what has all
of them, as the map itself does. A term and its denial part all labels between them. -/
theorem spellings_agree :
    (∀ (wanted : Labels) (entries : List (String × String)) (terms : List (List Char))
      (text : String), (∀ e ∈ wanted.entries, IsKey e.1 ∧ IsValue e.2) →
        entries.Perm wanted.entries →
        List.Forall₂ (fun e term => ∃ core, Spells e.1 e.2 core ∧ Padded core term) entries terms →
        text.toList = [','].intercalate terms →
        ∃ s, parse text = .ok s ∧ ∀ labels,
          s.selects labels = (equalities wanted).selects labels ∧
          ((equalities wanted).selects labels = true ↔
            ∀ k v, wanted.find? k = some v → labels.find? k = some v)) ∧
    ∀ (denial core : List Char) (text text' : String), Denies denial core →
      Padded core text.toList → Padded denial text'.toList →
      ∃ s s', parse text = .ok s ∧ parse text' = .ok s' ∧
        ∀ labels, s'.selects labels = !s.selects labels := by
  refine ⟨fun wanted entries terms text hvalid hperm hspells htext => ?_,
    fun denial core text text' hdenies hpadded hpadded' => ?_⟩
  · have hreads := reads_of_spells (fun e he => hvalid e (hperm.mem_iff.1 he)) hspells
    exact ⟨_, parse_of_reads hreads htext, fun labels =>
      ⟨selects_entryRequirements hperm labels, selects_equalities⟩⟩
  · obtain ⟨r, r', hr, hr', hholds⟩ := hdenies.derives
    refine ⟨_, _, parse_of_padded hr hpadded, parse_of_padded hr' hpadded', fun labels => ?_⟩
    simpa [selects] using hholds labels

/-- The labels of a web app outside of any tier. -/
def untiered : Labels := .ofList [("app", "web"), ("tier", "")]

theorem untiered_spellings_agree :
    ((∀ e ∈ untiered.entries, IsKey e.1 ∧ IsValue e.2) ∧
      [("tier", ""), ("app", "web")].Perm untiered.entries ∧
      List.Forall₂ (fun e term => ∃ core, Spells e.1 e.2 core ∧ Padded core term)
        [("tier", ""), ("app", "web")] ["tier in\u2003( )\n".toList, " \u00a0app == web".toList] ∧
      ∃ s, parse "tier in\u2003( )\n, \u00a0app == web" = .ok s ∧ ∀ labels,
        s.selects labels = (equalities untiered).selects labels ∧
        ((equalities untiered).selects labels = true ↔
          ∀ k v, untiered.find? k = some v → labels.find? k = some v)) ∧
    Denies "tier notin (, web)".toList "tier in ( ,web )".toList ∧
      ∃ s s', parse " tier in ( ,web )" = .ok s ∧ parse "tier notin (, web)\t" = .ok s' ∧
        ∀ labels, s'.selects labels = !s.selects labels := by
  have hvalid : ∀ e ∈ untiered.entries, IsKey e.1 ∧ IsValue e.2 := by decide +kernel
  have hperm : [("tier", ""), ("app", "web")].Perm untiered.entries := by decide +kernel
  have hspells : List.Forall₂ (fun e term => ∃ core, Spells e.1 e.2 core ∧ Padded core term)
      [("tier", ""), ("app", "web")] ["tier in\u2003( )\n".toList, " \u00a0app == web".toList] := by
    refine .cons ⟨"tier in\u2003( )".toList, ?_, [], ['\n'], by decide, by decide, rfl⟩
      (.cons ⟨"app == web".toList, ?_, [' ', '\u00a0'], [], by decide, by decide, rfl⟩ .nil)
    · exact @Spells.set "tier" "" [' '] ['\u2003'] [' '] [] (by decide) (by decide) (by decide)
        (by decide) .nil
    · exact @Spells.sign "app" "web" [' '] [' '] ['=', '='] (.inr rfl) (by decide) (by decide)
  have hk : IsKey "tier" := by decide
  have hempty : IsValue "" := by decide
  have hweb : IsValue "web" := by decide
  have hlist : Lists ", web".toList ["", "web"] :=
    @Lists.cons [] [] _ "" _ .nil .nil hempty (@Lists.one [' '] [] "web" (by decide) .nil hweb)
  have hlist' : Lists " ,web ".toList ["", "web"] :=
    @Lists.cons [' '] [] _ "" _ (by decide) .nil hempty
      (@Lists.one [] [' '] "web" .nil (by decide) hweb)
  have hdenies : Denies "tier notin (, web)".toList "tier in ( ,web )".toList :=
    @Denies.list "tier" ["", "web"] [' '] [' '] [' '] [' '] _ _ hk (by decide) (by decide)
      (by decide) hlist (by decide) (by decide) (by decide) hlist'
  exact ⟨⟨hvalid, hperm, hspells, spellings_agree.1 untiered _ _ _ hvalid hperm hspells rfl⟩,
    hdenies, spellings_agree.2 _ _ _ _ hdenies ⟨[' '], [], by decide, .nil, rfl⟩
      ⟨[], ['\t'], .nil, by decide, rfl⟩⟩

end Selector

end WorkloadMap
