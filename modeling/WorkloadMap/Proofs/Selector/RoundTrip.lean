import WorkloadMap.Proofs.NameMap
import WorkloadMap.Proofs.Selector.Parse

/-!
Requirements written as text. Main statement: what is written is read back as it was, and whatever
is read can be written, so that no accepted text means more than what is written of it.
-/
namespace WorkloadMap

namespace Requirement

/-- Values are in ascending order, with commas between them. -/
def render : Requirement → String
  | .oneOf key values => key ++ " in (" ++ ",".intercalate values.toList ++ ")"
  | .noneOf key values => key ++ " notin (" ++ ",".intercalate values.toList ++ ")"
  | .present key => key
  | .absent key => "!" ++ key

/-- The key and the values are such as the grammar has, and where there are values to be compared
with, there is one at least. -/
def IsWellFormed : Requirement → Prop
  | .oneOf key values | .noneOf key values =>
    Selector.IsKey key ∧ values.toList ≠ [] ∧ ∀ v ∈ values.toList, Selector.IsValue v
  | .present key | .absent key => Selector.IsKey key

end Requirement

namespace Selector

/-- Requirements have commas between them. -/
def render (rs : List Requirement) : String :=
  ",".intercalate (rs.map Requirement.render)

variable {k : String} {vs : List String} {cs list : List Char} {r : Requirement}
  {rs : List Requirement} {text : String} {s : Selector}

/-! What is derived can be written. -/

theorem Lists.values (h : Lists list vs) : vs ≠ [] ∧ ∀ v ∈ vs, IsValue v := by
  induction h with
  | one _ _ hv => simpa using hv
  | cons _ _ hv _ ih => exact ⟨List.cons_ne_nil _ _, List.forall_mem_cons.2 ⟨hv, ih.2⟩⟩

theorem isWellFormed_build {build : String → NameSet → Requirement}
    (hbuild : build = .oneOf ∨ build = .noneOf) (hk : IsKey k) (hne : vs ≠ [])
    (hvs : ∀ v ∈ vs, IsValue v) : (build k (.ofList vs)).IsWellFormed := by
  have hvalues : (NameSet.ofList vs).toList ≠ [] ∧
      ∀ v ∈ (NameSet.ofList vs).toList, IsValue v := by
    obtain ⟨v, hv⟩ := List.exists_mem_of_ne_nil vs hne
    exact ⟨List.ne_nil_of_mem (NameSet.mem_toList_ofList.2 hv),
      fun w hw => hvs w (NameSet.mem_toList_ofList.1 hw)⟩
  rcases hbuild with rfl | rfl
  · exact ⟨hk, hvalues⟩
  · exact ⟨hk, hvalues⟩

theorem Derives.isWellFormed (h : Derives cs r) : r.IsWellFormed := by
  cases h with
  | present hk => exact hk
  | absent _ hk => exact hk
  | @sign k v _ _ _ build hmark hk _ _ hv =>
    have hbuild : build = .oneOf ∨ build = .noneOf := by
      rcases mem_signs_iff.1 hmark with ⟨-, h⟩ | ⟨-, h⟩ | ⟨-, h⟩
      · exact .inl h
      · exact .inl h
      · exact .inr h
    exact isWellFormed_build hbuild hk (List.cons_ne_nil _ _) (by simpa using hv)
  | @set k vs _ _ _ _ _ build hword hk _ _ _ hlist _ =>
    have hbuild : build = .oneOf ∨ build = .noneOf :=
      (mem_setWords_iff.1 hword).imp And.right And.right
    exact isWellFormed_build hbuild hk hlist.values.1 hlist.values.2

/-! What is written is derived. -/

theorem lists_render (hne : vs ≠ []) (hvs : ∀ v ∈ vs, IsValue v) :
    Lists (",".intercalate vs).toList vs := by
  have hread : List.Forall₂ (fun piece v => value (Text.trim piece) = .ok v)
      (vs.map String.toList) vs := by
    refine List.forall₂_map_left_iff.2 (List.forall₂_same.2 fun v hv => ?_)
    rw [(hvs v hv).solid.isTrimmed.trim_eq]
    exact value_toList (hvs v hv)
  rw [String.toList_intercalate]
  exact lists_intercalate hread (by simpa using hne)

theorem derives_set_render {word : List Char} {build : String → NameSet → Requirement}
    {values : NameSet} (hword : (word, build) ∈ setWords) (hk : IsKey k)
    (hne : values.toList ≠ []) (hvs : ∀ v ∈ values.toList, IsValue v) :
    Derives (k.toList ++ [' '] ++ word ++ [' '] ++
      '(' :: (",".intercalate values.toList).toList ++ [')']) (build k values) := by
  have hspace : Text.Blank [' '] := by simp [Text.Blank]; decide
  have hderives := Derives.set hword hk hspace (List.cons_ne_nil _ _) hspace
    (lists_render hne hvs) .nil
  rwa [NameSet.ofList_toList] at hderives

theorem derives_render (h : r.IsWellFormed) : Derives r.render.toList r := by
  cases r with
  | oneOf k values =>
    obtain ⟨hk, hne, hvs⟩ := h
    have hword : (['i', 'n'], Requirement.oneOf) ∈ setWords :=
      mem_setWords_iff.2 (.inl ⟨rfl, rfl⟩)
    simpa [Requirement.render] using derives_set_render hword hk hne hvs
  | noneOf k values =>
    obtain ⟨hk, hne, hvs⟩ := h
    have hword : (['n', 'o', 't', 'i', 'n'], Requirement.noneOf) ∈ setWords :=
      mem_setWords_iff.2 (.inr ⟨rfl, rfl⟩)
    simpa [Requirement.render] using derives_set_render hword hk hne hvs
  | present k => exact .present h
  | absent k => simpa [Requirement.render] using Derives.absent .nil h

/-! What is written is one piece. -/

theorem Lists.paren_notMem (h : Lists list vs) : '(' ∉ list ∧ ')' ∉ list := by
  have hblank : ∀ {ws : List Char}, Text.Blank ws → '(' ∉ ws ∧ ')' ∉ ws :=
    fun hws => ⟨hws.notMem (by decide), hws.notMem (by decide)⟩
  have hvalue : ∀ {v : String}, IsValue v → '(' ∉ v.toList ∧ ')' ∉ v.toList :=
    fun hv => ⟨hv.isPlain.ne (by decide), hv.isPlain.ne (by decide)⟩
  induction h with
  | one hws hws' hv => simp [hblank hws, hblank hws', hvalue hv]
  | cons hws hws' hv _ ih => simp [hblank hws, hblank hws', hvalue hv, ih]

/-- The commas of a list are inside of the parentheses around it. -/
theorem isTerm_set {before : List Char} (hbefore : IsFlat before) (hlist : Lists list vs) :
    IsTerm 0 (before ++ '(' :: (list ++ [')'])) := by
  obtain ⟨hopen, hclose⟩ := hlist.paren_notMem
  have hend : IsTerm 1 [')'] :=
    isTerm_cons_iff.2 ⟨by simp, 0, by simp, isTerm_nil_iff.2 rfl⟩
  have hinner : IsTerm 1 (list ++ [')']) :=
    (isTerm_append_iff fun c hc => ⟨ne_of_mem_of_not_mem hc hopen,
      ne_of_mem_of_not_mem hc hclose, fun _ => Nat.one_ne_zero⟩).2 hend
  refine (isTerm_append_iff fun c hc => ?_).2 (isTerm_cons_iff.2 ⟨by simp, 1, by simp, hinner⟩)
  obtain ⟨hne, hne', hcomma⟩ := hbefore c hc
  exact ⟨hne, hne', fun h => absurd h hcomma⟩

theorem isPiece_set {middle : List Char} (hk : IsKey k) (hmiddle : IsFlat middle)
    (hlist : Lists list vs) : IsPiece (k.toList ++ (middle ++ '(' :: (list ++ [')']))) := by
  have hflat : IsFlat (k.toList ++ middle) := List.forall_mem_append.2 ⟨hk.isPlain.isFlat, hmiddle⟩
  have hterm := isTerm_set hflat hlist
  rw [List.append_assoc] at hterm
  refine ⟨hterm, ⟨fun c hc => ?_, fun c hc => ?_⟩, by simp⟩
  · rw [List.head?_append_of_ne_nil _ hk.toList_ne_nil] at hc
    exact hk.solid c (List.mem_of_mem_head? hc)
  · obtain rfl : ')' = c := by simpa [List.getLast?_cons] using hc
    decide

theorem isPiece_render (h : r.IsWellFormed) : IsPiece r.render.toList := by
  cases r with
  | oneOf k values =>
    obtain ⟨hk, hne, hvs⟩ := h
    have hin : IsFlat [' ', 'i', 'n', ' '] := by simp [IsFlat]
    simpa [Requirement.render] using isPiece_set hk hin (lists_render hne hvs)
  | noneOf k values =>
    obtain ⟨hk, hne, hvs⟩ := h
    have hnotin : IsFlat [' ', 'n', 'o', 't', 'i', 'n', ' '] := by simp [IsFlat]
    simpa [Requirement.render] using isPiece_set hk hnotin (lists_render hne hvs)
  | present k => exact h.isPlain.isPiece h.toList_ne_nil
  | absent k =>
    have hflat : IsFlat ('!' :: k.toList) :=
      List.forall_mem_cons.2 ⟨by decide, h.isPlain.isFlat⟩
    have hsolid : Text.Solid ('!' :: k.toList) := List.forall_mem_cons.2 ⟨by decide, h.solid⟩
    simpa [Requirement.render] using hflat.isPiece hsolid.isTrimmed (List.cons_ne_nil _ _)

theorem parse_render_of_isWellFormed (h : ∀ r ∈ rs, r.IsWellFormed) :
    parse (render rs) = .ok (.requirements rs) := by
  cases rs with
  | nil => rfl
  | cons r others =>
    have htext : (render (r :: others)).toList =
        [','].intercalate ((r :: others).map fun r => r.render.toList) := by
      unfold render
      rw [String.toList_intercalate, List.map_map]
      rfl
    refine parse_of_isPiece (by simp) (fun term hterm => ?_) htext ?_
    · obtain ⟨r', hr', rfl⟩ := List.mem_map.1 hterm
      exact isPiece_render (h r' hr')
    · exact List.forall₂_map_left_iff.2
        (List.forall₂_same.2 fun r' hr' => derives_render (h r' hr'))

theorem isWellFormed_of_forall₂ {pieces : List (List Char)} (h : List.Forall₂ Derives pieces rs) :
    ∀ r ∈ rs, r.IsWellFormed := by
  induction h with
  | nil => simp
  | cons hderives _ ih => exact List.forall_mem_cons.2 ⟨hderives.isWellFormed, ih⟩

theorem isWellFormed_of_parse (h : parse text = .ok s) :
    ∃ rs, s = .requirements rs ∧ ∀ r ∈ rs, r.IsWellFormed := by
  have hbalanced : Balanced text.toList := by
    by_contra hnot
    rw [parse_eq_unbalanced_iff.2 hnot] at h
    cases h
  obtain ⟨terms, hcut⟩ := exists_isCut hbalanced
  obtain ⟨rs, hderives, rfl⟩ := (parse_eq_ok_iff hcut).1 h
  exact ⟨rs, rfl, isWellFormed_of_forall₂ hderives⟩

/-- Well-formed requirements are read back as they were written, and there are no others: to write
what has been read and to read it again changes nothing. -/
theorem parse_render :
    (∀ rs : List Requirement, (∀ r ∈ rs, r.IsWellFormed) →
      parse (render rs) = .ok (.requirements rs)) ∧
    ∀ text s, parse text = .ok s → ∃ rs, s = .requirements rs ∧ (∀ r ∈ rs, r.IsWellFormed) ∧
      parse (render rs) = parse text := by
  refine ⟨fun rs => parse_render_of_isWellFormed, fun text s h => ?_⟩
  obtain ⟨rs, rfl, hrs⟩ := isWellFormed_of_parse h
  exact ⟨rs, rfl, hrs, (parse_render_of_isWellFormed hrs).trans h.symm⟩

/-- A key may look like a word, and a value may be empty. -/
example : parse " in in ( in,,in ) ," = .ok (.requirements [.oneOf "in" (.ofList ["", "in"])]) ∧
    render [.oneOf "in" (.ofList ["", "in"])] = "in in (,in)" := by
  decide

end Selector

end WorkloadMap
