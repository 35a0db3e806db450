import WorkloadMap.Proofs.Selector.Requirement

/-!
What is said of a piece that is no requirement. Main statement: the text that is at fault is a part
of the piece.
-/
namespace WorkloadMap.Selector

variable {cs before after list : List Char} {build : String → NameSet → Requirement}

/-- What an error names is a part of the piece that is no key or no value, or all of the piece. -/
def Error.Blames (piece : List Char) : Error → Prop
  | .key text => text.toList <:+: piece ∧ ¬IsKey text
  | .value text => text.toList <:+: piece ∧ ¬IsValue text
  | .requirement text => text.toList = piece
  | .unbalanced _ => False

variable {e : Error}

theorem blames_of_key (hpart : before <:+: cs) (h : key before = .error e) : e.Blames cs := by
  have hnot : ¬IsKey (String.ofList before) := by
    intro hk
    rw [key_eq_ok_iff.2 ⟨String.toList_ofList.symm, hk⟩] at h
    cases h
  unfold key at h
  split at h
  next => cases h
  next =>
    obtain rfl := Except.error.inj h
    exact ⟨by rwa [String.toList_ofList], hnot⟩

theorem blames_of_value (hpart : after <:+: cs) (h : value after = .error e) : e.Blames cs := by
  have hnot : ¬IsValue (String.ofList after) := by
    intro hv
    rw [value_eq_ok_iff.2 ⟨String.toList_ofList.symm, hv⟩] at h
    cases h
  unfold value at h
  split at h
  next => cases h
  next =>
    obtain rfl := Except.error.inj h
    exact ⟨by rwa [String.toList_ofList], hnot⟩

theorem infix_of_trim (cs : List Char) : Text.trim cs <:+: cs := by
  obtain ⟨ws, ws', -, -, hcs⟩ := Text.exists_trim cs
  exact ⟨ws, ws', hcs.symm⟩

theorem infix_of_mem_intercalate {pieces : List (List Char)} {piece : List Char}
    (h : piece ∈ pieces) : piece <:+: [','].intercalate pieces := by
  induction pieces with
  | nil => cases h
  | cons first rest ih =>
    cases rest with
    | nil =>
      obtain rfl := List.mem_singleton.1 h
      exact ⟨[], [], by simp⟩
    | cons second rest =>
      rw [List.intercalate_cons_cons]
      rcases List.mem_cons.1 h with rfl | h
      · exact ⟨[], _, by rw [List.nil_append, List.append_assoc]⟩
      · exact (ih h).trans (List.suffix_append _ _).isInfix

theorem blames_of_valueRequirement (hbefore : before <:+: cs) (hafter : after <:+: cs)
    (h : valueRequirement build before after = .error e) : e.Blames cs := by
  unfold valueRequirement at h
  cases hkey : key (Text.trim before) with
  | error e' =>
    rw [hkey] at h
    obtain rfl := Except.error.inj h
    exact blames_of_key ((infix_of_trim before).trans hbefore) hkey
  | ok k =>
    cases hvalue : value (Text.trim after) with
    | ok v => simp [hkey, hvalue, bind, Except.bind, pure, Except.pure] at h
    | error e' =>
      rw [hkey, hvalue] at h
      obtain rfl := Except.error.inj h
      exact blames_of_value ((infix_of_trim after).trans hafter) hvalue

theorem blames_of_listRequirement {name : List Char} (hname : name <:+: cs) (hlist : list <:+: cs)
    (h : listRequirement build name list = .error e) : e.Blames cs := by
  unfold listRequirement at h
  cases hvalues : (Text.pieces (· == ',') list).mapM fun v => value (Text.trim v) with
  | error e' =>
    rw [hvalues] at h
    obtain rfl := Except.error.inj h
    obtain ⟨first, piece, rest, hpieces, -, hvalue⟩ := mapM_eq_error_iff.1 hvalues
    have hpiece : piece <:+: list := by
      rw [Text.pieces_eq_splitOnP, ← List.splitOn_eq_splitOnP] at hpieces
      have hjoined : [','].intercalate (list.splitOn ',') = list := List.intercalate_splitOn ','
      rw [← hjoined, hpieces]
      exact infix_of_mem_intercalate (by simp)
    exact blames_of_value (((infix_of_trim piece).trans hpiece).trans hlist) hvalue
  | ok vs =>
    cases hkey : key name with
    | ok k => simp [hvalues, hkey, bind, Except.bind, pure, Except.pure] at h
    | error e' =>
      rw [hvalues, hkey] at h
      obtain rfl := Except.error.inj h
      exact blames_of_key hname hkey

/-- A piece is never said to be unbalanced, as what is said of it names a part of it. -/
theorem requirement_blames (h : requirement cs = .error e) : e.Blames cs := by
  have hparts : ∀ {mark before after}, Text.splitOnce mark cs = some (before, after) →
      before <:+: cs ∧ after <:+: cs := by
    intro mark before after hsplit
    rw [Text.splitOnce_append hsplit]
    exact ⟨⟨[], mark ++ after, by simp⟩, ⟨before ++ mark, [], by simp⟩⟩
  unfold requirement at h
  split at h
  next before after hsplit =>
    by_cases hshape : ∃ name list build, SetShape before after name list build
    · obtain ⟨name, list, build, hshape⟩ := hshape
      rw [setRequirement_of_shape hshape] at h
      obtain ⟨⟨word, -, hwords⟩, ws, -, hafter⟩ := hshape
      obtain ⟨ws₁, ws₂, ws₃, -, -, -, -, -, -, -, -, hbefore⟩ := Text.words_eq_pair_iff.1 hwords
      have hname : name <:+: before := ⟨ws₁, ws₂ ++ word ++ ws₃, by rw [hbefore]; simp⟩
      have hlist : list <:+: after := ⟨[], ')' :: ws, by rw [hafter]; rfl⟩
      exact blames_of_listRequirement (hname.trans (hparts hsplit).1)
        (hlist.trans (hparts hsplit).2) h
    · rw [setRequirement_of_not_shape fun name list build hs => hshape ⟨name, list, build, hs⟩] at h
      obtain rfl := Except.error.inj h
      exact String.toList_ofList
  next =>
    split at h
    next after hopen =>
      have hafter : after <:+: '!' :: after := (List.suffix_cons '!' after).isInfix
      exact blames_of_key ((infix_of_trim after).trans hafter) (error_of_map_eq_error h)
    next =>
      split at h
      next hsplit => exact blames_of_valueRequirement (hparts hsplit).1 (hparts hsplit).2 h
      next =>
        split at h
        next hsplit => exact blames_of_valueRequirement (hparts hsplit).1 (hparts hsplit).2 h
        next =>
          split at h
          next hsplit => exact blames_of_valueRequirement (hparts hsplit).1 (hparts hsplit).2 h
          next => exact blames_of_key List.infix_rfl (error_of_map_eq_error h)

end WorkloadMap.Selector
