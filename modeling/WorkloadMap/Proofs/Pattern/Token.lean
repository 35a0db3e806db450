import WorkloadMap.Pattern.Token

/-!
Lexemes that are followed by a closing parenthesis. No lexeme that is complete without it goes on
with it, as it is no part of a name, a number or a mark that may still come. Main statement: what a
text begins with, its longer form begins with too.
-/
namespace WorkloadMap.Pattern

variable {α β : Type} {p : Char → Bool} {cs rest more : List Char} {c : Char}

/-- A reader that a closing parenthesis after what it read does not disturb. -/
def Undisturbed (read : List Char → Option (α × List Char)) : Prop :=
  ∀ cs a rest more, read cs = some (a, rest) →
    read (cs ++ ')' :: more) = some (a, rest ++ ')' :: more)

/-- A reader that does not care for a closing parenthesis after the text. -/
def Steady (read : List Char → Option (α × List Char)) : Prop :=
  ∀ cs more, read (cs ++ ')' :: more) = (read cs).map fun (a, rest) => (a, rest ++ ')' :: more)

theorem Steady.undisturbed {read : List Char → Option (α × List Char)} (h : Steady read) :
    Undisturbed read := by
  intro cs a rest more hread
  rw [h, hread]
  rfl

theorem Undisturbed.map {read : List Char → Option (α × List Char)} (h : Undisturbed read)
    (f : α → β) : Undisturbed fun cs => (read cs).map fun (a, rest) => (f a, rest) := by
  intro cs b rest more hread
  obtain ⟨⟨a, rest'⟩, ha, heq⟩ := Option.map_eq_some_iff.1 hread
  cases heq
  dsimp only
  rw [h _ _ _ more ha]
  rfl

/-- The parenthesis begins nothing that the text did not begin with. -/
theorem ne_append_paren (start : List Char) (hstart : ')' ∉ start)
    (h : ∀ rest, cs = start ++ rest → False) (more : List Char) :
    ∀ rest, cs ++ ')' :: more = start ++ rest → False := by
  intro rest heq
  rcases List.append_eq_append_iff.1 heq with ⟨_ | ⟨c, as⟩, hcs, hmore⟩ | ⟨as, hcs, -⟩
  · exact h [] (by rw [hcs, List.append_nil, List.append_nil])
  · cases hmore
    exact hstart (by simp [hcs])
  · exact h as hcs

theorem takeWhile_append_paren (h : p ')' = false) (cs more : List Char) :
    (cs ++ ')' :: more).takeWhile p = cs.takeWhile p := by
  induction cs with
  | nil => simp [h]
  | cons c cs ih => simp only [List.cons_append, List.takeWhile_cons, ih]

theorem drop_takeWhile_append (p : Char → Bool) (cs more : List Char) :
    (cs ++ more).drop (cs.takeWhile p).length = cs.drop (cs.takeWhile p).length ++ more :=
  List.drop_append_of_le_length (List.takeWhile_prefix p).length_le

/-- What ends before the text does ends there in any longer text. -/
theorem takeWhile_append_of_drop (h : cs.drop (cs.takeWhile p).length = c :: rest)
    (more : List Char) : (cs ++ more).takeWhile p = cs.takeWhile p := by
  have hshort : (cs.takeWhile p).length ≠ cs.length := by
    intro hall
    rw [hall, List.drop_length] at h
    cases h
  rw [List.takeWhile_append, if_neg hshort]

/-! Escapes. -/

theorem undisturbed_hexEscape? (width : Nat) : Undisturbed (hexEscape? width) := by
  intro cs c rest more h
  unfold hexEscape? at h
  split at h
  next ds =>
    dsimp only at h
    rw [List.cons_append, hexEscape?]
    split at h
    next hdrop =>
      rw [takeWhile_append_of_drop hdrop, drop_takeWhile_append, hdrop]
      split at h
      · cases h
      next hsome =>
        obtain ⟨a, ha, heq⟩ := Option.map_eq_some_iff.1 h
        cases heq
        rw [ha]
        exact if_neg hsome
    · cases h
  next hbrace =>
    split at h
    · cases h
    next hlong =>
      obtain ⟨a, ha, heq⟩ := Option.map_eq_some_iff.1 h
      cases heq
      have hle : width ≤ cs.length := Nat.le_of_not_lt hlong
      rw [hexEscape?, if_neg (by rw [List.length_append]; omega), List.take_append_of_le_length hle,
        List.drop_append_of_le_length hle, ha]
      · rfl
      · exact ne_append_paren ['\x7b'] (by decide) hbrace more

theorem undisturbed_boundary? : Undisturbed boundary? := by
  intro cs a rest more h
  unfold boundary? at h
  split at h
  next c ds =>
    dsimp only at h
    rw [List.cons_append, List.cons_append, boundary?]
    dsimp only
    split at h
    next hname =>
      rw [if_pos hname, ← List.cons_append, takeWhile_append_paren (by decide),
        drop_takeWhile_append]
      split at h
      next hdrop =>
        rw [hdrop]
        obtain ⟨a, ha, heq⟩ := Option.map_eq_some_iff.1 h
        cases heq
        exact Option.map_eq_some_iff.2 ⟨_, ha, rfl⟩
      · cases h
    next hname =>
      rw [if_neg hname]
      cases h
      rfl
  · cases h
  next hname hbrace =>
    cases h
    have hopen : ∀ ds, cs = ['\x7b'] ++ ds → False := by
      rintro (_ | ⟨c, ds⟩) heq
      · exact hbrace heq
      · exact hname c ds heq
    have hopen' := ne_append_paren _ (by decide) hopen more
    rw [boundary?]
    · exact fun c ds => hopen' (c :: ds)
    · exact hopen' []

theorem undisturbed_escape? : Undisturbed escape? := by
  intro cs e rest more h
  cases cs with
  | nil => cases h
  | cons c cs =>
    unfold escape? at h ⊢
    simp only [List.cons_append] at h ⊢
    split at h
    case h_1 => exact (undisturbed_hexEscape? 2).map Escape.char _ _ _ more h
    case h_2 => exact (undisturbed_hexEscape? 4).map Escape.char _ _ _ more h
    case h_3 => exact (undisturbed_hexEscape? 8).map Escape.char _ _ _ more h
    case h_21 => exact undisturbed_boundary?.map Escape.assertion _ _ _ more h
    case h_22 =>
      split at h
      next hmark =>
        cases h
        split <;> first | contradiction | rfl
      · cases h
    all_goals
      cases h
      rfl

/-! Sets in brackets. -/

/-- No name of a set has a parenthesis in it. -/
theorem paren_notMem_of_asciiRanges? {name : String} {rs : List (Char × Char)}
    (h : asciiRanges? name = some rs) : ')' ∉ name.toList := by
  unfold asciiRanges? at h
  split at h
  case h_15 => cases h
  all_goals decide

theorem steady_setName? : Steady setName? := by
  intro cs more
  unfold setName?
  cases hdrop : cs.drop (cs.takeWhile (· != ':')).length with
  | nil =>
    -- The name does not end before the parenthesis, so that it has one in it.
    have hall : (cs.takeWhile (· != ':')).length = cs.length :=
      Nat.le_antisymm (List.takeWhile_prefix _).length_le (List.drop_eq_nil_iff.1 hdrop)
    have hmem : ')' ∈ (cs ++ ')' :: more).takeWhile (· != ':') := by
      rw [List.takeWhile_append, if_pos hall]
      simp
    have hnone :
        asciiRanges? (String.ofList ((cs ++ ')' :: more).takeWhile (· != ':'))) = none := by
      rw [Option.eq_none_iff_forall_not_mem]
      exact fun rs hrs => paren_notMem_of_asciiRanges? hrs (by simpa using hmem)
    dsimp only
    rw [hnone, hdrop]
    split <;> rfl
  | cons c rest =>
    dsimp only
    rw [takeWhile_append_of_drop hdrop, drop_takeWhile_append, hdrop]
    rcases rest with _ | ⟨d, rest⟩
    · simp
    · simp only [List.cons_append]
      by_cases hend : c = ':' ∧ d = ']'
      · obtain ⟨rfl, rfl⟩ := hend
        cases asciiRanges? (String.ofList (cs.takeWhile (· != ':'))) <;> rfl
      · split <;> simp_all

theorem steady_namedSet? (caseless : Bool) : Steady (namedSet? caseless) := by
  intro cs more
  fun_cases namedSet? caseless cs with
  | case1 cs =>
    rw [List.cons_append, List.cons_append, namedSet?, steady_setName?, Option.map_map,
      Option.map_map]
    rfl
  | case2 cs hnegated =>
    rw [List.cons_append, namedSet?, steady_setName?, Option.map_map, Option.map_map]
    · rfl
    · exact ne_append_paren ['^'] (by decide) hnegated more
  | case3 cs hnegated hcolon =>
    rw [namedSet?]
    · rfl
    · exact ne_append_paren [':', '^'] (by decide) hnegated more
    · exact ne_append_paren [':'] (by decide) hcolon more

theorem undisturbed_setItem? : Undisturbed setItem? := by
  intro cs e rest more h
  unfold setItem? at h
  split at h
  · cases h
  · exact undisturbed_escape? _ _ _ more h
  next hslash =>
    cases h
    rw [List.cons_append, setItem?]
    exact hslash

theorem undisturbed_setRange? : Undisturbed setRange? := by
  intro cs s rest more h
  obtain ⟨⟨item, rest'⟩, hitem, h⟩ := Option.bind_eq_some_iff.1 h
  unfold setRange?
  rw [undisturbed_setItem? _ _ _ more hitem]
  simp only [Option.bind_eq_bind, Option.bind_some] at h ⊢
  split at h
  case h_1 | h_2 =>
    obtain ⟨set, hset, heq⟩ := Option.map_eq_some_iff.1 h
    cases heq
    exact Option.map_eq_some_iff.2 ⟨_, hset, rfl⟩
  next last hbracket hdash =>
    obtain ⟨⟨second, rest''⟩, hsecond, h⟩ := Option.bind_eq_some_iff.1 h
    split
    next heq =>
      exact (ne_append_paren [']'] (by decide) hbracket more _ (List.cons.inj heq).2).elim
    next heq =>
      exact (ne_append_paren ['-'] (by decide) hdash more _ (List.cons.inj heq).2).elim
    next heq =>
      obtain rfl := (List.cons.inj heq).2
      refine Option.bind_eq_some_iff.2 ⟨_, undisturbed_setItem? _ _ _ more hsecond, ?_⟩
      split at h
      next hpair _ =>
        cases hpair
        split at h
        next hle =>
          cases h
          exact if_pos hle
        · cases h
      · cases h
    next hno => exact (hno _ rfl).elim
  next hbracket hdash hno =>
    obtain ⟨set, hset, heq⟩ := Option.map_eq_some_iff.1 h
    cases heq
    have hno' := ne_append_paren ['-'] (by decide) hno more
    split
    next heq => exact (hno' _ heq).elim
    next heq => exact (hno' _ heq).elim
    next heq => exact (hno' _ heq).elim
    next => exact Option.map_eq_some_iff.2 ⟨_, hset, rfl⟩

theorem setSign_append_paren (cs more : List Char) :
    setSign (cs ++ ')' :: more) = ((setSign cs).1, (setSign cs).2 ++ ')' :: more) := by
  fun_cases setSign cs with
  | case1 => rfl
  | case2 cs hcaret =>
    rw [setSign]
    exact ne_append_paren ['^'] (by decide) hcaret more

theorem setFront_append_paren (cs more : List Char) :
    setFront (cs ++ ')' :: more) = ((setFront cs).1, (setFront cs).2 ++ ')' :: more) := by
  have hdashes : (cs ++ ')' :: more).takeWhile (· == '-') = cs.takeWhile (· == '-') :=
    takeWhile_append_paren (by decide) cs more
  unfold setFront
  dsimp only
  rw [hdashes]
  cases hfront : cs.takeWhile (· == '-') with
  | nil =>
    by_cases hclose : ∃ rest, cs = ']' :: rest
    · obtain ⟨rest, rfl⟩ := hclose
      rfl
    · have hclose := fun rest heq => hclose ⟨rest, heq⟩
      have hclose' := ne_append_paren [']'] (by decide) hclose more
      split <;> simp_all
  | cons d ds =>
    have hdrop := drop_takeWhile_append (· == '-') cs (')' :: more)
    rw [hfront] at hdrop
    exact congrArg _ hdrop

/-- More turns change nothing, nor does a parenthesis after the closing bracket. -/
theorem undisturbed_set (caseless : Bool) (n m : Nat) (hle : n ≤ m) :
    (∀ cs s depth rest more, bracketSet? caseless n cs = some (s, depth, rest) →
      bracketSet? caseless m (cs ++ ')' :: more) = some (s, depth, rest ++ ')' :: more)) ∧
    ∀ pending items cs s depth rest more,
      setBody? caseless n pending items cs = some (s, depth, rest) →
      setBody? caseless m pending items (cs ++ ')' :: more) =
        some (s, depth, rest ++ ')' :: more) := by
  induction n generalizing m with
  | zero => simp [bracketSet?, setBody?]
  | succ n ih =>
    obtain ⟨m, rfl⟩ := Nat.exists_eq_add_of_le' (Nat.le_trans (Nat.le_add_left 1 n) hle)
    obtain ⟨ihset, ihbody⟩ := ih m (Nat.le_of_succ_le_succ hle)
    refine ⟨fun cs s depth rest more h => ?_, fun pending items cs s depth rest more h => ?_⟩
    · rcases hsign : setSign cs with ⟨negated, inner⟩
      rcases hfront : setFront inner with ⟨items, body⟩
      rw [bracketSet?, hsign] at h
      dsimp only at h
      rw [hfront] at h
      obtain ⟨⟨t, d, rest'⟩, hbody, heq⟩ := Option.map_eq_some_iff.1 h
      cases heq
      rw [bracketSet?, setSign_append_paren, hsign]
      dsimp only
      rw [setFront_append_paren, hfront]
      dsimp only
      rw [ihbody _ _ _ _ _ _ more hbody]
      rfl
    · unfold setBody? at h
      split at h
      · cases h
      · cases h
      next heq =>
        cases heq
        cases h
        rfl
      next heq =>
        cases heq
        rw [List.cons_append, setBody?, steady_namedSet? caseless]
        split at h
        next hnamed =>
          rw [hnamed]
          exact ihbody _ _ _ _ _ _ more h
        next hnone =>
          rw [hnone]
          obtain ⟨⟨t, d, rest'⟩, hset, h⟩ := Option.bind_eq_some_iff.1 h
          exact Option.bind_eq_some_iff.2
            ⟨_, ihset _ _ _ _ more hset, ihbody _ _ _ _ _ _ more h⟩
      case h_5 heq | h_6 heq | h_7 heq =>
        cases heq
        exact ihbody _ _ _ _ _ _ more h
      next heq _ hclose hopen hinter hminus hdiffer =>
        cases heq
        obtain ⟨⟨t, rest'⟩, hrange, h⟩ := Option.bind_eq_some_iff.1 h
        rw [setBody?]
        · exact Option.bind_eq_some_iff.2
            ⟨_, undisturbed_setRange? _ _ _ more hrange, ihbody _ _ _ _ _ _ more h⟩
        · simp
        · exact ne_append_paren [']'] (by decide) hclose more
        · exact ne_append_paren ['['] (by decide) hopen more
        · exact ne_append_paren ['&', '&'] (by decide) hinter more
        · exact ne_append_paren ['-', '-'] (by decide) hminus more
        · exact ne_append_paren ['~', '~'] (by decide) hdiffer more

/-! Repetitions. -/

theorem dropLazy_append_paren (cs more : List Char) :
    dropLazy (cs ++ ')' :: more) = dropLazy cs ++ ')' :: more := by
  fun_cases dropLazy cs with
  | case1 => rfl
  | case2 cs hlazy =>
    rw [dropLazy]
    exact ne_append_paren ['?'] (by decide) hlazy more

theorem trimStart_append_paren (cs more : List Char) :
    Text.trimStart (cs ++ ')' :: more) = Text.trimStart cs ++ ')' :: more := by
  unfold Text.trimStart
  rw [List.dropWhile_append]
  split
  next hall =>
    rw [List.isEmpty_iff.1 hall]
    exact List.dropWhile_cons_of_neg (by decide)
  next => rfl

theorem steady_countOf? : Steady countOf? := by
  intro cs more
  unfold countOf?
  dsimp only
  rw [trimStart_append_paren, takeWhile_append_paren (by decide), drop_takeWhile_append,
    trimStart_append_paren]
  split <;> rfl

theorem steady_counts? : Steady counts? := by
  intro cs more
  unfold counts?
  rw [steady_countOf?]
  cases countOf? cs with
  | none => rfl
  | some found =>
    obtain ⟨least, rest⟩ := found
    have hbare : countOf? (')' :: more) = none := steady_countOf? [] more
    rcases rest with _ | ⟨c, rest⟩
    · rfl
    by_cases hc : c = '\x7d'
    · subst hc
      simp [dropLazy_append_paren]
    by_cases hcomma : c = ','
    · subst hcomma
      rcases rest with _ | ⟨d, rest⟩
      · have hnone : countOf? [] = none := rfl
        simp [hbare, hnone]
      by_cases hd : d = '\x7d'
      · subst hd
        simp [dropLazy_append_paren]
      · have hmost := steady_countOf? (d :: rest) more
        simp only [List.cons_append] at hmost
        cases hown : countOf? (d :: rest) with
        | none => simp [hd, hmost, hown]
        | some found =>
          obtain ⟨most, _ | ⟨e, after⟩⟩ := found
          · simp [hd, hmost, hown]
          by_cases he : e = '\x7d'
          · subst he
            by_cases hle : least ≤ most <;> simp [hd, hmost, hown, hle, dropLazy_append_paren]
          · simp [hd, hmost, hown, he]
    · simp [hc, hcomma]

/-! Groups. -/

theorem undisturbed_groupName? : Undisturbed groupName? := by
  intro cs name rest more h
  unfold groupName? at h ⊢
  dsimp only at h ⊢
  split at h
  next hname hdrop =>
    rw [takeWhile_append_of_drop hdrop, drop_takeWhile_append, hdrop, hname]
    rw [hname] at h
    simp only [List.cons_append]
    split at h
    next hsome =>
      rw [if_pos hsome]
      cases h
      rfl
    · cases h
  · cases h

theorem undisturbed_group? : Undisturbed group? := by
  intro cs t rest more h
  unfold group? at h
  split at h
  next => exact undisturbed_groupName?.map (fun name => Token.openNumbered (some name)) _ _ _ more h
  next => exact undisturbed_groupName?.map (fun name => Token.openNumbered (some name)) _ _ _ more h
  next cs hnamed hangle =>
    dsimp only at h
    rw [List.cons_append, group?]
    · split at h
      next hdrop =>
        rw [takeWhile_append_of_drop hdrop, drop_takeWhile_append, hdrop]
        obtain ⟨changes, hchanges, heq⟩ := Option.map_eq_some_iff.1 h
        cases heq
        exact Option.map_eq_some_iff.2 ⟨_, hchanges, rfl⟩
      next hcolon hdrop =>
        rw [takeWhile_append_of_drop hdrop, drop_takeWhile_append, hdrop]
        split at h
        · cases h
        next hletters =>
          obtain ⟨changes, hchanges, heq⟩ := Option.map_eq_some_iff.1 h
          cases heq
          split
          next heq =>
            cases heq
            exact (hcolon rfl).elim
          next heq =>
            cases heq
            rw [if_neg hletters]
            exact Option.map_eq_some_iff.2 ⟨_, hchanges, rfl⟩
          next heq => cases heq
      · cases h
    · exact ne_append_paren ['P', '<'] (by decide) hnamed more
    · exact ne_append_paren ['<'] (by decide) hangle more
  next hnamed hangle hflags =>
    cases h
    rw [group?]
    · exact ne_append_paren ['?', 'P', '<'] (by decide) hnamed more
    · exact ne_append_paren ['?', '<'] (by decide) hangle more
    · exact ne_append_paren ['?'] (by decide) hflags more

theorem undisturbed_token? (caseless : Bool) : Undisturbed (token? caseless) := by
  intro cs t rest more h
  unfold token? at h
  split at h
  next => cases h
  next => exact undisturbed_group? _ _ _ more h
  case h_3 | h_4 | h_5 | h_6 | h_7 =>
    cases h
    rfl
  case h_8 | h_9 | h_10 =>
    cases h
    rw [← dropLazy_append_paren]
    rfl
  next => exact steady_counts?.undisturbed _ _ _ more h
  next cs =>
    obtain ⟨⟨s, depth, rest'⟩, hset, heq⟩ := Option.map_eq_some_iff.1 h
    cases heq
    have hle : 2 * cs.length + 2 ≤ 2 * (cs ++ ')' :: more).length + 2 := by
      rw [List.length_append]
      omega
    rw [List.cons_append, token?, (undisturbed_set caseless _ _ hle).1 _ _ _ _ more hset]
    rfl
  next cs =>
    obtain ⟨⟨e, rest'⟩, hescape, heq⟩ := Option.map_eq_some_iff.1 h
    rw [List.cons_append, token?, undisturbed_escape? _ _ _ more hescape]
    cases e <;> cases heq <;> rfl
  next =>
    cases h
    rw [List.cons_append, token?] <;> assumption

end WorkloadMap.Pattern
