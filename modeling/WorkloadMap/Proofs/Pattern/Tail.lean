import WorkloadMap.Proofs.Pattern.Token

/-!
Lexemes of a text that a parenthesis and a dollar follow. What needs more than the text takes the
parenthesis too. Main statement: a lexeme that the text does not begin with by itself leaves at most
the dollar, or it leaves a brace that nothing can follow.
-/
namespace WorkloadMap.Pattern

variable {α : Type} {p : Char → Bool} {cs rest : List Char} {c : Char} {caseless : Bool} {n m : Nat}

/-! What is left of a text is an end of it. -/

theorem suffix_of_drop (ds : List Char) (h : cs.drop n = ds ++ rest) : rest <:+ cs :=
  (List.suffix_append ds rest).trans (h ▸ List.drop_suffix n cs)

theorem suffix_hexEscape? {width : Nat} (h : hexEscape? width cs = some (c, rest)) :
    rest <:+ cs := by
  unfold hexEscape? at h
  split at h
  · dsimp only at h
    split at h
    next hdrop =>
      split at h
      · cases h
      · obtain ⟨a, -, heq⟩ := Option.map_eq_some_iff.1 h
        cases heq
        exact (suffix_of_drop [_] hdrop).trans (List.suffix_cons _ _)
    · cases h
  · split at h
    · cases h
    · obtain ⟨a, -, heq⟩ := Option.map_eq_some_iff.1 h
      cases heq
      exact List.drop_suffix _ _

theorem suffix_boundary? {a : Assertion} (h : boundary? cs = some (a, rest)) : rest <:+ cs := by
  unfold boundary? at h
  split at h
  · dsimp only at h
    split at h
    · split at h
      next hdrop =>
        obtain ⟨a, -, heq⟩ := Option.map_eq_some_iff.1 h
        cases heq
        exact (suffix_of_drop [_] hdrop).trans (List.suffix_cons _ _)
      · cases h
    · cases h
      exact List.suffix_rfl
  · cases h
  · cases h
    exact List.suffix_rfl

theorem suffix_escape? {e : Escape} (h : escape? cs = some (e, rest)) : rest <:+ cs.tail := by
  cases cs with
  | nil => cases h
  | cons c cs =>
    unfold escape? at h
    simp only at h
    split at h
    case h_1 | h_2 | h_3 =>
      obtain ⟨_, hread, heq⟩ := Option.map_eq_some_iff.1 h
      cases heq
      exact suffix_hexEscape? hread
    case h_21 =>
      obtain ⟨_, hread, heq⟩ := Option.map_eq_some_iff.1 h
      cases heq
      exact suffix_boundary? hread
    case h_22 =>
      split at h
      · cases h
        exact List.suffix_rfl
      · cases h
    all_goals
      cases h
      exact List.suffix_rfl

theorem suffix_setItem? {e : Escape} (h : setItem? cs = some (e, rest)) : rest <:+ cs.tail := by
  unfold setItem? at h
  split at h
  · cases h
  · exact (suffix_escape? h).trans (List.tail_suffix _)
  · cases h
    exact List.suffix_rfl

/-- What follows a range follows its first item. -/
theorem suffix_of_setItem? {s : CharSet} {item : Escape} {after : List Char}
    (hitem : setItem? cs = some (item, after)) (h : setRange? cs = some (s, rest)) :
    rest <:+ after := by
  unfold setRange? at h
  rw [hitem] at h
  simp only [Option.bind_eq_bind, Option.bind_some] at h
  split at h
  case h_1 | h_2 =>
    obtain ⟨_, -, heq⟩ := Option.map_eq_some_iff.1 h
    cases heq
    exact List.suffix_rfl
  case h_3 =>
    obtain ⟨⟨last, rest'⟩, hlast, h⟩ := Option.bind_eq_some_iff.1 h
    split at h
    next hpair _ =>
      cases hpair
      split at h
      · cases h
        exact ((suffix_setItem? hlast).trans (List.tail_suffix _)).trans (List.suffix_cons _ _)
      · cases h
    · cases h
  case h_4 =>
    obtain ⟨_, -, heq⟩ := Option.map_eq_some_iff.1 h
    cases heq
    exact List.suffix_rfl

theorem suffix_setRange? {s : CharSet} (h : setRange? cs = some (s, rest)) : rest <:+ cs.tail := by
  obtain ⟨⟨item, after⟩, hitem, -⟩ := Option.bind_eq_some_iff.1 h
  exact (suffix_of_setItem? hitem h).trans (suffix_setItem? hitem)

theorem suffix_namedSet? {s : CharSet} (h : namedSet? caseless cs = some (s, rest)) :
    rest <:+ cs := by
  have hname : ∀ {cs : List Char} {rs : List (Char × Char)}, setName? cs = some (rs, rest) →
      rest <:+ cs := by
    intro cs rs h
    unfold setName? at h
    dsimp only at h
    split at h
    next hdrop =>
      obtain ⟨_, -, heq⟩ := Option.map_eq_some_iff.1 h
      cases heq
      exact suffix_of_drop [_, _] hdrop
    · cases h
  unfold namedSet? at h
  split at h
  · obtain ⟨_, hread, heq⟩ := Option.map_eq_some_iff.1 h
    cases heq
    exact (hname hread).trans (List.suffix_append [_, _] _)
  · obtain ⟨_, hread, heq⟩ := Option.map_eq_some_iff.1 h
    cases heq
    exact (hname hread).trans (List.suffix_cons _ _)
  · cases h

theorem suffix_setSign (cs : List Char) : (setSign cs).2 <:+ cs := by
  unfold setSign
  split
  · exact List.suffix_cons _ _
  · exact List.suffix_rfl

theorem suffix_setFront (cs : List Char) : (setFront cs).2 <:+ cs := by
  unfold setFront
  dsimp only
  split
  · exact List.suffix_cons _ _
  · exact List.suffix_rfl
  · exact List.drop_suffix _ _

/-- A set ends in its closing bracket. -/
theorem suffix_set (caseless : Bool) (n : Nat) :
    (∀ cs s depth rest, bracketSet? caseless n cs = some (s, depth, rest) → ']' :: rest <:+ cs) ∧
    ∀ pending items cs s depth rest,
      setBody? caseless n pending items cs = some (s, depth, rest) → ']' :: rest <:+ cs := by
  induction n with
  | zero => simp [bracketSet?, setBody?]
  | succ n ih =>
    obtain ⟨ihset, ihbody⟩ := ih
    refine ⟨fun cs s depth rest h => ?_, fun pending items cs s depth rest h => ?_⟩
    · rw [bracketSet?] at h
      obtain ⟨⟨t, d, rest'⟩, hbody, heq⟩ := Option.map_eq_some_iff.1 h
      cases heq
      exact (ihbody _ _ _ _ _ _ hbody).trans ((suffix_setFront _).trans (suffix_setSign cs))
    · unfold setBody? at h
      split at h
      · cases h
      · cases h
      next =>
        cases h
        exact List.suffix_rfl
      next heq =>
        cases heq
        split at h
        next hnamed =>
          have hafter := (suffix_namedSet? hnamed).trans (List.suffix_cons '[' _)
          exact (ihbody _ _ _ _ _ _ h).trans hafter
        next =>
          obtain ⟨⟨t, d, rest'⟩, hset, h⟩ := Option.bind_eq_some_iff.1 h
          have hinner := (List.suffix_cons _ _).trans (ihset _ _ _ _ hset)
          exact (ihbody _ _ _ _ _ _ h).trans (hinner.trans (List.suffix_cons _ _))
      case h_5 heq | h_6 heq | h_7 heq =>
        cases heq
        exact (ihbody _ _ _ _ _ _ h).trans (List.suffix_append [_, _] _)
      next heq _ _ _ _ _ _ =>
        cases heq
        obtain ⟨⟨t, rest'⟩, hrange, h⟩ := Option.bind_eq_some_iff.1 h
        exact (ihbody _ _ _ _ _ _ h).trans ((suffix_setRange? hrange).trans (List.tail_suffix _))

/-! Lexemes that are not complete. -/

/-- What does not end in a text does not end at its new end. -/
theorem drop_append_end (hparen : p ')' = true) (hdollar : p '$' = true)
    (h : cs.drop (cs.takeWhile p).length = []) :
    (cs ++ [')', '$']).drop ((cs ++ [')', '$']).takeWhile p).length = [] := by
  have hall : (cs.takeWhile p).length = cs.length :=
    Nat.le_antisymm (List.takeWhile_prefix p).length_le (List.drop_eq_nil_iff.1 h)
  rw [List.takeWhile_append, if_pos hall]
  simp [hparen, hdollar]

theorem mapM_eq_none {f : Char → Option α} (hmem : c ∈ cs) (h : f c = none) :
    cs.mapM f = none := by
  induction cs with
  | nil => cases hmem
  | cons d cs ih =>
    rw [List.mapM_cons]
    rcases List.mem_cons.1 hmem with rfl | hmem
    · rw [h]
      rfl
    · rw [ih hmem]
      cases f d <;> rfl

theorem charOfHex?_of_paren (h : ')' ∈ cs) : charOfHex? cs = none := by
  unfold charOfHex?
  rw [mapM_eq_none h (by decide)]
  rfl

theorem hexEscape?_append_end {width : Nat} (h : hexEscape? width cs = none) :
    hexEscape? width (cs ++ [')', '$']) = none := by
  unfold hexEscape? at h
  split at h
  next ds =>
    dsimp only at h
    rw [List.cons_append, hexEscape?]
    split at h
    next hdrop =>
      rw [takeWhile_append_of_drop hdrop, drop_takeWhile_append, hdrop]
      split at h
      next hempty => exact if_pos hempty
      next hsome =>
        rw [Option.map_eq_none_iff.1 h]
        exact if_neg hsome
    next hdrop =>
      rw [drop_append_end (by decide) (by decide) hdrop]
  next hbrace =>
    rw [hexEscape?]
    · split at h
      next hshort =>
        have hparen : ')' ∈ (cs ++ [')', '$']).take width := by
          rw [List.take_append]
          obtain ⟨k, hk⟩ := Nat.exists_eq_add_of_lt hshort
          simp [show width - cs.length = k + 1 by omega]
        split
        · rfl
        · rw [charOfHex?_of_paren hparen]
          rfl
      next hlong =>
        have hle : width ≤ cs.length := Nat.le_of_not_lt hlong
        rw [if_neg (by rw [List.length_append]; omega), List.take_append_of_le_length hle,
          Option.map_eq_none_iff.1 h]
        rfl
    · exact ne_append_paren ['\x7b'] (by decide) hbrace ['$']

/-- Only a lone brace is told apart by what follows it. -/
theorem boundary?_append_end {a : Assertion} (hnone : boundary? cs = none)
    (h : boundary? (cs ++ [')', '$']) = some (a, rest)) : rest = '\x7b' :: [')', '$'] := by
  unfold boundary? at hnone
  split at hnone
  next c ds =>
    rw [List.cons_append, List.cons_append, boundary?] at h
    dsimp only at h hnone
    split at hnone
    next hname =>
      rw [if_pos hname, ← List.cons_append, takeWhile_append_paren (by decide),
        drop_takeWhile_append] at h
      cases hdrop : (c :: ds).drop ((c :: ds).takeWhile isNameChar).length with
      | nil =>
        rw [hdrop] at h
        cases h
      | cons d after =>
        rw [hdrop] at h hnone
        split at hnone
        next heq =>
          cases heq
          obtain ⟨_, hnamed, -⟩ := Option.map_eq_some_iff.1 h
          rw [Option.map_eq_none_iff.1 hnone] at hnamed
          cases hnamed
        next hclose =>
          split at h
          next heq =>
            cases heq
            exact (hclose _ rfl).elim
          · cases h
    · cases hnone
  · cases h
    rfl
  · cases hnone

theorem escape?_append_end {e : Escape} (hnone : escape? cs = none)
    (h : escape? (cs ++ [')', '$']) = some (e, rest)) :
    rest <:+ ['$'] ∨ ∃ a, e = .assertion a ∧ rest = '\x7b' :: [')', '$'] := by
  cases cs with
  | nil =>
    cases h
    exact .inl List.suffix_rfl
  | cons c cs =>
    unfold escape? at h hnone
    simp only [List.cons_append] at h hnone
    split at hnone
    case h_1 | h_2 | h_3 =>
      rw [hexEscape?_append_end (Option.map_eq_none_iff.1 hnone)] at h
      cases h
    case h_21 =>
      obtain ⟨⟨a, rest'⟩, hread, heq⟩ := Option.map_eq_some_iff.1 h
      cases heq
      exact .inr ⟨a, rfl, boundary?_append_end (Option.map_eq_none_iff.1 hnone) hread⟩
    case h_22 =>
      split at hnone
      · cases hnone
      next hmark =>
        split at h
        case h_22 =>
          rw [if_neg hmark] at h
          cases h
        all_goals contradiction
    all_goals cases hnone

theorem setItem?_append_end {e : Escape} (hnone : setItem? cs = none)
    (h : setItem? (cs ++ [')', '$']) = some (e, rest)) :
    rest <:+ ['$'] ∨ ∃ a, e = .assertion a := by
  unfold setItem? at hnone
  split at hnone
  · cases h
    exact .inl List.suffix_rfl
  next cs =>
    exact (escape?_append_end hnone h).imp_right fun ⟨a, ha, _⟩ => ⟨a, ha⟩
  · cases hnone

theorem setRange?_append_end {s : CharSet} (hnone : setRange? cs = none)
    (h : setRange? (cs ++ [')', '$']) = some (s, rest)) : rest <:+ ['$'] := by
  cases hitem : setItem? cs with
  | none =>
    obtain ⟨⟨item, after⟩, hitem', hrange⟩ := Option.bind_eq_some_iff.1 h
    rcases setItem?_append_end hitem hitem' with hshort | ⟨a, rfl⟩
    · exact (suffix_of_setItem? hitem' h).trans hshort
    · -- No assertion is an item of a set.
      dsimp only at hrange
      split at hrange
      case h_3 =>
        obtain ⟨_, -, hrange⟩ := Option.bind_eq_some_iff.1 hrange
        cases hrange
      all_goals cases hrange
  | some found =>
    obtain ⟨item, after⟩ := found
    unfold setRange? at h hnone
    rw [undisturbed_setItem? _ _ _ ['$'] hitem] at h
    rw [hitem] at hnone
    simp only [Option.bind_eq_bind, Option.bind_some] at h hnone
    split at hnone
    case h_1 | h_2 =>
      simp only [List.cons_append] at h
      rw [Option.map_eq_none_iff.1 hnone] at h
      cases h
    next last hbracket hdash =>
      split at h
      next heq =>
        exact (ne_append_paren [']'] (by decide) hbracket ['$'] _ (List.cons.inj heq).2).elim
      next heq =>
        exact (ne_append_paren ['-'] (by decide) hdash ['$'] _ (List.cons.inj heq).2).elim
      next heq =>
        obtain rfl := (List.cons.inj heq).2
        obtain ⟨⟨second, rest'⟩, hsecond, hpair⟩ := Option.bind_eq_some_iff.1 h
        split at hpair
        next heq' =>
          cases heq'
          split at hpair
          next hle =>
            cases hpair
            cases hlast : setItem? last with
            | none =>
              rcases setItem?_append_end hlast hsecond with hshort | ⟨a, ha⟩
              · exact hshort
              · cases ha
            | some found =>
              obtain ⟨second, after'⟩ := found
              have hboth := undisturbed_setItem? _ _ _ ['$'] hlast
              rw [show last ++ [')', '$'] = last.append [')', '$'] from rfl, hsecond] at hboth
              cases hboth
              rw [hlast, Option.bind_some] at hnone
              dsimp only at hnone
              rw [if_pos hle] at hnone
              cases hnone
          · cases hpair
        · cases hpair
      next hno => exact (hno _ rfl).elim
    next hbracket hdash hno =>
      have hno' := ne_append_paren ['-'] (by decide) hno ['$']
      split at h
      next heq => exact (hno' _ heq).elim
      next heq => exact (hno' _ heq).elim
      next heq => exact (hno' _ heq).elim
      next =>
        rw [Option.map_eq_none_iff.1 hnone] at h
        cases h

/-- A set that ends before the parenthesis is there by itself, in as many turns as it needs. -/
theorem set_of_append_end (caseless : Bool) (m : Nat) :
    (∀ cs s depth rest n, bracketSet? caseless m (cs ++ [')', '$']) = some (s, depth, rest) →
      2 * cs.length + 2 ≤ n →
      ∃ rest', rest = rest' ++ [')', '$'] ∧ bracketSet? caseless n cs = some (s, depth, rest')) ∧
    ∀ pending items cs s depth rest n,
      setBody? caseless m pending items (cs ++ [')', '$']) = some (s, depth, rest) →
      2 * cs.length + 1 ≤ n →
      ∃ rest', rest = rest' ++ [')', '$'] ∧
        setBody? caseless n pending items cs = some (s, depth, rest') := by
  induction m with
  | zero => simp [bracketSet?, setBody?]
  | succ m ih =>
    obtain ⟨ihset, ihbody⟩ := ih
    refine ⟨fun cs s depth rest n h hn => ?_, fun pending items cs s depth rest n h hn => ?_⟩
    · obtain ⟨n, rfl⟩ := Nat.exists_eq_add_of_le' (Nat.le_trans (Nat.le_add_left 1 _) hn)
      rcases hsign : setSign cs with ⟨negated, inner⟩
      rcases hfront : setFront inner with ⟨items, body⟩
      have hbody : body <:+ cs := by
        have hinner := suffix_setFront inner
        have hcs := suffix_setSign cs
        rw [hfront] at hinner
        rw [hsign] at hcs
        exact hinner.trans hcs
      rw [bracketSet?, setSign_append_paren, hsign] at h
      dsimp only at h
      rw [setFront_append_paren, hfront] at h
      obtain ⟨⟨t, d, rest'⟩, hread, heq⟩ := Option.map_eq_some_iff.1 h
      cases heq
      dsimp only at hread
      have hlength := hbody.length_le
      obtain ⟨rest', rfl, hset⟩ := ihbody _ _ _ _ _ _ n hread (by omega)
      refine ⟨rest', rfl, ?_⟩
      rw [bracketSet?, hsign]
      dsimp only
      rw [hfront]
      dsimp only
      rw [hset]
      rfl
    · have hclose := (suffix_set caseless _).2 _ _ _ _ _ _ h
      fun_cases setBody? caseless n pending items cs
      case case1 => cases hn
      case case2 => simpa using hclose.subset List.mem_cons_self
      case case3 after t d hfinish =>
        rw [List.cons_append, setBody?, hfinish] at h
        cases h
        exact ⟨after, rfl, rfl⟩
      case case4 n after t named hnamed =>
        rw [List.cons_append, setBody?, steady_namedSet? caseless, hnamed] at h
        have hlength := (suffix_namedSet? hnamed).length_le
        rw [List.length_cons] at hn
        exact ihbody _ _ _ _ _ _ n h (by omega)
      case case5 n after hnone =>
        rw [List.cons_append, setBody?, steady_namedSet? caseless, hnone] at h
        obtain ⟨⟨t, d, rest'⟩, hset, h⟩ := Option.bind_eq_some_iff.1 h
        rw [List.length_cons] at hn
        obtain ⟨rest', rfl, hset'⟩ := ihset _ _ _ _ n hset (by omega)
        have hlength := ((suffix_set caseless _).1 _ _ _ _ hset').length_le
        rw [List.length_cons] at hlength
        obtain ⟨rest'', rfl, hbody⟩ := ihbody _ _ _ _ _ _ n h (by omega)
        exact ⟨rest'', rfl, Option.bind_eq_some_iff.2 ⟨_, hset', hbody⟩⟩
      case case6 n after | case7 n after | case8 n after =>
        rw [List.length_cons, List.length_cons] at hn
        exact ihbody _ _ _ _ _ _ n h (by omega)
      case case9 n hnil hend hopen hinter hminus hdiffer =>
        rw [setBody?] at h
        · obtain ⟨⟨t, after⟩, hrange, h⟩ := Option.bind_eq_some_iff.1 h
          cases hown : setRange? cs with
          | none =>
            -- The range took the parenthesis, so that no bracket is left to close the set.
            have hshort := setRange?_append_end hown hrange
            have hbracket := (suffix_set caseless _).2 _ _ _ _ _ _ h
            simpa using (hbracket.trans hshort).subset List.mem_cons_self
          | some found =>
            obtain ⟨t', after'⟩ := found
            have hboth := undisturbed_setRange? _ _ _ ['$'] hown
            rw [hrange] at hboth
            cases hboth
            have hlength := (suffix_setRange? hown).length_le
            have hpos : 0 < cs.length := List.length_pos_iff.2 hnil
            rw [List.length_tail] at hlength
            obtain ⟨rest', rfl, hbody⟩ := ihbody _ _ _ _ _ _ n h (by omega)
            exact ⟨rest', rfl, Option.bind_eq_some_iff.2 ⟨_, rfl, hbody⟩⟩
        · simp
        · exact ne_append_paren [']'] (by decide) hend ['$']
        · exact ne_append_paren ['['] (by decide) hopen ['$']
        · exact ne_append_paren ['&', '&'] (by decide) hinter ['$']
        · exact ne_append_paren ['-', '-'] (by decide) hminus ['$']
        · exact ne_append_paren ['~', '~'] (by decide) hdiffer ['$']

theorem groupName?_append_end (h : groupName? cs = none) :
    groupName? (cs ++ [')', '$']) = none := by
  unfold groupName? at h ⊢
  dsimp only at h ⊢
  cases hdrop : cs.drop (cs.takeWhile (· != '>')).length with
  | nil =>
    rw [drop_append_end (by decide) (by decide) hdrop]
    split <;> simp_all
  | cons c after =>
    rw [takeWhile_append_of_drop hdrop, drop_takeWhile_append, hdrop]
    rw [hdrop] at h
    split at h
    next hname _ =>
      rw [hname] at h ⊢
      split at h
      · cases h
      next hbad => exact if_neg hbad
    next hname =>
      split
      next hname' heq => exact (hname _ _ _ _ hname' rfl).elim
      · rfl

theorem group?_append_end {t : Token} (hnone : group? cs = none)
    (h : group? (cs ++ [')', '$']) = some (t, rest)) : rest <:+ ['$'] := by
  unfold group? at hnone
  split at hnone
  case h_1 cs | h_2 cs =>
    simp only [List.cons_append] at h
    rw [group?, groupName?_append_end (Option.map_eq_none_iff.1 hnone)] at h
    cases h
  case h_3 cs hnamed hangle =>
    dsimp only at hnone
    rw [List.cons_append, group?] at h
    · rw [takeWhile_append_paren (by decide), drop_takeWhile_append] at h
      cases hdrop : cs.drop (cs.takeWhile fun c => c != ':' && c != ')').length with
      | nil =>
        -- The letters end at the parenthesis, and only the dollar is left.
        rw [hdrop, List.nil_append] at h
        split at h
        next heq => cases heq
        next heq =>
          cases heq
          split at h
          · cases h
          · obtain ⟨_, -, heq⟩ := Option.map_eq_some_iff.1 h
            cases heq
            exact List.suffix_rfl
        next heq => cases heq
      | cons c after =>
        rw [hdrop] at h hnone
        by_cases hcolon : c = ':'
        · subst hcolon
          simp only [List.cons_append] at h hnone
          rw [Option.map_eq_none_iff.1 hnone] at h
          cases h
        · simp only [List.cons_append] at h hnone
          split at hnone
          next hempty =>
            rw [if_pos hempty] at h
            cases h
          next hletters =>
            rw [if_neg hletters, Option.map_eq_none_iff.1 hnone] at h
            cases h
    · exact ne_append_paren ['P', '<'] (by decide) hnamed ['$']
    · exact ne_append_paren ['<'] (by decide) hangle ['$']
  case h_4 => cases hnone

theorem token?_append_end {t : Token} (hnone : token? caseless cs = none)
    (h : token? caseless (cs ++ [')', '$']) = some (t, rest)) :
    rest <:+ ['$'] ∨ rest = '\x7b' :: [')', '$'] := by
  unfold token? at hnone
  split at hnone
  case h_1 =>
    cases h
    exact .inl List.suffix_rfl
  case h_2 => exact .inl (group?_append_end hnone h)
  case h_11 =>
    rw [List.cons_append, token?, steady_counts?, hnone] at h
    cases h
  case h_12 cs =>
    obtain ⟨⟨s, depth, rest'⟩, hset, heq⟩ := Option.map_eq_some_iff.1 h
    obtain ⟨_, -, hset'⟩ := (set_of_append_end caseless _).1 _ _ _ _ _ hset (Nat.le_refl _)
    rw [Option.map_eq_none_iff.1 hnone] at hset'
    cases hset'
  case h_13 cs =>
    obtain ⟨⟨e, rest'⟩, hread, heq⟩ := Option.map_eq_some_iff.1 h
    obtain rfl : rest' = rest := by cases e <;> cases heq <;> rfl
    rcases escape?_append_end (Option.map_eq_none_iff.1 hnone) hread with hshort | ⟨-, -, hbrace⟩
    · exact .inl hshort
    · exact .inr hbrace
  all_goals cases hnone

end WorkloadMap.Pattern
