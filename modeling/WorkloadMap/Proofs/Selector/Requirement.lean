import Mathlib.Data.List.Forall2
import WorkloadMap.Proofs.Selector.Grammar

/-!
How one piece is read. Main statement: a piece without blanks around it is read as a requirement
exactly if the grammar derives that requirement from it.
-/
namespace WorkloadMap.Selector

variable {cs before after list : List Char} {r : Requirement} {k v : String}
  {build : String → NameSet → Requirement}

/-! Lists that are read element by element, up to the first fault. -/

theorem mapM_cons_of_error {α β ε : Type} {f : α → Except ε β} {x : α} {e : ε}
    (h : f x = .error e) (xs : List α) : (x :: xs).mapM f = .error e := by
  rw [List.mapM_cons, h]
  rfl

theorem mapM_cons_of_ok {α β ε : Type} {f : α → Except ε β} {x : α} {y : β}
    (h : f x = .ok y) (xs : List α) : (x :: xs).mapM f = (xs.mapM f).map (y :: ·) := by
  rw [List.mapM_cons, h]
  cases xs.mapM f <;> rfl

theorem mapM_eq_ok_iff {α β ε : Type} {f : α → Except ε β} {xs : List α} {ys : List β} :
    xs.mapM f = .ok ys ↔ List.Forall₂ (fun x y => f x = .ok y) xs ys := by
  induction xs generalizing ys with
  | nil => cases ys <;> simp [pure, Except.pure]
  | cons x xs ih =>
    cases hx : f x with
    | error e =>
      rw [mapM_cons_of_error hx]
      cases ys <;> simp [hx]
    | ok y =>
      rw [mapM_cons_of_ok hx]
      cases hxs : xs.mapM f with
      | error e => cases ys <;> simp [Except.map, ← ih, hxs]
      | ok zs => cases ys <;> simp [Except.map, ← ih, hxs, hx]

/-- The fault is that of the first element that has one. -/
theorem mapM_eq_error_iff {α β ε : Type} {f : α → Except ε β} {xs : List α} {e : ε} :
    xs.mapM f = .error e ↔ ∃ before x after, xs = before ++ x :: after ∧
      (∀ y ∈ before, ∃ z, f y = .ok z) ∧ f x = .error e := by
  constructor
  · intro h
    induction xs with
    | nil => cases h
    | cons x xs ih =>
      cases hx : f x with
      | error e' =>
        rw [mapM_cons_of_error hx] at h
        obtain rfl := Except.error.inj h
        exact ⟨[], x, xs, rfl, by simp, hx⟩
      | ok y =>
        rw [mapM_cons_of_ok hx] at h
        cases hxs : xs.mapM f with
        | ok ys =>
          rw [hxs] at h
          cases h
        | error e' =>
          rw [hxs] at h
          obtain rfl := Except.error.inj h
          obtain ⟨before, x', after, rfl, hbefore, hx'⟩ := ih hxs
          refine ⟨x :: before, x', after, rfl, fun z hz => ?_, hx'⟩
          rcases List.mem_cons.1 hz with rfl | hz
          · exact ⟨y, hx⟩
          · exact hbefore z hz
  · rintro ⟨before, x, after, rfl, hbefore, hx⟩
    induction before with
    | nil => exact mapM_cons_of_error hx after
    | cons y before ih =>
      obtain ⟨z, hz⟩ := hbefore y List.mem_cons_self
      rw [List.cons_append, mapM_cons_of_ok hz,
        ih fun w hw => hbefore w (List.mem_cons_of_mem y hw)]
      rfl

theorem exists_of_map_eq_ok {α β ε : Type} {x : Except ε α} {f : α → β} {b : β}
    (h : x.map f = .ok b) : ∃ a, x = .ok a ∧ f a = b := by
  cases x with
  | error e => cases h
  | ok a => exact ⟨a, rfl, Except.ok.inj h⟩

theorem error_of_map_eq_error {α β ε : Type} {x : Except ε α} {f : α → β} {e : ε}
    (h : x.map f = .error e) : x = .error e := by
  cases x with
  | error e' => exact congrArg Except.error (Except.error.inj h)
  | ok a => cases h

/-! Lists of values. -/

theorem lists_intercalate {pieces : List (List Char)} {vs : List String}
    (h : List.Forall₂ (fun piece v => value (Text.trim piece) = .ok v) pieces vs)
    (hne : pieces ≠ []) : Lists ([','].intercalate pieces) vs := by
  induction h with
  | nil => exact absurd rfl hne
  | @cons piece v pieces vs hv hrest ih =>
    obtain ⟨ws, ws', hws, hws', hvalue, rfl⟩ := value_trim_eq_ok_iff.1 hv
    cases hrest with
    | nil =>
      rw [List.intercalate_singleton]
      exact .one hws hws' hvalue
    | cons hsecond hothers =>
      have hlists := ih (List.cons_ne_nil _ _)
      rw [List.intercalate_cons_cons, List.append_assoc, List.singleton_append]
      exact .cons hws hws' hvalue hlists

theorem comma_notMem {ws ws' : List Char} (hws : Text.Blank ws) (hws' : Text.Blank ws')
    (hv : IsValue v) : ',' ∉ ws ++ v.toList ++ ws' := by
  have hsolid : Text.isBlank ',' = false := by decide
  simp [hws.notMem hsolid, hws'.notMem hsolid, hv.isPlain.ne (c := ',') (by decide)]

theorem lists_iff {vs : List String} :
    ((Text.pieces (· == ',') cs).mapM fun v => value (Text.trim v)) = .ok vs ↔ Lists cs vs := by
  rw [mapM_eq_ok_iff, Text.pieces_eq_splitOnP, ← List.splitOn_eq_splitOnP]
  constructor
  · intro h
    have hlists := lists_intercalate h (List.splitOn_ne_nil ',' cs)
    rwa [List.intercalate_splitOn] at hlists
  · intro h
    induction h with
    | @one ws ws' v hws hws' hv =>
      rw [List.splitOn_eq_singleton (comma_notMem hws hws' hv)]
      exact .cons (value_trim_eq_ok_iff.2 ⟨ws, ws', hws, hws', hv, rfl⟩) .nil
    | @cons ws ws' rest v vs hws hws' hv hrest ih =>
      rw [List.splitOn_append_cons_self_of_not_mem (comma_notMem hws hws' hv)]
      exact .cons (value_trim_eq_ok_iff.2 ⟨ws, ws', hws, hws', hv, rfl⟩) ih

/-! Requirements with an operator. -/

theorem valueRequirement_eq_ok_iff : valueRequirement build before after = .ok r ↔
    ∃ k v, key (Text.trim before) = .ok k ∧ value (Text.trim after) = .ok v ∧
      r = build k (.ofList [v]) := by
  unfold valueRequirement
  cases hk : key (Text.trim before) with
  | error e => simp [bind, Except.bind]
  | ok k =>
    cases hv : value (Text.trim after) with
    | error e => simp [bind, Except.bind]
    | ok v => simp [bind, Except.bind, pure, Except.pure, eq_comm]

/-- What is behind the opening parenthesis ends with the closing one, but for blanks. -/
theorem reverse_trimEnd_iff : (Text.trimEnd after).reverse = ')' :: list.reverse ↔
    ∃ ws, Text.Blank ws ∧ after = list ++ ')' :: ws := by
  constructor
  · intro h
    obtain ⟨ws, hws, hafter⟩ := Text.exists_trimEnd after
    have htrim : Text.trimEnd after = list ++ [')'] := by
      rw [← List.reverse_inj, h]
      simp
    exact ⟨ws, hws, by rw [hafter, htrim]; simp⟩
  · rintro ⟨ws, hws, rfl⟩
    have hshape : list ++ ')' :: ws = (list ++ [')']) ++ ws := by simp
    have hend : Text.trimEnd (list ++ [')']) = list ++ [')'] :=
      Text.trimEnd_eq_self fun c hc => by
        obtain rfl : ')' = c := by simpa using hc
        decide
    rw [hshape, Text.trimEnd_append hws, hend]
    simp

/-- What is read of a name and a list of values whose surroundings are in order. -/
def listRequirement (build : String → NameSet → Requirement) (name list : List Char) :
    Except Error Requirement := do
  let values ← (Text.pieces (· == ',') list).mapM fun v => value (Text.trim v)
  let name ← key name
  return build name (.ofList values)

theorem listRequirement_eq_ok_iff {name : List Char} : listRequirement build name list = .ok r ↔
    ∃ k vs, key name = .ok k ∧ Lists list vs ∧ r = build k (.ofList vs) := by
  unfold listRequirement
  simp only [← lists_iff]
  cases (Text.pieces (· == ',') list).mapM fun v => value (Text.trim v) with
  | error e => simp [bind, Except.bind]
  | ok vs =>
    cases key name with
    | error e => simp [bind, Except.bind]
    | ok k => simp [bind, Except.bind, pure, Except.pure, eq_comm]

/-- The surroundings of a list of values: a name and a word before it, a parenthesis behind it. -/
structure SetShape (before after name list : List Char) (build : String → NameSet → Requirement) :
    Prop where
  words : ∃ word, (word, build) ∈ setWords ∧ Text.words before = [name, word]
  closed : ∃ ws, Text.Blank ws ∧ after = list ++ ')' :: ws

theorem setRequirement_of_shape {term name : List Char}
    (h : SetShape before after name list build) :
    setRequirement term before after = listRequirement build name list := by
  obtain ⟨⟨word, hword, hwords⟩, hclosed⟩ := h
  unfold setRequirement
  rw [reverse_trimEnd_iff.2 hclosed, hwords]
  rcases mem_setWords_iff.1 hword with ⟨rfl, rfl⟩ | ⟨rfl, rfl⟩
  · simp [listRequirement]
  · simp [listRequirement]

theorem setRequirement_of_not_shape {term : List Char}
    (h : ∀ name list build, ¬SetShape before after name list build) :
    setRequirement term before after = .error (.requirement (String.ofList term)) := by
  unfold setRequirement
  split
  next inner hafter =>
    split
    next name word hwords =>
      have hclosed := reverse_trimEnd_iff.1 (hafter.trans (by rw [List.reverse_reverse]))
      have hword : ∀ build, (word, build) ∉ setWords :=
        fun build hmem => h name inner.reverse build ⟨⟨word, hmem, hwords⟩, hclosed⟩
      have hin : word ≠ ['i', 'n'] := by
        rintro rfl
        exact hword .oneOf (mem_setWords_iff.2 (.inl ⟨rfl, rfl⟩))
      have hnotin : word ≠ ['n', 'o', 't', 'i', 'n'] := by
        rintro rfl
        exact hword .noneOf (mem_setWords_iff.2 (.inr ⟨rfl, rfl⟩))
      simp [hin, hnotin]
    next => rfl
  next => rfl

/-! A piece is read in one of three ways. -/

theorem requirement_of_paren (h : Text.splitOnce ['('] cs = some (before, after)) :
    requirement cs = setRequirement cs before after := by
  unfold requirement
  rw [h]

theorem requirement_of_bang (hopen : '(' ∉ after) :
    requirement ('!' :: after) = (key (Text.trim after)).map .absent := by
  unfold requirement
  rw [Text.splitOnce_eq_none ⟨'(', List.mem_singleton_self _, by simp [hopen]⟩]
  rfl

/-- The signs are looked for in turn. -/
theorem requirement_of_signs (hopen : '(' ∉ cs) (hbang : '!' ∉ cs.head?) :
    requirement cs = match Text.splitOnce ['!', '='] cs with
      | some (before, after) => valueRequirement .noneOf before after
      | none =>
        match Text.splitOnce ['=', '='] cs with
        | some (before, after) => valueRequirement .oneOf before after
        | none =>
          match Text.splitOnce ['='] cs with
          | some (before, after) => valueRequirement .oneOf before after
          | none => (key cs).map .present := by
  unfold requirement
  rw [Text.splitOnce_eq_none ⟨'(', List.mem_singleton_self _, hopen⟩]
  dsimp only
  split
  next rest => exact absurd rfl hbang
  next => rfl

/-! Every derivation is read as it says. -/

/-- Neither keys nor blanks have anything in them that an operator begins with. -/
theorem notMem_key_append {c : Char} {ws : List Char} (hc : c = '(' ∨ c = '!' ∨ c = '=')
    (hk : IsKey k) (hws : Text.Blank ws) : c ∉ k.toList ++ ws := by
  have hsolid : Text.isBlank c = false := by rcases hc with rfl | rfl | rfl <;> decide
  have hkey : c ∉ k.toList := by
    rcases hc with rfl | rfl | rfl
    · exact hk.isPlain.ne (by decide)
    · exact hk.isPlain.ne (by decide)
    · exact notMem_of_isKey hk
  simp [hkey, hws.notMem hsolid]

theorem notMem_append_value {c : Char} {ws : List Char} (hc : c = '(' ∨ c = '!' ∨ c = '=')
    (hws : Text.Blank ws) (hv : IsValue v) : c ∉ ws ++ v.toList := by
  have hsolid : Text.isBlank c = false := by rcases hc with rfl | rfl | rfl <;> decide
  have hvalue : c ∉ v.toList := by
    rcases hc with rfl | rfl | rfl
    · exact hv.isPlain.ne (by decide)
    · exact hv.isPlain.ne (by decide)
    · exact notMem_of_isValue hv
  simp [hvalue, hws.notMem hsolid]

theorem bang_notMem_head? (hk : IsKey k) (rest : List Char) : '!' ∉ (k.toList ++ rest).head? := by
  intro h
  rw [List.head?_append_of_ne_nil _ hk.toList_ne_nil] at h
  exact hk.isPlain.ne (by decide) (List.mem_of_mem_head? h)

theorem requirement_key (hk : IsKey k) : requirement k.toList = .ok (.present k) := by
  have hequals := notMem_of_isKey hk
  have hbang := bang_notMem_head? hk []
  rw [List.append_nil] at hbang
  rw [requirement_of_signs (hk.isPlain.ne (by decide)) hbang,
    Text.splitOnce_eq_none ⟨'=', by simp, hequals⟩, Text.splitOnce_eq_none ⟨'=', by simp, hequals⟩,
    Text.splitOnce_eq_none ⟨'=', by simp, hequals⟩, key_toList hk]
  rfl

theorem requirement_absent {ws : List Char} (hws : Text.Blank ws) (hk : IsKey k) :
    requirement ('!' :: ws ++ k.toList) = .ok (.absent k) := by
  have hopen : '(' ∉ ws ++ k.toList := by
    simp [hws.notMem (c := '(') (by decide), hk.isPlain.ne (c := '(') (by decide)]
  have hkey : key (Text.trim (ws ++ k.toList)) = .ok k :=
    key_trim_eq_ok_iff.2 ⟨ws, [], hws, .nil, hk, (List.append_nil _).symm⟩
  rw [List.cons_append, requirement_of_bang hopen, hkey]
  rfl

/-- A sign is found where it stands, and no other sign before it. -/
theorem requirement_sign {ws ws' mark : List Char} (hmark : (mark, build) ∈ signs) (hk : IsKey k)
    (hws : Text.Blank ws) (hws' : Text.Blank ws') (hv : IsValue v) :
    requirement (k.toList ++ ws ++ mark ++ ws' ++ v.toList) = .ok (build k (.ofList [v])) := by
  have hread : valueRequirement build (k.toList ++ ws) (ws' ++ v.toList) =
      .ok (build k (.ofList [v])) :=
    valueRequirement_eq_ok_iff.2 ⟨k, v, key_trim_eq_ok_iff.2 ⟨[], ws, .nil, hws, hk, rfl⟩,
      value_trim_eq_ok_iff.2 ⟨ws', [], hws', .nil, hv, (List.append_nil _).symm⟩, rfl⟩
  have hshape : k.toList ++ ws ++ mark ++ ws' ++ v.toList =
      (k.toList ++ ws) ++ mark ++ (ws' ++ v.toList) := by simp
  have hbefore := fun c hc => notMem_key_append (c := c) hc hk hws
  have hafter := fun c hc => notMem_append_value (c := c) hc hws' hv
  have hbang : '!' ∉ (k.toList ++ ws ++ mark ++ ws' ++ v.toList).head? := by
    simpa using bang_notMem_head? hk (ws ++ (mark ++ (ws' ++ v.toList)))
  rw [hshape] at hbang ⊢
  generalize k.toList ++ ws = before at hread hbefore hbang ⊢
  generalize ws' ++ v.toList = after at hread hafter hbang ⊢
  rcases mem_signs_iff.1 hmark with ⟨rfl, rfl⟩ | ⟨rfl, rfl⟩ | ⟨rfl, rfl⟩
  · have hdouble : Text.splitOnce ['=', '='] (before ++ ['='] ++ after) = none := by
      cases hsplit : Text.splitOnce ['=', '='] (before ++ ['='] ++ after) with
      | none => rfl
      | some parts =>
        have hcount := congrArg (List.count '=') (Text.splitOnce_append hsplit)
        simp [List.count_append, List.count_eq_zero_of_not_mem (hbefore '=' (by simp)),
          List.count_eq_zero_of_not_mem (hafter '=' (by simp))] at hcount
        omega
    rw [requirement_of_signs (by simp [hbefore, hafter]) hbang,
      Text.splitOnce_eq_none ⟨'!', by simp, by simp [hbefore, hafter]⟩, hdouble,
      Text.splitOnce_cons (hbefore '=' (by simp))]
    exact hread
  · rw [requirement_of_signs (by simp [hbefore, hafter]) hbang,
      Text.splitOnce_eq_none ⟨'!', by simp, by simp [hbefore, hafter]⟩,
      Text.splitOnce_cons (hbefore '=' (by simp))]
    exact hread
  · rw [requirement_of_signs (by simp [hbefore, hafter]) hbang,
      Text.splitOnce_cons (hbefore '!' (by simp))]
    exact hread

theorem requirement_set {vs : List String} {ws ws₁ ws₂ word : List Char}
    (hword : (word, build) ∈ setWords) (hk : IsKey k) (hws : Text.Blank ws) (hne : ws ≠ [])
    (hws₁ : Text.Blank ws₁) (hlist : Lists list vs) (hws₂ : Text.Blank ws₂) :
    requirement (k.toList ++ ws ++ word ++ ws₁ ++ '(' :: list ++ ')' :: ws₂) =
      .ok (build k (.ofList vs)) := by
  have hwordIs : word = ['i', 'n'] ∨ word = ['n', 'o', 't', 'i', 'n'] :=
    (mem_setWords_iff.1 hword).imp And.left And.left
  have hsolid : Text.Solid word := by rcases hwordIs with rfl | rfl <;> simp [Text.Solid] <;> decide
  have hopen : '(' ∉ k.toList ++ ws ++ word ++ ws₁ := by
    have hword' : '(' ∉ word := by rcases hwordIs with rfl | rfl <;> decide
    have hkey := notMem_key_append (c := '(') (.inl rfl) hk hws
    have hblank := hws₁.notMem (c := '(') (by decide)
    simp only [List.mem_append, not_or] at hkey ⊢
    exact ⟨⟨hkey, hword'⟩, hblank⟩
  have hshape : SetShape (k.toList ++ ws ++ word ++ ws₁) (list ++ ')' :: ws₂) k.toList list
      build := by
    refine ⟨⟨word, hword, Text.words_eq_pair_iff.2
      ⟨[], ws, ws₁, .nil, hws, hne, hws₁, hk.solid, hk.toList_ne_nil, hsolid, ?_, rfl⟩⟩, ws₂,
      hws₂, rfl⟩
    rcases hwordIs with rfl | rfl <;> simp
  rw [List.append_assoc, List.cons_append, requirement_of_paren (Text.splitOnce_singleton hopen)]
  exact (setRequirement_of_shape hshape).trans
    (listRequirement_eq_ok_iff.2 ⟨k, vs, key_toList hk, hlist, rfl⟩)

theorem requirement_of_derives (h : Derives cs r) : requirement cs = .ok r := by
  cases h with
  | present hk => exact requirement_key hk
  | absent hws hk => exact requirement_absent hws hk
  | sign hmark hk hws hws' hv => exact requirement_sign hmark hk hws hws' hv
  | set hword hk hws hne hws₁ hlist hws₂ =>
    exact requirement_set hword hk hws hne hws₁ hlist hws₂

/-! What is read is derived. -/

theorem derives_sign {mark : List Char} (hmark : (mark, build) ∈ signs)
    (htrimmed : Text.IsTrimmed (before ++ mark ++ after))
    (h : valueRequirement build before after = .ok r) : Derives (before ++ mark ++ after) r := by
  obtain ⟨k, v, hkey, hvalue, rfl⟩ := valueRequirement_eq_ok_iff.1 h
  obtain ⟨ws, ws₁, hws, hws₁, hk, rfl⟩ := key_trim_eq_ok_iff.1 hkey
  obtain ⟨ws₂, ws₃, hws₂, hws₃, hv, rfl⟩ := value_trim_eq_ok_iff.1 hvalue
  obtain rfl : ws = [] := by
    simp only [List.append_assoc] at htrimmed
    exact htrimmed.eq_nil_of_append_left hws
  obtain rfl : ws₃ = [] := by
    simp only [← List.append_assoc] at htrimmed
    exact htrimmed.eq_nil_of_append_right hws₃
  simpa using Derives.sign hmark hk hws₁ hws₂ hv

theorem derives_absent (htrimmed : Text.IsTrimmed ('!' :: after))
    (h : key (Text.trim after) = .ok k) : Derives ('!' :: after) (.absent k) := by
  obtain ⟨ws, ws', hws, hws', hk, rfl⟩ := key_trim_eq_ok_iff.1 h
  obtain rfl : ws' = [] := by
    simp only [← List.cons_append] at htrimmed
    exact htrimmed.eq_nil_of_append_right hws'
  simpa using Derives.absent hws hk

theorem derives_set {name : List Char} (hshape : SetShape before after name list build)
    (htrimmed : Text.IsTrimmed (before ++ ['('] ++ after))
    (h : listRequirement build name list = .ok r) : Derives (before ++ ['('] ++ after) r := by
  obtain ⟨⟨word, hword, hwords⟩, ws₃, hws₃, rfl⟩ := hshape
  obtain ⟨ws, ws₁, ws₂, hws, hws₁, hne, hws₂, -, -, -, -, rfl⟩ := Text.words_eq_pair_iff.1 hwords
  obtain ⟨k, vs, hkey, hlist, rfl⟩ := listRequirement_eq_ok_iff.1 h
  obtain ⟨rfl, hk⟩ := key_eq_ok_iff.1 hkey
  obtain rfl : ws = [] := by
    simp only [List.append_assoc] at htrimmed
    exact htrimmed.eq_nil_of_append_left hws
  simpa using Derives.set hword hk hws₁ hne hws₂ hlist hws₃

theorem derives_of_requirement (htrimmed : Text.IsTrimmed cs) (h : requirement cs = .ok r) :
    Derives cs r := by
  unfold requirement at h
  split at h
  next before after hsplit =>
    rw [Text.splitOnce_append hsplit] at htrimmed ⊢
    by_cases hshape : ∃ name list build, SetShape before after name list build
    · obtain ⟨name, list, build, hshape⟩ := hshape
      rw [setRequirement_of_shape hshape] at h
      exact derives_set hshape htrimmed h
    · rw [setRequirement_of_not_shape fun name list build hs => hshape ⟨name, list, build, hs⟩] at h
      cases h
  next =>
    split at h
    next after hopen =>
      obtain ⟨k, hkey, rfl⟩ := exists_of_map_eq_ok h
      exact derives_absent htrimmed hkey
    next =>
      -- The first sign that is found is the one between the key and the value.
      split at h
      next before after hsplit =>
        rw [Text.splitOnce_append hsplit] at htrimmed ⊢
        exact derives_sign (by simp [signs]) htrimmed h
      next =>
        split at h
        next before after hsplit =>
          rw [Text.splitOnce_append hsplit] at htrimmed ⊢
          exact derives_sign (by simp [signs]) htrimmed h
        next =>
          split at h
          next before after hsplit =>
            rw [Text.splitOnce_append hsplit] at htrimmed ⊢
            exact derives_sign (by simp [signs]) htrimmed h
          next =>
            obtain ⟨k, hkey, rfl⟩ := exists_of_map_eq_ok h
            obtain ⟨rfl, hk⟩ := key_eq_ok_iff.1 hkey
            exact .present hk

theorem Derives.unique {r' : Requirement} (h : Derives cs r) (h' : Derives cs r') : r = r' :=
  Except.ok.inj ((requirement_of_derives h).symm.trans (requirement_of_derives h'))

end WorkloadMap.Selector
