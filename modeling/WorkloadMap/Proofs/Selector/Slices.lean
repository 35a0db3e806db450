import WorkloadMap.Proofs.Selector.Parse
import WorkloadMap.Proofs.Text.Slice

/-!
Selector text read by offsets in bytes. Each piece is taken as the part of the text between two
offsets that the cut has come to, and so are the parts of a requirement with a list. Main statement:
every part that is asked for is there, and what is read of them is what is read of the characters.
-/
namespace WorkloadMap.Selector

variable {depth : Nat} {text term : String} {before piece after rest list cs : List Char} {c : Char}
  {terms : List (List Char)}

/-- The first offset at which a character stands. -/
def offset? (c : Char) (cs : List Char) : Option Nat :=
  (Text.splitOnce [c] cs).map fun (before, _) => Text.size before

/-- The last offset at which a character stands: what is in front of it is behind it from the other
end. -/
def lastOffset? (c : Char) (cs : List Char) : Option Nat :=
  (Text.splitOnce [c] cs.reverse).map fun (_, after) => Text.size after

/-- The pieces of a text of which all before `start` has been cut and all before `here` been seen,
with so many parentheses open. There are no pieces if the parentheses do not balance, and no answer
if there is no such part of the text as is asked for. -/
def cutSlices (text : String) (depth start here : Nat) :
    List Char → Option (Option (List String))
  | [] =>
    if depth = 0 then do
      let term ← Text.slice? text start text.utf8ByteSize
      return some [term]
    else some none
  | c :: cs =>
    let next := here + c.utf8Size
    if c = '(' then cutSlices text (depth + 1) start next cs
    else if c = ')' then
      match depth with
      | 0 => some none
      | depth + 1 => cutSlices text depth start next cs
    else if c = ',' ∧ depth = 0 then do
      let term ← Text.slice? text start here
      let terms ← cutSlices text depth (here + 1) next cs
      return terms.map (term :: ·)
    else cutSlices text depth start next cs

/-- A requirement whose first parenthesis is opened at an offset. -/
def setSlices (term : String) (opened : Nat) : Option (Except Error Requirement) :=
  let malformed := some (.error (.requirement term))
  match lastOffset? ')' term.toList with
  | none => malformed
  | some closed =>
    if closed ≤ opened then malformed
    else do
      let behind ← Text.slice? term (closed + 1) term.utf8ByteSize
      if Text.trim behind.toList ≠ [] then malformed
      else
        let head ← Text.slice? term 0 opened
        match Text.words head.toList with
        | [name, word] =>
          match setWords.lookup word with
          | none => malformed
          | some build =>
            let list ← Text.slice? term (opened + 1) closed
            return listRequirement build name list.toList
        | _ => malformed

def requirementSlices (term : String) : Option (Except Error Requirement) :=
  match offset? '(' term.toList with
  | some opened => setSlices term opened
  | none => some (requirement term.toList)

def requirementsSlices : List String → Option (Except Error (List Requirement))
  | [] => some (.ok [])
  | term :: terms =>
    let core := Text.trim term.toList
    if core.isEmpty then requirementsSlices terms
    else do
      match ← requirementSlices (String.ofList core) with
      | .error e => return .error e
      | .ok r => return (← requirementsSlices terms).map (r :: ·)

def parseSlices (text : String) : Option (Except Error Selector) := do
  match ← cutSlices text 0 0 0 text.toList with
  | none => return .error (.unbalanced text)
  | some terms => return (← requirementsSlices terms).map .requirements

/-! The pieces. -/

theorem foldr_grow (piece term : List Char) (terms : List (List Char)) :
    piece.foldr grow (term :: terms) = (piece ++ term) :: terms := by
  induction piece with
  | nil => rfl
  | cons c piece ih => rw [List.foldr_cons, ih]; rfl

/-- What has been seen but not cut is the beginning of the first piece of what is to come. -/
theorem cutSlices_eq (h : text.toList = before ++ piece ++ rest) :
    cutSlices text depth (Text.size before) (Text.size before + Text.size piece) rest =
      some ((splitTerms depth rest).map fun terms =>
        (piece.foldr grow terms).map String.ofList) := by
  induction rest generalizing depth before piece with
  | nil =>
    rw [List.append_nil] at h
    rw [cutSlices, splitTerms, Text.slice?_of_toList_eq_append h]
    by_cases hdepth : depth = 0 <;> simp [hdepth, foldr_grow]
  | cons c rest ih =>
    have hnext : ∀ d, cutSlices text d (Text.size before)
        (Text.size before + Text.size piece + c.utf8Size) rest =
          some (((splitTerms d rest).map (grow c)).map fun terms =>
            (piece.foldr grow terms).map String.ofList) := by
      intro d
      have hpiece : text.toList = before ++ (piece ++ [c]) ++ rest := by simp [h]
      have hseen := @ih d before (piece ++ [c]) hpiece
      simpa [List.foldr_append, Function.comp_def, Nat.add_assoc] using hseen
    rw [cutSlices.eq_def, splitTerms.eq_def]
    dsimp only
    split
    next => exact hnext (depth + 1)
    next =>
      split
      next =>
        cases depth with
        | zero => rfl
        | succ depth => exact hnext depth
      next =>
        split
        next hcomma =>
          obtain ⟨rfl, rfl⟩ := hcomma
          have hcomma : Text.size before + Text.size piece + Char.utf8Size ',' =
              Text.size (before ++ piece ++ [',']) := by simp [Nat.add_assoc]
          have hone : Text.size before + Text.size piece + 1 =
              Text.size (before ++ piece ++ [',']) := hcomma
          have hcut := @ih 0 (before ++ piece ++ [',']) [] (by simp [h])
          have hterm : text.toList = before ++ piece ++ ',' :: rest := h
          rw [hcomma, hone, Text.slice?_of_toList_eq hterm]
          rw [Text.size_nil, Nat.add_zero] at hcut
          rw [hcut]
          simp [foldr_grow, Function.comp_def]
        next => exact hnext depth

theorem cutSlices_whole (text : String) : cutSlices text 0 0 0 text.toList =
    some ((splitTerms 0 text.toList).map fun terms => terms.map String.ofList) := by
  have hwhole : text.toList = [] ++ [] ++ text.toList := rfl
  exact cutSlices_eq hwhole

/-! The parts of a requirement with a list. -/

/-- Without a closing parenthesis at the end there is nothing to be read. -/
theorem setRequirement_of_not_closed
    (h : ∀ list ws, Text.Blank ws → after ≠ list ++ ')' :: ws) :
    setRequirement cs before after = .error (.requirement (String.ofList cs)) :=
  setRequirement_of_not_shape fun _ list _ hshape => by
    obtain ⟨ws, hws, hafter⟩ := hshape.closed
    exact h list ws hws hafter

theorem exists_of_lastOffset? {n : Nat} (h : lastOffset? c cs = some n) :
    ∃ front behind, cs = front ++ c :: behind ∧ n = Text.size front := by
  obtain ⟨⟨behind, front⟩, hsplit, rfl⟩ := Option.map_eq_some_iff.1 h
  have hreverse := congrArg List.reverse (Text.splitOnce_append hsplit)
  exact ⟨front.reverse, behind.reverse, by simpa using hreverse, (Text.size_reverse front).symm⟩

theorem lastOffset?_append (front : List Char) (h : c ∉ after) :
    lastOffset? c (front ++ c :: after) = some (Text.size front) := by
  have hsplit : Text.splitOnce [c] (front ++ c :: after).reverse =
      some (after.reverse, front.reverse) := by
    have hreverse : (front ++ c :: after).reverse = after.reverse ++ c :: front.reverse := by simp
    rw [hreverse]
    exact Text.splitOnce_singleton (by simpa using h)
  unfold lastOffset?
  rw [hsplit]
  exact congrArg some (Text.size_reverse front)

/-- Of two beginnings of a text the smaller begins the other. -/
theorem exists_list_of_size_lt {front behind : List Char}
    (h : before ++ '(' :: after = front ++ ')' :: behind)
    (hlt : Text.size before < Text.size front) : ∃ list, after = list ++ ')' :: behind := by
  rcases List.append_eq_append_iff.1 h with ⟨middle, rfl, hafter⟩ | ⟨middle, rfl, -⟩
  · cases middle with
    | nil => cases hafter
    | cons c list => exact ⟨list, (List.cons.inj hafter).2⟩
  · rw [Text.size_append] at hlt
    omega

theorem lookup_setWords (word : List Char) : setWords.lookup word =
    if word = ['i', 'n'] then some .oneOf
    else if word = ['n', 'o', 't', 'i', 'n'] then some .noneOf
    else none := by
  unfold setWords
  by_cases hin : word = ['i', 'n']
  · rw [hin]
    rfl
  · have hbeq : (word == ['i', 'n']) = false := beq_eq_false_iff_ne.2 hin
    rw [List.lookup_cons, hbeq, if_neg hin]
    by_cases hnotin : word = ['n', 'o', 't', 'i', 'n']
    · rw [hnotin]
      rfl
    · have hbeq' : (word == ['n', 'o', 't', 'i', 'n']) = false := beq_eq_false_iff_ne.2 hnotin
      rw [if_neg hnotin]
      dsimp only
      rw [List.lookup_cons, hbeq']
      rfl

/-- The parts of a requirement that is closed are its own. -/
theorem slices_of_closed {ws : List Char} (h : term.toList = before ++ '(' :: (list ++ ')' :: ws)) :
    Text.slice? term (Text.size (before ++ '(' :: list) + 1) term.utf8ByteSize =
      some (String.ofList ws) ∧
    Text.slice? term 0 (Text.size before) = some (String.ofList before) ∧
    Text.slice? term (Text.size before + 1) (Text.size (before ++ '(' :: list)) =
      some (String.ofList list) := by
  have hclosed : Text.size (before ++ '(' :: list) + 1 =
      Text.size (before ++ '(' :: list ++ [')']) := by rw [Text.size_append (_ ++ _)]; rfl
  have hopened : Text.size before + 1 = Text.size (before ++ ['(']) := by rw [Text.size_append]; rfl
  have hlist : Text.size (before ++ '(' :: list) =
      Text.size (before ++ ['(']) + Text.size list := by rw [← Text.size_append]; simp
  refine ⟨?_, ?_, ?_⟩
  · rw [hclosed]
    exact Text.slice?_of_toList_eq_append (by simp [h])
  · have hterm : term.toList = [] ++ before ++ '(' :: (list ++ ')' :: ws) := h
    have hhead := Text.slice?_of_toList_eq hterm
    rwa [Text.size_nil, Nat.zero_add] at hhead
  · rw [hopened, hlist]
    have hterm : term.toList = before ++ ['('] ++ list ++ ')' :: ws := by simp [h]
    exact Text.slice?_of_toList_eq hterm

theorem setSlices_eq (h : term.toList = before ++ '(' :: after) :
    setSlices term (Text.size before) = some (setRequirement term.toList before after) := by
  by_cases hclosed : ∃ list ws, Text.Blank ws ∧ after = list ++ ')' :: ws
  · obtain ⟨list, ws, hws, rfl⟩ := hclosed
    have hlast : lastOffset? ')' term.toList = some (Text.size (before ++ '(' :: list)) := by
      have hterm : term.toList = (before ++ '(' :: list) ++ ')' :: ws := by simp [h]
      rw [hterm]
      exact lastOffset?_append _ (hws.notMem (by decide))
    have hlt : ¬Text.size (before ++ '(' :: list) ≤ Text.size before := by
      have hopen : 0 < Char.utf8Size '(' := by decide
      rw [Text.size_append, Text.size_cons]
      omega
    have htrim : Text.trim ws = [] := by
      have hsolid : Text.Solid [] := by simp [Text.Solid]
      simpa using Text.trim_around hws .nil hsolid
    obtain ⟨hbehind, hhead, hlist⟩ := slices_of_closed h
    unfold setSlices setRequirement
    rw [hlast, reverse_trimEnd_iff.2 ⟨ws, hws, rfl⟩]
    simp only [if_neg hlt, hbehind, hhead, hlist, Option.bind_eq_bind, Option.bind_some,
      String.toList_ofList, htrim, ne_eq, not_true_eq_false, if_false, lookup_setWords,
      List.reverse_reverse, String.ofList_toList]
    -- The head must be two words, of which the second says what requirement to build.
    rcases Text.words before with _ | ⟨name, _ | ⟨word, _ | ⟨_, _⟩⟩⟩
    · rfl
    · rfl
    · dsimp only
      generalize (if word = ['i', 'n'] then some Requirement.oneOf
        else if word = ['n', 'o', 't', 'i', 'n'] then some .noneOf else none) = build
      cases build <;> rfl
    · rfl
  · have hnot : ∀ list ws, Text.Blank ws → after ≠ list ++ ')' :: ws :=
      fun list ws hws hafter => hclosed ⟨list, ws, hws, hafter⟩
    rw [setRequirement_of_not_closed hnot, String.ofList_toList]
    unfold setSlices
    cases hlast : lastOffset? ')' term.toList with
    | none => rfl
    | some closed =>
      obtain ⟨front, behind, hterm, rfl⟩ := exists_of_lastOffset? hlast
      dsimp only
      split
      next => rfl
      next hlt =>
        obtain ⟨list, rfl⟩ := exists_list_of_size_lt (h.symm.trans hterm) (Nat.lt_of_not_le hlt)
        have hbehind : Text.trim behind ≠ [] := fun htrim => by
          obtain ⟨ws, ws', hws, hws', hbehind⟩ := Text.exists_trim behind
          rw [htrim, List.append_nil] at hbehind
          exact hnot list behind (hbehind ▸ List.forall_mem_append.2 ⟨hws, hws'⟩) rfl
        have hslice : Text.slice? term (Text.size front + 1) term.utf8ByteSize =
            some (String.ofList behind) := by
          have hclosed : Text.size front + 1 = Text.size (front ++ [')']) := by
            rw [Text.size_append]; rfl
          rw [hclosed]
          exact Text.slice?_of_toList_eq_append (by simp [hterm])
        simp [hslice, hbehind]

theorem requirementSlices_eq (term : String) :
    requirementSlices term = some (requirement term.toList) := by
  unfold requirementSlices offset?
  cases hsplit : Text.splitOnce ['('] term.toList with
  | none => rfl
  | some parts =>
    obtain ⟨before, after⟩ := parts
    have hterm : term.toList = before ++ '(' :: after := by
      simpa using Text.splitOnce_append hsplit
    rw [requirement_of_paren hsplit]
    exact setSlices_eq hterm

theorem requirementsSlices_eq (terms : List (List Char)) :
    requirementsSlices (terms.map String.ofList) = some (requirementsOf terms) := by
  induction terms with
  | nil => rfl
  | cons term terms ih =>
    rw [List.map_cons, requirementsSlices, ih, String.toList_ofList, requirementSlices_eq,
      String.toList_ofList]
    unfold requirementsOf
    by_cases hblank : Text.trim term = []
    · simp [hblank]
    · have hkept : ((term :: terms).map Text.trim).filter (!·.isEmpty) =
          Text.trim term :: (terms.map Text.trim).filter (!·.isEmpty) := by
        simp [hblank]
      rw [hkept]
      cases hread : requirement (Text.trim term) with
      | error e => simp [hblank, mapM_cons_of_error hread]
      | ok r => simp [hblank, mapM_cons_of_ok hread]

theorem parseSlices_eq (text : String) : parseSlices text = some (parse text) := by
  unfold parseSlices parse
  rw [cutSlices_whole]
  cases splitTerms 0 text.toList with
  | none => rfl
  | some terms =>
    simp only [Option.map_some, Option.bind_eq_bind, Option.bind_some]
    rw [requirementsSlices_eq]
    rfl

/-- A text is cut unless its parentheses do not balance, and then its pieces, with the commas
between them, are all of it. Told by offsets in bytes, neither the cut nor the reading of any piece
ever asks for a part that the text does not have, and both answer as they do otherwise. -/
theorem splitTerms_slices (text : String) :
    (splitTerms 0 text.toList = none ↔ ¬Balanced text.toList) ∧
    (∀ terms, splitTerms 0 text.toList = some terms ↔ IsCut text.toList terms) ∧
    (∀ whole first last, (Text.slice? whole first last).isSome ↔ Text.IsSlice whole first last) ∧
    cutSlices text 0 0 0 text.toList =
      some ((splitTerms 0 text.toList).map fun terms => terms.map String.ofList) ∧
    (∀ term, requirementSlices term = some (requirement term.toList)) ∧
    parseSlices text = some (parse text) :=
  ⟨splitTerms_eq_none_iff, fun _ => splitTerms_eq_some_iff, fun _ _ _ => Text.isSome_slice?_iff,
    cutSlices_whole text, requirementSlices_eq, parseSlices_eq text⟩

end WorkloadMap.Selector
