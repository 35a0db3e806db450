import Mathlib.Data.List.Basic
import Mathlib.Data.List.TakeWhile
import WorkloadMap.Text.Blank

/-!
Blanks around a text, and texts cut at blanks or at a mark. Main statements: trimming takes off the
blanks at both ends and nothing else, and the words of a text are what its blanks leave.
-/
namespace WorkloadMap.Text

variable {cs before after mark ws ws' w : List Char} {c : Char}

def Blank (cs : List Char) : Prop := ∀ c ∈ cs, isBlank c = true

def Solid (cs : List Char) : Prop := ∀ c ∈ cs, isBlank c = false

/-- Neither end is blank. -/
structure IsTrimmed (cs : List Char) : Prop where
  start : ∀ c ∈ cs.head?, isBlank c = false
  finish : ∀ c ∈ cs.getLast?, isBlank c = false

theorem Blank.nil : Blank [] := by simp [Blank]

theorem Blank.notMem (h : Blank ws) (hc : isBlank c = false) : c ∉ ws := by
  intro hmem
  rw [h c hmem] at hc
  cases hc

theorem Solid.isTrimmed (h : Solid cs) : IsTrimmed cs :=
  ⟨fun c hc => h c (List.mem_of_mem_head? hc), fun c hc => h c (List.mem_of_mem_getLast? hc)⟩

theorem IsTrimmed.eq_nil_of_append_left (h : IsTrimmed (ws ++ cs)) (hws : Blank ws) : ws = [] := by
  cases ws with
  | nil => rfl
  | cons c ws =>
    have hsolid := h.start c rfl
    rw [hws c List.mem_cons_self] at hsolid
    cases hsolid

theorem IsTrimmed.eq_nil_of_append_right (h : IsTrimmed (cs ++ ws)) (hws : Blank ws) : ws = [] := by
  rcases List.eq_nil_or_concat ws with rfl | ⟨ws, c, rfl⟩
  · rfl
  · have hsolid := h.finish c (by simp)
    rw [hws c (by simp)] at hsolid
    cases hsolid

theorem exists_trimStart (cs : List Char) : ∃ ws, Blank ws ∧ cs = ws ++ trimStart cs :=
  ⟨cs.takeWhile isBlank, fun _ => List.mem_takeWhile_imp, List.takeWhile_append_dropWhile.symm⟩

theorem exists_trimEnd (cs : List Char) : ∃ ws, Blank ws ∧ cs = trimEnd cs ++ ws := by
  obtain ⟨ws, hws, hcs⟩ := exists_trimStart cs.reverse
  refine ⟨ws.reverse, fun c hc => hws c (List.mem_reverse.1 hc), ?_⟩
  have hreverse := congrArg List.reverse hcs
  rwa [List.reverse_reverse, List.reverse_append] at hreverse

theorem exists_trim (cs : List Char) :
    ∃ ws ws', Blank ws ∧ Blank ws' ∧ cs = ws ++ trim cs ++ ws' := by
  obtain ⟨ws, hws, hstart⟩ := exists_trimStart cs
  obtain ⟨ws', hws', hend⟩ := exists_trimEnd (trimStart cs)
  refine ⟨ws, ws', hws, hws', ?_⟩
  rw [List.append_assoc]
  exact hstart.trans (congrArg (ws ++ ·) hend)

theorem trimStart_append (h : Blank ws) (cs : List Char) : trimStart (ws ++ cs) = trimStart cs :=
  List.dropWhile_append_of_pos h

theorem trimEnd_append (h : Blank ws) (cs : List Char) : trimEnd (cs ++ ws) = trimEnd cs := by
  have hreverse : Blank ws.reverse := fun c hc => h c (List.mem_reverse.1 hc)
  unfold trimEnd
  rw [List.reverse_append, List.dropWhile_append_of_pos hreverse]

theorem trimStart_eq_self (h : ∀ c ∈ cs.head?, isBlank c = false) : trimStart cs = cs := by
  cases cs with
  | nil => rfl
  | cons c cs => exact List.dropWhile_cons_of_neg (by simp [h c rfl])

theorem trimEnd_eq_self (h : ∀ c ∈ cs.getLast?, isBlank c = false) : trimEnd cs = cs := by
  have hstart : trimStart cs.reverse = cs.reverse := trimStart_eq_self (by simpa using h)
  exact (congrArg List.reverse hstart).trans cs.reverse_reverse

theorem IsTrimmed.trim_eq (h : IsTrimmed cs) : trim cs = cs := by
  unfold trim
  rw [trimStart_eq_self h.start, trimEnd_eq_self h.finish]

theorem trim_around (hws : Blank ws) (hws' : Blank ws') (h : Solid cs) :
    trim (ws ++ cs ++ ws') = cs := by
  unfold trim
  rw [List.append_assoc, trimStart_append hws]
  cases cs with
  | nil =>
    have hnil := trimStart_append hws' []
    rw [List.append_nil] at hnil
    rw [List.nil_append, hnil]
    rfl
  | cons c cs =>
    rw [trimStart_eq_self (fun d hd => h d (by simp_all)), trimEnd_append hws']
    exact trimEnd_eq_self h.isTrimmed.finish

theorem isBlank_of_head?_trimStart (h : c ∈ (trimStart cs).head?) : isBlank c = false := by
  have hhead := List.head?_dropWhile_not isBlank cs
  unfold trimStart at h
  rwa [Option.mem_def.1 h] at hhead

theorem isTrimmed_trim (cs : List Char) : IsTrimmed (trim cs) := by
  obtain ⟨ws, _, hstart⟩ := exists_trimEnd (trimStart cs)
  refine ⟨fun c hc => ?_, fun c hc => ?_⟩
  · have hhead : c ∈ (trimStart cs).head? := by
      rw [hstart]
      exact List.mem_head?_append_of_mem_head? hc
    exact isBlank_of_head?_trimStart hhead
  · unfold trim trimEnd at hc
    rw [List.getLast?_reverse] at hc
    exact isBlank_of_head?_trimStart hc

/-! Words. -/

theorem pieces_eq_splitOnP (p : Char → Bool) (cs : List Char) : pieces p cs = cs.splitOnP p := by
  induction cs with
  | nil => rfl
  | cons c cs ih =>
    rw [List.splitOnP_cons_eq_if_modifyHead, ← ih, pieces]
    split
    · rfl
    · cases hrest : pieces p cs with
      | nil => exact absurd hrest (pieces_ne_nil p cs)
      | cons piece rest => rfl

theorem words_append (hws : Blank ws) (cs : List Char) : words (ws ++ cs) = words cs := by
  induction ws with
  | nil => rfl
  | cons c ws ih =>
    have hc : isBlank c = true := hws c List.mem_cons_self
    have hrest := ih fun d hd => hws d (List.mem_cons_of_mem c hd)
    rw [← hrest, List.cons_append]
    simp [words, pieces, hc]

theorem words_of_blank (h : Blank ws) : words ws = [] := by
  have hwords := words_append h []
  rwa [List.append_nil] at hwords

/-- A word ends with the text or at the next blank. -/
theorem words_append_of_solid (h : Solid w) (hne : w ≠ [])
    (hafter : ∀ c ∈ after.head?, isBlank c = true) : words (w ++ after) = w :: words after := by
  cases after with
  | nil =>
    unfold words
    rw [List.append_nil, pieces_eq_splitOnP, List.splitOnP_eq_singleton h]
    simp [hne, pieces]
  | cons c after =>
    have hc : isBlank c = true := hafter c rfl
    unfold words
    rw [pieces_eq_splitOnP, pieces_eq_splitOnP, List.splitOnP_append_cons_of_forall_mem h c hc,
      List.splitOnP_cons_eq_if_modifyHead, if_pos hc]
    simp [hne]

theorem exists_word (cs : List Char) :
    ∃ w after, Solid w ∧ cs = w ++ after ∧ ∀ c ∈ after.head?, isBlank c = true := by
  have hhead := List.head?_dropWhile_not (fun c => !isBlank c) cs
  refine ⟨cs.takeWhile fun c => !isBlank c, cs.dropWhile fun c => !isBlank c, fun c hc => ?_,
    List.takeWhile_append_dropWhile.symm, fun c hc => ?_⟩
  · simpa using List.mem_takeWhile_imp hc
  · rw [Option.mem_def.1 hc] at hhead
    simpa using hhead

/-- A text is blank, or has a first word. -/
theorem words_cases (cs : List Char) : Blank cs ∨
    ∃ ws w after, Blank ws ∧ Solid w ∧ w ≠ [] ∧ cs = ws ++ w ++ after ∧
      words cs = w :: words after ∧ ∀ c ∈ after.head?, isBlank c = true := by
  obtain ⟨ws, hws, hcs⟩ := exists_trimStart cs
  obtain ⟨w, after, hw, htail, hafter⟩ := exists_word (trimStart cs)
  rw [htail] at hcs
  have hwords : words cs = words (w ++ after) := by rw [hcs, words_append hws]
  by_cases hne : w = []
  · -- What is left after the blanks begins with no blank, so nothing is left.
    subst hne
    cases after with
    | nil => exact .inl (by simpa [hcs] using hws)
    | cons c after =>
      have hhead : c ∈ (trimStart cs).head? := by rw [htail]; rfl
      have hc := isBlank_of_head?_trimStart hhead
      rw [hafter c rfl] at hc
      cases hc
  · rw [words_append_of_solid hw hne hafter] at hwords
    exact .inr ⟨ws, w, after, hws, hw, hne, by rw [hcs, List.append_assoc], hwords, hafter⟩

/-- Two words have blanks between them, and may have some around them. -/
theorem words_eq_pair_iff {v : List Char} : words cs = [v, w] ↔
    ∃ ws ws₁ ws₂, Blank ws ∧ Blank ws₁ ∧ ws₁ ≠ [] ∧ Blank ws₂ ∧ Solid v ∧ v ≠ [] ∧ Solid w ∧
      w ≠ [] ∧ cs = ws ++ v ++ ws₁ ++ w ++ ws₂ := by
  constructor
  · intro h
    rcases words_cases cs with hblank | ⟨ws, v', after, hws, hv, hvne, hcs, hwords, hafter⟩
    · rw [words_of_blank hblank] at h
      cases h
    rw [hwords] at h
    obtain ⟨rfl, hrest⟩ := List.cons.inj h
    rcases words_cases after with hblank | ⟨ws₁, w', end_, hws₁, hw, hwne, hcs₁, hwords₁, -⟩
    · rw [words_of_blank hblank] at hrest
      cases hrest
    rw [hwords₁] at hrest
    obtain ⟨rfl, hend⟩ := List.cons.inj hrest
    rcases words_cases end_ with hws₂ | ⟨_, _, _, _, _, _, _, hwords₂, -⟩
    · refine ⟨ws, ws₁, end_, hws, hws₁, ?_, hws₂, hv, hvne, hw, hwne, by simp [hcs, hcs₁]⟩
      rintro rfl
      obtain ⟨c, w, rfl⟩ := List.exists_cons_of_ne_nil hwne
      have hc := hafter c (by simp [hcs₁])
      rw [hw c List.mem_cons_self] at hc
      cases hc
    · rw [hwords₂] at hend
      cases hend
  · rintro ⟨ws, ws₁, ws₂, hws, hws₁, hne, hws₂, hv, hvne, hw, hwne, rfl⟩
    have hbetween : ∀ c ∈ (ws₁ ++ (w ++ ws₂)).head?, isBlank c = true := by
      obtain ⟨c, ws₁, rfl⟩ := List.exists_cons_of_ne_nil hne
      intro d hd
      obtain rfl : c = d := by simpa using hd
      exact hws₁ c List.mem_cons_self
    have hend : ∀ c ∈ ws₂.head?, isBlank c = true :=
      fun c hc => hws₂ c (List.mem_of_mem_head? hc)
    simp only [List.append_assoc]
    rw [words_append hws, words_append_of_solid hv hvne hbetween, words_append hws₁,
      words_append_of_solid hw hwne hend, words_of_blank hws₂]

/-! Marks. -/

theorem splitOnce_eq_none (h : ∃ c ∈ mark, c ∉ cs) : splitOnce mark cs = none := by
  cases hsplit : splitOnce mark cs with
  | none => rfl
  | some parts =>
    obtain ⟨c, hc, hnot⟩ := h
    rw [splitOnce_append hsplit] at hnot
    simp [hc] at hnot

/-- A mark is found where it stands if nothing before it looks like its beginning. -/
theorem splitOnce_cons (h : c ∉ before) :
    splitOnce (c :: mark) (before ++ c :: mark ++ after) = some (before, after) := by
  induction before with
  | nil => simp [splitOnce]
  | cons b before ih =>
    have hne : c ≠ b := fun heq => h (by simp [heq])
    have hrest := ih fun hmem => h (List.mem_cons_of_mem b hmem)
    simp only [List.cons_append, List.append_assoc] at hrest ⊢
    simp [splitOnce, hne, hrest]

theorem splitOnce_singleton (h : c ∉ before) :
    splitOnce [c] (before ++ c :: after) = some (before, after) := by
  have hfound : splitOnce [c] (before ++ [c] ++ after) = some (before, after) := splitOnce_cons h
  rwa [List.append_assoc] at hfound

end WorkloadMap.Text
