import WorkloadMap.Proofs.Json.Numbers
import WorkloadMap.Proofs.Json.Strings

/-!
Lexemes and the white space between them. Main statement: a text has the lexemes that it is written
with, and is written with the lexemes it has.
-/
namespace WorkloadMap.Json

variable {cs rest w ws : List Char} {t : Token} {ts : List Token} {n : Number}

inductive TokenText : Token → List Char → Prop
  | beginArray : TokenText .beginArray ['[']
  | endArray : TokenText .endArray [']']
  | beginObject : TokenText .beginObject ['\x7b']
  | endObject : TokenText .endObject ['\x7d']
  | comma : TokenText .comma [',']
  | colon : TokenText .colon [':']
  | string {text : Option String} {w : List Char} (h : StringText text w) :
      TokenText (.string text) ('"' :: w ++ ['"'])
  | null : TokenText (.literal .null) ['n', 'u', 'l', 'l']
  | true : TokenText (.literal (.bool true)) ['t', 'r', 'u', 'e']
  | false : TokenText (.literal (.bool false)) ['f', 'a', 'l', 's', 'e']
  | number {n : Number} {w : List Char} (h : NumberText n w) : TokenText (.literal (.number n)) w

/-! One lexeme. -/

theorem tokenText_of_scan? (h : Token.scan? cs = some (t, rest)) :
    ∃ w, TokenText t w ∧ cs = w ++ rest := by
  unfold Token.scan? at h
  split at h
  case h_1 =>
    cases h
    exact ⟨_, .beginArray, rfl⟩
  case h_2 =>
    cases h
    exact ⟨_, .endArray, rfl⟩
  case h_3 =>
    cases h
    exact ⟨_, .beginObject, rfl⟩
  case h_4 =>
    cases h
    exact ⟨_, .endObject, rfl⟩
  case h_5 =>
    cases h
    exact ⟨_, .comma, rfl⟩
  case h_6 =>
    cases h
    exact ⟨_, .colon, rfl⟩
  case h_7 =>
    obtain ⟨⟨us, rest'⟩, hscan, heq⟩ := Option.map_eq_some_iff.1 h
    cases heq
    obtain ⟨w, hw, rfl⟩ := exists_of_scanString hscan
    exact ⟨_, .string (stringText_of_unitsText hw), by simp⟩
  case h_8 =>
    cases h
    exact ⟨_, .null, rfl⟩
  case h_9 =>
    cases h
    exact ⟨_, .true, rfl⟩
  case h_10 =>
    cases h
    exact ⟨_, .false, rfl⟩
  case h_11 =>
    obtain ⟨⟨n, rest'⟩, hscan, heq⟩ := Option.map_eq_some_iff.1 h
    cases heq
    obtain ⟨w, hw, rfl⟩ := numberText_of_scanNumber hscan
    exact ⟨w, .number hw, rfl⟩

theorem scan?_number (h : NumberText n w) (hrest : EndsNumber rest) :
    Token.scan? (w ++ rest) = some (.literal (.number n), rest) := by
  have hscan := scanNumber_append h hrest
  obtain ⟨c, cs, rfl, hc⟩ := h.exists_cons
  rw [Token.scan?.eq_11, hscan]
  · rfl
  all_goals
    intro _ heq
    obtain rfl := (List.cons.inj heq).1
    simp at hc

/-- A lexeme is scanned as it is written, a number where it ends. -/
theorem scan?_append (h : TokenText t w)
    (hrest : ∀ n, t = .literal (.number n) → EndsNumber rest) :
    Token.scan? (w ++ rest) = some (t, rest) := by
  cases h with
  | string h =>
    obtain ⟨us, hus, rfl⟩ := exists_unitsText h
    simp [Token.scan?, scanString_append hus]
  | number h => exact scan?_number h (hrest _ rfl)
  | _ => rfl

theorem exists_cons_of_tokenText (h : TokenText t w) :
    ∃ c cs, w = c :: cs ∧ isSpace c = false := by
  cases h with
  | number h =>
    obtain ⟨c, cs, rfl, hc⟩ := h.exists_cons
    refine ⟨c, cs, rfl, Bool.eq_false_iff.2 fun hspace => ?_⟩
    obtain rfl | rfl | rfl | rfl := isSpace_iff.1 hspace
    all_goals simp at hc
  | _ => exact ⟨_, _, rfl, rfl⟩

/-! All lexemes. -/

theorem tokens_space {c : Char} (h : isSpace c = true) : tokens (c :: cs) = tokens cs := by
  rw [tokens, if_pos h]

theorem tokens_spaces (h : Spaces ws) : tokens (ws ++ cs) = tokens cs := by
  induction ws with
  | nil => rfl
  | cons c ws ih =>
    obtain ⟨hc, hws⟩ := List.forall_mem_cons.1 h
    rw [List.cons_append, tokens_space hc, ih hws]

theorem tokens_append (h : TokenText t w)
    (hrest : ∀ n, t = .literal (.number n) → EndsNumber rest) :
    tokens (w ++ rest) = (tokens rest).map (t :: ·) := by
  have hscan := scan?_append h hrest
  obtain ⟨c, cs, rfl, hc⟩ := exists_cons_of_tokenText h
  rw [List.cons_append] at hscan ⊢
  rw [tokens, if_neg (by simp [hc])]
  split
  next hnone => rw [hscan] at hnone; cases hnone
  next t' rest' hsome =>
    rw [hscan] at hsome
    cases hsome
    rfl

theorem spaces_of_tokens (h : tokens cs = some []) : Spaces cs := by
  fun_induction tokens cs with
  | case1 => exact List.forall_mem_nil _
  | case2 c cs hc ih => exact List.forall_mem_cons.2 ⟨hc, ih h⟩
  | case3 => cases h
  | case4 => simp at h

theorem exists_of_tokens (h : tokens cs = some (t :: ts)) :
    ∃ ws w rest, cs = ws ++ w ++ rest ∧ Spaces ws ∧ TokenText t w ∧ tokens rest = some ts := by
  fun_induction tokens cs with
  | case1 => cases h
  | case2 c cs hc ih =>
    obtain ⟨ws, w, rest, rfl, hws, hrest⟩ := ih h
    exact ⟨c :: ws, w, rest, rfl, List.forall_mem_cons.2 ⟨hc, hws⟩, hrest⟩
  | case3 => cases h
  | case4 c cs _ t' rest hscan ih =>
    obtain ⟨ts', hts, heq⟩ := Option.map_eq_some_iff.1 h
    cases heq
    obtain ⟨w, hw, hcs⟩ := tokenText_of_scan? hscan
    exact ⟨[], w, rest, hcs, List.forall_mem_nil _, hw, hts⟩

end WorkloadMap.Json
