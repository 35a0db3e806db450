import WorkloadMap.Json.Parser
import WorkloadMap.Proofs.Json.Lexeme

/-!
The reader of JSON against its grammar. Main statement: a text is read as a value exactly when it is
written as that value, with nothing but white space around it.
-/
namespace WorkloadMap.Json

variable {n : Nat} {cs w ws rest : List Char} {t : Token} {ts after : List Token} {v : Json}
  {vs : List Json} {m : Option String × Json} {ms : List (Option String × Json)}

/-! What is read is written. -/

/-- What is read in so many calls is written. -/
structure Sound (n : Nat) : Prop where
  value {cs : List Char} {ts after : List Token} {v : Json} (hcs : tokens cs = some ts)
    (hread : readValue n ts = some (v, after)) : ∃ ws w rest, cs = ws ++ w ++ rest ∧ Spaces ws ∧
      Written v w ∧ tokens rest = some after
  elements {cs : List Char} {ts after : List Token} {vs : List Json} (hcs : tokens cs = some ts)
    (hread : readElements n ts = some (vs, after)) : ∃ w rest, cs = w ++ ']' :: rest ∧
      ElementsWritten vs w ∧ tokens rest = some after
  members {cs : List Char} {ts after : List Token} {ms : List (Option String × Json)}
    (hcs : tokens cs = some ts) (hread : readMembers n ts = some (ms, after)) :
    ∃ w rest, cs = w ++ '\x7d' :: rest ∧ MembersWritten ms w ∧ tokens rest = some after

theorem written_of_tokenText (h : TokenText (.literal v) w) : Written v w := by
  cases h with
  | null => exact .null
  | true => exact .true
  | false => exact .false
  | number h => exact .number h

theorem Sound.value_succ (h : Sound n) (hcs : tokens cs = some ts)
    (hread : readValue (n + 1) ts = some (v, after)) : ∃ ws w rest, cs = ws ++ w ++ rest ∧
      Spaces ws ∧ Written v w ∧ tokens rest = some after := by
  unfold readValue at hread
  split at hread
  case h_1 => cases hread
  case h_2 heq =>
    cases heq
    cases hread
    obtain ⟨ws, w, rest, rfl, hws, hw, hrest⟩ := exists_of_tokens hcs
    exact ⟨ws, w, rest, rfl, hws, written_of_tokenText hw, hrest⟩
  case h_3 heq =>
    cases heq
    cases hread
    obtain ⟨ws, w, rest, rfl, hws, hw, hrest⟩ := exists_of_tokens hcs
    cases hw with
    | string htext => exact ⟨ws, _, rest, rfl, hws, .string htext, hrest⟩
  case h_4 heq =>
    cases heq
    cases hread
    obtain ⟨ws, _, rest, rfl, hws, ⟨⟩, hrest⟩ := exists_of_tokens hcs
    obtain ⟨ws', _, rest', rfl, hws', ⟨⟩, hrest'⟩ := exists_of_tokens hrest
    exact ⟨ws, _, rest', by simp, hws, .emptyArray hws', hrest'⟩
  case h_5 heq =>
    cases heq
    obtain ⟨⟨vs, after'⟩, hvs, heq⟩ := Option.map_eq_some_iff.1 hread
    cases heq
    obtain ⟨ws, _, rest, rfl, hws, ⟨⟩, hrest⟩ := exists_of_tokens hcs
    obtain ⟨w, rest', rfl, hw, hrest'⟩ := h.elements hrest hvs
    exact ⟨ws, _, rest', by simp, hws, .array hw, hrest'⟩
  case h_6 heq =>
    cases heq
    cases hread
    obtain ⟨ws, _, rest, rfl, hws, ⟨⟩, hrest⟩ := exists_of_tokens hcs
    obtain ⟨ws', _, rest', rfl, hws', ⟨⟩, hrest'⟩ := exists_of_tokens hrest
    exact ⟨ws, _, rest', by simp, hws, .emptyObject hws', hrest'⟩
  case h_7 heq =>
    cases heq
    obtain ⟨⟨ms, after'⟩, hms, heq⟩ := Option.map_eq_some_iff.1 hread
    cases heq
    obtain ⟨ws, _, rest, rfl, hws, ⟨⟩, hrest⟩ := exists_of_tokens hcs
    obtain ⟨w, rest', rfl, hw, hrest'⟩ := h.members hrest hms
    exact ⟨ws, _, rest', by simp, hws, .object hw, hrest'⟩
  case h_8 => cases hread

/-- The white space before the next lexeme belongs to the value. -/
theorem Sound.spaced (h : Sound n) (hcs : tokens cs = some ts)
    (hread : readValue n ts = some (v, t :: after)) : ∃ w m rest, cs = w ++ m ++ rest ∧
      SpacedWritten v w ∧ TokenText t m ∧ tokens rest = some after := by
  obtain ⟨ws, w, rest, rfl, hws, hw, hrest⟩ := h.value hcs hread
  obtain ⟨ws', m, rest', rfl, hws', hm, hrest'⟩ := exists_of_tokens hrest
  exact ⟨_, m, rest', by simp, .around hws hw hws', hm, hrest'⟩

theorem Sound.elements_succ (h : Sound n) (hcs : tokens cs = some ts)
    (hread : readElements (n + 1) ts = some (vs, after)) : ∃ w rest, cs = w ++ ']' :: rest ∧
      ElementsWritten vs w ∧ tokens rest = some after := by
  unfold readElements at hread
  split at hread
  next v ts' hvalue =>
    obtain ⟨⟨vs, after'⟩, hvs, heq⟩ := Option.map_eq_some_iff.1 hread
    cases heq
    obtain ⟨w, _, rest, rfl, hw, ⟨⟩, hrest⟩ := h.spaced hcs hvalue
    obtain ⟨w', rest', rfl, hw', hrest'⟩ := h.elements hrest hvs
    exact ⟨_, rest', by simp, .cons hw hw', hrest'⟩
  next v ts' hvalue =>
    cases hread
    obtain ⟨w, _, rest, rfl, hw, ⟨⟩, hrest⟩ := h.spaced hcs hvalue
    exact ⟨w, rest, by simp, .one hw, hrest⟩
  next => cases hread

theorem Sound.members_succ (h : Sound n) (hcs : tokens cs = some ts)
    (hread : readMembers (n + 1) ts = some (ms, after)) : ∃ w rest, cs = w ++ '\x7d' :: rest ∧
      MembersWritten ms w ∧ tokens rest = some after := by
  unfold readMembers at hread
  split at hread
  next _ name ts' heq =>
    cases heq
    obtain ⟨ws, _, rest, rfl, hws, hname, hcolon⟩ := exists_of_tokens hcs
    obtain ⟨ws', _, rest, rfl, hws', ⟨⟩, hspaced⟩ := exists_of_tokens hcolon
    cases hname with
    | string hname =>
      split at hread
      next v ts'' hvalue =>
        obtain ⟨⟨ms, after'⟩, hms, heq⟩ := Option.map_eq_some_iff.1 hread
        cases heq
        obtain ⟨w, _, rest, rfl, hw, ⟨⟩, hmembers⟩ := h.spaced hspaced hvalue
        obtain ⟨w', rest, rfl, hw', hrest⟩ := h.members hmembers hms
        exact ⟨_, rest, by simp, .cons (.colon hws hname hws' hw) hw', hrest⟩
      next v ts'' hvalue =>
        cases hread
        obtain ⟨w, _, rest, rfl, hw, ⟨⟩, hrest⟩ := h.spaced hspaced hvalue
        exact ⟨_, rest, by simp, .one (.colon hws hname hws' hw), hrest⟩
      next => cases hread
  next => cases hread

theorem sound (n : Nat) : Sound n := by
  induction n with
  | zero =>
    constructor
    all_goals
      intros
      contradiction
  | succ n ih =>
    exact ⟨fun hcs => ih.value_succ hcs, fun hcs => ih.elements_succ hcs,
      fun hcs => ih.members_succ hcs⟩

/-! What is written is read. -/

theorem endsNumber_append (hws : Spaces ws) (h : EndsNumber rest) : EndsNumber (ws ++ rest) := by
  cases ws with
  | nil => exact h
  | cons c ws =>
    rintro c' hc'
    cases hc'
    obtain rfl | rfl | rfl | rfl := isSpace_iff.1 (hws c (List.mem_cons_self ..))
    all_goals decide

/-- The lexemes of a text are these, whatever follows that a number in it could not go on with. -/
def HasTokens (w : List Char) (ts : List Token) : Prop :=
  ∀ rest, EndsNumber rest → tokens (w ++ rest) = (tokens rest).map (ts ++ ·)

theorem HasTokens.append {w' : List Char} {ts' : List Token} (h : HasTokens w ts)
    (h' : HasTokens w' ts') (hends : ∀ rest, EndsNumber rest → EndsNumber (w' ++ rest)) :
    HasTokens (w ++ w') (ts ++ ts') := by
  intro rest hrest
  rw [List.append_assoc, h _ (hends rest hrest), h' rest hrest, Option.map_map]
  simp [Function.comp_def]

/-- Only a number needs an end. -/
theorem HasTokens.cons {m : List Char} (ht : TokenText t m) (hnumber : ∀ n, t ≠ .literal (.number n))
    (h : HasTokens w ts) : HasTokens (m ++ w) (t :: ts) := by
  intro rest hrest
  rw [List.append_assoc, tokens_append ht fun n hn => absurd hn (hnumber n), h rest hrest,
    Option.map_map]
  rfl

theorem HasTokens.spaces (hws : Spaces ws) (h : HasTokens w ts) : HasTokens (ws ++ w) ts := by
  intro rest hrest
  rw [List.append_assoc, tokens_spaces hws, h rest hrest]

theorem hasTokens_of_tokenText (h : TokenText t w) : HasTokens w [t] := fun _ hrest =>
  tokens_append h fun _ _ => hrest

theorem hasTokens_of_spaces (h : Spaces ws) : HasTokens ws [] := by
  intro rest _
  rw [tokens_spaces h]
  simp

theorem endsNumber_mark {c : Char} (hc : c ∈ [',', ']', '\x7d']) : EndsNumber (c :: rest) := by
  rintro c' hc'
  cases hc'
  simp only [List.mem_cons, List.not_mem_nil, or_false] at hc
  obtain rfl | rfl | rfl := hc
  all_goals decide

/-- A text with lexemes of which the value is read in no more calls than twice their number. -/
def IsRead (v : Json) (w : List Char) : Prop :=
  ∃ ts, HasTokens w ts ∧
    ∀ n after, 2 * ts.length ≤ n → readValue n (ts ++ after) = some (v, after)

/-- The elements of an array up to its end, which takes one call more. -/
def AreRead (vs : List Json) (w : List Char) : Prop :=
  ∃ ts, HasTokens w ts ∧ ∀ n after, 2 * ts.length + 1 ≤ n →
    readElements n (ts ++ .endArray :: after) = some (vs, after)

def AreMembers (ms : List (Option String × Json)) (w : List Char) : Prop :=
  ∃ ts, HasTokens w ts ∧ ∀ n after, 2 * ts.length + 1 ≤ n →
    readMembers n (ts ++ .endObject :: after) = some (ms, after)

theorem readValue_array (h : readElements n ts = some (vs, after)) :
    readValue (n + 1) (.beginArray :: ts) = some (.array vs, after) := by
  rw [readValue.eq_5, h]
  · rfl
  · rintro ts' rfl
    cases n with
    | zero => cases h
    | succ n => cases n <;> cases h

theorem readValue_object (h : readMembers n ts = some (ms, after)) :
    readValue (n + 1) (.beginObject :: ts) = some (.object ms, after) := by
  rw [readValue.eq_7, h]
  · rfl
  · rintro ts' rfl
    cases n with
    | zero => cases h
    | succ n => cases n <;> cases h

theorem isRead_of_tokenText (h : TokenText t w)
    (hread : ∀ n after, readValue (n + 1) (t :: after) = some (v, after)) : IsRead v w := by
  refine ⟨[t], hasTokens_of_tokenText h, fun n after hn => ?_⟩
  obtain ⟨n, rfl⟩ := Nat.exists_eq_add_of_le' (Nat.le_of_lt hn)
  exact hread n after

theorem isRead_between {first last : Char} {t' : Token} (ht : TokenText t [first])
    (hnumber : ∀ n, t ≠ .literal (.number n)) (htokens : HasTokens w ts)
    (ht' : TokenText t' [last]) (hlast : last ∈ [',', ']', '\x7d'])
    (hread : ∀ n after, 2 * ts.length + 1 ≤ n →
      readValue (n + 1) (t :: (ts ++ t' :: after)) = some (v, after)) :
    IsRead v (first :: w ++ [last]) := by
  have hclosed := htokens.append (hasTokens_of_tokenText ht') fun _ _ => endsNumber_mark hlast
  have hall : HasTokens ([first] ++ (w ++ [last])) (t :: (ts ++ [t'])) := .cons ht hnumber hclosed
  refine ⟨_, hall, fun n after hn => ?_⟩
  simp only [List.length_cons, List.length_append, List.length_nil] at hn
  obtain ⟨n, rfl⟩ := Nat.exists_eq_add_of_le' (show 1 ≤ n by omega)
  rw [List.cons_append, List.append_assoc]
  exact hread n after (by omega)

theorem isRead_emptyArray (hws : Spaces ws) : IsRead (.array []) ('[' :: ws ++ [']']) :=
  isRead_between .beginArray (by simp) (hasTokens_of_spaces hws) .endArray (by simp)
    fun _ _ _ => rfl

theorem isRead_emptyObject (hws : Spaces ws) :
    IsRead (.object []) ('\x7b' :: ws ++ ['\x7d']) :=
  isRead_between .beginObject (by simp) (hasTokens_of_spaces hws) .endObject (by simp)
    fun _ _ _ => rfl

theorem AreRead.isRead (h : AreRead vs w) : IsRead (.array vs) ('[' :: w ++ [']']) := by
  obtain ⟨ts, htokens, hread⟩ := h
  exact isRead_between .beginArray (by simp) htokens .endArray (by simp) fun n after hn =>
    readValue_array (hread n after hn)

theorem AreMembers.isRead (h : AreMembers ms w) :
    IsRead (.object ms) ('\x7b' :: w ++ ['\x7d']) := by
  obtain ⟨ts, htokens, hread⟩ := h
  exact isRead_between .beginObject (by simp) htokens .endObject (by simp) fun n after hn =>
    readValue_object (hread n after hn)

theorem IsRead.around {ws' : List Char} (hws : Spaces ws) (h : IsRead v w) (hws' : Spaces ws') :
    IsRead v (ws ++ w ++ ws') := by
  obtain ⟨ts, htokens, hread⟩ := h
  refine ⟨ts, ?_, hread⟩
  have hafter := (htokens.spaces hws).append (hasTokens_of_spaces hws') fun rest hrest =>
    endsNumber_append hws' hrest
  rwa [List.append_nil] at hafter

theorem AreRead.one (h : IsRead v w) : AreRead [v] w := by
  obtain ⟨ts, htokens, hread⟩ := h
  refine ⟨ts, htokens, fun n after hn => ?_⟩
  obtain ⟨n, rfl⟩ := Nat.exists_eq_add_of_le' (show 1 ≤ n by omega)
  rw [readElements, hread n _ (by omega)]

theorem AreRead.cons {w' : List Char} (h : IsRead v w) (hrest : AreRead vs w') :
    AreRead (v :: vs) (w ++ ',' :: w') := by
  obtain ⟨ts, htokens, hread⟩ := h
  obtain ⟨ts', htokens', hread'⟩ := hrest
  refine ⟨_, htokens.append (.cons .comma (by simp) htokens') fun _ _ => endsNumber_mark (by simp),
    fun n after hn => ?_⟩
  simp only [List.length_cons, List.length_append] at hn
  obtain ⟨n, rfl⟩ := Nat.exists_eq_add_of_le' (show 1 ≤ n by omega)
  rw [List.append_assoc, List.cons_append, readElements, hread n _ (by omega)]
  simp only [hread' n after (by omega)]
  rfl

/-- A text with the lexemes of a member, of which the value is read. -/
def IsMember (m : Option String × Json) (w : List Char) : Prop :=
  ∃ ts, HasTokens w (.string m.1 :: .colon :: ts) ∧
    ∀ n after, 2 * ts.length ≤ n → readValue n (ts ++ after) = some (m.2, after)

theorem IsRead.isMember {name : Option String} {text ws' : List Char} (hws : Spaces ws)
    (hname : StringText name text) (hws' : Spaces ws') (h : IsRead v w) :
    IsMember (name, v) (ws ++ '"' :: text ++ '"' :: ws' ++ ':' :: w) := by
  obtain ⟨ts, htokens, hread⟩ := h
  refine ⟨ts, ?_, hread⟩
  have hcolon : HasTokens (ws' ++ ([':'] ++ w)) (.colon :: ts) :=
    .spaces hws' (.cons .colon (by simp) htokens)
  have hall := HasTokens.spaces hws (.cons (.string hname) (by simp) hcolon)
  simpa using hall

theorem AreMembers.one (h : IsMember m w) : AreMembers [m] w := by
  obtain ⟨ts, htokens, hread⟩ := h
  refine ⟨_, htokens, fun n after hn => ?_⟩
  simp only [List.length_cons] at hn
  obtain ⟨n, rfl⟩ := Nat.exists_eq_add_of_le' (show 1 ≤ n by omega)
  rw [List.cons_append, List.cons_append, readMembers, hread n _ (by omega)]

theorem AreMembers.cons {w' : List Char} (h : IsMember m w) (hrest : AreMembers ms w') :
    AreMembers (m :: ms) (w ++ ',' :: w') := by
  obtain ⟨ts, htokens, hread⟩ := h
  obtain ⟨ts', htokens', hread'⟩ := hrest
  refine ⟨_, htokens.append (.cons .comma (by simp) htokens') fun _ _ => endsNumber_mark (by simp),
    fun n after hn => ?_⟩
  simp only [List.length_cons, List.length_append] at hn
  obtain ⟨n, rfl⟩ := Nat.exists_eq_add_of_le' (show 1 ≤ n by omega)
  rw [List.append_assoc, List.cons_append, List.cons_append, List.cons_append, readMembers,
    hread n _ (by omega)]
  simp only [hread' n after (by omega)]
  rfl

mutual

theorem Written.isRead {v : Json} {w : List Char} : Written v w → IsRead v w
  | .null => isRead_of_tokenText .null fun _ _ => rfl
  | .true => isRead_of_tokenText .true fun _ _ => rfl
  | .false => isRead_of_tokenText .false fun _ _ => rfl
  | .number h => isRead_of_tokenText (.number h) fun _ _ => rfl
  | .string h => isRead_of_tokenText (.string h) fun _ _ => rfl
  | .emptyArray hws => isRead_emptyArray hws
  | .array h => h.areRead.isRead
  | .emptyObject hws => isRead_emptyObject hws
  | .object h => h.areMembers.isRead

theorem SpacedWritten.isRead {v : Json} {w : List Char} : SpacedWritten v w → IsRead v w
  | .around hws h hws' => h.isRead.around hws hws'

theorem ElementsWritten.areRead {vs : List Json} {w : List Char} :
    ElementsWritten vs w → AreRead vs w
  | .one h => .one h.isRead
  | .cons h hrest => .cons h.isRead hrest.areRead

theorem MemberWritten.isMember {m : Option String × Json} {w : List Char} :
    MemberWritten m w → IsMember m w
  | .colon hws hname hws' h => h.isRead.isMember hws hname hws'

theorem MembersWritten.areMembers {ms : List (Option String × Json)} {w : List Char} :
    MembersWritten ms w → AreMembers ms w
  | .one h => .one h.isMember
  | .cons h hrest => .cons h.isMember hrest.areMembers

end

/-- A text is read as a value exactly when it is written as that value. -/
theorem parse?_eq_some_iff {text : String} :
    parse? text = some v ↔ SpacedWritten v text.toList := by
  unfold parse? parseChars?
  constructor
  · intro h
    obtain ⟨ts, hts, h⟩ := Option.bind_eq_some_iff.1 h
    split at h
    next v' hread =>
      cases h
      obtain ⟨ws, w, rest, heq, hws, hw, hrest⟩ := (sound _).value hts hread
      rw [heq]
      exact .around hws hw (spaces_of_tokens hrest)
    next => cases h
  · intro h
    obtain ⟨ts, htokens, hread⟩ := h.isRead
    have hts : tokens text.toList = some ts := by
      have hall := htokens [] fun c hc => by cases hc
      simpa [tokens] using hall
    have hvalue := hread (2 * ts.length) [] (Nat.le_refl _)
    rw [List.append_nil] at hvalue
    simp [hts, hvalue]

/-- No text is written for two values. -/
theorem SpacedWritten.unique {v' : Json} (h : SpacedWritten v w) (h' : SpacedWritten v' w) :
    v = v' := by
  rw [← String.toList_ofList (l := w)] at h h'
  exact Option.some.inj ((parse?_eq_some_iff.2 h).symm.trans (parse?_eq_some_iff.2 h'))

end WorkloadMap.Json
