import WorkloadMap.Proofs.Text.Blank
import WorkloadMap.Selector.Parser

/-!
The grammar of one requirement. A key stands alone, behind an exclamation mark, before a sign and a
value, or before a word and a list of values. Main statements: which texts are keys and values, and
that neither has anything in it that could be taken for the rest.
-/
namespace WorkloadMap.Selector

/-- What may stand before an operator. -/
def IsKey (text : String) : Prop := text ≠ "" ∧ ∀ c ∈ text.toList, isKeyChar c = true

/-- What may stand behind an operator. -/
def IsValue (text : String) : Prop := ∀ c ∈ text.toList, isValueChar c = true

instance (text : String) : Decidable (IsKey text) :=
  decidable_of_iff (text ≠ "" ∧ text.toList.all isKeyChar = true)
    (and_congr_right fun _ => List.all_eq_true)

instance (text : String) : Decidable (IsValue text) :=
  decidable_of_iff (text.toList.all isValueChar = true) List.all_eq_true

variable {k v : String} {cs : List Char} {c : Char}

/-- The signs between a key and a value. -/
def signs : List (List Char × (String → NameSet → Requirement)) :=
  [(['='], .oneOf), (['=', '='], .oneOf), (['!', '='], .noneOf)]

/-- The words between a key and a list of values. -/
def setWords : List (List Char × (String → NameSet → Requirement)) :=
  [(['i', 'n'], .oneOf), (['n', 'o', 't', 'i', 'n'], .noneOf)]

theorem mem_signs_iff {mark : List Char} {build : String → NameSet → Requirement} :
    (mark, build) ∈ signs ↔ mark = ['='] ∧ build = .oneOf ∨ mark = ['=', '='] ∧ build = .oneOf ∨
      mark = ['!', '='] ∧ build = .noneOf := by
  simp [signs]

theorem mem_setWords_iff {word : List Char} {build : String → NameSet → Requirement} :
    (word, build) ∈ setWords ↔ word = ['i', 'n'] ∧ build = .oneOf ∨
      word = ['n', 'o', 't', 'i', 'n'] ∧ build = .noneOf := by
  simp [setWords]

/-- Values with commas between them and blanks around them. -/
inductive Lists : List Char → List String → Prop
  | one {ws ws' : List Char} {v : String} (hws : Text.Blank ws) (hws' : Text.Blank ws')
      (hv : IsValue v) : Lists (ws ++ v.toList ++ ws') [v]
  | cons {ws ws' rest : List Char} {v : String} {vs : List String} (hws : Text.Blank ws)
      (hws' : Text.Blank ws') (hv : IsValue v) (hrest : Lists rest vs) :
      Lists (ws ++ v.toList ++ ws' ++ ',' :: rest) (v :: vs)

/-- Blanks may stand around what is between a key and its values, and must stand before a word. -/
inductive Derives : List Char → Requirement → Prop
  | present {k : String} (hk : IsKey k) : Derives k.toList (.present k)
  | absent {ws : List Char} {k : String} (hws : Text.Blank ws) (hk : IsKey k) :
      Derives ('!' :: ws ++ k.toList) (.absent k)
  | sign {k v : String} {ws ws' mark : List Char} {build : String → NameSet → Requirement}
      (hmark : (mark, build) ∈ signs) (hk : IsKey k) (hws : Text.Blank ws)
      (hws' : Text.Blank ws') (hv : IsValue v) :
      Derives (k.toList ++ ws ++ mark ++ ws' ++ v.toList) (build k (.ofList [v]))
  | set {k : String} {vs : List String} {ws ws₁ ws₂ word list : List Char}
      {build : String → NameSet → Requirement} (hword : (word, build) ∈ setWords) (hk : IsKey k)
      (hws : Text.Blank ws) (hne : ws ≠ []) (hws₁ : Text.Blank ws₁) (hlist : Lists list vs)
      (hws₂ : Text.Blank ws₂) :
      Derives (k.toList ++ ws ++ word ++ ws₁ ++ '(' :: list ++ ')' :: ws₂) (build k (.ofList vs))

/-- From a hyphen to a small z there is no blank, comma, parenthesis or exclamation mark. -/
def IsPlain (cs : List Char) : Prop := ∀ c ∈ cs, 45 ≤ c.toNat ∧ c.toNat ≤ 122

theorem isKeyChar_of_isValueChar (h : isValueChar c = true) : isKeyChar c = true := by
  simp [isKeyChar, h]

theorem plain_of_isKeyChar (h : isKeyChar c = true) : 45 ≤ c.toNat ∧ c.toNat ≤ 122 := by
  simp only [isKeyChar, isValueChar, Char.isAlphanum, Char.isDigit] at h
  delta Char.isAlpha at h
  delta Char.isUpper Char.isLower at h
  simp only [Bool.or_eq_true, Bool.and_eq_true, decide_eq_true_eq, beq_iff_eq,
    UInt32.le_iff_toNat_le] at h
  rcases h with (((((h | h) | h) | rfl) | rfl) | rfl) | rfl
  · exact ⟨Nat.le_trans (by decide) h.1, Nat.le_trans h.2 (by decide)⟩
  · exact ⟨Nat.le_trans (by decide) h.1, Nat.le_trans h.2 (by decide)⟩
  · exact ⟨Nat.le_trans (by decide) h.1, Nat.le_trans h.2 (by decide)⟩
  all_goals decide

namespace IsPlain

theorem ne (h : IsPlain cs) (hc : c.toNat < 45) : c ∉ cs :=
  fun hmem => absurd (h c hmem).1 (by omega)

theorem isBlank_eq_false (h : IsPlain cs) (hc : c ∈ cs) : Text.isBlank c = false := by
  have hplain := h c hc
  simp [Text.isBlank, Text.blankRuns]
  omega

end IsPlain

theorem IsKey.toList_ne_nil (h : IsKey k) : k.toList ≠ [] :=
  fun hnil => h.1 (String.toList_eq_nil_iff.1 hnil)

theorem key_toList (h : IsKey k) : key k.toList = .ok k := by
  have hall : k.toList.all isKeyChar = true := List.all_eq_true.2 h.2
  simp [key, h.toList_ne_nil, hall]

theorem value_toList (h : IsValue v) : value v.toList = .ok v := by
  have hall : v.toList.all isValueChar = true := List.all_eq_true.2 h
  simp [value, hall]

theorem notMem_of_isKey (h : IsKey k) : '=' ∉ k.toList :=
  fun hmem => absurd (h.2 '=' hmem) (by decide)

theorem notMem_of_isValue (h : IsValue v) : '=' ∉ v.toList :=
  fun hmem => absurd (h '=' hmem) (by decide)

theorem IsKey.isPlain (h : IsKey k) : IsPlain k.toList :=
  fun c hc => plain_of_isKeyChar (h.2 c hc)

theorem IsValue.isPlain (h : IsValue v) : IsPlain v.toList :=
  fun c hc => plain_of_isKeyChar (isKeyChar_of_isValueChar (h c hc))

theorem key_eq_ok_iff : key cs = .ok k ↔ cs = k.toList ∧ IsKey k := by
  constructor
  · intro h
    unfold key at h
    split at h
    next hvalid =>
      obtain rfl := Except.ok.inj h
      rw [Bool.and_eq_true, List.all_eq_true] at hvalid
      simpa [IsKey] using hvalid
    next => cases h
  · rintro ⟨rfl, hk⟩
    exact key_toList hk

theorem value_eq_ok_iff : value cs = .ok v ↔ cs = v.toList ∧ IsValue v := by
  constructor
  · intro h
    unfold value at h
    split at h
    next hvalid =>
      obtain rfl := Except.ok.inj h
      simpa [IsValue] using hvalid
    next => cases h
  · rintro ⟨rfl, hv⟩
    exact value_toList hv

theorem IsKey.solid (h : IsKey k) : Text.Solid k.toList :=
  fun _ hc => h.isPlain.isBlank_eq_false hc

theorem IsValue.solid (h : IsValue v) : Text.Solid v.toList :=
  fun _ hc => h.isPlain.isBlank_eq_false hc

theorem value_trim_eq_ok_iff : value (Text.trim cs) = .ok v ↔
    ∃ ws ws', Text.Blank ws ∧ Text.Blank ws' ∧ IsValue v ∧ cs = ws ++ v.toList ++ ws' := by
  constructor
  · intro h
    obtain ⟨htrim, hv⟩ := value_eq_ok_iff.1 h
    obtain ⟨ws, ws', hws, hws', hcs⟩ := Text.exists_trim cs
    exact ⟨ws, ws', hws, hws', hv, htrim ▸ hcs⟩
  · rintro ⟨ws, ws', hws, hws', hv, rfl⟩
    rw [Text.trim_around hws hws' hv.solid]
    exact value_toList hv

theorem key_trim_eq_ok_iff : key (Text.trim cs) = .ok k ↔
    ∃ ws ws', Text.Blank ws ∧ Text.Blank ws' ∧ IsKey k ∧ cs = ws ++ k.toList ++ ws' := by
  constructor
  · intro h
    obtain ⟨htrim, hk⟩ := key_eq_ok_iff.1 h
    obtain ⟨ws, ws', hws, hws', hcs⟩ := Text.exists_trim cs
    exact ⟨ws, ws', hws, hws', hk, htrim ▸ hcs⟩
  · rintro ⟨ws, ws', hws, hws', hk, rfl⟩
    rw [Text.trim_around hws hws' hk.solid]
    exact key_toList hk

end WorkloadMap.Selector
