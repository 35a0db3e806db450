/-!
Blank characters, and the ways a text is cut at them or at a mark. The blanks are the characters
with the property White_Space, so a no-break space counts and a byte order mark does not.
-/
namespace WorkloadMap.Text

/-- The blank characters, as runs of code points. -/
def blankRuns : List (Nat × Nat) := [
  (0x9, 0xD), (0x20, 0x20), (0x85, 0x85), (0xA0, 0xA0), (0x1680, 0x1680), (0x2000, 0x200A),
  (0x2028, 0x2029), (0x202F, 0x202F), (0x205F, 0x205F), (0x3000, 0x3000)]

def isBlank (c : Char) : Bool :=
  blankRuns.any fun (first, last) => first ≤ c.toNat && c.toNat ≤ last

def trimStart (cs : List Char) : List Char :=
  cs.dropWhile isBlank

def trimEnd (cs : List Char) : List Char :=
  (cs.reverse.dropWhile isBlank).reverse

def trim (cs : List Char) : List Char :=
  trimEnd (trimStart cs)

@[simp] theorem trim_nil : trim [] = [] := rfl

/-- Every piece between two characters that satisfy `p`; there is one more piece than such
characters. -/
def pieces (p : Char → Bool) : List Char → List (List Char)
  | [] => [[]]
  | c :: cs =>
    if p c then [] :: pieces p cs
    else match pieces p cs with
      | [] => [[c]]
      | piece :: rest => (c :: piece) :: rest

theorem pieces_ne_nil (p : Char → Bool) (cs : List Char) : pieces p cs ≠ [] := by
  cases cs with
  | nil => simp [pieces]
  | cons c cs =>
    simp only [pieces]
    split
    · simp
    · split <;> simp

/-- The non-empty pieces between blanks. -/
def words (cs : List Char) : List (List Char) :=
  (pieces isBlank cs).filter (!·.isEmpty)

/-- The texts before and after the first place where `mark` stands. -/
def splitOnce (mark : List Char) : List Char → Option (List Char × List Char)
  | [] => if mark.isEmpty then some ([], []) else none
  | c :: cs =>
    if mark.isPrefixOf (c :: cs) then some ([], (c :: cs).drop mark.length)
    else (splitOnce mark cs).map fun (before, after) => (c :: before, after)

theorem splitOnce_append {mark cs before after : List Char}
    (h : splitOnce mark cs = some (before, after)) : cs = before ++ mark ++ after := by
  induction cs generalizing before with
  | nil =>
    simp only [splitOnce] at h
    split at h
    · simp_all
    · contradiction
  | cons c cs ih =>
    simp only [splitOnce] at h
    split at h
    next hm =>
      obtain ⟨tail, ht⟩ := List.isPrefixOf_iff_prefix.1 hm
      simp only [Option.some.injEq, Prod.mk.injEq] at h
      obtain ⟨rfl, rfl⟩ := h
      rw [← ht]
      simp
    next =>
      obtain ⟨⟨b, a⟩, hb, he⟩ := Option.map_eq_some_iff.1 h
      simp only [Prod.mk.injEq] at he
      obtain ⟨rfl, rfl⟩ := he
      simp [ih hb]

end WorkloadMap.Text
