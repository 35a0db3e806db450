import WorkloadMap.Json.Basic
import WorkloadMap.Text.Numeral

/-!
The lexemes of JSON. A text is cut into lexemes from the left; what lies between two of them is
white space, which here is the space, the tab, the line feed and the carriage return.
-/
namespace WorkloadMap.Json

inductive Token where
  | beginArray
  | endArray
  | beginObject
  | endObject
  | comma
  | colon
  | string (text : Option String)
  | literal (value : Json)

def isSpace (c : Char) : Bool :=
  c == ' ' || c == '\t' || c == '\n' || c == '\r'

def hexValue? (c : Char) : Option Nat :=
  if '0' ≤ c ∧ c ≤ '9' then some (c.toNat - '0'.toNat)
  else if 'a' ≤ c ∧ c ≤ 'f' then some (c.toNat - 'a'.toNat + 10)
  else if 'A' ≤ c ∧ c ≤ 'F' then some (c.toNat - 'A'.toNat + 10)
  else none

/-- The characters that stand for themselves or for a control after a backslash. -/
def simpleEscape? : Char → Option Char
  | '"' => some '"'
  | '\\' => some '\\'
  | '/' => some '/'
  | 'b' => some '\x08'
  | 'f' => some '\x0c'
  | 'n' => some '\n'
  | 'r' => some '\r'
  | 't' => some '\t'
  | _ => none

/-- What one step through a string reads: a character, or half of a surrogate pair. -/
inductive CodeUnit where
  | char (c : Char)
  | surrogate (n : Nat)

def CodeUnit.ofHex (n : Nat) : CodeUnit :=
  if 0xD800 ≤ n ∧ n ≤ 0xDFFF then .surrogate n else .char (Char.ofNat n)

/-- A high half followed by a low half is one character; any other half has no text. -/
def assemble : List CodeUnit → Option (List Char)
  | [] => some []
  | .char c :: us => (assemble us).map (c :: ·)
  | .surrogate h :: .surrogate l :: us =>
    if h < 0xDC00 ∧ 0xDC00 ≤ l then
      (assemble us).map (Char.ofNat (0x10000 + (h - 0xD800) * 0x400 + (l - 0xDC00)) :: ·)
    else none
  | .surrogate _ :: _ => none

/-- Reads to the closing quote. -/
def scanString : List Char → Option (List CodeUnit × List Char)
  | [] => none
  | '"' :: rest => some ([], rest)
  | '\\' :: 'u' :: a :: b :: c :: d :: rest => do
    let n := (← hexValue? a) * 0x1000 + (← hexValue? b) * 0x100 + (← hexValue? c) * 0x10 +
      (← hexValue? d)
    let (units, rest) ← scanString rest
    some (.ofHex n :: units, rest)
  | '\\' :: c :: rest => do
    let e ← simpleEscape? c
    let (units, rest) ← scanString rest
    some (.char e :: units, rest)
  | c :: rest =>
    if c.toNat < 0x20 ∨ c = '\\' then none
    else (scanString rest).map fun (units, rest) => (.char c :: units, rest)

/-- At least one digit. -/
def scanDigits (cs : List Char) : Option (List Char × List Char) :=
  let digits := cs.takeWhile Char.isDigit
  if digits.isEmpty then none else some (digits, cs.dropWhile Char.isDigit)

/-- A sign that is one of `marks` and counts if it is a minus, and what follows. -/
def scanSign (marks : List Char) : List Char → Bool × List Char
  | [] => (false, [])
  | c :: rest => if marks.contains c then (c == '-', rest) else (false, c :: rest)

/-- The digits after a point, if there is one. -/
def scanFraction : List Char → Option (List Char × List Char)
  | '.' :: rest => scanDigits rest
  | cs => some ([], cs)

/-- The power of ten after an `e`, if there is one. -/
def scanExponent : List Char → Option (Option Int × List Char)
  | [] => some (none, [])
  | c :: rest =>
    if c = 'e' ∨ c = 'E' then
      let (negative, rest) := scanSign ['-', '+'] rest
      (scanDigits rest).map fun (digits, rest) =>
        let n : Int := Text.numeral digits
        (some (if negative then -n else n), rest)
    else some (none, c :: rest)

/-- Digits without a needless leading zero, then a fraction, then an exponent. -/
def scanNumber (cs : List Char) : Option (Number × List Char) := do
  let (negative, rest) := scanSign ['-'] cs
  let (whole, rest) ← scanDigits rest
  if whole.head? = some '0' ∧ whole.length ≠ 1 then none
  else
    let (fraction, rest) ← scanFraction rest
    let (exponent, rest) ← scanExponent rest
    if fraction.isEmpty ∧ exponent.isNone then some (.integer negative (Text.numeral whole), rest)
    else some (.decimal negative whole fraction (exponent.getD 0), rest)

/-- The lexeme that a text begins with, and what follows it. -/
def Token.scan? : List Char → Option (Token × List Char)
  | '[' :: rest => some (.beginArray, rest)
  | ']' :: rest => some (.endArray, rest)
  | '\x7b' :: rest => some (.beginObject, rest)
  | '\x7d' :: rest => some (.endObject, rest)
  | ',' :: rest => some (.comma, rest)
  | ':' :: rest => some (.colon, rest)
  | '"' :: rest =>
    (scanString rest).map fun (units, rest) => (.string ((assemble units).map String.ofList), rest)
  | 'n' :: 'u' :: 'l' :: 'l' :: rest => some (.literal .null, rest)
  | 't' :: 'r' :: 'u' :: 'e' :: rest => some (.literal (.bool true), rest)
  | 'f' :: 'a' :: 'l' :: 's' :: 'e' :: rest => some (.literal (.bool false), rest)
  | cs => (scanNumber cs).map fun (n, rest) => (.literal (.number n), rest)

theorem length_scanString {cs rest : List Char} {units : List CodeUnit}
    (h : scanString cs = some (units, rest)) : rest.length < cs.length := by
  fun_induction scanString cs generalizing units rest with
  | case1 => simp at h
  | case2 rest' => simp_all
  | case3 a b c d rest' ih =>
    simp only [Option.bind_eq_bind, Option.bind_eq_some_iff, Option.some.injEq, Prod.mk.injEq,
      Prod.exists] at h
    obtain ⟨_, _, _, _, _, _, _, _, us, r, hr, _, rfl⟩ := h
    have := ih hr
    simp only [List.length_cons]
    omega
  | case4 c rest' _ ih =>
    simp only [Option.bind_eq_bind, Option.bind_eq_some_iff, Option.some.injEq, Prod.mk.injEq,
      Prod.exists] at h
    obtain ⟨_, _, us, r, hr, _, rfl⟩ := h
    have := ih hr
    simp only [List.length_cons]
    omega
  | case5 => simp at h
  | case6 c rest' =>
    rename_i ih
    simp only [Option.map_eq_some_iff, Prod.mk.injEq, Prod.exists] at h
    obtain ⟨us, r, hr, _, rfl⟩ := h
    have := ih hr
    simp only [List.length_cons]
    omega

private theorem length_scanDigits {cs rest ds : List Char}
    (h : scanDigits cs = some (ds, rest)) : rest.length < cs.length := by
  simp only [scanDigits] at h
  split at h
  · simp at h
  next hne =>
    simp only [Option.some.injEq, Prod.mk.injEq] at h
    obtain ⟨_, rfl⟩ := h
    have hsum := congrArg List.length
      (List.takeWhile_append_dropWhile (p := Char.isDigit) (l := cs))
    have hpos : 0 < (cs.takeWhile Char.isDigit).length :=
      List.length_pos_iff.2 (by simpa using hne)
    simp only [List.length_append] at hsum
    omega

private theorem length_scanSign (marks cs : List Char) :
    (scanSign marks cs).2.length ≤ cs.length := by
  cases cs with
  | nil => simp [scanSign]
  | cons c cs => simp only [scanSign]; split <;> simp

private theorem length_scanFraction {cs rest ds : List Char}
    (h : scanFraction cs = some (ds, rest)) : rest.length ≤ cs.length := by
  unfold scanFraction at h
  split at h
  · have := length_scanDigits h
    simp only [List.length_cons]
    omega
  · simp only [Option.some.injEq, Prod.mk.injEq] at h
    simp [h.2]

private theorem length_scanExponent {cs rest : List Char} {e : Option Int}
    (h : scanExponent cs = some (e, rest)) : rest.length ≤ cs.length := by
  cases cs with
  | nil => simp_all [scanExponent]
  | cons c cs =>
    simp only [scanExponent] at h
    split at h
    · obtain ⟨⟨ds, r⟩, hd, hp⟩ := Option.map_eq_some_iff.1 h
      simp only [Prod.mk.injEq] at hp
      obtain ⟨_, rfl⟩ := hp
      have h1 := length_scanDigits hd
      have h2 := length_scanSign ['-', '+'] cs
      simp only [List.length_cons]
      omega
    · simp only [Option.some.injEq, Prod.mk.injEq] at h
      simp [← h.2]

theorem length_scanNumber {cs rest : List Char} {n : Number}
    (h : scanNumber cs = some (n, rest)) : rest.length < cs.length := by
  simp only [scanNumber, Option.bind_eq_bind, Option.bind_eq_some_iff, Prod.exists] at h
  obtain ⟨whole, r₁, h₁, h⟩ := h
  split at h
  · simp at h
  · simp only [Option.bind_eq_some_iff, Prod.exists] at h
    obtain ⟨fraction, r₂, h₂, exponent, r₃, h₃, h⟩ := h
    have hr : r₃ = rest := by split at h <;> simp_all
    subst hr
    have := length_scanDigits h₁
    have := length_scanSign ['-'] cs
    have := length_scanFraction h₂
    have := length_scanExponent h₃
    omega

theorem Token.length_scan? {cs rest : List Char} {t : Token}
    (h : Token.scan? cs = some (t, rest)) : rest.length < cs.length := by
  unfold Token.scan? at h
  split at h
  all_goals first
    | (simp only [Option.some.injEq, Prod.mk.injEq] at h
       obtain ⟨_, rfl⟩ := h
       simp only [List.length_cons]
       omega)
    | skip
  · obtain ⟨⟨us, r⟩, hs, hp⟩ := Option.map_eq_some_iff.1 h
    simp only [Prod.mk.injEq] at hp
    obtain ⟨_, rfl⟩ := hp
    have := length_scanString hs
    simp only [List.length_cons]
    omega
  · obtain ⟨⟨n, r⟩, hs, hp⟩ := Option.map_eq_some_iff.1 h
    simp only [Prod.mk.injEq] at hp
    obtain ⟨_, rfl⟩ := hp
    exact length_scanNumber hs

/-- The lexemes of a whole text. -/
def tokens (cs : List Char) : Option (List Token) :=
  match cs with
  | [] => some []
  | c :: rest =>
    if isSpace c then tokens rest
    else match h : Token.scan? (c :: rest) with
      | none => none
      | some (t, rest') =>
        have : rest'.length < (c :: rest).length := Token.length_scan? h
        (tokens rest').map (t :: ·)
termination_by cs.length
decreasing_by
  · simp
  · assumption

end WorkloadMap.Json
