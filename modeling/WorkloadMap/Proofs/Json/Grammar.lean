import Mathlib.Data.List.Basic
import WorkloadMap.Json.Token

/-!
The grammar of JSON text. A value is written in many ways, by the white space between its lexemes,
the escapes in its strings and the form of its numbers; what is written stands for one value only.
Main statement: which texts are written forms of a value.
-/
namespace WorkloadMap.Json

/-- Nothing but white space. -/
def Spaces (cs : List Char) : Prop := ∀ c ∈ cs, isSpace c = true

theorem isSpace_iff {c : Char} :
    isSpace c = true ↔ c = ' ' ∨ c = '\t' ∨ c = '\n' ∨ c = '\r' := by
  simp [isSpace, or_assoc]

/-! Strings. -/

/-- A hexadecimal digit, in either case, and its value. -/
def IsHex (c : Char) (n : Nat) : Prop :=
  ['0', '1', '2', '3', '4', '5', '6', '7', '8', '9', 'a', 'b', 'c', 'd', 'e', 'f'][n]? = some c ∨
  ['0', '1', '2', '3', '4', '5', '6', '7', '8', '9', 'A', 'B', 'C', 'D', 'E', 'F'][n]? = some c

/-- Four hexadecimal digits and their number. -/
inductive HexText : Nat → List Char → Prop
  | digits {a b c d : Char} {w x y z : Nat} (ha : IsHex a w) (hb : IsHex b x) (hc : IsHex c y)
      (hd : IsHex d z) : HexText (w * 0x1000 + x * 0x100 + y * 0x10 + z) [a, b, c, d]

/-- The letters of the short escapes, with what they stand for. -/
def escapes : List (Char × Char) :=
  [('"', '"'), ('\\', '\\'), ('/', '/'), ('b', '\x08'), ('f', '\x0c'), ('n', '\n'), ('r', '\r'),
    ('t', '\t')]

/-- A character stands for itself unless it is a control, a quote or a backslash. Any may be written
as its number, if that has four digits; a character of more is written as two halves. -/
inductive UnitText : CodeUnit → List Char → Prop
  | plain {c : Char} (hcontrol : 0x20 ≤ c.toNat) (hquote : c ≠ '"') (hslash : c ≠ '\\') :
      UnitText (.char c) [c]
  | escape {e c : Char} (h : (e, c) ∈ escapes) : UnitText (.char c) ['\\', e]
  | number {c : Char} {w : List Char} (h : HexText c.toNat w) :
      UnitText (.char c) ('\\' :: 'u' :: w)
  | half {n : Nat} {w : List Char} (h : HexText n w) (hn : 0xD800 ≤ n ∧ n ≤ 0xDFFF) :
      UnitText (.surrogate n) ('\\' :: 'u' :: w)

inductive UnitsText : List CodeUnit → List Char → Prop
  | nil : UnitsText [] []
  | cons {u : CodeUnit} {us : List CodeUnit} {w rest : List Char} (hfirst : UnitText u w)
      (hrest : UnitsText us rest) : UnitsText (u :: us) (w ++ rest)

/-- The halves of a character come in pairs, the high one first. -/
inductive Pairs : List CodeUnit → List Char → Prop
  | nil : Pairs [] []
  | char {c : Char} {us : List CodeUnit} {cs : List Char} (hrest : Pairs us cs) :
      Pairs (.char c :: us) (c :: cs)
  | halves {high low : Nat} {c : Char} {us : List CodeUnit} {cs : List Char} (hhigh : high < 0xDC00)
      (hlow : 0xDC00 ≤ low)
      (hc : c.toNat = 0x10000 + (high - 0xD800) * 0x400 + (low - 0xDC00)) (hrest : Pairs us cs) :
      Pairs (.surrogate high :: .surrogate low :: us) (c :: cs)

/-- What stands between quotes has a text, or leaves a half alone. -/
inductive StringText : Option String → List Char → Prop
  | text {us : List CodeUnit} {cs w : List Char} (h : UnitsText us w) (hpairs : Pairs us cs) :
      StringText (some (String.ofList cs)) w
  | alone {us : List CodeUnit} {w : List Char} (h : UnitsText us w)
      (halone : ∀ cs, ¬Pairs us cs) : StringText none w

/-! Numbers. -/

structure IsDigits (ds : List Char) : Prop where
  nonempty : ds ≠ []
  digits : ∀ d ∈ ds, d.isDigit = true

/-- Digits without a needless leading zero. -/
structure IsWhole (ds : List Char) : Prop extends IsDigits ds where
  leading : ds.head? = some '0' → ds = ['0']

def minus (negative : Bool) : List Char := if negative then ['-'] else []

inductive FractionText : List Char → List Char → Prop
  | none : FractionText [] []
  | point {ds : List Char} (h : IsDigits ds) : FractionText ds ('.' :: ds)

inductive ExponentText : Option Int → List Char → Prop
  | none : ExponentText none []
  | plain {mark : Char} {ds : List Char} (hmark : mark = 'e' ∨ mark = 'E') (h : IsDigits ds) :
      ExponentText (some (Text.numeral ds)) (mark :: ds)
  | plus {mark : Char} {ds : List Char} (hmark : mark = 'e' ∨ mark = 'E') (h : IsDigits ds) :
      ExponentText (some (Text.numeral ds)) (mark :: '+' :: ds)
  | minus {mark : Char} {ds : List Char} (hmark : mark = 'e' ∨ mark = 'E') (h : IsDigits ds) :
      ExponentText (some (-Text.numeral ds)) (mark :: '-' :: ds)

inductive NumberText : Number → List Char → Prop
  | integer {negative : Bool} {whole : List Char} (h : IsWhole whole) :
      NumberText (.integer negative (Text.numeral whole)) (minus negative ++ whole)
  | decimal {negative : Bool} {whole fraction f e : List Char} {exponent : Option Int}
      (h : IsWhole whole) (hfraction : FractionText fraction f)
      (hexponent : ExponentText exponent e) (hne : f ++ e ≠ []) :
      NumberText (.decimal negative whole fraction (exponent.getD 0))
        (minus negative ++ whole ++ f ++ e)

/-! Values. -/

mutual

/-- A value without white space around it. -/
inductive Written : Json → List Char → Prop
  | null : Written .null ['n', 'u', 'l', 'l']
  | true : Written (.bool true) ['t', 'r', 'u', 'e']
  | false : Written (.bool false) ['f', 'a', 'l', 's', 'e']
  | number {n : Number} {w : List Char} (h : NumberText n w) : Written (.number n) w
  | string {text : Option String} {w : List Char} (h : StringText text w) :
      Written (.string text) ('"' :: w ++ ['"'])
  | emptyArray {ws : List Char} (hws : Spaces ws) : Written (.array []) ('[' :: ws ++ [']'])
  | array {vs : List Json} {w : List Char} (h : ElementsWritten vs w) :
      Written (.array vs) ('[' :: w ++ [']'])
  | emptyObject {ws : List Char} (hws : Spaces ws) :
      Written (.object []) ('\x7b' :: ws ++ ['\x7d'])
  | object {ms : List (Option String × Json)} {w : List Char} (h : MembersWritten ms w) :
      Written (.object ms) ('\x7b' :: w ++ ['\x7d'])

/-- A value with white space around it. -/
inductive SpacedWritten : Json → List Char → Prop
  | around {v : Json} {ws w ws' : List Char} (hws : Spaces ws) (h : Written v w)
      (hws' : Spaces ws') : SpacedWritten v (ws ++ w ++ ws')

inductive ElementsWritten : List Json → List Char → Prop
  | one {v : Json} {w : List Char} (h : SpacedWritten v w) : ElementsWritten [v] w
  | cons {v : Json} {vs : List Json} {w rest : List Char} (h : SpacedWritten v w)
      (hrest : ElementsWritten vs rest) : ElementsWritten (v :: vs) (w ++ ',' :: rest)

inductive MemberWritten : Option String × Json → List Char → Prop
  | colon {name : Option String} {v : Json} {ws n ws' w : List Char} (hws : Spaces ws)
      (hname : StringText name n) (hws' : Spaces ws') (h : SpacedWritten v w) :
      MemberWritten (name, v) (ws ++ '"' :: n ++ '"' :: ws' ++ ':' :: w)

inductive MembersWritten : List (Option String × Json) → List Char → Prop
  | one {m : Option String × Json} {w : List Char} (h : MemberWritten m w) : MembersWritten [m] w
  | cons {m : Option String × Json} {ms : List (Option String × Json)} {w rest : List Char}
      (h : MemberWritten m w) (hrest : MembersWritten ms rest) :
      MembersWritten (m :: ms) (w ++ ',' :: rest)

end

end WorkloadMap.Json
