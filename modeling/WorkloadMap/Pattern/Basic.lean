import WorkloadMap.Pattern.Unicode
import WorkloadMap.Text.Blank

/-!
Patterns and what they match. A pattern relates the places of a text: it spans from one to another.
The matcher follows all places at once, as the bits of a number.
-/
namespace WorkloadMap

namespace Pattern

/-- What holds of a place without any character being taken. -/
inductive Assertion where
  | textStart
  | textEnd
  | lineStart
  | lineEnd
  | wordBoundary
  | noWordBoundary
  | wordStart
  | wordEnd
  | wordStartHalf
  | wordEndHalf
deriving DecidableEq, Repr

namespace Assertion

private def wordAt (text : Array Char) (i : Nat) : Bool :=
  match text[i]? with
  | some c => wordChars.contains c
  | none => false

private def wordBefore (text : Array Char) (i : Nat) : Bool :=
  match i with
  | 0 => false
  | i + 1 => wordAt text i

/-- At a place between two characters, or at an end, of a text. -/
def holds (text : Array Char) (i : Nat) : Assertion → Bool
  | .textStart => i == 0
  | .textEnd => i == text.size
  | .lineStart => i == 0 || text[i - 1]? == some '\n'
  | .lineEnd => i == text.size || text[i]? == some '\n'
  | .wordBoundary => wordBefore text i != wordAt text i
  | .noWordBoundary => wordBefore text i == wordAt text i
  | .wordStart => !wordBefore text i && wordAt text i
  | .wordEnd => wordBefore text i && !wordAt text i
  | .wordStartHalf => !wordBefore text i
  | .wordEndHalf => !wordAt text i

end Assertion

end Pattern

inductive Pattern where
  | empty
  | set (s : Pattern.CharSet)
  | assertion (a : Pattern.Assertion)
  | seq (p q : Pattern)
  | alt (p q : Pattern)
  | times (p : Pattern) (least : Nat) (most : Option Nat)

namespace Pattern

/-- A pattern spans the places `i` to `j` of a text if it takes the characters between them. -/
inductive Spans (text : Array Char) : Pattern → Nat → Nat → Prop where
  | empty (i : Nat) : Spans text .empty i i
  | set {s : CharSet} {i : Nat} {c : Char} (at_i : text[i]? = some c) (mem : s.contains c) :
      Spans text (.set s) i (i + 1)
  | assertion {a : Assertion} {i : Nat} (holds : a.holds text i) : Spans text (.assertion a) i i
  | seq {p q : Pattern} {i j k : Nat} (left : Spans text p i j) (right : Spans text q j k) :
      Spans text (.seq p q) i k
  | altLeft {p q : Pattern} {i j : Nat} (left : Spans text p i j) : Spans text (.alt p q) i j
  | altRight {p q : Pattern} {i j : Nat} (right : Spans text q i j) : Spans text (.alt p q) i j
  | done {p : Pattern} {most : Option Nat} {i : Nat} : Spans text (.times p 0 most) i i
  | must {p : Pattern} {least : Nat} {most : Option Nat} {i j k : Nat} (first : Spans text p i j)
      (rest : Spans text (.times p least (most.map (· - 1))) j k) (room : most ≠ some 0) :
      Spans text (.times p (least + 1) most) i k
  | more {p : Pattern} {most : Option Nat} {i j k : Nat} (first : Spans text p i j)
      (rest : Spans text (.times p 0 (most.map (· - 1))) j k) (room : most ≠ some 0) :
      Spans text (.times p 0 most) i k

/-- A pattern matches a text if it spans any part of it. -/
def Matches (p : Pattern) (text : String) : Prop :=
  ∃ i j, i ≤ text.toList.length ∧ Spans text.toList.toArray p i j

/-- The places of a text as bits: bit `i` is the place before the character with index `i`. -/
abbrev Places := Nat

/-- The places before `n` that a test accepts. -/
def placesBelow (n : Nat) (accepts : Nat → Bool) : Places :=
  (List.range n).foldr (fun i places => if accepts i then places ||| 1 <<< i else places) 0

/-- Where each character of a text stands. -/
def standings (text : Array Char) : List (Char × Places) :=
  text.toList.eraseDups.map fun c => (c, placesBelow text.size fun i => text[i]? == some c)

/-- The places whose character a set has. -/
def CharSet.places (s : CharSet) (stands : List (Char × Places)) : Places :=
  stands.foldr (fun (c, places) taken => if s.contains c then taken ||| places else taken) 0

/-- A pattern laid over one text: the places whose character a set takes, and those where an
assertion holds. -/
inductive Overlay where
  | empty
  | set (takes : Places)
  | assertion (holds : Places)
  | seq (p q : Overlay)
  | alt (p q : Overlay)
  | times (p : Overlay) (least rounds : Nat)

/-- A repetition need not be followed further than there are places: of so many steps one has taken
nothing, and may be taken any number of times. -/
def overlay (text : Array Char) (stands : List (Char × Places)) : Pattern → Overlay
  | .empty => .empty
  | .set s => .set (s.places stands)
  | .assertion a => .assertion (placesBelow (text.size + 1) (a.holds text ·))
  | .seq p q => .seq (p.overlay text stands) (q.overlay text stands)
  | .alt p q => .alt (p.overlay text stands) (q.overlay text stands)
  | .times p least most =>
    let rounds := match most with
      | none => text.size + 1
      | some most => min (most - least) (text.size + 1)
    .times (p.overlay text stands) (min least (text.size + 1)) rounds

/-- Places reached in exactly `n` steps, as far as steps still change something. -/
def advance (step : Places → Places) : Nat → Places → Places
  | 0, places => places
  | n + 1, places =>
    let next := step places
    if next = places then places else advance step n next

/-- Places reached in at most `rounds` steps from the `fresh` ones among those seen. -/
def grow (step : Places → Places) : Nat → Places → Places → Places
  | 0, seen, _ => seen
  | rounds + 1, seen, fresh =>
    let next := step fresh
    let fresh := next ^^^ (next &&& seen)
    if fresh = 0 then seen else grow step rounds (seen ||| fresh) fresh

/-- The places to which a pattern spans from any of `starts`. -/
def Overlay.ends : Overlay → Places → Places
  | .empty, starts => starts
  | .set takes, starts => (starts &&& takes) <<< 1
  | .assertion holds, starts => starts &&& holds
  | .seq p q, starts => q.ends (p.ends starts)
  | .alt p q, starts => p.ends starts ||| q.ends starts
  | .times p least rounds, starts =>
    let reached := advance p.ends least starts
    grow p.ends rounds reached reached

def isMatch (p : Pattern) (text : String) : Bool :=
  let text := text.toList.toArray
  (p.overlay text (standings text)).ends (placesBelow (text.size + 1) fun _ => true) != 0

end Pattern

end WorkloadMap
