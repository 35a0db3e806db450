import WorkloadMap.Pattern.Plan
import WorkloadMap.Pattern.Token

/-!
Reading patterns. Lexemes are taken one at a time: a group opens a level above the ones that are
still open, and closing it makes one item of it on the level below. A pattern that nests too deep or
takes too much room is refused.
-/
namespace WorkloadMap.Pattern

/-- The flags that change what is matched. -/
structure Flags where
  caseless : Bool := false
  multiLine : Bool := false
  dotAll : Bool := false
deriving DecidableEq, Repr

def Flags.change (flags : Flags) : Flag × Bool → Flags
  | (.caseless, on) => { flags with caseless := on }
  | (.multiLine, on) => { flags with multiLine := on }
  | (.dotAll, on) => { flags with dotAll := on }
  | (.lazy, _) => flags
  | (.unicode, _) => flags

def Flags.changeAll (flags : Flags) (changes : FlagChanges) : Flags :=
  changes.foldl Flags.change flags

/-- What was read: a pattern, how deep it nests as it is written, and its plan. -/
structure Item where
  pattern : Pattern
  depth : Nat
  plan : Plan

namespace Item

def empty : Item := ⟨.empty, 0, .empty⟩

def ofSet (s : CharSet) (depth : Nat) : Item := ⟨.set s, depth, .ofSet s⟩

def ofAssertion (a : Assertion) : Item := ⟨.assertion a, 0, .assertion a⟩

private def deepest (items : List Item) : Nat := (items.map (·.depth)).foldl max 0

/-- Items one after the other. Nothing but several of them is deeper than the deepest. -/
def sequence (items : List Item) : Item :=
  match items with
  | [item] => item
  | items =>
    { pattern := items.foldr (fun item p => .seq item.pattern p) .empty
      depth := if items.isEmpty then 0 else deepest items + 1
      plan := .sequence (items.map (·.plan)) }

def alternatives (first : Item) (more : List Item) : Item :=
  if more.isEmpty then first
  else
    { pattern := more.foldl (fun p item => .alt p item.pattern) first.pattern
      depth := deepest (first :: more) + 1
      plan := .alternatives ((first :: more).map (·.plan)) }

def times (item : Item) (least : Nat) (most : Option Nat) : Item :=
  ⟨.times item.pattern least most, item.depth + 1, item.plan.repeated least most⟩

/-- In parentheses, with a number if the group has one. -/
def group (item : Item) (index : Option Nat) : Item :=
  { item with
    depth := item.depth + 1
    plan := match index with
      | none => item.plan
      | some index => .group index item.plan }

end Item

/-- A level that is being read: the alternatives before the last bar, and the items after it, both
last first. A change of flags is an item that cannot be repeated. A level that was opened by a
numbered group has its number. -/
structure Level where
  flags : Flags := {}
  index : Option Nat := none
  alternatives : List Item := []
  items : List (Item × Bool) := []

/-- The innermost level, the levels around it, the names of the groups so far, and their number. -/
structure Reading where
  level : Level := {}
  outer : List Level := []
  names : List String := []
  groups : Nat := 0

namespace Level

def sequence (l : Level) : Item := .sequence (l.items.reverse.map (·.1))

def add (l : Level) (item : Item) : Level := { l with items := (item, true) :: l.items }

def addBar (l : Level) : Level :=
  { l with alternatives := l.sequence :: l.alternatives, items := [] }

def toItem (l : Level) : Item :=
  match (l.sequence :: l.alternatives).reverse with
  | [] => .empty
  | first :: more => .alternatives first more

end Level

/-- A character by itself, with its variants if case does not matter. -/
private def charItem (flags : Flags) (c : Char) : Item :=
  .ofSet ((CharSet.single c).inBrackets flags.caseless false) 0

/-- Any character, but the end of a line only if the flags say so. -/
private def dotItem (flags : Flags) : Item :=
  .ofSet (if flags.dotAll then CharSet.empty.complement else (CharSet.single '\n').complement) 0

def Reading.openGroup (r : Reading) (index : Option Nat) (changes : FlagChanges) :
    Reading :=
  { r with
    level := { flags := r.level.flags.changeAll changes, index := index }
    outer := r.level :: r.outer }

def Reading.step (r : Reading) (t : Token) : Option Reading :=
  let l := r.level
  let add (item : Item) : Option Reading := some { r with level := l.add item }
  match t with
  | .char c => add (charItem l.flags c)
  | .dot => add (dotItem l.flags)
  | .set s depth => add (.ofSet s depth)
  | .caret => add (.ofAssertion (if l.flags.multiLine then .lineStart else .textStart))
  | .dollar => add (.ofAssertion (if l.flags.multiLine then .lineEnd else .textEnd))
  | .assertion a => add (.ofAssertion a)
  | .bar => some { r with level := l.addBar }
  | .times least most =>
    match l.items with
    | (item, true) :: items =>
      some { r with level := { l with items := (item.times least most, true) :: items } }
    | _ => none
  | .setFlags changes =>
    some { r with
      level := { l with flags := l.flags.changeAll changes, items := (.empty, false) :: l.items } }
  | .openGroup changes => some (r.openGroup none changes)
  | .openNumbered name =>
    let r := { r with groups := r.groups + 1 }
    match name with
    | none => some (r.openGroup r.groups [])
    | some name =>
      if name ∈ r.names then none
      else some ({ r with names := name :: r.names }.openGroup r.groups [])
  | .closeGroup =>
    match r.outer with
    | [] => none
    | below :: outer => some { r with level := below.add (l.toItem.group l.index), outer }

/-- Every lexeme takes a character, so their number bounds the steps. -/
def Reading.run : Nat → Reading → List Char → Option Reading
  | _, r, [] => some r
  | 0, _, _ => none
  | n + 1, r, cs => do
    let (t, rest) ← token? r.level.flags.caseless cs
    (← r.step t).run n rest

/-- How deep a pattern may nest. -/
def depthLimit : Nat := 250

/-- The room that a pattern's automaton may take: ten mebibytes. -/
def roomLimit : Nat := 10485760

/-- The pattern, if every group is closed and no limit is passed. -/
def parse? (text : String) : Option Pattern := do
  let cs := text.toList
  let r ← Reading.run cs.length {} cs
  if r.outer.isEmpty then
    let item := r.level.toItem
    if item.depth ≤ depthLimit ∧ item.plan.fits roomLimit then some item.pattern else none
  else none

end WorkloadMap.Pattern
