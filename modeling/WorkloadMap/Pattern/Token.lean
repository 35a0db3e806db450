import WorkloadMap.Pattern.Basic

/-!
The lexemes of pattern text. Which characters a set in brackets holds depends on whether case
matters where it stands. Three parts of the syntax are left out, and a text that has one of them is
refused here: the classes of a property (`\p`, `\P`), the flags for verbose texts (`x`) and for lines
that end in a carriage return (`R`), and classes narrowed to ASCII (`-u`).
-/
namespace WorkloadMap.Pattern

inductive Flag where
  | caseless
  | multiLine
  | dotAll
  | lazy
  | unicode
deriving DecidableEq, Repr

/-- Flags that a group turns on or off. -/
abbrev FlagChanges := List (Flag × Bool)

inductive Token where
  | char (c : Char)
  | dot
  | set (s : CharSet) (depth : Nat)
  | caret
  | dollar
  | assertion (a : Assertion)
  | openNumbered (name : Option String)
  | openGroup (changes : FlagChanges)
  | setFlags (changes : FlagChanges)
  | closeGroup
  | bar
  | times (least : Nat) (most : Option Nat)

/-- The blank characters as a set. -/
def blanks : CharSet := .ofRuns Text.blankRuns

/-- What an escape stands for. -/
inductive Escape where
  | char (c : Char)
  | set (s : CharSet)
  | assertion (a : Assertion)

def hexDigit? (c : Char) : Option Nat :=
  if '0' ≤ c ∧ c ≤ '9' then some (c.toNat - '0'.toNat)
  else if 'a' ≤ c ∧ c ≤ 'f' then some (c.toNat - 'a'.toNat + 10)
  else if 'A' ≤ c ∧ c ≤ 'F' then some (c.toNat - 'A'.toNat + 10)
  else none

/-- The character of a number in hexadecimal digits. -/
def charOfHex? (cs : List Char) : Option Char := do
  let ds ← cs.mapM hexDigit?
  let n := ds.foldl (fun n d => 16 * n + d) 0
  if h : n.isValidChar then some (Char.ofNatAux n h) else none

/-- A number of so many digits, or any number of them between braces. -/
def hexEscape? (width : Nat) : List Char → Option (Char × List Char)
  | '\x7b' :: rest =>
    let ds := rest.takeWhile (· != '\x7d')
    match rest.drop ds.length with
    | _ :: rest => if ds.isEmpty then none else (charOfHex? ds).map (·, rest)
    | [] => none
  | cs => if cs.length < width then none else (charOfHex? (cs.take width)).map (·, cs.drop width)

def isNameChar (c : Char) : Bool := c.isAlpha || c == '-'

/-- A word boundary may be told apart by a name in braces; braces that hold no name are a
repetition. -/
def boundary? (cs : List Char) : Option (Assertion × List Char) :=
  match cs with
  | '\x7b' :: c :: rest =>
    if isNameChar c then
      let name := (c :: rest).takeWhile isNameChar
      match (c :: rest).drop name.length with
      | '\x7d' :: rest =>
        let named : Option Assertion := match String.ofList name with
          | "start" => some .wordStart
          | "end" => some .wordEnd
          | "start-half" => some .wordStartHalf
          | "end-half" => some .wordEndHalf
          | _ => none
        named.map (·, rest)
      | _ => none
    else some (.wordBoundary, cs)
  | ['\x7b'] => none
  | cs => some (.wordBoundary, cs)

/-- After a backslash. Every mark of ASCII stands for itself; of the letters and digits only those
that have a meaning may follow, and of these `p` and `P` are left out. -/
def escape? : List Char → Option (Escape × List Char)
  | [] => none
  | c :: rest =>
    let char (c : Char) : Option (Escape × List Char) := some (.char c, rest)
    let set (s : CharSet) : Option (Escape × List Char) := some (.set s, rest)
    let assertion (a : Assertion) : Option (Escape × List Char) := some (.assertion a, rest)
    match c with
    | 'x' => (hexEscape? 2 rest).map fun (c, rest) => (.char c, rest)
    | 'u' => (hexEscape? 4 rest).map fun (c, rest) => (.char c, rest)
    | 'U' => (hexEscape? 8 rest).map fun (c, rest) => (.char c, rest)
    | 'd' => set decimalDigits
    | 'D' => set decimalDigits.complement
    | 'w' => set wordChars
    | 'W' => set wordChars.complement
    | 's' => set blanks
    | 'S' => set blanks.complement
    | 'a' => char '\x07'
    | 'f' => char '\x0c'
    | 't' => char '\t'
    | 'n' => char '\n'
    | 'r' => char '\r'
    | 'v' => char '\x0b'
    | 'A' => assertion .textStart
    | 'z' => assertion .textEnd
    | 'B' => assertion .noWordBoundary
    | '<' => assertion .wordStart
    | '>' => assertion .wordEnd
    | 'b' => (boundary? rest).map fun (a, rest) => (.assertion a, rest)
    | c => if c.toNat < 0x80 && !c.isAlphanum then char c else none

/-! Sets in brackets. -/

/-- A set's items so far: what they hold together, how many they are, and how deep they nest. -/
structure SetItems where
  set : CharSet := .empty
  count : Nat := 0
  depth : Nat := 0

namespace SetItems

def add (items : SetItems) (s : CharSet) (depth : Nat) : SetItems :=
  ⟨s.union items.set, items.count + 1, max items.depth depth⟩

/-- Several items are one level deeper than the deepest of them. -/
def height (items : SetItems) : Nat :=
  if 2 ≤ items.count then items.depth + 1 else items.depth

end SetItems

def asciiRanges? : String → Option (List (Char × Char))
  | "alnum" => some [('0', '9'), ('A', 'Z'), ('a', 'z')]
  | "alpha" => some [('A', 'Z'), ('a', 'z')]
  | "ascii" => some [('\x00', '\x7f')]
  | "blank" => some [('\t', '\t'), (' ', ' ')]
  | "cntrl" => some [('\x00', '\x1f'), ('\x7f', '\x7f')]
  | "digit" => some [('0', '9')]
  | "graph" => some [('!', '~')]
  | "lower" => some [('a', 'z')]
  | "print" => some [(' ', '~')]
  | "punct" => some [('!', '/'), (':', '@'), ('[', '\x60'), ('\x7b', '~')]
  | "space" => some [('\t', '\r'), (' ', ' ')]
  | "upper" => some [('A', 'Z')]
  | "word" => some [('0', '9'), ('A', 'Z'), ('_', '_'), ('a', 'z')]
  | "xdigit" => some [('0', '9'), ('A', 'F'), ('a', 'f')]
  | _ => none

/-- What is in brackets holds its case variants too where case does not matter, and is complemented
after that. -/
def CharSet.inBrackets (s : CharSet) (caseless negated : Bool) : CharSet :=
  let s := if caseless then s.closeCase else s
  if negated then s.complement else s

/-- The ranges that a name stands for, and what follows the colon and the bracket after it. -/
def setName? (cs : List Char) : Option (List (Char × Char) × List Char) :=
  let name := cs.takeWhile (· != ':')
  match cs.drop name.length with
  | ':' :: ']' :: rest => (asciiRanges? (String.ofList name)).map (·, rest)
  | _ => none

/-- A named set such as `:alpha:]`, after its opening bracket; anything else there is no such set.
-/
def namedSet? (caseless : Bool) : List Char → Option (CharSet × List Char)
  | ':' :: '^' :: rest =>
    (setName? rest).map fun (rs, rest) => ((CharSet.ofChars rs).inBrackets caseless true, rest)
  | ':' :: rest =>
    (setName? rest).map fun (rs, rest) => ((CharSet.ofChars rs).inBrackets caseless false, rest)
  | _ => none

/-- A character or a set within brackets. -/
def setItem? : List Char → Option (Escape × List Char)
  | [] => none
  | '\\' :: rest => escape? rest
  | c :: rest => some (.char c, rest)

private def Escape.toSet? : Escape → Option CharSet
  | .char c => some (.single c)
  | .set s => some s
  | .assertion _ => none

/-- An item, or a range of characters. A dash before the closing bracket or another dash makes none.
-/
def setRange? (cs : List Char) : Option (CharSet × List Char) := do
  let (item, rest) ← setItem? cs
  match rest with
  | '-' :: ']' :: _ => item.toSet?.map (·, rest)
  | '-' :: '-' :: _ => item.toSet?.map (·, rest)
  | '-' :: rest =>
    match item, ← setItem? rest with
    | .char first, (.char last, rest) =>
      if first ≤ last then some (.ofChars [(first, last)], rest) else none
    | _, _ => none
  | _ => item.toSet?.map (·, rest)

inductive SetOperation where
  | inter
  | minus
  | differ

/-- An operation whose right side is still to come, with its left side and how deep that nests. -/
structure PendingOperation where
  operation : SetOperation
  left : CharSet
  depth : Nat

/-- Either side of an operation stands in for its case variants where case does not matter. -/
def SetOperation.apply (op : SetOperation) (caseless : Bool) (left right : CharSet) : CharSet :=
  let left := left.inBrackets caseless false
  let right := right.inBrackets caseless false
  match op with
  | .inter => left.inter right
  | .minus => left.minus right
  | .differ => left.differ right

/-- The set and its depth when its right side is complete. -/
private def finishOperation (caseless : Bool) (pending : Option PendingOperation)
    (items : SetItems) : CharSet × Nat :=
  match pending with
  | none => (items.set, items.height)
  | some p => (p.operation.apply caseless p.left items.set, max p.depth items.height + 1)

private def beginOperation (caseless : Bool) (pending : Option PendingOperation) (items : SetItems)
    (op : SetOperation) : PendingOperation :=
  let (left, depth) := finishOperation caseless pending items
  ⟨op, left, depth⟩

/-- Whether a caret at the front complements the set. -/
def setSign : List Char → Bool × List Char
  | '^' :: rest => (true, rest)
  | cs => (false, cs)

/-- Dashes at the front stand for themselves, and so does a closing bracket that comes first. -/
def setFront (cs : List Char) : SetItems × List Char :=
  let dashes := cs.takeWhile (· == '-')
  match dashes, cs with
  | [], ']' :: rest => (⟨.single ']', 1, 0⟩, rest)
  | [], cs => ({}, cs)
  | _, cs => (⟨.single '-', dashes.length, 0⟩, cs.drop dashes.length)

mutual

/-- A set in brackets, after the opening one, and how deep it nests. -/
def bracketSet? (caseless : Bool) : Nat → List Char → Option (CharSet × Nat × List Char)
  | 0, _ => none
  | n + 1, cs =>
    let (negated, cs) := setSign cs
    let (items, cs) := setFront cs
    (setBody? caseless n none items cs).map fun (s, depth, rest) =>
      (s.inBrackets caseless negated, depth + 1, rest)

/-- The rest of a set up to its closing bracket. Operations group to the left. -/
def setBody? (caseless : Bool) :
    Nat → Option PendingOperation → SetItems → List Char → Option (CharSet × Nat × List Char)
  | 0, _, _, _ => none
  | _ + 1, _, _, [] => none
  | _ + 1, pending, items, ']' :: rest =>
    let (s, depth) := finishOperation caseless pending items
    some (s, depth, rest)
  | n + 1, pending, items, '[' :: rest =>
    match namedSet? caseless rest with
    | some (s, rest) => setBody? caseless n pending (items.add s 0) rest
    | none => do
      let (s, depth, rest) ← bracketSet? caseless n rest
      setBody? caseless n pending (items.add s depth) rest
  | n + 1, pending, items, '&' :: '&' :: rest =>
    setBody? caseless n (some (beginOperation caseless pending items .inter)) {} rest
  | n + 1, pending, items, '-' :: '-' :: rest =>
    setBody? caseless n (some (beginOperation caseless pending items .minus)) {} rest
  | n + 1, pending, items, '~' :: '~' :: rest =>
    setBody? caseless n (some (beginOperation caseless pending items .differ)) {} rest
  | n + 1, pending, items, cs => do
    let (s, rest) ← setRange? cs
    setBody? caseless n pending (items.add s 0) rest

end

/-! Repetitions and groups. -/

/-- A number of at most 32 bits, with blanks around it. -/
def countOf? (cs : List Char) : Option (Nat × List Char) :=
  let cs := Text.trimStart cs
  let ds := cs.takeWhile Char.isDigit
  let n := ds.foldl (fun n d => 10 * n + (d.toNat - '0'.toNat)) 0
  if ds.isEmpty || 0x100000000 ≤ n then none else some (n, Text.trimStart (cs.drop ds.length))

/-- A question mark that makes a repetition lazy changes how much is taken, not whether. -/
def dropLazy : List Char → List Char
  | '?' :: rest => rest
  | cs => cs

/-- The counts between braces, after the opening one. -/
def counts? (cs : List Char) : Option (Token × List Char) := do
  let (least, rest) ← countOf? cs
  match rest with
  | '\x7d' :: rest => some (.times least (some least), dropLazy rest)
  | ',' :: '\x7d' :: rest => some (.times least none, dropLazy rest)
  | ',' :: rest =>
    match ← countOf? rest with
    | (most, '\x7d' :: rest) =>
      if least ≤ most then some (.times least (some most), dropLazy rest) else none
    | _ => none
  | _ => none

private def flag? : Char → Option Flag
  | 'i' => some .caseless
  | 'm' => some .multiLine
  | 's' => some .dotAll
  | 'U' => some .lazy
  | 'u' => some .unicode
  | _ => none

/-- The changes that flag letters ask for: what follows the one dash is turned off, and no flag is
named twice. Turning off `u`, which would narrow the classes to ASCII, is left out. -/
private def flagChanges? (cs : List Char) : Option FlagChanges := do
  let on := cs.takeWhile (· != '-')
  let off := (cs.drop on.length).drop 1
  if on.length < cs.length ∧ off.isEmpty then none
  let on ← on.mapM flag?
  let off ← off.mapM flag?
  if (on ++ off).eraseDups.length ≠ (on ++ off).length ∨ .unicode ∈ off then none
  some (on.map (·, true) ++ off.map (·, false))

private def isGroupNameStart (c : Char) : Bool :=
  c == '_' || isAlphabetic c

private def isGroupNameChar (c : Char) : Bool :=
  isAlphanumeric c || c == '_' || c == '.' || c == '[' || c == ']'

/-- A group's name and what follows it. -/
def groupName? (cs : List Char) : Option (String × List Char) :=
  let name := cs.takeWhile (· != '>')
  match name, cs.drop name.length with
  | c :: more, _ :: rest =>
    if isGroupNameStart c && more.all isGroupNameChar then some (String.ofList name, rest) else none
  | _, _ => none

/-- After an opening parenthesis. Looking around is not part of the syntax. -/
def group? : List Char → Option (Token × List Char)
  | '?' :: 'P' :: '<' :: rest =>
    (groupName? rest).map fun (name, rest) => (.openNumbered (some name), rest)
  | '?' :: '<' :: rest =>
    (groupName? rest).map fun (name, rest) => (.openNumbered (some name), rest)
  | '?' :: rest =>
    let letters := rest.takeWhile fun c => c != ':' && c != ')'
    match rest.drop letters.length with
    | ':' :: rest => (flagChanges? letters).map fun changes => (.openGroup changes, rest)
    | _ :: rest =>
      if letters.isEmpty then none
      else (flagChanges? letters).map fun changes => (.setFlags changes, rest)
    | [] => none
  | rest => some (.openNumbered none, rest)

/-- The lexeme that a text begins with, and what follows it. -/
def token? (caseless : Bool) : List Char → Option (Token × List Char)
  | [] => none
  | '(' :: rest => group? rest
  | ')' :: rest => some (.closeGroup, rest)
  | '|' :: rest => some (.bar, rest)
  | '.' :: rest => some (.dot, rest)
  | '^' :: rest => some (.caret, rest)
  | '$' :: rest => some (.dollar, rest)
  | '*' :: rest => some (.times 0 none, dropLazy rest)
  | '+' :: rest => some (.times 1 none, dropLazy rest)
  | '?' :: rest => some (.times 0 (some 1), dropLazy rest)
  | '\x7b' :: rest => counts? rest
  | '[' :: rest =>
    (bracketSet? caseless (2 * rest.length + 2) rest).map fun (s, depth, rest) =>
      (.set s depth, rest)
  | '\\' :: rest => (escape? rest).map fun
    | (.char c, rest) => (.char c, rest)
    | (.set s, rest) => (.set s 0, rest)
    | (.assertion a, rest) => (.assertion a, rest)
  | c :: rest => some (.char c, rest)

end WorkloadMap.Pattern
