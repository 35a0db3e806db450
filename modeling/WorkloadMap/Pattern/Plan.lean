import WorkloadMap.Pattern.Basic

/-!
The automaton that a pattern is built into, as far as its size goes. A pattern is refused if its
automaton, or the one that reads backwards, takes too much room.
-/
namespace WorkloadMap.Pattern

/-! Characters in UTF-8. A run of code points is written in a few sequences of byte ranges. -/

abbrev ByteRange := Nat × Nat

/-- The sequences for the code points from `first` to `last`, of which each is one byte with an
offset and `more` bytes of six bits. Only at the ends of the run are the later bytes narrowed. -/
def byteSequences (offset : Nat) : Nat → Nat → Nat → List (List ByteRange)
  | 0, first, last => [[(offset + first, offset + last)]]
  | more + 1, first, last =>
    let unit := Nat.pow 64 (more + 1)
    let lead (a b : Nat) (rest : List (List ByteRange)) : List (List ByteRange) :=
      rest.map ((offset + a, offset + b) :: ·)
    let a := first / unit
    let b := last / unit
    if a = b then lead a a (byteSequences 0x80 more (first % unit) (last % unit))
    else
      let full := byteSequences 0x80 more 0 (unit - 1)
      let partFirst := first % unit ≠ 0
      let partLast := last % unit ≠ unit - 1
      let a' := if partFirst then a + 1 else a
      let b' := if partLast then b - 1 else b
      (if partFirst then lead a a (byteSequences 0x80 more (first % unit) (unit - 1)) else []) ++
      (if a' ≤ b' then lead a' b' full else []) ++
      (if partLast then lead b b (byteSequences 0x80 more 0 (last % unit)) else [])

/-- The code points that take one to four bytes, with the first byte's offset and the number of
bytes after it. No character is a surrogate. -/
private def widths : List (Nat × Nat × Nat × Nat) := [
  (0x0, 0x7F, 0x0, 0), (0x80, 0x7FF, 0xC0, 1), (0x800, 0xD7FF, 0xE0, 2), (0xE000, 0xFFFF, 0xE0, 2),
  (0x10000, 0x10FFFF, 0xF0, 3)]

/-- The sequences for a set, in ascending order. -/
def CharSet.byteSequences (s : CharSet) : List (List ByteRange) :=
  s.runs.flatMap fun (first, last) =>
    widths.flatMap fun (low, high, offset, more) =>
      let a := max first low
      let b := min last high
      if a ≤ b then Pattern.byteSequences offset more a b else []

/-- Sequences grouped by their first range, without it. -/
private def tails (seqs : List (List ByteRange)) : List (List (List ByteRange)) :=
  (seqs.splitBy fun s t => s.head? == t.head?).map (·.map (·.drop 1))

/-- The sets of sequences that are still to be read after some ranges of the given ones, these among
them, for sequences of at most so many ranges. -/
private def remainders : Nat → List (List ByteRange) → List (List (List ByteRange))
  | 0, _ => []
  | n + 1, seqs => seqs :: ((tails seqs).filter (· != [[]])).flatMap (remainders n)

/-- The ways to begin a sequence. -/
private def beginnings : Nat → List (List ByteRange) → Nat
  | 0, _ => 0
  | n + 1, seqs => ((tails (seqs.filter (· != []))).map fun rest => 1 + beginnings n rest).sum

/-! The room for a state, and what is added for each way out of it. -/

private def stateRoom : Nat := 32
private def rangeRoom : Nat := 8
private def branchRoom : Nat := 4

/-- A state with `n` branches. -/
private def branches (n : Nat) : Nat := stateRoom + branchRoom * n

private def CharSet.isAscii (s : CharSet) : Bool := s.runs.all fun (_, last) => last ≤ 0x7F

/-- Forwards, what remains to be read is shared; backwards, what was read is. -/
def CharSet.room (backwards : Bool) (s : CharSet) : Nat :=
  if s.isAscii then 2 * stateRoom + rangeRoom * s.runs.length
  else
    let seqs := s.byteSequences
    if backwards then branches seqs.length + stateRoom + stateRoom * beginnings 4 seqs
    else
      let states := (remainders 4 seqs).eraseDups
      states.foldl (fun room rest => room + stateRoom + rangeRoom * (tails rest).length) stateRoom

/-- The plan of an automaton: a pattern with its characters gathered into texts, nothing in it that
takes nothing, and its numbered groups. -/
inductive Plan where
  | empty
  | text (cs : List Char)
  | set (s : CharSet)
  | assertion (a : Assertion)
  | seq (ps : List Plan)
  | alt (ps : List Plan)
  | times (p : Plan) (least : Nat) (most : Option Nat)
  | group (index : Nat) (p : Plan)

namespace Plan

/-- A set of one character is a text. -/
def ofSet (s : CharSet) : Plan :=
  match s.only? with
  | some c => .text [c]
  | none => .set s

mutual

def same : Plan → Plan → Bool
  | .empty, .empty => true
  | .text cs, .text ds => cs == ds
  | .set s, .set t => s.runs == t.runs
  | .assertion a, .assertion b => a == b
  | .seq ps, .seq qs => sameEach ps qs
  | .alt ps, .alt qs => sameEach ps qs
  | .times p least most, .times q least' most' => same p q && least == least' && most == most'
  | .group i p, .group j q => i == j && same p q
  | _, _ => false

private def sameEach : List Plan → List Plan → Bool
  | [], [] => true
  | p :: ps, q :: qs => same p q && sameEach ps qs
  | _, _ => false

end

mutual

/-- The least number of characters taken, if any can be taken. -/
def leastTaken : Plan → Option Nat
  | .empty => some 0
  | .text cs => some cs.length
  | .set s => if s.runs.isEmpty then none else some 1
  | .assertion _ => some 0
  | .seq ps => (leastTakenEach ps).map List.sum
  | .alt ps => (leastTakenEach ps).bind List.min?
  | .times p least _ => (leastTaken p).map (· * least)
  | .group _ p => leastTaken p

private def leastTakenEach : List Plan → Option (List Nat)
  | [] => some []
  | p :: ps => do
    let n ← leastTaken p
    let ns ← leastTakenEach ps
    some (n :: ns)

end

mutual

/-- Whether nothing but the empty text can be taken. -/
def takesNothing : Plan → Bool
  | .empty => true
  | .text cs => cs.isEmpty
  | .set _ => false
  | .assertion _ => true
  | .seq ps => takesNothingEach ps
  | .alt ps => takesNothingEach ps
  | .times p _ most => most == some 0 || (most.isSome && takesNothing p)
  | .group _ p => takesNothing p

private def takesNothingEach : List Plan → Bool
  | [] => true
  | p :: ps => takesNothing p && takesNothingEach ps

end

/-- A repetition of what takes nothing is the same as one of it, or none. -/
def repeated (p : Plan) (least : Nat) (most : Option Nat) : Plan :=
  let (least, most) :=
    if p.takesNothing then (min least 1, some (min (most.getD 1) 1)) else (least, most)
  if most = some 0 then .empty
  else if least = 1 ∧ most = some 1 then p
  else .times p least most

private def parts : Plan → List Plan
  | .empty => []
  | .seq ps => ps
  | p => [p]

/-- Texts next to each other become one. -/
private def joinTexts : List Plan → List Plan
  | [] => []
  | .text cs :: ps =>
    match joinTexts ps with
    | .text ds :: ps => .text (cs ++ ds) :: ps
    | ps => .text cs :: ps
  | p :: ps => p :: joinTexts ps

def sequence (ps : List Plan) : Plan :=
  match joinTexts (ps.flatMap parts) with
  | [] => .empty
  | [p] => p
  | ps => .seq ps

private def branchesOf : Plan → List Plan
  | .alt ps => ps
  | p => [p]

/-- The set of the branches if each is a single character, or each is a set. -/
private def setOfBranches? (ps : List Plan) : Option CharSet :=
  let chars := ps.mapM fun
    | .text [c] => some (CharSet.single c)
    | _ => none
  let sets := ps.mapM fun
    | .set s => some s
    | _ => none
  (chars <|> sets).map fun ss => ss.foldl CharSet.union .empty

/-- What all sequences begin with. -/
private def commonStart : List (List Plan) → List Plan
  | [] => []
  | [ps] => ps
  | ps :: pss => ((ps.zip (commonStart pss)).takeWhile fun (p, q) => p.same q).map (·.1)

private def sequences? (ps : List Plan) : Option (List (List Plan)) :=
  ps.mapM fun
    | .seq ps => some ps
    | _ => none

private def joinBranches (ps : List Plan) : Plan :=
  match ps.flatMap branchesOf with
  | [p] => p
  | ps =>
    match setOfBranches? ps with
    | some s => ofSet s
    | none => .alt ps

/-- What the branches begin with is taken out of them. -/
def alternatives (ps : List Plan) : Plan :=
  match joinBranches ps with
  | .alt ps =>
    match (sequences? ps).map fun pss => (pss, commonStart pss) with
    | none | some (_, []) => .alt ps
    | some (pss, start) =>
      sequence (start ++ [joinBranches (pss.map fun ps => sequence (ps.drop start.length))])
  | p => p

/-! The room for a plan's automaton. -/

private def bytes (cs : List Char) : List Nat :=
  cs.flatMap fun c => (String.utf8EncodeChar c).map UInt8.toNat

private def texts? (ps : List Plan) : Option (List (List Nat)) :=
  ps.mapM fun
    | .text cs => some (bytes cs)
    | _ => none

/-- The texts between those that are empty; of empty ones at the front all but one are void. -/
private def chunks (texts : List (List Nat)) : List (List (List Nat)) :=
  let rest := texts.dropWhile List.isEmpty
  let chunks := rest.foldr (fun text chunks => match text, chunks with
    | [], chunks => [] :: chunks
    | text, chunk :: chunks => (text :: chunk) :: chunks
    | text, [] => [[text]]) [[]]
  if rest.length < texts.length then [] :: chunks else chunks

/-- Texts that may be read from one state on share their beginnings, as long as none of them ends.
-/
private def textsRoom : Nat → List (List Nat) → Nat
  | 0, _ => 0
  | n + 1, texts =>
    if texts.all List.isEmpty then 0
    else
      let ends := (chunks texts).length - 1
      let chunks := (chunks texts).filter (!·.isEmpty)
      let rooms := chunks.map fun chunk =>
        let heads := (chunk.filterMap List.head?).eraseDups
        let rests := heads.map fun b =>
          (chunk.filter fun text => text.head? == some b).map (·.drop 1)
        stateRoom + (if 1 < heads.length then rangeRoom * heads.length else 0) +
          (rests.map (textsRoom n)).sum
      branches (chunks.length + ends) + rooms.sum

/-- The room for a repetition of what takes so much room, and whether that takes a character. -/
private def timesRoom (one least : Nat) (most : Option Nat) (takes : Bool) : Nat :=
  match least, most with
  | 0, none => if takes then branches 2 + one else one + 2 * branches 2 + stateRoom
  | least, none => least * one + branches 2
  | 0, some 1 => branches 2 + one + stateRoom
  | least, some most =>
    if least = most then least * one
    else
      let must := if least = 0 then stateRoom else least * one
      must + stateRoom + (most - least) * (branches 2 + one)

private def branchTextsRoom (backwards : Bool) (texts : List (List Nat)) : Nat :=
  let texts := if backwards then texts.map List.reverse else texts
  stateRoom + textsRoom ((texts.map List.length).foldl max 0 + 1) texts

mutual

def room (backwards : Bool) : Plan → Nat
  | .empty => stateRoom
  | .text cs => stateRoom * (bytes cs).length
  | .set s => s.room backwards
  | .assertion _ => stateRoom
  | .seq ps => roomEach backwards ps
  | .alt ps =>
    match texts? ps with
    | some texts => branchTextsRoom backwards texts
    | none => roomEach backwards ps + branches ps.length + stateRoom
  | .times p least most => timesRoom (room backwards p) least most (p.leastTaken.any (0 < ·))
  | .group _ p => if backwards then room backwards p else 2 * stateRoom + room backwards p

private def roomEach (backwards : Bool) : List Plan → Nat
  | [] => 0
  | p :: ps => room backwards p + roomEach backwards ps

end

/-- The whole is a group, begins in one state and matches in another. -/
def fits (limit : Nat) (p : Plan) : Bool :=
  [false, true].all fun backwards => 2 * stateRoom + room backwards (.group 0 p) ≤ limit

end Plan

end WorkloadMap.Pattern
