import WorkloadMap.Kind
import WorkloadMap.Pattern.Unicode
import WorkloadMap.Text.Blank
import WorkloadMap.Text.Numeral

/-!
The values that options take.
-/
namespace WorkloadMap.CommandLine

def text? (s : String) : Option String := some s

def kind? (s : String) : Option Kind := some (.ofName s)

private def digits? (cs : List Char) : Option Nat :=
  if !cs.isEmpty && cs.all Char.isDigit then some (Text.numeral cs) else none

def unsigned? : List Char → Option Nat
  | '+' :: cs => digits? cs
  | cs => digits? cs

/-- A number of 64 bits. -/
def number? (s : String) : Option Nat :=
  (unsigned? s.toList).filter (· < 0x10000000000000000)

/-- A number of 16 bits. Zero may be negative. -/
def port? (s : String) : Option Nat :=
  match s.toList with
  | '-' :: cs => (digits? cs).filter (· = 0)
  | cs => (unsigned? cs).filter (· < 0x10000)

/-- The pieces between commas; a text without commas is one. -/
def pieces (s : String) : List String :=
  (Text.pieces (· == ',') s.toList).map String.ofList

/-- Whether what the program does is logged in lines for people or as JSON. -/
inductive LogFormat where
  | plain
  | json
deriving DecidableEq, Repr

def logFormat? : String → Option LogFormat
  | "plain" => some .plain
  | "json" => some .json
  | _ => none

/-! Spans of time. -/

private def isUnit (cs : List Char) : Bool :=
  ["ns", "us", "\u00b5s", "\u03bcs", "ms", "s", "m", "h"].contains (String.ofList cs)

/-- Digits with at most one point among them. -/
def isMagnitude (cs : List Char) : Bool :=
  match Text.pieces (· == '.') cs with
  | [whole] => !whole.isEmpty && whole.all Char.isDigit
  | [whole, fraction] =>
    !(whole.isEmpty && fraction.isEmpty) && (whole ++ fraction).all Char.isDigit
  | _ => false

/-- Magnitudes with their units, one after the other; a zero at the end needs none. -/
private def isSpanWithin : Nat → List Char → Bool
  | _, [] => true
  | _, ['0'] => true
  | 0, _ => false
  | n + 1, cs =>
    let magnitude := cs.takeWhile (!Pattern.isAlphabetic ·)
    let rest := cs.drop magnitude.length
    let unit := rest.takeWhile Pattern.isAlphabetic
    isMagnitude magnitude && isUnit unit && isSpanWithin n (rest.drop unit.length)

/-- A span of time, kept as it is written. -/
def duration? (s : String) : Option String :=
  let cs := (s.toList.dropWhile (· == '+')).dropWhile (· == '-')
  if isSpanWithin cs.length cs then some s else none

/-! Addresses to listen at. -/

private def octet? (cs : List Char) : Bool :=
  (digits? cs).any (· < 256) && cs.length ≤ 3 && !(cs.length > 1 && cs.head? == some '0')

private def isQuad (cs : List Char) : Bool :=
  let octets := Text.pieces (· == '.') cs
  octets.length == 4 && octets.all octet?

private def isHexGroup (cs : List Char) : Bool :=
  !cs.isEmpty && cs.length ≤ 4 &&
    cs.all fun c => c.isDigit || ('a' ≤ c && c ≤ 'f') || ('A' ≤ c && c ≤ 'F')

/-- How many groups of 16 bits a text writes, where the last two may be written as a quad if one is
allowed. -/
private def groupCount? (quad : Bool) (cs : List Char) : Option Nat :=
  if cs.isEmpty then some 0
  else
    let groups := Text.pieces (· == ':') cs
    match groups.reverse with
    | last :: before =>
      if !before.all isHexGroup then none
      else if isHexGroup last then some groups.length
      else if quad && isQuad last then some (groups.length + 1)
      else none
    | [] => none

/-- Two colons stand for the groups that are missing; no quad may stand before them. -/
private def isGroups (cs : List Char) : Bool :=
  match Text.splitOnce [':', ':'] cs with
  | none => groupCount? true cs == some 8
  | some (before, after) =>
    match groupCount? false before, groupCount? true after with
    | some m, some n => m + n < 8
    | _, _ => false

/-- Groups, and the number of 32 bits of a scope if there is one. -/
private def isScoped (cs : List Char) : Bool :=
  match Text.splitOnce ['%'] cs with
  | none => isGroups cs
  | some (groups, scope) => isGroups groups && (digits? scope).any (· < 0x100000000)

private def isPort (cs : List Char) : Bool :=
  (digits? cs).any (· < 0x10000)

/-- An address with a port, kept as it is written. -/
def socket? (s : String) : Option String :=
  let cs := s.toList
  let valid := match cs with
    | '[' :: body =>
      match Text.splitOnce [']', ':'] body with
      | some (host, port) => isScoped host && isPort port
      | none => false
    | _ =>
      match Text.splitOnce [':'] cs with
      | some (host, port) => isQuad host && isPort port
      | none => false
  if valid then some s else none

end WorkloadMap.CommandLine
