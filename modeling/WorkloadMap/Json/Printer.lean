import WorkloadMap.Json.Basic
import WorkloadMap.Decimal.Binary64
import WorkloadMap.NameMap
import WorkloadMap.Text.Quoted

/-!
Writing JSON, on one line without spaces or with one member a line. A value that was read is first
brought to its canonical form: a number that fits no 64 bit integer is a float, and an object has
each name once, in ascending order.
-/
namespace WorkloadMap.Json

/-- Deeper values are refused by readers that keep what they read. -/
def maxDepth : Nat := 127

/-- The integers from the least signed to the largest unsigned one of 64 bits. -/
def Number.isWord : Number → Bool
  | .integer false n => n < 0x10000000000000000
  | .integer true n => n != 0 && n ≤ 0x8000000000000000
  | .decimal .. => false

/-- Digits are taken in as long as the number fits 64 bits; the others are left. -/
private def takeDigits (n : Nat) : List Char → Nat × List Char
  | [] => (n, [])
  | d :: ds =>
    let m := 10 * n + (d.toNat - '0'.toNat)
    if m < 0x10000000000000000 then takeDigits m ds else (n, d :: ds)

/-- A digit that is left before the point still counts as a power of ten, one after it not at all.
-/
private def ofDigits? (whole fraction : List Char) (exponent : Int) : Option Binary64 :=
  let (n, left) := takeDigits 0 whole
  let (n, unread) := takeDigits n fraction
  Binary64.ofDecimal? n (exponent + left.length - (fraction.length - unread.length))

/-- The sign and size of a number as a float. -/
def Number.toBinary64? : Number → Option (Bool × Binary64)
  | .integer negative n => (ofDigits? (Nat.toDigits 10 n) [] 0).map (negative, ·)
  | .decimal negative whole fraction e => (ofDigits? whole fraction e).map (negative, ·)

def Number.render (n : Number) : String :=
  match n with
  | .integer negative magnitude =>
    if n.isWord then (if negative then "-" else "") ++ Text.digits 10 magnitude
    else (n.toBinary64?.map fun (s, x) => x.render s).getD "null"
  | .decimal .. => (n.toBinary64?.map fun (s, x) => x.render s).getD "null"

private def escapeChar (c : Char) : String :=
  match c with
  | '"' => "\\\""
  | '\\' => "\\\\"
  | '\x08' => "\\b"
  | '\x0c' => "\\f"
  | '\n' => "\\n"
  | '\r' => "\\r"
  | '\t' => "\\t"
  | c =>
    if c.toNat < 0x20 then
      "\\u00" ++ String.ofList ((Nat.toDigits 16 (0x100 + c.toNat)).drop 1)
    else c.toString

/-- Only what must be escaped is. -/
def renderString (s : String) : String :=
  "\"" ++ String.join (s.toList.map escapeChar) ++ "\""

/-- A string without a text is written as the replacement character. -/
private def renderText (t : Option String) : String :=
  renderString (t.getD "\uFFFD")

mutual

def render : Json → String
  | .null => "null"
  | .bool b => if b then "true" else "false"
  | .number n => n.render
  | .string t => renderText t
  | .array xs => "[" ++ ",".intercalate (renderEach xs) ++ "]"
  | .object ms => "\x7b" ++ ",".intercalate (renderMembers ms) ++ "\x7d"

private def renderEach : List Json → List String
  | [] => []
  | x :: xs => render x :: renderEach xs

private def renderMembers : List (Option String × Json) → List String
  | [] => []
  | (name, x) :: ms => (renderText name ++ ":" ++ render x) :: renderMembers ms

end

private def spaces (n : Nat) : String :=
  String.ofList (List.replicate (2 * n) ' ')

/-- Items a line each, one level deeper than their brackets; none stay within the brackets. -/
private def block (opening closing : String) (level : Nat) (items : List String) : String :=
  if items.isEmpty then opening ++ closing
  else opening ++ "\n" ++ spaces (level + 1) ++ (",\n" ++ spaces (level + 1)).intercalate items ++
    "\n" ++ spaces level ++ closing

mutual

/-- Indented by two spaces a level. -/
def renderIndented (level : Nat) : Json → String
  | .null => "null"
  | .bool b => if b then "true" else "false"
  | .number n => n.render
  | .string t => renderText t
  | .array xs => block "[" "]" level (renderEachIndented (level + 1) xs)
  | .object ms => block "\x7b" "\x7d" level (renderMembersIndented (level + 1) ms)

private def renderEachIndented (level : Nat) : List Json → List String
  | [] => []
  | x :: xs => renderIndented level x :: renderEachIndented level xs

private def renderMembersIndented (level : Nat) : List (Option String × Json) → List String
  | [] => []
  | (name, x) :: ms =>
    (renderText name ++ ": " ++ renderIndented level x) :: renderMembersIndented level ms

end

mutual

/-- The value in the form in which it is kept, unless it is deeper than `depth`, has a string
without a text or a number beyond the floats. -/
def canonicalWithin? : Nat → Json → Option Json
  | _, .null => some .null
  | _, .bool b => some (.bool b)
  | _, .number n => if n.isWord || n.toBinary64?.isSome then some (.number n) else none
  | _, .string t => t.map text
  | 0, .array _ => none
  | depth + 1, .array xs => (canonicalEach? depth xs).map .array
  | 0, .object _ => none
  | depth + 1, .object ms =>
    (canonicalMembers? depth ms).map fun ms => record (NameMap.ofList ms).entries

private def canonicalEach? (depth : Nat) : List Json → Option (List Json)
  | [] => some []
  | x :: xs => do
    let x ← canonicalWithin? depth x
    let xs ← canonicalEach? depth xs
    some (x :: xs)

private def canonicalMembers? (depth : Nat) :
    List (Option String × Json) → Option (List (String × Json))
  | [] => some []
  | (name, x) :: ms => do
    let name ← name
    let x ← canonicalWithin? depth x
    let ms ← canonicalMembers? depth ms
    some ((name, x) :: ms)

end

def canonical? (v : Json) : Option Json := canonicalWithin? maxDepth v

end WorkloadMap.Json
