import WorkloadMap.CommandLine.Value
import WorkloadMap.Pattern.Parser

/-!
Filters of what is logged. A filter is directives between commas; each names a level, or a target, a
span in brackets and values of its fields in braces, with a level for what they log.
-/
namespace WorkloadMap.CommandLine

private def isLevelName (cs : List Char) : Bool :=
  ["trace", "debug", "info", "warn", "error", "off"].contains (String.ofList (cs.map Char.toLower))

/-- Levels have names and the numbers up to five; without one everything is logged. -/
private def isLevel (cs : List Char) : Bool :=
  cs.isEmpty || isLevelName cs || (unsigned? cs).any (· ≤ 5)

private def isExponent : List Char → Bool
  | [] => true
  | 'e' :: '-' :: cs | 'e' :: '+' :: cs | 'e' :: cs => !cs.isEmpty && cs.all Char.isDigit
  | _ => false

/-- A decimal with or without an exponent, or a name of what is no number or beyond all. -/
private def isFloat (cs : List Char) : Bool :=
  let cs := cs.map Char.toLower
  let magnitude := cs.takeWhile fun c => c.isDigit || c == '.'
  ["inf", "infinity", "nan"].contains (String.ofList cs) ||
    (isMagnitude magnitude && isExponent (cs.drop magnitude.length))

/-- A value is a pattern or a number. No number but one with a plus in front is no pattern. -/
private def isFieldValue : List Char → Bool
  | '+' :: cs => isFloat cs
  | cs => (Pattern.parse? (String.ofList cs)).isSome

/-- A field, or a field and its value; what follows another equals sign is void. -/
private def isField (cs : List Char) : Bool :=
  !cs.isEmpty &&
    match Text.pieces (· == '=') cs with
    | _ :: value :: _ => isFieldValue value
    | _ => true

/-- The text of the level after a span, if one is set. -/
private def spanLevel? : List Char → Option (Option (List Char))
  | [] => some none
  | '=' :: level => some (some level)
  | _ => none

/-- After the opening bracket: a name up to the closing one, with a field in braces if there is one.
-/
private def afterBracket? (cs : List Char) : Option (Option (List Char)) :=
  match cs.dropWhile fun c => c != ']' && c != '\x7b' with
  | ']' :: rest => spanLevel? rest
  | _ :: rest =>
    let field := rest.takeWhile (· != '\x7d')
    match rest.drop field.length with
    | _ :: ']' :: rest => if isField field then spanLevel? rest else none
    | _ => none
  | [] => none

private def isTargetStart (c : Char) : Bool :=
  c == '-' || c == ':' || c == '_' || Pattern.isAlphanumeric c

/-- The text of the level that a directive sets, if it sets one. A target goes up to a bracket or to
an equals sign; a name alone is a target if it is no level. -/
private def directiveLevel? : List Char → Option (Option (List Char))
  | '[' :: rest => afterBracket? rest
  | c :: cs =>
    if isTargetStart c then
      match cs.dropWhile fun c => c != '[' && c != '=' with
      | '[' :: rest => afterBracket? rest
      | _ :: level => some (some level)
      | [] => some none
    else none
  | [] => none

/-- Blanks around a directive are void, but not where a level is set. -/
private def isDirective (cs : List Char) : Bool :=
  let bare := Text.trim cs
  match directiveLevel? bare with
  | none => false
  | some none => true
  | some (some level) => bare.length == cs.length && isLevel level

/-- A filter is kept as it is written. -/
def logFilter? (s : String) : Option String :=
  if ((Text.pieces (· == ',') s.toList).filter (!·.isEmpty)).all isDirective then some s else none

end WorkloadMap.CommandLine
