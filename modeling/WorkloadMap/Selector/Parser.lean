import WorkloadMap.Selector.Basic
import WorkloadMap.Text.Quoted

/-!
Selector text, such as `app=reviews,version!=v1,tier in (web, api),!canary`. The text is cut at the
commas outside of parentheses; each piece that is not blank is one requirement.
-/
namespace WorkloadMap.Selector

/-- Each cause names the text that is at fault. -/
inductive Error where
  | key (text : String)
  | value (text : String)
  | requirement (text : String)
  | unbalanced (text : String)
deriving DecidableEq, Repr

def Error.message : Error → String
  | .key text => "invalid label key " ++ Text.quote text
  | .value text => "invalid label value " ++ Text.quote text
  | .requirement text => "invalid requirement " ++ Text.quote text
  | .unbalanced text => "unbalanced parentheses in " ++ Text.quote text

def isValueChar (c : Char) : Bool :=
  c.isAlphanum || c == '-' || c == '_' || c == '.'

def isKeyChar (c : Char) : Bool :=
  isValueChar c || c == '/'

def key (cs : List Char) : Except Error String :=
  let text := String.ofList cs
  if !cs.isEmpty && cs.all isKeyChar then .ok text else .error (.key text)

/-- A value may be empty. -/
def value (cs : List Char) : Except Error String :=
  let text := String.ofList cs
  if cs.all isValueChar then .ok text else .error (.value text)

def grow (c : Char) : List (List Char) → List (List Char)
  | [] => [[c]]
  | term :: terms => (c :: term) :: terms

/-- The pieces between the commas outside of parentheses, where `depth` parentheses are open at the
start; `none` if they do not balance. -/
def splitTerms (depth : Nat) : List Char → Option (List (List Char))
  | [] => if depth = 0 then some [[]] else none
  | c :: cs =>
    if c = '(' then (splitTerms (depth + 1) cs).map (grow c)
    else if c = ')' then
      match depth with
      | 0 => none
      | depth + 1 => (splitTerms depth cs).map (grow c)
    else if c = ',' ∧ depth = 0 then (splitTerms depth cs).map ([] :: ·)
    else (splitTerms depth cs).map (grow c)

/-- A key, an operator and a parenthesized list of values, given what is before and after the
opening parenthesis. The values are checked before the key. -/
def setRequirement (term before after : List Char) : Except Error Requirement :=
  let malformed := .error (.requirement (String.ofList term))
  match (Text.trimEnd after).reverse with
  | ')' :: inner =>
    match Text.words before with
    | [name, operator] =>
      let build : Option (String → NameSet → Requirement) :=
        if operator = ['i', 'n'] then some .oneOf
        else if operator = ['n', 'o', 't', 'i', 'n'] then some .noneOf
        else none
      match build with
      | none => malformed
      | some build => do
        let values ← (Text.pieces (· == ',') inner.reverse).mapM fun v => value (Text.trim v)
        let name ← key name
        return build name (NameSet.ofList values)
    | _ => malformed
  | _ => malformed

/-- A key and a value around an operator. -/
def valueRequirement (build : String → NameSet → Requirement) (before after : List Char) :
    Except Error Requirement := do
  let name ← key (Text.trim before)
  let wanted ← value (Text.trim after)
  return build name (NameSet.ofList [wanted])

/-- One requirement, without blanks around it. An operator is looked for anywhere in the text, the
unequal sign first, so what is left of it must be a key. -/
def requirement (term : List Char) : Except Error Requirement :=
  match Text.splitOnce ['('] term with
  | some (before, after) => setRequirement term before after
  | none =>
    match term with
    | '!' :: rest => (key (Text.trim rest)).map .absent
    | _ =>
      match Text.splitOnce ['!', '='] term with
      | some (before, after) => valueRequirement .noneOf before after
      | none =>
        match Text.splitOnce ['=', '='] term with
        | some (before, after) => valueRequirement .oneOf before after
        | none =>
          match Text.splitOnce ['='] term with
          | some (before, after) => valueRequirement .oneOf before after
          | none => (key term).map .present

/-- The requirements of the pieces that are not blank, up to the first that is at fault. -/
def requirementsOf (terms : List (List Char)) : Except Error (List Requirement) :=
  ((terms.map Text.trim).filter (!·.isEmpty)).mapM requirement

/-- Whether the parentheses balance is settled before any piece is looked at. -/
def parse (text : String) : Except Error Selector :=
  match splitTerms 0 text.toList with
  | none => .error (.unbalanced text)
  | some terms => (requirementsOf terms).map .requirements

end WorkloadMap.Selector
