/-!
JSON values as they are written: members keep their order and may repeat a name, numbers keep their
literal, and nothing is lost that a reader could need to decide.
-/
namespace WorkloadMap

/-- A literal with neither fraction nor exponent is an integer; of any other the digits before and
after the point are kept. -/
inductive Json.Number where
  | integer (negative : Bool) (magnitude : Nat)
  | decimal (negative : Bool) (whole fraction : List Char) (exponent : Int)
deriving DecidableEq, Repr

/-- A string whose escapes leave half of a surrogate pair alone is well-formed, but has no text; it
is `none`. -/
inductive Json where
  | null
  | bool (b : Bool)
  | number (n : Json.Number)
  | string (text : Option String)
  | array (elements : List Json)
  | object (members : List (Option String × Json))
deriving Inhabited

namespace Json

/-- A negative zero is no integer: it stands for the float of that sign. -/
def Number.toInt? : Number → Option Int
  | .integer false n => some n
  | .integer true 0 => none
  | .integer true n => some (-(n : Int))
  | .decimal .. => none

def text (s : String) : Json := .string (some s)

def int (i : Int) : Json := .number (.integer (i < 0) i.natAbs)

def record (fields : List (String × Json)) : Json :=
  .object (fields.map fun (name, value) => (some name, value))

@[simp] theorem Number.toInt?_int (i : Int) :
    (Number.integer (decide (i < 0)) i.natAbs).toInt? = some i := by
  by_cases h : i < 0
  · obtain ⟨n, hn⟩ : ∃ n, i.natAbs = n + 1 := ⟨i.natAbs - 1, by omega⟩
    simp only [h, decide_true, hn, toInt?]
    congr 1
    omega
  · simp only [h, decide_false, toInt?]
    congr 1
    omega

def int? : Json → Option Int
  | .number n => n.toInt?
  | _ => none

def text? : Json → Option String
  | .string t => t
  | _ => none

def bool? : Json → Option Bool
  | .bool b => some b
  | _ => none

def array? : Json → Option (List Json)
  | .array xs => some xs
  | _ => none

theorem text?_eq_some_iff {v : Json} {s : String} : v.text? = some s ↔ v = .text s := by
  cases v <;> simp [text?, text]

theorem array?_eq_some_iff {v : Json} {xs : List Json} : v.array? = some xs ↔ v = .array xs := by
  cases v <;> simp [array?]

/-- The members of an object all of whose names have a text. -/
def members? : Json → Option (List (String × Json))
  | .object ms => ms.mapM fun (name, value) => name.map (·, value)
  | _ => none

/-- The value of a member; of several of the name the last. Anything but an object has none. -/
def get? (name : String) : Json → Option Json
  | .object ms => (ms.reverse.find? fun m => m.1 == some name).map (·.2)
  | _ => none

end Json

end WorkloadMap
