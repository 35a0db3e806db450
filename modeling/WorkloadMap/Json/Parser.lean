import WorkloadMap.Json.Token

/-!
Reading JSON text. Every lexeme is read once and each call reads one or hands on, so twice their
number bounds the calls.
-/
namespace WorkloadMap.Json

mutual

/-- A value at the head of the lexemes, and the lexemes after it. -/
def readValue : Nat → List Token → Option (Json × List Token)
  | 0, _ => none
  | _ + 1, .literal v :: ts => some (v, ts)
  | _ + 1, .string t :: ts => some (.string t, ts)
  | _ + 1, .beginArray :: .endArray :: ts => some (.array [], ts)
  | n + 1, .beginArray :: ts => (readElements n ts).map fun (vs, ts) => (.array vs, ts)
  | _ + 1, .beginObject :: .endObject :: ts => some (.object [], ts)
  | n + 1, .beginObject :: ts => (readMembers n ts).map fun (ms, ts) => (.object ms, ts)
  | _ + 1, _ => none

def readElements : Nat → List Token → Option (List Json × List Token)
  | 0, _ => none
  | n + 1, ts =>
    match readValue n ts with
    | some (v, .comma :: ts) => (readElements n ts).map fun (vs, ts) => (v :: vs, ts)
    | some (v, .endArray :: ts) => some ([v], ts)
    | _ => none

def readMembers : Nat → List Token → Option (List (Option String × Json) × List Token)
  | n + 1, .string name :: .colon :: ts =>
    match readValue n ts with
    | some (v, .comma :: ts) => (readMembers n ts).map fun (ms, ts) => ((name, v) :: ms, ts)
    | some (v, .endObject :: ts) => some ([(name, v)], ts)
    | _ => none
  | _, _ => none

end

/-- One value and nothing else but white space. -/
def parseChars? (cs : List Char) : Option Json := do
  let ts ← tokens cs
  match readValue (2 * ts.length) ts with
  | some (v, []) => some v
  | _ => none

def parse? (s : String) : Option Json := parseChars? s.toList

end WorkloadMap.Json
