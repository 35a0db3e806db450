import WorkloadMap.Json.Basic
import WorkloadMap.NameMap

/-!
Reading values of known shape. A plain object tolerates repeated members, of which all must be
readable and the last counts; a record tolerates none, and may also be written as the array of its
fields.
-/
namespace WorkloadMap.Json

abbrev Members := List (String × Json)

def orNull (read : Json → Option α) : Json → Option (Option α)
  | .null => some none
  | v => (read v).map some

/-- A member that may be missing or null. -/
def Members.optional (ms : Members) (name : String) (read : Json → Option α) : Option (Option α) :=
  ms.foldlM (fun held m => if m.1 = name then orNull read m.2 else some held) none

/-- A member whose absence stands for the default. -/
def Members.getOr [Inhabited α] (ms : Members) (name : String) (read : Json → Option α) :
    Option α :=
  (ms.optional name read).map (·.getD default)

/-- A member that may be neither missing nor null. -/
def Members.required (ms : Members) (name : String) (read : Json → Option α) : Option α := do
  match ← ms.optional name read with
  | some a => some a
  | none => none

/-- An object says which type it is of, if it says so at all, by `apiVersion` and `kind`. -/
def Members.mayBe (ms : Members) (apiVersion kind : String) : Bool :=
  ms.all fun (name, v) =>
    (name != "apiVersion" || v.text? == some apiVersion) && (name != "kind" || v.text? == some kind)

def list? (read : Json → Option α) (v : Json) : Option (List α) := do
  (← v.array?).mapM read

def names? (v : Json) : Option (NameMap String) := do
  let ms ← v.members?
  let texts ← ms.mapM fun (name, v) => v.text?.map (name, ·)
  some (NameMap.ofList texts)

/-- The members of an object by their names, of several of one name the last. -/
def table? (v : Json) : Option (NameMap Json) := v.members?.map NameMap.ofList

/-- Texts by name, where nothing is read of the members that later ones of their names replace. -/
def texts? (v : Json) : Option (NameMap String) := do
  let table ← v.table?
  guard (table.values.all fun v => v.text?.isSome)
  some (table.filterMap fun _ v => v.text?)

/-- An integer of 32 bits. -/
def int32? (v : Json) : Option Int := do
  let i ← v.int?
  if -0x80000000 ≤ i ∧ i < 0x80000000 then some i else none

/-- An integer of 64 bits. -/
def int64? (v : Json) : Option Int := do
  let i ← v.int?
  if -0x8000000000000000 ≤ i ∧ i < 0x8000000000000000 then some i else none

def isNull : Json → Bool
  | .null => true
  | _ => false

def fieldOf (ms : Members) (field : String) : Option (Option Json) :=
  match ms.filter (·.1 = field) with
  | [] => some none
  | [m] => some (some m.2)
  | _ => none

/-- The fields of a record in the order of `fields`, `none` for what is missing. -/
def fields? (fields : List String) : Json → Option (List (Option Json))
  | .array vs =>
    if vs.length ≤ fields.length then
      some (vs.map some ++ List.replicate (fields.length - vs.length) none)
    else none
  | v => do
    let ms ← v.members?
    fields.mapM (fieldOf ms)

/-- The fields of a record whose array must hold every field. -/
def allFields? (fields : List String) (v : Json) : Option (List (Option Json)) :=
  match v with
  | .array vs => if vs.length = fields.length then some (vs.map some) else none
  | v => v.fields? fields

/-- A field of a record that may be missing or null. -/
def optionalField (read : Json → Option α) : Option Json → Option (Option α)
  | none => some none
  | some v => orNull read v

end WorkloadMap.Json
