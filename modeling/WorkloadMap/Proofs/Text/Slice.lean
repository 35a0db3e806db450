import Mathlib.Data.List.Basic
import WorkloadMap.Text.Blank

/-!
Parts of a text, told by offsets in bytes. Main statement: a part can be taken if its ends lie within
the text, in order and between characters, and not otherwise.
-/
namespace WorkloadMap.Text

variable {text piece : String} {before middle after cs : List Char} {c : Char} {first last : Nat}

/-- How many bytes the characters take. -/
def size (cs : List Char) : Nat := (String.ofList cs).utf8ByteSize

@[simp] theorem size_nil : size [] = 0 := rfl

@[simp] theorem size_append (cs ds : List Char) : size (cs ++ ds) = size cs + size ds := by
  simp [size, String.ofList_append]

@[simp] theorem size_cons (c : Char) (cs : List Char) : size (c :: cs) = c.utf8Size + size cs := by
  have hcons : String.ofList (c :: cs) = String.singleton c ++ String.ofList cs := by
    rw [← String.toList_inj]
    simp
  simp [size, hcons]

@[simp] theorem size_reverse (cs : List Char) : size cs.reverse = size cs := by
  induction cs with
  | nil => rfl
  | cons c cs ih => simp [ih, Nat.add_comm]

theorem size_toList (text : String) : size text.toList = text.utf8ByteSize := by
  rw [size, String.ofList_toList]

/-- The part between two offsets, if both lie between characters and the first is not behind the
last. -/
def slice? (text : String) (first last : Nat) : Option String :=
  if h : String.Pos.Raw.IsValid text ⟨first⟩ ∧ String.Pos.Raw.IsValid text ⟨last⟩ then
    (text.slice? (text.pos ⟨first⟩ h.1) (text.pos ⟨last⟩ h.2)).map (·.copy)
  else none

/-- The ends of a part lie within the text, in order and not inside of characters. -/
structure IsSlice (text : String) (first last : Nat) : Prop where
  ordered : first ≤ last
  within : last ≤ text.utf8ByteSize
  first : String.Pos.Raw.IsValid text ⟨first⟩
  last : String.Pos.Raw.IsValid text ⟨last⟩

theorem isSome_slice?_iff : (slice? text first last).isSome ↔ IsSlice text first last := by
  unfold slice?
  split
  next h =>
    rw [Option.isSome_map]
    unfold String.slice?
    have hwithin : last ≤ text.utf8ByteSize := h.2.le_rawEndPos
    have hordered : text.pos ⟨first⟩ h.1 ≤ text.pos ⟨last⟩ h.2 ↔ first ≤ last := Iff.rfl
    simp only [hordered]
    split
    next hle => exact ⟨fun _ => ⟨hle, hwithin, h.1, h.2⟩, fun _ => rfl⟩
    next hgt =>
      constructor
      · intro hsome
        cases hsome
      · exact fun hslice => absurd hslice.ordered hgt
  next h =>
    constructor
    · intro hsome
      cases hsome
    · exact fun hslice => absurd ⟨hslice.first, hslice.last⟩ h

/-- What stands between two texts is the part behind the first as long as it is itself. -/
theorem slice?_of_toList_eq (h : text.toList = before ++ middle ++ after) :
    slice? text (size before) (size before + size middle) = some (String.ofList middle) := by
  have htext : text = String.ofList before ++ String.ofList middle ++ String.ofList after := by
    rw [← String.toList_inj]
    simpa using h
  have hfirst : String.Pos.Raw.IsValid text ⟨size before⟩ :=
    String.Pos.Raw.isValid_iff_exists_append.2
      ⟨String.ofList before, String.ofList middle ++ String.ofList after,
        by rw [htext, String.append_assoc], rfl⟩
  have hlast : String.Pos.Raw.IsValid text ⟨size before + size middle⟩ :=
    String.Pos.Raw.isValid_iff_exists_append.2
      ⟨String.ofList before ++ String.ofList middle, String.ofList after, htext,
        by simp [String.Pos.Raw.ext_iff, size]⟩
  have hcopy : ∃ h, (text.slice (text.pos _ hfirst) (text.pos _ hlast) h).copy =
      String.ofList middle :=
    String.copy_slice_eq_iff_splits.2 ⟨String.ofList before, String.ofList after,
      ⟨by rw [htext, String.append_assoc], rfl⟩,
      ⟨htext, by simp [String.Pos.Raw.ext_iff, size]⟩⟩
  obtain ⟨hle, hcopy⟩ := hcopy
  rw [slice?, dif_pos ⟨hfirst, hlast⟩, String.slice?, dif_pos hle, Option.map_some, hcopy]

theorem slice?_of_toList_eq_append (h : text.toList = before ++ middle) :
    slice? text (size before) text.utf8ByteSize = some (String.ofList middle) := by
  have hwhole : text.toList = before ++ middle ++ [] := by rw [h, List.append_nil]
  rw [← size_toList, h, size_append]
  exact slice?_of_toList_eq hwhole

end WorkloadMap.Text
