import WorkloadMap.Proofs.Selector.Parse

/-!
Selector texts of one requirement: that a label is there, or that it has one value. Nothing in such
a text is cut off or taken for an operator. Main statements: what each of the two is read as, and
that neither leaves out anything that has the value.
-/
namespace WorkloadMap

namespace Selector

variable {label value : String}

theorem parse_of_isPlain {text : String} {r : Requirement} (h : IsPlain text.toList)
    (hderives : Derives text.toList r) : parse text = .ok (.requirements [r]) := by
  have hne : text.toList ≠ [] := by
    intro hnil
    rw [hnil] at hderives
    exact not_derives_of_error rfl r hderives
  exact parse_of_isPiece (List.cons_ne_nil _ _) (by simpa using h.isPiece hne)
    List.intercalate_singleton.symm (.cons hderives .nil)

theorem parse_label (h : IsKey label) : parse label = .ok (.requirements [.present label]) :=
  parse_of_isPlain h.isPlain (.present h)

/-- A label and a value with an equal sign between them ask for that value. -/
theorem parse_label_value (h : IsKey label) (hvalue : IsValue value) :
    parse (label ++ "=" ++ value) =
      .ok (.requirements [.oneOf label (NameSet.ofList [value])]) := by
  have htext : (label ++ "=" ++ value).toList = label.toList ++ '=' :: value.toList := by simp
  have hplain : IsPlain (label ++ "=" ++ value).toList := by
    rw [htext]
    intro c hc
    rcases List.mem_append.1 hc with hc | hc
    · exact h.isPlain c hc
    · rcases List.mem_cons.1 hc with rfl | hc
      · decide
      · exact hvalue.isPlain c hc
  have hsign : (['='], Requirement.oneOf) ∈ signs := List.mem_cons_self
  refine parse_of_isPlain hplain ?_
  rw [htext]
  simpa using Derives.sign hsign h .nil .nil hvalue

/-- Whether a selector leaves out nothing that has a value of a label. -/
def SelectsValue (s : Selector) (label value : String) : Prop :=
  ∀ labels : Labels, labels.find? label = some value → s.selects labels = true

theorem selectsValue_present (label value : String) :
    SelectsValue (.requirements [.present label]) label value := by
  intro labels h
  simp [selects, Requirement.holds, NameMap.contains, h]

theorem selectsValue_oneOf (label value : String) :
    SelectsValue (.requirements [.oneOf label (NameSet.ofList [value])]) label value := by
  intro labels h
  have hmem : (NameSet.ofList [value]).contains value = true :=
    NameMap.mem_keys_iff.1 (NameSet.mem_toList_ofList.2 (List.mem_singleton_self value))
  simp [selects, Requirement.holds, h, hmem]

end Selector

end WorkloadMap
