import Mathlib.Data.List.Forall2
import WorkloadMap.PodSummary
import WorkloadMap.Proofs.Json.Reading
import WorkloadMap.Proofs.Json.Record
import WorkloadMap.Proofs.Occurrence

/-!
The sidecars of a pod. An annotation names them if it is written as a record of two lists of texts,
in whatever way JSON may be written. Main statement: a pod has the sidecars that its annotation is
written to name, with the images of its own containers, and no others; nothing else of it depends
on its annotations.
-/
namespace WorkloadMap

namespace Sidecar

variable {s : Sidecar} {text name : String} {names : List String} {v : Json} {ms : Json.Members}

/-- A list stands in one member of an object; where it is empty it may be left out. -/
inductive HasList (name : String) (ms : Json.Members) : List String → Prop
  | member {names : List String} (h : ms.HasOne name (.texts names)) : HasList name ms names
  | missing (h : ms.Lacks name) : HasList name ms []

/-- The records of a sidecar. Of an array empty lists may be left out at the end. -/
inductive IsRecord : Sidecar → Json → Prop
  | object {s : Sidecar} {ms : Json.Members} (hcontainers : HasList "containers" ms s.containers)
      (hinit : HasList "initContainers" ms s.initContainers) : IsRecord s (.record ms)
  | both {containers initContainers : List String} :
      IsRecord ⟨containers, initContainers⟩ (.array [.texts containers, .texts initContainers])
  | first {containers : List String} : IsRecord ⟨containers, []⟩ (.array [.texts containers])
  | none : IsRecord ⟨[], []⟩ (.array [])

/-- The texts that name these sidecars. -/
def IsWritten (s : Sidecar) (text : String) : Prop :=
  ∃ v, Json.SpacedWritten v text.toList ∧ s.IsRecord v

/-- A field as a list of texts, of which what is missing has none. -/
def listOf? : Option Json → Option (List String)
  | none => some []
  | some v => Json.list? Json.text? v

theorem hasList_iff : HasList name ms names ↔
    ∃ field, Json.fieldOf ms name = some field ∧ listOf? field = some names := by
  constructor
  · intro h
    cases h with
    | member h => exact ⟨_, Json.fieldOf_eq_some_iff.2 h, Json.list?_text?_eq_some_iff.2 rfl⟩
    | missing h => exact ⟨none, Json.fieldOf_eq_missing_iff.2 h, rfl⟩
  · rintro ⟨field, hfield, hlist⟩
    cases field with
    | none =>
      cases hlist
      exact .missing (Json.fieldOf_eq_missing_iff.1 hfield)
    | some v =>
      obtain rfl := Json.list?_text?_eq_some_iff.1 hlist
      exact .member (Json.fieldOf_eq_some_iff.1 hfield)

theorem isRecord_iff : s.IsRecord v ↔ ∃ x y, v.fields? ["containers", "initContainers"] =
    some [x, y] ∧ listOf? x = some s.containers ∧ listOf? y = some s.initContainers := by
  simp only [Json.fields?_pair_iff]
  constructor
  · intro h
    cases h with
    | object hcontainers hinit =>
      obtain ⟨x, hx, hcontainers⟩ := hasList_iff.1 hcontainers
      obtain ⟨y, hy, hinit⟩ := hasList_iff.1 hinit
      exact ⟨x, y, .inl ⟨_, rfl, hx, hy⟩, hcontainers, hinit⟩
    | both =>
      exact ⟨_, _, .inr ⟨_, rfl, Nat.le_refl 2, rfl, rfl⟩, Json.list?_text?_eq_some_iff.2 rfl,
        Json.list?_text?_eq_some_iff.2 rfl⟩
    | first =>
      exact ⟨_, _, .inr ⟨_, rfl, by simp, rfl, rfl⟩, Json.list?_text?_eq_some_iff.2 rfl, rfl⟩
    | none => exact ⟨_, _, .inr ⟨_, rfl, by simp, rfl, rfl⟩, rfl, rfl⟩
  · rintro ⟨x, y, ⟨ms, rfl, hx, hy⟩ | ⟨vs, rfl, hlength, rfl, rfl⟩, hcontainers, hinit⟩
    · exact .object (hasList_iff.2 ⟨x, hx, hcontainers⟩) (hasList_iff.2 ⟨y, hy, hinit⟩)
    · obtain ⟨containers, initContainers⟩ := s
      match vs with
      | [] =>
        cases hcontainers
        cases hinit
        exact .none
      | [v] =>
        obtain rfl := Json.list?_text?_eq_some_iff.1 hcontainers
        cases hinit
        exact .first
      | [v, v'] =>
        obtain rfl := Json.list?_text?_eq_some_iff.1 hcontainers
        obtain rfl := Json.list?_text?_eq_some_iff.1 hinit
        exact .both
      | _ :: _ :: _ :: _ => simp at hlength

theorem exists_of_mapM_listOf? {fields : List (Option Json)} {containers initContainers : List String}
    (h : fields.mapM listOf? = some [containers, initContainers]) : ∃ x y, fields = [x, y] ∧
      listOf? x = some containers ∧ listOf? y = some initContainers := by
  match fields with
  | [] => cases h
  | [x] => simp [List.mapM_cons, Option.bind_eq_some_iff] at h
  | [x, y] =>
    simp only [List.mapM_cons, List.mapM_nil, Option.bind_eq_bind, Option.bind_eq_some_iff] at h
    obtain ⟨_, hx, _, ⟨_, hy, _, ⟨⟩, ⟨⟩⟩, ⟨⟩⟩ := h
    exact ⟨x, y, rfl, hx, hy⟩
  | x :: y :: z :: fields => simp [List.mapM_cons, Option.bind_eq_some_iff] at h

theorem decode?_eq (text : String) : decode? text = (do
    let fields ← (← Json.parse? text).fields? ["containers", "initContainers"]
    match ← fields.mapM listOf? with
    | [containers, initContainers] => some { containers, initContainers }
    | _ => none) := rfl

/-- An annotation is read as these sidecars exactly when it is written to name them. -/
theorem decode?_eq_some_iff : decode? text = some s ↔ s.IsWritten text := by
  simp only [decode?_eq, IsWritten, ← Json.parse?_eq_some_iff, isRecord_iff, Option.bind_eq_bind,
    Option.bind_eq_some_iff]
  constructor
  · rintro ⟨v, hv, fields, hfields, lists, hlists, hs⟩
    split at hs
    next containers initContainers =>
      cases hs
      obtain ⟨x, y, rfl, hx, hy⟩ : ∃ x y, fields = [x, y] ∧ listOf? x = some containers ∧
          listOf? y = some initContainers := exists_of_mapM_listOf? hlists
      exact ⟨v, hv, x, y, hfields, hx, hy⟩
    next => cases hs
  · rintro ⟨v, hv, x, y, hfields, hx, hy⟩
    exact ⟨v, hv, _, hfields, [s.containers, s.initContainers], by simp [List.mapM_cons, hx, hy], rfl⟩

end Sidecar

/-- The annotation of a pod is there and names these sidecars. -/
def Pod.Names (pod : Pod) (sidecarKey : String) (s : Sidecar) : Prop :=
  ∃ text, pod.metadata.annotations.find? sidecarKey = some text ∧ s.IsWritten text

def Pod.bare (pod : Pod) : Pod :=
  { pod with metadata := { pod.metadata with annotations := ∅ } }

namespace PodSummary

variable {sidecarKey name : String} {pod : Pod} {s : Sidecar} {containers : List Container}

/-- The image of the first container of this name, or none. -/
inductive IsImage (containers : List Container) (name : String) : String → Prop
  | first {c : Container} (h : IsFirst (fun c => c.name = name) containers c) :
      IsImage containers name c.image
  | absent (h : ∀ c ∈ containers, c.name ≠ name) : IsImage containers name ""

/-- Containers of these names, in this order, with the images that `containers` have for them. -/
def Bear (containers : List Container) (names : List String) (named : List Container) : Prop :=
  List.Forall₂ (fun name c => c.name = name ∧ IsImage containers name c.image) names named

theorem isImage_find? :
    IsImage containers name (((containers.find? (·.name == name)).map (·.image)).getD "") := by
  cases hfind : containers.find? (·.name == name) with
  | none => exact .absent (by simpa using hfind)
  | some c => exact .first ((find?_eq_some_iff_isFirst fun c => by simp).1 hfind)

theorem bear_withImages (containers : List Container) (names : List String) :
    Bear containers names (withImages containers names) :=
  List.forall₂_map_right_iff.2 (List.forall₂_same.2 fun _ _ => ⟨rfl, isImage_find?⟩)

theorem sidecar_of_names (h : pod.Names sidecarKey s) : sidecar sidecarKey pod = s := by
  obtain ⟨text, hfind, hwritten⟩ := h
  rw [sidecar, hfind, Option.bind_some, Sidecar.decode?_eq_some_iff.2 hwritten, Option.getD_some]

theorem sidecar_of_not_names (h : ∀ s, ¬pod.Names sidecarKey s) : sidecar sidecarKey pod = {} := by
  unfold sidecar
  cases hread : (pod.metadata.annotations.find? sidecarKey).bind Sidecar.decode? with
  | none => rfl
  | some s =>
    obtain ⟨text, hfind, hdecode⟩ := Option.bind_eq_some_iff.1 hread
    exact absurd ⟨text, hfind, Sidecar.decode?_eq_some_iff.1 hdecode⟩ (h s)

/-- The sidecars of a pod are those that its annotation names, and the annotation decides nothing
else. -/
theorem ofPod_sidecars (sidecarKey : String) (pod : Pod) :
    (∀ s, pod.Names sidecarKey s →
      Bear pod.containers s.containers (ofPod sidecarKey pod).istioContainers ∧
        Bear pod.initContainers s.initContainers (ofPod sidecarKey pod).istioInitContainers) ∧
    ((∀ s, ¬pod.Names sidecarKey s) → (ofPod sidecarKey pod).istioContainers = [] ∧
      (ofPod sidecarKey pod).istioInitContainers = []) ∧
    { ofPod sidecarKey pod with istioContainers := [], istioInitContainers := [] } =
      ofPod sidecarKey pod.bare := by
  refine ⟨fun s hs => ?_, fun hnone => ?_, rfl⟩
  · obtain rfl := sidecar_of_names hs
    exact ⟨bear_withImages .., bear_withImages ..⟩
  · have hempty := sidecar_of_not_names hnone
    constructor
    · exact congrArg (fun s : Sidecar => withImages pod.containers s.containers) hempty
    · exact congrArg (fun s : Sidecar => withImages pod.initContainers s.initContainers) hempty

/-- A pod whose annotation says what was injected into it. -/
def proxied (status : String) : Pod where
  metadata := { name := some "web-1", annotations := .ofList [("status", status)] }
  containers := [⟨"web", "web:1"⟩, ⟨"istio-proxy", "proxy:1.20"⟩, ⟨"istio-proxy", "proxy:1.19"⟩]
  initContainers := [⟨"istio-init", "init:1.20"⟩]

def oneProxy : String :=
  "\x7b \"revision\": [1e3, null],\n\"initContainers\" :[\"istio-init\",\"web\"],\n" ++
    "\"containers\": [\"istio\\u002dproxy\"]\x7d "

/-- One of the lists is given twice, so that neither counts. -/
def twice : String :=
  "\x7b\"initContainers\": [\"istio-init\"], \"containers\": [\"istio-proxy\"], \"containers\": []\x7d"

theorem proxied_sidecars :
    ((proxied oneProxy).Names "status" ⟨["istio-proxy"], ["istio-init", "web"]⟩ ∧
      Bear (proxied oneProxy).containers ["istio-proxy"]
          (ofPod "status" (proxied oneProxy)).istioContainers ∧
        Bear (proxied oneProxy).initContainers ["istio-init", "web"]
          (ofPod "status" (proxied oneProxy)).istioInitContainers) ∧
    (∀ s, ¬(proxied twice).Names "status" s) ∧
      (ofPod "status" (proxied twice)).istioContainers = [] ∧
        (ofPod "status" (proxied twice)).istioInitContainers = [] := by
  have hone : (proxied oneProxy).Names "status" ⟨["istio-proxy"], ["istio-init", "web"]⟩ :=
    ⟨oneProxy, rfl, Sidecar.decode?_eq_some_iff.1 (by decide +kernel)⟩
  have htwice : ∀ s, ¬(proxied twice).Names "status" s := by
    have hunread : Sidecar.decode? twice = none := by decide +kernel
    rintro s ⟨text, hfind, hwritten⟩
    obtain rfl : twice = text := Option.some.inj hfind
    cases hunread.symm.trans (Sidecar.decode?_eq_some_iff.2 hwritten)
  exact ⟨⟨hone, (ofPod_sidecars "status" (proxied oneProxy)).1 _ hone⟩, htwice,
    (ofPod_sidecars "status" (proxied twice)).2.1 htwice⟩

end PodSummary

end WorkloadMap
