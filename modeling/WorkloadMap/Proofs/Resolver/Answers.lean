import WorkloadMap.Proofs.Resolver.Calls
import WorkloadMap.Proofs.Resolver.Detail

/-!
What an operation asks for, and what it makes of the answers. Main statement: where all of its calls
are answered in time, each kind of object is what its own call was answered with, and kinds that are
not asked for are empty.
-/
namespace WorkloadMap

theorem Call.nonempty_answer (c : Call) : Nonempty c.Answer := by
  cases c with
  | namespaceInfo ns => exact ⟨(none : Option Namespace)⟩
  | pods ns selector => exact ⟨([] : List Pod)⟩
  | pod ns name => exact ⟨(none : Option Pod)⟩
  | controllers k ns => exact ⟨([] : List Controller)⟩
  | controller k ns name => exact ⟨(none : Option Controller)⟩
  | services ns => exact ⟨([] : List Service)⟩
  | istioObjects k ns => exact ⟨([] : List IstioObject)⟩
  | patch kind ns name body => exact ⟨()⟩
  | syncText => exact ⟨""⟩

/-- What calls are answered with. -/
abbrev Answers := (c : Call) → c.Answer

namespace Resolver

variable {r : Resolver} {ns name : String} {hint : Option Kind} {selector only : Option String}
  {included link : Bool} {kinds : List IstioKind}

/-- Everything in a namespace, of the kinds that are fetched. -/
def listCalls (r : Resolver) (ns : String) (selector : Option String) : List Call :=
  .pods ns selector :: (ControllerKind.all.filter r.fetches).map (.controllers · ns)

/-- All pods, and the controllers that are sought for a name. -/
def seekCalls (r : Resolver) (ns name : String) (hint : Option Kind) : List Call :=
  .pods ns none :: (ControllerKind.all.filter (r.seeks hint)).map fun k =>
    if k ∈ ControllerKind.roots then .controller k ns name else .controllers k ns

/-- What the members of apps are told from. -/
def memberCalls (r : Resolver) (ns : String) (only : Option String) : List Call :=
  .services ns :: r.listCalls ns (some (appSelector r.config.appLabel only))

def serviceCalls (included : Bool) (ns : String) : List Call :=
  if included then [.services ns] else []

def linkCalls (link : Bool) (ns : String) (kinds : List IstioKind) : List Call :=
  if link then kinds.map (.istioObjects · ns) else []

theorem mem_listCalls_iff {c : Call} :
    c ∈ (r.namespaceResources ns selector).calls ↔ c ∈ r.listCalls ns selector := by
  rw [mem_calls_namespaceResources]
  simp only [listCalls, List.mem_cons, List.mem_map, List.mem_filter, ControllerKind.mem_all,
    true_and, @eq_comm _ c]

theorem mem_seekCalls_iff {c : Call} :
    c ∈ (r.workloadResources ns name hint).calls ↔ c ∈ r.seekCalls ns name hint := by
  rw [mem_calls_workloadResources]
  simp only [seekCalls, List.mem_cons, List.mem_map, List.mem_filter, ControllerKind.mem_all,
    true_and, @eq_comm _ c]

theorem mem_serviceCalls_iff {c : Call} :
    c ∈ (r.services included ns).calls ↔ c ∈ serviceCalls included ns := by
  cases included <;> simp [Resolver.services, serviceCalls]

theorem mem_linkCalls_iff {c : Call} :
    c ∈ (r.linked link ns kinds).calls ↔ c ∈ linkCalls link ns kinds := by
  cases link with
  | false => simp [linked, linkCalls]
  | true =>
    have hcalls : c ∈ (r.linked true ns kinds).calls ↔ ∃ k ∈ kinds, c ∈ [.istioObjects k ns] :=
      Batch.mem_calls_all (f := fun k => r.call (.istioObjects k ns))
    rw [hcalls]
    simp only [linkCalls, if_true, List.mem_map, List.mem_singleton, @eq_comm _ c]

theorem mem_memberCalls_iff {c : Call} :
    c ∈ (r.appMembers ns only).calls ↔ c ∈ r.memberCalls ns only := by
  refine Batch.mem_calls_both.trans ?_
  rw [calls_call, List.mem_singleton, memberCalls, List.mem_cons, mem_listCalls_iff]

end Resolver

namespace Answers

variable (answer : Answers) (r : Resolver) (ns name : String)

def controllers (k : ControllerKind) : List Controller := answer (.controllers k ns)

/-- There is one of a name at most. -/
def named (k : ControllerKind) : List Controller := Option.toList (answer (.controller k ns name))

/-- The objects of each kind are the answer to its own call. Kinds that are not fetched are empty. -/
def listed (selector : Option String) : Resources :=
  Resources.only ⟨answer (.pods ns selector), answer.controllers ns⟩ r.fetches

def sought (hint : Option Kind) : Resources :=
  Resources.only ⟨answer (.pods ns none), fun k =>
    if k ∈ ControllerKind.roots then answer.named ns name k else answer.controllers ns k⟩
    (r.seeks hint)

def services (included : Bool) : List Service :=
  if included then answer (.services ns) else []

def linked (link : Bool) (kinds : List IstioKind) : List IstioObject :=
  if link then kinds.flatMap fun k => answer (.istioObjects k ns) else []

/-! What the operations make of the answers. -/

def workloadList (info : NamespaceInfo) (link : Bool) : WorkloadList :=
  ⟨info, ((answer.listed r ns none).workloads r.config.sidecarKey none).map
    (WorkloadItem.ofWorkload r.config.appLabel r.config.versionLabel
      (answer.linked ns link IstioKind.selecting))⟩

def workload (hint : Option Kind) (included : Bool) (statuses : List (Option StatusAnswer)) :
    Except Failure Workload :=
  match (answer.sought r ns name hint).workload? r.config.sidecarKey name hint with
  | none => .error (.notFound "Workload" name)
  | some w => .ok ((w.answered statuses).withServicesIf included (answer.services ns included))

def members (only : Option String) : NameMap AppMembers :=
  let selector := Resolver.appSelector r.config.appLabel only
  AppMembers.group r.config.appLabel only (answer.services ns true)
    ((answer.listed r ns (some selector)).workloads r.config.sidecarKey (some selector))

def appList (info : NamespaceInfo) (link : Bool) : AppList :=
  ⟨info, (answer.members r ns none).entries.map fun (name, members) =>
    .ofMembers (answer.linked ns link IstioKind.routing)
      (answer.linked ns link IstioKind.selecting) name members⟩

def app (info : NamespaceInfo) : Except Failure App :=
  match (answer.members r ns (some name)).find? name with
  | none => .error (.notFound "App" name)
  | some members => .ok (.ofMembers info name members)

end Answers

namespace Resolver

variable {r : Resolver} {ns name : String} {hint : Option Kind} {selector only : Option String}
  {included link : Bool} {kinds : List IstioKind} {asked : List Call} {answer : Answers}

/-- All calls are answered in time, and with these answers. -/
def Answered (r : Resolver) (asked : List Call) (answer : Answers) : Prop :=
  ∀ c ∈ asked, (r.call c).Gives r.config.limit (answer c)

theorem answered_append_iff {others : List Call} : r.Answered (asked ++ others) answer ↔
    r.Answered asked answer ∧ r.Answered others answer :=
  List.forall_mem_append

theorem gives_listed (h : r.Answered (r.listCalls ns selector) answer) :
    (r.namespaceResources ns selector).Gives r.config.limit (answer.listed r ns selector) := by
  refine gives_resources (h _ List.mem_cons_self) fun k => gives_listIf fun hk => ?_
  have hasked : .controllers k ns ∈ r.listCalls ns selector :=
    mem_listCalls_iff.1 (mem_calls_namespaceResources.2 (.inr ⟨k, hk, rfl⟩))
  exact h _ hasked

theorem gives_sought (h : r.Answered (r.seekCalls ns name hint) answer) :
    (r.workloadResources ns name hint).Gives r.config.limit (answer.sought r ns name hint) := by
  rw [workloadResources_eq]
  refine gives_resources (h _ List.mem_cons_self) fun k => ?_
  unfold Answers.sought
  cases hk : r.seeks hint k with
  | false =>
    rw [candidates_of_not_seeks hk, Resources.controllers_only_of_false hk]
    exact .done _ _
  | true =>
    have hasked : (if k ∈ ControllerKind.roots then .controller k ns name else .controllers k ns) ∈
        r.seekCalls ns name hint :=
      mem_seekCalls_iff.1 (mem_calls_workloadResources.2 (.inr ⟨k, hk, rfl⟩))
    rw [Resources.controllers_only_of_true hk]
    unfold candidates
    rw [hk]
    by_cases hroot : k ∈ ControllerKind.roots
    · rw [if_pos hroot] at hasked ⊢
      dsimp only
      rw [if_pos hroot]
      exact (h _ hasked).map Option.toList
    · rw [if_neg hroot] at hasked ⊢
      dsimp only
      rw [if_neg hroot]
      exact h _ hasked

theorem gives_services (h : r.Answered (serviceCalls included ns) answer) :
    (r.services included ns).Gives r.config.limit (answer.services ns included) := by
  cases included with
  | true => exact h _ (List.mem_singleton_self _)
  | false => exact .done _ _

theorem gives_linked (h : r.Answered (linkCalls link ns kinds) answer) :
    (r.linked link ns kinds).Gives r.config.limit (answer.linked ns link kinds) := by
  cases link with
  | true =>
    have hkinds := Batch.Gives.all fun k hk => h (.istioObjects k ns) (List.mem_map_of_mem hk)
    exact hkinds.map List.flatten
  | false => exact .done _ _

theorem gives_members (h : r.Answered (r.memberCalls ns only) answer) :
    (r.appMembers ns only).Gives r.config.limit (answer.members r ns only) := by
  have hservices : (r.call (.services ns)).Gives r.config.limit (answer.services ns true) :=
    h _ List.mem_cons_self
  exact (hservices.both (gives_listed fun c hc => h c (List.mem_cons_of_mem _ hc))).map _

theorem exists_answered (h : ∀ c ∈ asked, ∃ a, (r.call c).Gives r.config.limit a) :
    ∃ answer, r.Answered asked answer := by
  have hall : ∀ c, ∃ a : c.Answer, c ∈ asked → (r.call c).Gives r.config.limit a := by
    intro c
    by_cases hc : c ∈ asked
    · obtain ⟨a, ha⟩ := h c hc
      exact ⟨a, fun _ => ha⟩
    · obtain ⟨a⟩ := c.nonempty_answer
      exact ⟨a, fun hc' => absurd hc' hc⟩
  choose answer hanswer using hall
  exact ⟨answer, hanswer⟩

end Resolver

end WorkloadMap
