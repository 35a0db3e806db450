import WorkloadMap.Proofs.Resolver.Calls
import WorkloadMap.Proofs.Resolver.Current

/-!
One source in place of another. What the first answers to a call in time, the second answers too;
then whatever an operation comes to with the first it comes to with the second. Main statement: an
operation is carried over as soon as each of its calls is.
-/
namespace WorkloadMap

namespace Batch

variable {α β : Type} {limit : Nat} {x x' : Batch α} {y y' : Batch β}

/-- What the first batch gives in time, the second one gives in time as well. -/
def Carries (limit : Nat) (x x' : Batch α) : Prop :=
  ∀ a, x.Gives limit a → x'.Gives limit a

theorem Carries.refl (x : Batch α) : Carries limit x x := fun _ h => h

theorem Carries.map (h : Carries limit x x') (f : α → β) :
    Carries limit (x.map f) (x'.map f) := by
  intro b hb
  obtain ⟨a, ha, rfl⟩ := hb.of_map
  exact (h a ha).map f

theorem Carries.both (hx : Carries limit x x') (hy : Carries limit y y') :
    Carries limit (x.both y) (x'.both y') := by
  rintro ⟨a, b⟩ hab
  obtain ⟨ha, hb⟩ := hab.of_both
  exact (hx a ha).both (hy b hb)

theorem Carries.all {ι : Type} {f f' : ι → Batch α} (h : ∀ i, Carries limit (f i) (f' i))
    (is : List ι) : Carries limit (all (is.map f)) (all (is.map f')) := by
  induction is with
  | nil => exact .refl _
  | cons i is ih => exact ((h i).both ih).map _

end Batch

namespace Run

variable {α β : Type} {x x' : Run α} {f f' : α → Run β} {limit : Nat} {b b' : Batch α}

/-- What the first run comes to, the second one comes to as well, whatever was done before either.
-/
def Carries (x x' : Run α) : Prop :=
  ∀ p p' a, (x p).1 = .ok a → (x' p').1 = .ok a

theorem Carries.pure (a : α) : Carries (pure a) (pure a) := fun _ _ _ h => h

theorem Carries.throw (e : Failure) (x' : Run α) : Carries (throw e) x' := by
  rintro p p' a ⟨⟩

theorem Carries.bind (hx : Carries x x') (hf : ∀ a, Carries (f a) (f' a)) :
    Carries (x >>= f) (x' >>= f') := by
  intro p p' b hb
  obtain ⟨a, p₁, ha, hfirst⟩ := of_bind_ok (Prod.ext hb rfl)
  have ha' : (x' p').1 = .ok a := hx p p' a (congrArg Prod.fst ha)
  rw [bind_apply_of_ok (Prod.ext ha' rfl)]
  exact hf a p₁ _ b (congrArg Prod.fst hfirst)

theorem Carries.wait (b : Batch α) : Carries (wait b) (wait b) := fun _ _ _ h => h

theorem Carries.waitWithin (h : b.Carries limit b') :
    Carries (waitWithin limit b) (waitWithin limit b') := by
  intro p p' a ha
  obtain ⟨q, hq⟩ := waitWithin_of_gives (h a (gives_of_waitWithin (Prod.ext ha rfl))) p'
  exact congrArg Prod.fst hq

theorem Carries.ofExcept (result : Except Failure α) :
    Carries (MonadExcept.ofExcept result : Run α) (MonadExcept.ofExcept result) := by
  cases result with
  | error e => exact .throw e _
  | ok a => exact .pure a

end Run

/-- Calls whose answers are in no cache. -/
def Call.IsPlain : Call → Prop
  | .namespaceInfo _ | .pod .. | .istioObjects .. | .patch .. | .syncText => True
  | .pods .. | .controllers .. | .controller .. | .services _ => False

abbrev Outcomes := (c : Call) → Outcome c.Answer

namespace Resolver

def answering (r : Resolver) (outcome : Outcomes) : Resolver :=
  { r with source := { r.source with outcome } }

/-- The second outcomes are as good as the first for some calls, and the same for plain ones. -/
structure Replaces (r : Resolver) (asked : List Call) (f g : Outcomes) : Prop where
  plain : ∀ c, c.IsPlain → g c = f c
  asked : ∀ c ∈ asked,
    ((r.answering f).call c).Carries r.config.limit ((r.answering g).call c)

variable {r : Resolver} {ns name : String} {hint : Option Kind} {included link : Bool}
  {asked : List Call} {f g : Outcomes} {limit : Nat} {selector only : Option String}

theorem Replaces.call_of_isPlain (h : r.Replaces asked f g) {c : Call} (hc : c.IsPlain) :
    (r.answering g).call c = (r.answering f).call c := by
  simp only [call, Batch.ofCall, answering, h.plain c hc]

theorem Replaces.namespaceInfo (h : r.Replaces asked f g) :
    ((r.answering f).namespaceInfo ns).Carries ((r.answering g).namespaceInfo ns) := by
  have hsame : (r.answering g).namespaceInfo ns = (r.answering f).namespaceInfo ns := by
    unfold Resolver.namespaceInfo
    rw [h.call_of_isPlain (c := .namespaceInfo ns) trivial]
    rfl
  rw [hsame]
  unfold Resolver.namespaceInfo
  split
  · exact .throw _ _
  · refine .bind (.wait _) fun found => ?_
    cases found with
    | none => exact .throw _ _
    | some n => exact .pure _

theorem carries_resources {pods pods' : Batch (List Pod)}
    {controllers controllers' : ControllerKind → Batch (List Controller)}
    (hpods : pods.Carries limit pods')
    (hcontrollers : ∀ k, (controllers k).Carries limit (controllers' k)) :
    (resources pods controllers).Carries limit (resources pods' controllers') :=
  (hpods.both (.all (fun k => (hcontrollers k).map _) fetchOrder)).map _

theorem Replaces.listIf (h : r.Replaces asked f g) {wanted : Bool} {k : ControllerKind}
    (hasked : wanted = true → .controllers k ns ∈ asked) :
    ((r.answering f).listIf wanted k ns).Carries r.config.limit
      ((r.answering g).listIf wanted k ns) := by
  cases wanted with
  | false => exact .refl _
  | true => exact h.asked _ (hasked rfl)

theorem Replaces.getIf (h : r.Replaces asked f g) {wanted : Bool} {k : ControllerKind}
    (hasked : wanted = true → .controller k ns name ∈ asked) :
    ((r.answering f).getIf wanted k ns name).Carries r.config.limit
      ((r.answering g).getIf wanted k ns name) := by
  cases wanted with
  | false => exact .refl _
  | true => exact (h.asked _ (hasked rfl)).map _

theorem Replaces.namespaceResources (h : r.Replaces asked f g)
    (hasked : (r.namespaceResources ns selector).calls ⊆ asked) :
    ((r.answering f).namespaceResources ns selector).Carries r.config.limit
      ((r.answering g).namespaceResources ns selector) := by
  have hcalls : ∀ c, (c = .pods ns selector ∨ ∃ k, r.fetches k = true ∧ c = .controllers k ns) →
      c ∈ asked := fun c hc => hasked (mem_calls_namespaceResources.2 hc)
  refine carries_resources (h.asked _ (hcalls _ (.inl rfl))) fun k => ?_
  exact h.listIf fun hk => hcalls _ (.inr ⟨k, hk, rfl⟩)

theorem Replaces.workloadResources (h : r.Replaces asked f g)
    (hasked : (r.workloadResources ns name hint).calls ⊆ asked) :
    ((r.answering f).workloadResources ns name hint).Carries r.config.limit
      ((r.answering g).workloadResources ns name hint) := by
  have hpods : .pods ns none ∈ asked := hasked (mem_calls_workloadResources.2 (.inl rfl))
  have hsought : ∀ k, r.seeks hint k = true →
      (if k ∈ ControllerKind.roots then .controller k ns name else .controllers k ns) ∈ asked :=
    fun k hk => hasked (mem_calls_workloadResources.2 (.inr ⟨k, hk, rfl⟩))
  rw [workloadResources_eq, workloadResources_eq]
  refine carries_resources (h.asked _ hpods) fun k => ?_
  unfold candidates
  split
  next hk => exact h.getIf fun hwanted => by simpa [hk] using hsought k hwanted
  next hk => exact h.listIf fun hwanted => by simpa [hk] using hsought k hwanted

theorem Replaces.linked (h : r.Replaces asked f g) (kinds : List IstioKind) :
    ((r.answering f).linked link ns kinds).Carries r.config.limit
      ((r.answering g).linked link ns kinds) := by
  cases link with
  | false => exact .refl _
  | true =>
    refine (Batch.Carries.all (fun k => ?_) kinds).map _
    rw [h.call_of_isPlain (c := .istioObjects k ns) trivial]
    exact .refl _

theorem Replaces.services (h : r.Replaces asked f g) (hasked : .services ns ∈ asked) :
    ((r.answering f).services included ns).Carries r.config.limit
      ((r.answering g).services included ns) := by
  cases included with
  | false => exact .refl _
  | true => exact h.asked _ hasked

theorem carries_found (resources : Resources) :
    ((r.answering f).found resources name hint).Carries
      ((r.answering g).found resources name hint) := by
  have hsame : (r.answering g).found resources name hint =
      (r.answering f).found resources name hint := rfl
  rw [hsame]
  unfold found
  split
  · exact .pure _
  · exact .throw _ _

theorem Replaces.described (h : r.Replaces asked f g) (hservices : .services ns ∈ asked)
    (hasked : (r.workloadResources ns name hint).calls ⊆ asked) :
    ((r.answering f).described ns name hint included).Carries
      ((r.answering g).described ns name hint included) := by
  refine h.namespaceInfo.bind fun _ => ?_
  refine (Run.Carries.waitWithin ((h.workloadResources hasked).both (h.services hservices))).bind ?_
  rintro ⟨resources, services⟩
  exact (carries_found resources).bind fun w => .pure _

theorem Replaces.syncStates (h : r.Replaces asked f g) :
    (r.answering g).syncStates = (r.answering f).syncStates := by
  simp only [Resolver.syncStates, answering, h.plain .syncText trivial]

theorem Replaces.appMembers (h : r.Replaces asked f g) (hservices : .services ns ∈ asked)
    (hasked : (r.namespaceResources ns (some (appSelector r.config.appLabel only))).calls ⊆
      asked) :
    ((r.answering f).appMembers ns only).Carries r.config.limit
      ((r.answering g).appMembers ns only) :=
  ((h.asked _ hservices).both (h.namespaceResources hasked)).map _

end Resolver

namespace Operation

variable {r : Resolver} {asked : List Call} {f g : Outcomes}

/-- The calls that an operation makes for objects that may be in a cache. -/
def reads (r : Resolver) (o : Operation) : List Call := .services o.ns :: o.objectCalls r

/-- An answer without what istiod says of it. -/
def withoutStatuses : (o : Operation) → o.Answer → o.Answer
  | .get .., w => Workload.withoutStatuses w
  | .list .., answer | .update .., answer | .pods .., answer | .pod .., answer
  | .appName .., answer | .apps .., answer | .app .., answer => answer

/-- What the first resolver makes of an operation, the second one makes of it as well, but for what
istiod comes to say in the meantime. -/
def CarriedOver (o : Operation) (r r' : Resolver) : Prop :=
  ∀ p p' a, (o.run r p).1 = .ok a → ∃ a', (o.run r' p').1 = .ok a' ∧
    o.withoutStatuses a' = o.withoutStatuses a ∧ (r.IsCurrent p → r'.IsCurrent p' → a' = a)

theorem carriedOver_of_carries {o : Operation} {r r' : Resolver}
    (h : (o.run r).Carries (o.run r')) : o.CarriedOver r r' :=
  fun p p' a ha => ⟨a, h p p' a ha, rfl, fun _ _ => rfl⟩

theorem carriedOver_get {ns name : String} {hint : Option Kind} {included : Bool}
    (h : r.Replaces (reads r (.get ns name hint included)) f g) :
    (Operation.get ns name hint included).CarriedOver (r.answering f) (r.answering g) := by
  intro p p' w hw
  obtain ⟨w₀, services, q, hdescribed, rfl⟩ := Resolver.described_of_getWorkload hw
  have hcarries : ((r.answering f).described ns name hint included).Carries
      ((r.answering g).described ns name hint included) :=
    h.described List.mem_cons_self (List.subset_cons_self _ _)
  have hcarried := hcarries p p' (w₀, services) (congrArg Prod.fst hdescribed)
  have hdescribed' : (r.answering g).described ns name hint included p' =
      (.ok (w₀, services), _) := Prod.ext hcarried rfl
  refine ⟨_, Resolver.getWorkload_of_described hdescribed', ?_, fun hcurrent hcurrent' => ?_⟩
  · simp only [withoutStatuses, Workload.withoutStatuses_withServicesIf,
      Workload.withoutStatuses_answered (Resolver.length_lookUps _ _ _ _)]
    rfl
  · have hanswers := Resolver.answers_of_isCurrent hcurrent hdescribed
    have hanswers' := Resolver.answers_of_isCurrent hcurrent' hdescribed'
    rw [Resolver.answers_of_described hdescribed] at hanswers
    rw [Resolver.answers_of_described hdescribed', h.syncStates, ← hanswers] at hanswers'
    rw [hanswers']

/-- An operation is carried over to other outcomes if they are as good for each of its calls. -/
theorem carriedOver_of_replaces (o : Operation) (h : r.Replaces (o.reads r) f g) :
    o.CarriedOver (r.answering f) (r.answering g) := by
  have hobjects : o.objectCalls r ⊆ o.reads r := List.subset_cons_self _ _
  cases o with
  | get ns name hint included => exact carriedOver_get h
  | list ns link =>
    refine carriedOver_of_carries (h.namespaceInfo.bind fun _ => ?_)
    refine (Run.Carries.waitWithin ((h.namespaceResources hobjects).both (h.linked _))).bind ?_
    exact fun _ => .pure _
  | update ns name hint patch =>
    refine carriedOver_of_carries (h.namespaceInfo.bind fun _ => ?_)
    have hpatch : ∀ kind, ((r.answering g).call (.patch kind ns name patch) : Batch Unit) =
        (r.answering f).call (.patch kind ns name patch) :=
      fun kind => h.call_of_isPlain (c := .patch kind ns name patch) trivial
    refine (Run.Carries.waitWithin ?_).bind fun _ => .ofExcept _
    simp only [hpatch]
    exact .refl _
  | pods ns selector =>
    refine carriedOver_of_carries (h.namespaceInfo.bind fun _ => ?_)
    exact (Run.Carries.waitWithin (h.asked _ (hobjects List.mem_cons_self))).bind fun _ => .pure _
  | pod ns name =>
    refine carriedOver_of_carries (h.namespaceInfo.bind fun _ => ?_)
    refine (Run.Carries.waitWithin (h.asked _ (hobjects List.mem_cons_self))).bind ?_
    rintro (_ | pod)
    · exact .throw _ _
    · exact .pure _
  | appName ns name =>
    refine carriedOver_of_carries (h.namespaceInfo.bind fun _ => ?_)
    refine (Run.Carries.waitWithin (h.workloadResources hobjects)).bind fun resources => ?_
    exact (Resolver.carries_found resources).bind fun w => .pure _
  | apps ns link =>
    refine carriedOver_of_carries (h.namespaceInfo.bind fun _ => ?_)
    have hmembers : ((r.answering f).appMembers ns none).Carries r.config.limit
        ((r.answering g).appMembers ns none) := h.appMembers List.mem_cons_self hobjects
    refine (Run.Carries.waitWithin (hmembers.both ((h.linked _).both (h.linked _)))).bind ?_
    exact fun _ => .pure _
  | app ns name =>
    refine carriedOver_of_carries (h.namespaceInfo.bind fun _ => ?_)
    have hmembers : ((r.answering f).appMembers ns (some name)).Carries r.config.limit
        ((r.answering g).appMembers ns (some name)) := h.appMembers List.mem_cons_self hobjects
    refine (Run.Carries.waitWithin hmembers).bind fun apps => ?_
    cases apps.find? name with
    | none => exact .throw _ _
    | some members => exact .pure _

end Operation

end WorkloadMap
