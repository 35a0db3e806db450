import Mathlib.Data.List.Basic
import WorkloadMap.Proofs.Istio.Host

/-!
The services that a host stands for, where names have no dot in them. What is before the first dot
of a host is the service, and what is before the second one the namespace, whatever other names
begin in the same way. Main statement: a host stands for one service, and so does the rule for it.
-/
namespace WorkloadMap

namespace Host

/-- A name that is a single label of a host. -/
def IsLabel (name : String) : Prop := '.' ∉ name.toList

instance (name : String) : Decidable (IsLabel name) :=
  inferInstanceAs (Decidable ('.' ∉ name.toList))

variable {host service service' ns ns' : String}

/-- Where two texts with labels in front are the same, so are the labels. -/
theorem label_append_inj {label label' rest rest' : List Char} (h : '.' ∉ label)
    (h' : '.' ∉ label') (heq : label ++ '.' :: rest = label' ++ '.' :: rest') :
    label = label' ∧ rest = rest' := by
  have hfirst : ∀ {label rest : List Char}, '.' ∉ label →
      (label ++ '.' :: rest).takeWhile (· != '.') = label := by
    intro label rest hlabel
    rw [List.takeWhile_append_of_pos fun c hc => by simpa using ne_of_mem_of_not_mem hc hlabel,
      List.takeWhile_cons_of_neg (by simp), List.append_nil]
  have hsame : label = label' := by rw [← hfirst h, heq, hfirst h']
  subst hsame
  exact ⟨rfl, (List.cons.inj (List.append_cancel_left heq)).2⟩

/-- The end of a host counts as a dot. -/
theorem exists_after_service (h : refersTo host service ns = true) :
    ∃ rest, host.toList ++ ['.'] = service.toList ++ '.' :: rest := by
  obtain rfl | ⟨rest, hhost, -⟩ := refersTo_iff_exists.1 h
  · exact ⟨[], rfl⟩
  · exact ⟨ns.toList ++ (rest ++ ['.']), by simp [hhost]⟩

theorem exists_after_namespace (h : refersTo host service ns = true) (hne : host ≠ service) :
    ∃ rest, host.toList ++ ['.'] = service.toList ++ '.' :: (ns.toList ++ '.' :: rest) := by
  obtain rfl | ⟨rest, hhost, rfl | ⟨tail, rfl⟩⟩ := refersTo_iff_exists.1 h
  · exact absurd rfl hne
  · exact ⟨[], by simp [hhost]⟩
  · exact ⟨['s', 'v', 'c'] ++ tail ++ ['.'], by simp [hhost]⟩

theorem service_unique (hservice : IsLabel service) (hservice' : IsLabel service')
    (h : refersTo host service ns = true) (h' : refersTo host service' ns' = true) :
    service = service' := by
  obtain ⟨rest, hrest⟩ := exists_after_service h
  obtain ⟨rest', hrest'⟩ := exists_after_service h'
  exact String.toList_injective (label_append_inj hservice hservice' (hrest.symm.trans hrest')).1

theorem namespace_unique (hservice : IsLabel service) (hns : IsLabel ns) (hns' : IsLabel ns')
    (hdot : '.' ∈ host.toList) (h : refersTo host service ns = true)
    (h' : refersTo host service ns' = true) : ns = ns' := by
  have hne : host ≠ service := by
    rintro rfl
    exact hservice hdot
  obtain ⟨rest, hrest⟩ := exists_after_namespace h hne
  obtain ⟨rest', hrest'⟩ := exists_after_namespace h' hne
  have hafter := (label_append_inj hservice hservice (hrest.symm.trans hrest')).2
  exact String.toList_injective (label_append_inj hns hns' hafter).1

end Host

namespace IstioObject

variable {o : IstioObject} {service ns : String}

/-- A destination rule has no more than one host. -/
theorem refersToService_rule_iff (h : o.kind = .destinationRule) :
    o.refersToService service ns = true ↔
      ∃ host, o.spec.get? "host" = some (.text host) ∧ Host.refersTo host service ns = true := by
  rw [refersToService_iff_exists]
  refine exists_congr fun host => and_congr_left fun _ => ?_
  rw [names_iff, mem_hosts_iff, h]
  simp

/-- A host stands for one service, and for one namespace of it if it goes on after the service. So
of the services of a namespace a destination rule is for no more than one. -/
theorem host_names_one_service :
    (∀ host service service' ns ns', Host.IsLabel service → Host.IsLabel service' →
      Host.IsLabel ns → Host.IsLabel ns' → Host.refersTo host service ns = true →
        Host.refersTo host service' ns' = true →
          service = service' ∧ ('.' ∈ host.toList → ns = ns')) ∧
    ∀ (o : IstioObject) (ns service service' : String), o.kind = .destinationRule →
      Host.IsLabel service → Host.IsLabel service' → o.refersToService service ns = true →
        o.refersToService service' ns = true → service = service' := by
  refine ⟨fun host service service' ns ns' hservice hservice' hns hns' h h' => ?_,
    fun o ns service service' hkind hservice hservice' h h' => ?_⟩
  · obtain rfl := Host.service_unique hservice hservice' h h'
    exact ⟨rfl, fun hdot => Host.namespace_unique hservice hns hns' hdot h h'⟩
  · obtain ⟨host, hhost, hrefers⟩ := (refersToService_rule_iff hkind).1 h
    obtain ⟨host', hhost', hrefers'⟩ := (refersToService_rule_iff hkind).1 h'
    have htext : Json.text host = Json.text host' := Option.some.inj (hhost.symm.trans hhost')
    obtain rfl : host = host' := Option.some.inj (Json.text?_eq_some_iff.2 htext)
    exact Host.service_unique hservice hservice' hrefers hrefers'

/-- The rule for a trial version, whose name begins with that of the service it is to replace. -/
def canaryRule : IstioObject where
  kind := .destinationRule
  name := "web-canary"
  ns := "shop"
  spec := .record [("host", .text "web-canary.shop.svc.cluster.local")]

theorem canaryRule_names_one :
    Host.IsLabel "web-canary" ∧ Host.IsLabel "shop" ∧
      Host.refersTo "web-canary.shop" "web-canary" "shop" = true ∧
      Host.refersTo "web-canary.shop" canaryRule.name canaryRule.ns = true ∧
      '.' ∈ "web-canary.shop".toList ∧
      ("web-canary" = canaryRule.name ∧ "shop" = canaryRule.ns) ∧
      canaryRule.kind = .destinationRule ∧ Host.IsLabel "web" ∧
      canaryRule.refersToService "web-canary" "shop" = true ∧
      canaryRule.refersToService canaryRule.name "shop" = true ∧
      canaryRule.refersToService "web" "shop" = false := by
  have hweb : Host.IsLabel "web" := by decide
  have hcanary : Host.IsLabel "web-canary" := by decide
  have hshop : Host.IsLabel "shop" := by decide
  have hhost : Host.refersTo "web-canary.shop" "web-canary" "shop" = true := by decide +kernel
  have hdot : '.' ∈ "web-canary.shop".toList := by decide
  have hrefers : canaryRule.refersToService "web-canary" "shop" = true := by decide +kernel
  obtain ⟨hservice, hns⟩ := host_names_one_service.1 "web-canary.shop" "web-canary" canaryRule.name
    "shop" canaryRule.ns hcanary hcanary hshop hshop hhost hhost
  refine ⟨hcanary, hshop, hhost, hhost, hdot, ⟨hservice, hns hdot⟩, rfl, hweb, hrefers, hrefers, ?_⟩
  refine Bool.eq_false_iff.2 fun hother => absurd ?_ (show "web" ≠ "web-canary" by decide)
  exact host_names_one_service.2 canaryRule "shop" "web" "web-canary" rfl hweb hcanary hother
    hrefers

end IstioObject

end WorkloadMap
