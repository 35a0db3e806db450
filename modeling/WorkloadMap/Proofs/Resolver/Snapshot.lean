import WorkloadMap.Proofs.Cluster.Address
import WorkloadMap.Proofs.Occurrence
import WorkloadMap.Session

/-!
The look-ups of sync states, one after the other, whatever istiod says to each and however long it
takes. What a look-up may do is told by what is held, and what is held is what was received last.
Main statement: a look-up asks only if nothing was received for a while, fails only if what it asks
for fails, and is otherwise answered from what was received last.
-/
namespace WorkloadMap

namespace Snapshot

/-- The sync states in a text, in its order. -/
def read? (text : String) : Option (List SyncStatus) := do
  Json.list? SyncStatus.decode? (← Json.parse? text)

def file (states : List SyncStatus) : NameMap SyncStatus :=
  .ofList (states.map fun s => (s.proxy, s))

/-- What is told by what came of a request, if it can be read. -/
def told (result : Except Failure String) : Except Failure (List SyncStatus) :=
  match result with
  | .error e => .error e
  | .ok text =>
    match read? text with
    | none => .error .syncUndecodable
    | some states => .ok states

variable {states : List SyncStatus} {status : SyncStatus} {s : Snapshot}

theorem states?_eq (text : String) : states? text = (read? text).map file := by
  unfold states? read?
  cases Json.parse? text with
  | none => rfl
  | some v => cases h : Json.list? SyncStatus.decode? v <;> simp [h, file]

theorem find?_file_eq_some_iff {proxy : String} :
    (file states).find? proxy = some status ↔ IsLast (fun s => s.proxy = proxy) states status :=
  NameMap.find?_ofList_map_eq_some_iff

theorem isFresh_iff {ttl clock : Nat} (h : s.taken ≤ clock) :
    s.isFresh ttl clock = true ↔ clock < s.taken + ttl := by
  simp only [isFresh, decide_eq_true_eq]
  omega

end Snapshot

namespace SnapshotRead

variable {ttl clock : Nat} {held : Option Snapshot} {answer : Outcome String}

theorem at_of_fresh {s : Snapshot} (h : held.filter (·.isFresh ttl clock) = some s) :
    SnapshotRead.at ttl clock held answer = ⟨false, clock, held, .ok s⟩ := by
  simp only [SnapshotRead.at, h]

theorem at_of_stale (h : held.filter (·.isFresh ttl clock) = none) :
    SnapshotRead.at ttl clock held answer =
      let done := clock + answer.arrival.elapsed
      match Snapshot.told answer.result with
      | .error e => ⟨true, done, held, .error e⟩
      | .ok states =>
        ⟨true, done, some ⟨done, Snapshot.file states⟩, .ok ⟨done, Snapshot.file states⟩⟩ := by
  simp only [SnapshotRead.at, h, Snapshot.states?_eq]
  cases answer.result with
  | error e => rfl
  | ok text => cases hread : Snapshot.read? text <;> simp [Snapshot.told, hread]

end SnapshotRead

namespace Session

/-- A look-up of the sync state of a pod's proxy: how long after the one before it is made, and how
the server is then. -/
structure LookUp where
  pause : Nat
  server : Server
  ns : String
  pod : String

/-- What the server says if asked for the sync states. -/
def LookUp.answer (l : LookUp) (istiod : IstiodAddress) : Except Failure (List SyncStatus) :=
  match (l.server.reply istiod.request).body? with
  | .error e => .error (.syncUnavailable (.api e))
  | .ok body => Snapshot.told (.ok body.toText)

/-- A look-up that was made: the session as it was called, what it came to, and the session as it
was over. -/
structure Made where
  lookUp : LookUp
  before : Session
  ran : Ran (Option SyncStatus)
  after : Session

def make (s : Session) (l : LookUp) : Made :=
  let before := { s with clock := s.clock + l.pause, link := some l.server }
  let run := before.run fun r => r.syncStatus l.ns l.pod
  ⟨l, before, run.1, run.2⟩

/-- The look-ups made from a session on. -/
def history (s : Session) : List LookUp → List Made
  | [] => []
  | l :: ls => s.make l :: history (s.make l).after ls

namespace Made

def called (e : Made) : Nat := e.before.clock

def done (e : Made) : Nat := e.after.clock

def answer (e : Made) : Except Failure (List SyncStatus) := e.lookUp.answer e.before.istiod

def Receives (e : Made) (states : List SyncStatus) : Prop :=
  e.ran.requests ≠ [] ∧ e.answer = .ok states

def Succeeds (e : Made) : Prop := ∃ states, e.Receives states

/-- What a look-up is answered from: what is received in it, or what was received last before it and
not so long ago. -/
inductive AnsweredFrom (ttl : Nat) (past : List Made) (e : Made) (states : List SyncStatus) : Prop
  | received (h : e.Receives states)
  | shared (latest : Made) (last : IsLast Succeeds past latest) (h : latest.Receives states)
      (fresh : e.called < latest.done + ttl)

/-- How a look-up is served after some others. -/
structure IsServed (istiod : IstiodAddress) (ttl : Nat) (past : List Made) (e : Made) : Prop where
  asks : e.ran.requests ≠ [] ↔ ¬∃ b ∈ past, b.Succeeds ∧ e.called < b.done + ttl
  asksOnce : e.ran.requests = [] ∨ e.ran.requests = [istiod.request]
  fails : ∀ failure, e.ran.result = .error failure ↔
    e.ran.requests ≠ [] ∧ e.answer = .error failure
  keeps : ∀ failure, e.ran.result = .error failure → e.after.held = e.before.held
  answers : ∀ found, e.ran.result = .ok found → ∃ states, AnsweredFrom ttl past e states ∧
    ∀ status, found = some status ↔
      IsLast (fun s => s.proxy = e.lookUp.pod ++ "." ++ e.lookUp.ns) states status

/-- All that a look-up may do: share what is held, ask and fail, or ask and take what it is told. -/
inductive Does (e : Made) : Prop
  | shares (s : Snapshot) (held : e.before.held = some s)
      (fresh : s.isFresh e.before.ttl e.called = true) (requests : e.ran.requests = [])
      (result : e.ran.result = .ok (s.state? e.lookUp.ns e.lookUp.pod)) (after : e.after = e.before)
  | fails (stale : e.before.held.filter (·.isFresh e.before.ttl e.called) = none)
      (requests : e.ran.requests = [e.before.istiod.request]) (failure : Failure)
      (answer : e.answer = .error failure) (result : e.ran.result = .error failure)
      (held : e.after.held = e.before.held) (later : e.called ≤ e.done)
  | takes (stale : e.before.held.filter (·.isFresh e.before.ttl e.called) = none)
      (requests : e.ran.requests = [e.before.istiod.request]) (states : List SyncStatus)
      (answer : e.answer = .ok states) (held : e.after.held = some ⟨e.done, Snapshot.file states⟩)
      (result : e.ran.result =
        .ok ((Snapshot.file states).find? (e.lookUp.pod ++ "." ++ e.lookUp.ns)))
      (later : e.called ≤ e.done)

end Made

variable {s : Session} {l : LookUp}

/-- The cache has no part in a look-up. -/
theorem outcome_syncText (s : Session) :
    s.source.outcome .syncText = Client.syncText s.link s.istiod := by
  unfold source
  cases s.usesCache with
  | false => rfl
  | true => exact Source.outcome_throughCache_of_none rfl

theorem run_syncStatus (s : Session) (ns pod : String) :
    s.run (fun r => r.syncStatus ns pod) =
      let outcome : Outcome String := Client.syncText s.link s.istiod
      let read := SnapshotRead.at s.ttl s.clock s.held outcome
      (⟨if read.asked then outcome.request.toList else [], read.result.map (·.state? ns pod)⟩,
        { s with clock := read.clock, held := read.held }) := by
  have houtcome : s.resolver.source.outcome .syncText = Client.syncText s.link s.istiod :=
    s.outcome_syncText
  have hrequests : ∀ asked : Bool,
      (if asked then [] ++ [Call.syncText] else []).filterMap
          (fun c => (s.source.outcome c).request) =
        if asked then (Client.syncText s.link s.istiod).request.toList else [] := by
    intro asked
    cases asked with
    | false => rfl
    | true =>
      rw [if_pos rfl, if_pos rfl, List.nil_append, List.filterMap_cons, outcome_syncText]
      cases (Client.syncText s.link s.istiod).request <;> rfl
  unfold run
  dsimp only [Resolver.syncStatus]
  rw [houtcome]
  exact Prod.ext (congrArg (Ran.mk · _) (hrequests _)) rfl

theorem syncText_of_isAddress {istiod : IstiodAddress} (server : Server)
    (hns : Client.isAddress istiod.ns = true) (hservice : Client.isAddress istiod.service = true) :
    (Client.syncText (some server) istiod).request = some istiod.request := by
  simp [Client.syncText, hns, hservice, Client.exchange, IstiodAddress.request]

theorem told_syncText {istiod : IstiodAddress} (l : LookUp)
    (hns : Client.isAddress istiod.ns = true) (hservice : Client.isAddress istiod.service = true) :
    Snapshot.told (Client.syncText (some l.server) istiod).result = l.answer istiod := by
  unfold Client.syncText LookUp.answer
  simp only [hns, hservice, Bool.and_self, Bool.not_true, Bool.false_eq_true, if_false,
    Client.exchange, IstiodAddress.request]
  cases (l.server.reply (.sync istiod.ns istiod.service istiod.port)).body? <;> rfl

/-- Nothing else happens in a look-up. -/
theorem Made.does_of_run {e : Made}
    (hrun : e.before.run (fun r => r.syncStatus e.lookUp.ns e.lookUp.pod) = (e.ran, e.after))
    (hlink : e.before.link = some e.lookUp.server)
    (hns : Client.isAddress e.before.istiod.ns = true)
    (hservice : Client.isAddress e.before.istiod.service = true) : e.Does := by
  have htold : Snapshot.told (Client.syncText e.before.link e.before.istiod).result = e.answer :=
    hlink ▸ told_syncText e.lookUp hns hservice
  have hrequest : (Client.syncText e.before.link e.before.istiod).request =
      some e.before.istiod.request :=
    hlink ▸ syncText_of_isAddress e.lookUp.server hns hservice
  rw [run_syncStatus] at hrun
  dsimp only at hrun
  cases hheld : e.before.held.filter (·.isFresh e.before.ttl e.before.clock) with
  | some snapshot =>
    rw [SnapshotRead.at_of_fresh hheld] at hrun
    obtain ⟨hheld, hfresh⟩ := Option.filter_eq_some_iff.1 hheld
    obtain ⟨hran, hafter⟩ := Prod.mk.inj hrun
    exact .shares snapshot hheld hfresh (congrArg Ran.requests hran.symm)
      (congrArg Ran.result hran.symm) hafter.symm
  | none =>
    rw [SnapshotRead.at_of_stale hheld, htold, hrequest] at hrun
    cases hanswer : e.answer with
    | error failure =>
      rw [hanswer] at hrun
      obtain ⟨hran, hafter⟩ := Prod.mk.inj hrun
      have hdone : e.called + _ = e.done := congrArg Session.clock hafter
      exact .fails hheld (congrArg Ran.requests hran.symm) failure hanswer
        (congrArg Ran.result hran.symm) (congrArg Session.held hafter).symm
        (hdone ▸ Nat.le_add_right _ _)
    | ok states =>
      rw [hanswer] at hrun
      obtain ⟨hran, hafter⟩ := Prod.mk.inj hrun
      have hdone : e.called + _ = e.done := congrArg Session.clock hafter
      have hheld' : some ⟨_, Snapshot.file states⟩ = e.after.held := congrArg Session.held hafter
      exact .takes hheld (congrArg Ran.requests hran.symm) states hanswer
        (hdone ▸ hheld'.symm) (congrArg Ran.result hran.symm) (hdone ▸ Nat.le_add_right _ _)

theorem Made.Does.called_le_done {e : Made} (h : e.Does) : e.called ≤ e.done := by
  cases h with
  | shares _ _ _ _ _ after => exact Nat.le_of_eq (congrArg Session.clock after).symm
  | fails _ _ _ _ _ _ later => exact later
  | takes _ _ _ _ _ _ later => exact later

/-- What is held changes only with what is received. -/
theorem Made.Does.held_after {e : Made} (h : e.Does) :
    ¬e.Succeeds ∧ e.after.held = e.before.held ∨
      ∃ states, e.Receives states ∧ e.after.held = some ⟨e.done, Snapshot.file states⟩ := by
  cases h with
  | shares _ _ _ requests _ after =>
    refine .inl ⟨?_, congrArg Session.held after⟩
    rintro ⟨_, hasked, _⟩
    exact hasked requests
  | fails _ _ _ answer _ held _ =>
    refine .inl ⟨?_, held⟩
    rintro ⟨_, _, hanswer⟩
    cases answer.symm.trans hanswer
  | takes _ requests states answer held _ _ =>
    exact .inr ⟨states, ⟨by simp [requests], answer⟩, held⟩

/-- What is held was received last, and nothing was received since the clock stood where it does. -/
structure Tracks (s : Session) (past : List Made) : Prop where
  ascending : past.Pairwise fun a b => a.done ≤ b.done
  ended : ∀ e ∈ past, e.done ≤ s.clock
  held : ∀ snapshot, s.held = some snapshot ↔ ∃ latest states,
    IsLast Made.Succeeds past latest ∧ latest.Receives states ∧
      snapshot = ⟨latest.done, Snapshot.file states⟩

namespace Tracks

variable {past : List Made} {e : Made}

theorem nil (h : s.held = none) : s.Tracks [] where
  ascending := .nil
  ended := by simp
  held := by simp [h, not_isLast_nil]

/-- Time that passes changes nothing. -/
theorem before_make (h : s.Tracks past) (l : LookUp) : (s.make l).before.Tracks past where
  ascending := h.ascending
  ended e hmem := Nat.le_add_right_of_le (h.ended e hmem)
  held := h.held

/-- What is held is fresh if anything that was received is. -/
theorem stale_iff (h : s.Tracks past) :
    s.held.filter (·.isFresh s.ttl s.clock) = none ↔
      ¬∃ b ∈ past, b.Succeeds ∧ s.clock < b.done + s.ttl := by
  rw [Option.filter_eq_none_iff]
  constructor
  · -- Of all that was received the last was over last, so it is fresh if any other is.
    rintro hstale ⟨b, hmem, hb, hfresh⟩
    obtain ⟨latest, hlast⟩ := exists_isLast ⟨b, hmem, hb⟩
    obtain ⟨states, hreceives⟩ := hlast.holds
    have hdone : b.done ≤ latest.done := by
      obtain rfl | hle := hlast.rel_of_pairwise h.ascending hmem hb
      · exact Nat.le_refl _
      · exact hle
    refine hstale _ ((h.held _).2 ⟨latest, states, hlast, hreceives, rfl⟩) ?_
    rw [Snapshot.isFresh_iff (h.ended latest hlast.mem)]
    exact Nat.lt_of_lt_of_le hfresh (Nat.add_le_add_right hdone _)
  · rintro hnone snapshot hheld hfresh
    obtain ⟨latest, states, hlast, hreceives, rfl⟩ := (h.held snapshot).1 hheld
    rw [Snapshot.isFresh_iff (h.ended latest hlast.mem)] at hfresh
    exact hnone ⟨latest, hlast.mem, hlast.holds, hfresh⟩

theorem isServed (h : e.before.Tracks past) (hdoes : e.Does) :
    e.IsServed e.before.istiod e.before.ttl past := by
  cases hdoes with
  | shares snapshot held fresh requests result after =>
    obtain ⟨latest, states, hlast, hreceives, rfl⟩ := (h.held snapshot).1 held
    have hfresh := (Snapshot.isFresh_iff (h.ended latest hlast.mem)).1 fresh
    refine ⟨?_, .inl requests, ?_, ?_, ?_⟩
    · refine iff_of_false (not_not_intro requests) (not_not_intro ?_)
      exact ⟨latest, hlast.mem, hlast.holds, hfresh⟩
    · simp [requests, result]
    · simp [result]
    · intro found hfound
      obtain rfl := Except.ok.inj (result.symm.trans hfound)
      exact ⟨states, .shared latest hlast hreceives hfresh,
        fun _ => Snapshot.find?_file_eq_some_iff⟩
  | fails stale requests failure answer result held later =>
    refine ⟨?_, .inr requests, ?_, fun _ _ => held, ?_⟩
    · exact iff_of_true (by simp [requests]) (h.stale_iff.1 stale)
    · simp [requests, result, answer]
    · simp [result]
  | takes stale requests states answer held result later =>
    have hasked : e.ran.requests ≠ [] := by simp [requests]
    refine ⟨?_, .inr requests, ?_, ?_, ?_⟩
    · exact iff_of_true hasked (h.stale_iff.1 stale)
    · simp [result, answer]
    · simp [result]
    · intro found hfound
      obtain rfl := Except.ok.inj (result.symm.trans hfound)
      exact ⟨states, .received ⟨hasked, answer⟩, fun _ => Snapshot.find?_file_eq_some_iff⟩

theorem after_concat (h : e.before.Tracks past) (hdoes : e.Does) :
    e.after.Tracks (past ++ [e]) := by
  have hover : ∀ b ∈ past, b.done ≤ e.done := fun b hmem =>
    Nat.le_trans (h.ended b hmem) hdoes.called_le_done
  refine ⟨?_, ?_, ?_⟩
  · exact List.pairwise_append.2 ⟨h.ascending, List.pairwise_singleton .., by simpa using hover⟩
  · exact List.forall_mem_append.2 ⟨hover, by simp [Made.done]⟩
  · intro snapshot
    simp only [isLast_concat_iff]
    obtain ⟨hfailed, hheld⟩ | ⟨states, hreceives, hheld⟩ := hdoes.held_after
    · rw [hheld, h.held]
      simp [hfailed]
    · have hsucceeds : e.Succeeds := ⟨states, hreceives⟩
      rw [hheld, Option.some.injEq]
      constructor
      · rintro rfl
        exact ⟨e, states, .inl ⟨rfl, hsucceeds⟩, hreceives, rfl⟩
      · rintro ⟨_, _, ⟨rfl, _⟩ | ⟨hfailed, _⟩, hreceives', rfl⟩
        · obtain rfl := Except.ok.inj (hreceives.2.symm.trans hreceives'.2)
          rfl
        · exact absurd hsucceeds hfailed

/-- The look-ups that follow are served after all that were made before them. -/
theorem isServed_of_history {ls : List LookUp} {before after : List Made} (h : s.Tracks past)
    (hns : Client.isAddress s.istiod.ns = true)
    (hservice : Client.isAddress s.istiod.service = true)
    (hmade : s.history ls = before ++ e :: after) :
    e.IsServed s.istiod s.ttl (past ++ before) := by
  induction ls generalizing s past before with
  | nil => simp [history] at hmade
  | cons l ls ih =>
    have hbefore : (s.make l).before.Tracks past := h.before_make l
    have hdoes : (s.make l).Does := Made.does_of_run rfl rfl hns hservice
    cases before with
    | nil =>
      obtain ⟨rfl, _⟩ := List.cons.inj hmade
      rw [List.append_nil]
      exact hbefore.isServed hdoes
    | cons first before =>
      obtain ⟨rfl, hrest⟩ := List.cons.inj hmade
      rw [List.append_cons]
      have hserved := ih (hbefore.after_concat hdoes) hns hservice hrest
      exact hserved

end Tracks

/-- Look-ups made one after the other, from when nothing is held: each is served by what was made
before it. -/
theorem history_isServed (hnew : s.held = none) (hns : Client.isAddress s.istiod.ns = true)
    (hservice : Client.isAddress s.istiod.service = true) {ls : List LookUp}
    {before after : List Made} {e : Made} (hmade : s.history ls = before ++ e :: after) :
    e.IsServed s.istiod s.ttl before :=
  (Tracks.nil hnew).isServed_of_history hns hservice hmade

/-- The look-ups of two namesakes, one of which is told of twice, and of a pod that is not told of;
between them istiod is gone for once, and then answers what cannot be read. -/
def visits : List LookUp :=
  let answering (text : String) : Server := .ofMembers
    [("syncz", .text text), ("delay_ms", .record [("syncz", .number (.integer false 7))])]
  let states := "[\x7b\"proxy\": \"web.shop\", \"cluster_sent\": \"a\"\x7d, " ++
    "\x7b\"proxy\": \"web.bank\"\x7d, \x7b\"proxy\": \"web.shop\", \"cluster_sent\": \"b\"\x7d]"
  [⟨0, answering states, "shop", "web"⟩, ⟨9, .ofMembers [], "bank", "web"⟩,
    ⟨1, .ofMembers [], "shop", "web"⟩, ⟨0, answering "states", "shop", "web"⟩,
    ⟨0, answering states, "shop", "db"⟩]

def quiet : Session where
  config := {}
  link := none
  ttl := 10
  openshift := false
  cache := { patterns := [] }
  usesCache := false

theorem visits_isServed :
    (quiet.history visits).map (fun e => (e.called, e.done, e.ran.requests.length,
        e.ran.result.toOption.map (·.map (·.clusterSent)))) =
        [(0, 7, 1, some (some "b")), (16, 16, 0, some (some "")), (17, 17, 1, none),
          (17, 24, 1, none), (24, 31, 1, some none)] ∧
      (quiet.history visits)[3].IsServed quiet.istiod 10 ((quiet.history visits).take 3) := by
  have hmade : quiet.history visits = (quiet.history visits).take 3 ++
      (quiet.history visits)[3] :: (quiet.history visits).drop 4 := rfl
  exact ⟨by decide +kernel, history_isServed rfl (by decide) (by decide) hmade⟩

end Session

end WorkloadMap
