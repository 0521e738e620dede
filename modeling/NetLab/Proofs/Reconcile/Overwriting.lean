import NetLab.Proofs.Cluster.Plain
import NetLab.Proofs.Cluster.Versions
import NetLab.Proofs.Drift.Completeness
import NetLab.Proofs.Reconcile.Order
import NetLab.Proofs.Reconcile.Rules

/-!
# What a replace writes over

A pass replaces an object only by what was planned for the last object that it was shown under the
key, and names the version of that one (`Overwriting.contract`).  A server that gives every write a
version of its own refuses this if anyone has written in between.  So a replace that succeeds has
written over exactly the object that the pass compared, and no edit of others is lost
(`Overwriting.replaces_what_was_compared`).
-/

namespace NetLab.Overwriting

open Cluster Kube Program

variable {scope : Scope} {type? : Option WorkloadType} {pass : Pass} {sight : Sight}
  {planned objects : List PlannedObject}

/-! ## What a pass replaces -/

/-- A list shows objects of its kind only, and under a key only one. -/
def Coherent : (call : Call) → call.Answer → Prop
  | .list kind _, .ok items => ∀ item ∈ items, item.kind = kind ∧
      ∀ other ∈ items, other.key = item.key → other = item
  | .list _ _, .error _ | .get _, _ | .create _, _ | .replace _, _ | .delete _, _ => True

/-- A pass replaces only what was shown to it last, and only if that has drifted. -/
def contract (planned : List PlannedObject) : Contract Sight where
  allows sight
    | .replace sent => ∃ p ∈ planned, ∃ live, sight p.key = some live ∧
        p.object.needsUpdate live = true ∧ sent = p.object.update live
    | .list _ _ | .get _ | .create _ | .delete _ => True
  answers sight call answer sight' := Coherent call answer ∧ sight' = sight.after call answer

/-- What a pass takes to be live is what was shown to it last. -/
def Shown (pass : Pass) (sight : Sight) : Prop :=
  ∀ key object, pass.live.get? key = some object → sight key = some object

/-- An answer that shows an object is what the pass takes to be live from then on. -/
theorem Shown.observe {key : Key} {object : Resource} {call : Call} {answer : call.Answer}
    (h : Shown pass sight)
    (hshows : ∀ other, call.shows other answer = if key = other then some object else none) :
    Shown (pass.observe key object) (sight.after call answer) := by
  intro other found hfound
  simp only [Pass.observe_live, SortedMap.get?_insert_ite] at hfound
  simp only [Sight.after, hshows]
  by_cases hkey : other = key
  · subst hkey
    simpa using hfound
  · rw [if_neg hkey] at hfound
    simpa [Ne.symm hkey] using h other found hfound

/-- What is shown of an object that is not taken to be live changes nothing. -/
theorem Shown.other {key : Key} {object : Resource} {call : Call} {answer : call.Answer}
    (h : Shown pass sight) (habsent : pass.live.get? key = none)
    (hshows : ∀ other, call.shows other answer = if key = other then some object else none) :
    Shown pass (sight.after call answer) := by
  intro other found hfound
  have hkey : key ≠ other := by
    rintro rfl
    rw [habsent] at hfound
    cases hfound
  simpa [Sight.after, hshows, hkey] using h other found hfound

theorem meets_adopt {key : Key} (h : Shown pass sight) (habsent : pass.live.get? key = none) :
    (Pass.adopt scope key pass).Meets (contract planned) Shown sight := by
  refine Pass.meets_adopt trivial ?_ ?_ ?_
  · rintro existing _ ⟨-, rfl⟩ -
    exact h.observe fun _ => rfl
  · rintro existing _ ⟨-, rfl⟩ -
    exact h.other habsent fun _ => rfl
  · rintro e _ ⟨-, rfl⟩
    exact h

theorem meets_applyObject {p : PlannedObject} (hmem : p ∈ planned) (h : Shown pass sight) :
    (Pass.applyObject scope type? p pass).Meets (contract planned) Shown sight := by
  refine Pass.meets_applyObject (fun _ _ _ => h) (fun _ habsent => ?_)
    (fun live _ hlive hdrift => ?_) fun _ _ _ _ => h
  · refine Pass.meets_create trivial ?_ ?_ ?_
    · rintro created _ ⟨-, rfl⟩
      exact h.observe fun _ => rfl
    · rintro message _ ⟨-, rfl⟩
      exact meets_adopt h habsent
    · rintro e _ ⟨-, rfl⟩
      exact h
  · refine Pass.meets_replace ⟨p, hmem, live, h _ _ hlive, hdrift, rfl⟩ ?_ ?_ ?_
    · rintro replaced _ ⟨-, rfl⟩
      refine h.observe fun other => ?_
      rw [Call.shows, Resource.update_key]
    · rintro message _ ⟨-, rfl⟩
      exact h
    · rintro e _ ⟨-, rfl⟩
      exact h

theorem meets_applyGroup {owner : String} (hmem : ∀ p ∈ objects, p ∈ planned)
    (h : Shown pass sight) :
    (Pass.applyGroup scope type? owner objects pass).Meets (contract planned) Shown sight := by
  refine Pass.meets_applyGroup (fun _ _ _ => h) (fun _ => h) fun order _ horder => ?_
  refine meets_forEach_mem Shown (fun p hp pass sight hshown => ?_) h
  exact meets_applyObject (hmem p ((PlannedObject.perm_of_applyOrder? horder).mem_iff.1 hp)) hshown

theorem meets_prune :
    (Pass.prune scope pass).Meets (contract planned) (fun _ _ => True) sight := by
  refine meets_forEach_mem (fun _ _ => True) (fun entry _ pass sight _ => ?_) trivial
  exact Pass.meets_delete trivial (fun _ _ => trivial) (fun _ _ _ => trivial)
    fun _ _ _ => trivial

/-- What a list adds to the snapshot is what it shows. -/
theorem shown_addOwned {topology selector : String} {kind : Kind} {rest : List Kind}
    {live : SortedMap Key Resource} {items : List Resource} (h : Shown (Pass.start live) sight)
    (hunlisted : ∀ key object, live.get? key = some object → key.kind ∉ kind :: rest)
    (hcoherent : Coherent (.list kind selector) (.ok items)) :
    Shown (Pass.start (Pass.addOwned topology live items))
      (sight.after (.list kind selector) (.ok items)) := by
  intro key object hget
  simp only [Sight.after, Call.shows]
  rcases Pass.get?_addOwned topology live items key with
    ⟨item, hmem, -, rfl, hitem⟩ | ⟨-, hlive⟩
  · obtain rfl : item = object := Option.some.inj (hitem.symm.trans hget)
    have hfilter : item ∈ items.filter fun other => other.key = item.key :=
      List.mem_filter.2 ⟨hmem, decide_eq_true rfl⟩
    -- Whichever item of the key the list shows last, it is this one.
    obtain ⟨last, hlast⟩ := Option.isSome_iff_exists.1
      (List.getLast?_isSome.2 (List.ne_nil_of_mem hfilter))
    obtain ⟨hlastMem, hlastKey⟩ := List.mem_filter.1 (List.mem_of_getLast? hlast)
    rw [hlast, (hcoherent item hmem).2 last hlastMem (of_decide_eq_true hlastKey)]
    rfl
  · replace hget : live.get? key = some object := hlive.symm.trans hget
    have hnone : (items.filter fun item => item.key = key) = [] := by
      refine List.filter_eq_nil_iff.2 fun item hmem hkey => ?_
      have hkind : key.kind = kind := of_decide_eq_true hkey ▸ (hcoherent item hmem).1
      exact hunlisted key object hget (hkind ▸ List.mem_cons_self)
    rw [hnone]
    exact h key object hget

/-- The snapshot holds nothing of the kinds that are still to be listed. -/
theorem kind_not_mem_of_addOwned {topology selector : String} {kind : Kind} {rest : List Kind}
    {live : SortedMap Key Resource} {items : List Resource} (hfresh : kind ∉ rest)
    (hunlisted : ∀ key object, live.get? key = some object → key.kind ∉ kind :: rest)
    (hcoherent : Coherent (.list kind selector) (.ok items)) {key : Key} {object : Resource}
    (hget : (Pass.addOwned topology live items).get? key = some object) : key.kind ∉ rest := by
  rcases Pass.get?_addOwned topology live items key with ⟨item, hmem, -, rfl, -⟩ | ⟨-, hlive⟩
  · rwa [show item.key.kind = kind from (hcoherent item hmem).1]
  · exact fun hmem => hunlisted key object (hlive.symm.trans hget) (List.mem_cons_of_mem _ hmem)

/-- A pass from its snapshot on, if it lists no kind twice. -/
theorem meets_begin {α : Type} {next : Pass → Program α} (hkinds : scope.kinds.Nodup)
    (h : ∀ live sight, Shown (Pass.start live) sight →
      (next (Pass.start live)).Meets (contract planned) (fun _ _ => True) sight) :
    (Pass.begin scope next).Meets (contract planned) (fun _ _ => True) .none := by
  refine Pass.meets_begin (fun rest live sight => Shown (Pass.start live) sight ∧
    (∀ key object, live.get? key = some object → key.kind ∉ rest) ∧ rest.Nodup) ?_ ?_ ?_ ?_ ?_ ?_
  · exact fun _ _ _ _ _ => trivial
  · rintro kind rest live sight items _ ⟨hshown, hunlisted, hnodup⟩ ⟨hcoherent, rfl⟩
    obtain ⟨hfresh, hrest⟩ := List.nodup_cons.1 hnodup
    exact ⟨shown_addOwned hshown hunlisted hcoherent, fun key object hget =>
      kind_not_mem_of_addOwned hfresh hunlisted hcoherent hget, hrest⟩
  · rintro rest live sight message _ ⟨hshown, hunlisted, hnodup⟩ ⟨-, rfl⟩
    exact ⟨hshown, fun key object hget hmem =>
      hunlisted key object hget (List.mem_cons_of_mem _ hmem), (List.nodup_cons.1 hnodup).2⟩
  · exact fun _ _ _ _ _ _ _ _ => trivial
  · exact fun live sight hstart => h live sight hstart.1
  · refine ⟨fun key object hget => ?_, fun key object hget => ?_, hkinds⟩ <;> cases hget

/-! ## The passes of a topology -/

/-- A pass of a topology in a namespace, with the objects that it is given. -/
inductive PassOver (topology namespaceName : String) :
    List PlannedObject → Program (Except PassError PassReport) → Prop where
  | workloads (plans : SortedMap String NodePlan) : PassOver topology namespaceName
      (NodePlan.allObjects plans) (reconcileWorkloads topology namespaceName plans)
  | policies (policies : List PlannedObject) : PassOver topology namespaceName policies
      (reconcilePolicies topology namespaceName policies)

theorem meets_reconcileWorkloads (topology namespaceName : String)
    (plans : SortedMap String NodePlan) :
    (reconcileWorkloads topology namespaceName plans).Meets
      (contract (NodePlan.allObjects plans)) (fun _ _ => True) .none := by
  unfold reconcileWorkloads
  have hkinds : Kind.workloads.Nodup := by decide
  refine @meets_begin (Scope.workloads topology namespaceName) _ _ _ hkinds
    fun live sight hstart => Pass.meets_workloads ?_
  refine (meets_forEach_mem Shown (fun entry hentry pass sight hshown => ?_) hstart).mono
    fun _ _ _ => meets_prune
  exact meets_applyGroup (fun p hp => List.mem_flatMap.2 ⟨entry, hentry, hp⟩) hshown

theorem meets_reconcilePolicies (topology namespaceName : String)
    (policies : List PlannedObject) :
    (reconcilePolicies topology namespaceName policies).Meets (contract policies)
      (fun _ _ => True) .none := by
  unfold reconcilePolicies
  have hkinds : [Kind.networkPolicy].Nodup := by decide
  refine @meets_begin (Scope.connectivity topology namespaceName) _ _ _ hkinds
    fun live sight hstart => Pass.meets_policies ?_
  exact (meets_applyGroup (fun _ hp => hp) hstart).mono fun _ _ _ => meets_prune

theorem PassOver.meets {topology namespaceName : String}
    {program : Program (Except PassError PassReport)}
    (h : PassOver topology namespaceName planned program) :
    program.Meets (contract planned) (fun _ _ => True) .none := by
  cases h with
  | workloads plans => exact meets_reconcileWorkloads topology namespaceName plans
  | policies => exact meets_reconcilePolicies topology namespaceName planned

/-- Servers are coherent. -/
theorem coherent_of_attempts {server : Server} {s t : Store} {call : Call} {answer : call.Answer}
    (h : server.Attempts s call answer t) : Coherent call answer := by
  cases call with
  | list kind selector =>
    cases answer with
    | error e => exact trivial
    | ok items =>
      rcases h with ⟨hlists, -⟩ | ⟨lost, error, -, hrefused⟩
      · refine fun item hmem => ⟨(server.mem_of_lists hlists item hmem).2, ?_⟩
        intro other hother hkey
        have hitem := (server.mem_of_lists hlists item hmem).1
        have hstored := (server.mem_of_lists hlists other hother).1
        rw [Store.mem_iff, hkey, hitem] at hstored
        exact (Option.some.inj hstored).symm
      · cases hrefused
  | get _ | create _ | replace _ | delete _ => exact trivial

/-- **A pass replaces only what was shown to it last**, and only if that has drifted. -/
theorem exists_shown_of_replace {topology namespaceName : String} {server : Server}
    {program q : Program (Except PassError PassReport)}
    (hpass : PassOver topology namespaceName planned program) {s t : Moment}
    {before later : List (Event Moment)} {sent : Resource} {answer : Except ClusterError Resource}
    {m : Moment} (hreach : program.Reaches server.AttemptsAmong s
      (before ++ ⟨.replace sent, answer, m⟩ :: later) q t) :
    ∃ p ∈ planned, ∃ live, observed before sent.key = some live ∧
      p.object.needsUpdate live = true ∧ sent = p.object.update live := by
  have hstep : ∀ before (event : Event Moment) s sight, sight = observed before →
      server.AttemptsAmong s event.call event.answer event.after →
        ∃ sight', (contract planned).answers sight event.call event.answer sight' ∧
          sight' = observed (before ++ [event]) := by
    rintro before event s _ rfl hanswer
    exact ⟨_, ⟨coherent_of_attempts hanswer.2.1, rfl⟩, (observed_concat before event).symm⟩
  obtain ⟨_, rfl, p, hmem, live, hshown, hdrift, rfl⟩ :=
    hpass.meets.allows_observed _ hstep rfl hreach
  refine ⟨p, hmem, live, ?_, hdrift, rfl⟩
  rwa [Resource.update_key]

/-! ## What is written over -/

section Replace

variable {server : Server} {m : Moment} {live sent : Resource}

/-- **A replace that succeeds writes over the object whose version it names**, if that was shown at
any time before. -/
theorem get?_of_replaced {stored : Resource} (hpins : m.before.Pins live)
    (hkey : live.key = sent.key)
    (hversion : sent.metadata.resourceVersion = live.metadata.resourceVersion)
    (hreplaced : server.Answers m.before.store (.replace sent) (.ok stored) m.after.store) :
    m.before.store.get? sent.key = some live := by
  obtain ⟨⟨current, hcurrent, hsame⟩, -, -⟩ := hreplaced
  rw [hcurrent, hpins.eq_of_version (hkey ▸ hcurrent) (hsame.trans hversion)]

/-- If the object is another one by then, the replace fails and changes nothing. -/
theorem refused_of_stale {answer : Except ClusterError Resource} (hpins : m.before.Pins live)
    (hkey : live.key = sent.key)
    (hversion : sent.metadata.resourceVersion = live.metadata.resourceVersion)
    (hattempts : server.Attempts m.before.store (.replace sent) answer m.after.store)
    (hstale : m.before.store.get? sent.key ≠ some live) :
    (∃ error, answer = .error error) ∧ m.after.store = m.before.store := by
  have hrefused (given : Except ClusterError Resource)
      (hgiven : server.Answers m.before.store (.replace sent) given m.after.store) :
      (∃ error, given = .error error) ∧ m.after.store = m.before.store := by
    cases given with
    | ok stored => exact absurd (get?_of_replaced hpins hkey hversion hgiven) hstale
    | error e => exact ⟨⟨e, rfl⟩, hgiven.2⟩
  rcases hattempts with hanswers | ⟨lost, error, hlost, rfl⟩
  · exact hrefused answer hanswers
  · exact ⟨⟨error, rfl⟩, (hrefused lost hlost).2⟩

end Replace

/-- The server stores the addresses of a Service as it is sent them. -/
def KeepsAddresses (server : Server) : Prop :=
  ∀ sent stored, server.stores sent stored → sent.kind = .service →
    ∀ field ∈ Resource.addressFields, ∀ address,
      (sent.get "spec").get? field = some address → Drift.isSet address = true →
        (stored.get "spec").get? field = some address

/-- A Service that a topology asks for has a spec. -/
theorem hasSpec_of_asksFor {t : Topology} {c : Classifier} {namespaceName : String}
    {object : Resource} (h : t.AsksFor c namespaceName object) (hkind : object.kind = .service) :
    object.HasSpec := by
  cases Requested.of_asksFor h with
  | @service ctx _ _ =>
    have hselector : (ctx.service.get "spec").get "selector" = .ofStringMap ctx.selector := by
      simp [NodeContext.service, Json.get]
    exact Json.exists_object_of_get hselector (by rintro ⟨⟩)
  | configMap _ _ bundle | deployment _ _ bundle? | virtualMachine _ _ defaults bundle?
  | linkPolicy topology node peers | managementPolicy topology => cases hkind

/-- **A replace that loses no update** of others: what it sends was made from a live object, and at
the moment when the server carries it out it can write over no other one. -/
structure LosesNothing (server : Server) (desired live sent : Resource)
    (answer : Except ClusterError Resource) (m : Moment) : Prop where
  drifted : desired.needsUpdate live = true
  sent_eq : sent = desired.update live
  version : sent.metadata.resourceVersion = live.metadata.resourceVersion
  addresses : sent.kind = .service → desired.HasSpec → live.HasSpec →
    ∀ field ∈ Resource.addressFields,
      (sent.get "spec").get? field = (live.get "spec").get? field
  /-- If another object is there by then, or none, the replace fails and changes nothing. -/
  stale : m.before.store.get? sent.key ≠ some live →
    (∃ error, answer = .error error) ∧ m.after.store = m.before.store
  /-- If the replace succeeds, it writes over the live object. -/
  overwritten : ∀ stored, server.Answers m.before.store (.replace sent) (.ok stored) m.after.store →
    m.before.store.get? sent.key = some live
  /-- No address of a Service is changed or dropped. -/
  kept : ∀ stored, server.Answers m.before.store (.replace sent) (.ok stored) m.after.store →
    sent.kind = .service → desired.HasSpec → ∀ field ∈ Resource.addressFields, ∀ address,
      (live.get "spec").get? field = some address → Drift.isSet address = true →
        (stored.get "spec").get? field = some address

theorem losesNothing {server : Server} {desired live sent : Resource}
    {answer : Except ClusterError Resource} {m : Moment} (hkeeps : KeepsAddresses server)
    (hdrift : desired.needsUpdate live = true) (hsent : sent = desired.update live)
    (hkey : live.key = sent.key) (hpins : m.before.Pins live)
    (hattempts : server.Attempts m.before.store (.replace sent) answer m.after.store) :
    LosesNothing server desired live sent answer m := by
  have hversion : sent.metadata.resourceVersion = live.metadata.resourceVersion := by
    rw [hsent, Resource.update_metadata]
  have haddresses : sent.kind = .service → desired.HasSpec → live.HasSpec →
      ∀ field ∈ Resource.addressFields,
        (sent.get "spec").get? field = (live.get "spec").get? field := by
    intro hkind hspec hlive field hfield
    have hlivekind : live.kind = .service := (congrArg Key.kind hkey).trans hkind
    rw [hsent, Resource.update_kind] at hkind
    rw [hsent]
    exact Resource.get?_spec_update hkind hlivekind hspec hlive hfield
  refine ⟨hdrift, hsent, hversion, haddresses, refused_of_stale hpins hkey hversion hattempts,
    fun stored => get?_of_replaced hpins hkey hversion, ?_⟩
  intro stored hreplaced hkind hspec field hfield address haddress hset
  have hlive : live.HasSpec :=
    Json.exists_object_of_get (Json.get_eq_of_get? haddress) (by rintro rfl; cases hset)
  exact hkeeps sent stored hreplaced.2.1 hkind field hfield address
    ((haddresses hkind hspec hlive field hfield).trans haddress) hset

/-- **No update is lost.**  Whoever writes between the calls of a pass: every replace of the pass
sends a planned object for the last object that the pass was shown under the key, and can write over
no other one.  The Services among the planned objects that a topology asks for have a spec, so they
keep their addresses. -/
theorem replaces_what_was_compared {server : Server} (hkeeps : KeepsAddresses server)
    {topology namespaceName : String} {program q : Program (Except PassError PassReport)}
    (hpass : PassOver topology namespaceName planned program) {s t : Moment}
    (hsound : s.after.Sound) {before later : List (Event Moment)} {sent : Resource}
    {answer : Except ClusterError Resource} {m : Moment}
    (hreach : program.Reaches server.AttemptsAmong s
      (before ++ ⟨.replace sent, answer, m⟩ :: later) q t) :
    ∃ p ∈ planned, ∃ live, observed before sent.key = some live ∧
      LosesNothing server p.object live sent answer m ∧
      ∀ t c, Topology.AsksFor t c namespaceName p.object → p.object.kind = .service →
        p.object.HasSpec := by
  obtain ⟨p, hmem, live, hshown, hdrift, hsent⟩ := exists_shown_of_replace hpass hreach
  -- What was shown before the call is pinned when the call is carried out.
  obtain ⟨_, u, hbefore, hrest⟩ := hreach.split
  obtain ⟨hbacks, hattempts⟩ : m.before.Backs (observed before) ∧
      server.Attempts m.before.store (.replace sent) answer m.after.store := by
    cases hrest with
    | call hanswer _ => exact ⟨((hbefore.backs hsound).attempt hanswer).1, hanswer.2.1⟩
  obtain ⟨hkey, hpins⟩ := hbacks.pins _ _ hshown
  exact ⟨p, hmem, live, hshown, losesNothing hkeeps hdrift hsent hkey hpins hattempts,
    fun t c => hasSpec_of_asksFor⟩

/-! A Service whose selector was edited, while somebody else writes a ConfigMap. -/

theorem plain_keepsAddresses (refuses : Store → Call → ClusterError → Prop) :
    KeepsAddresses (.plain refuses) := by
  rintro sent stored ⟨version, rfl⟩ - field - address haddress -
  exact haddress

/-- The Service of the node `r1` with the given selector, and other fields of its spec. -/
def nodeService (version : Option String) (selected : String) (fields : List (String × Json)) :
    Resource :=
  (labelled .service "lab-r1" "lab").withVersion version |>.set "spec"
    (.ofMembers (("selector", .ofMembers [("node", .string selected)]) :: fields))

def plannedService : Resource := nodeService none "r1" []

def editedService : Resource := nodeService (some "1") "r2" [("clusterIP", .string "10.0.0.7")]

def repairedService : Resource := nodeService (some "3") "r1" [("clusterIP", .string "10.0.0.7")]

def servicePlans : SortedMap String NodePlan :=
  .ofList [("r1", ⟨.container, [.free plannedService]⟩)]

/-- The edited Service, as the pass finds it. -/
def atStart : Ledger := ⟨.ofList [editedService], (· = "1")⟩

/-- After the write of somebody else. -/
def amidst : Ledger :=
  ⟨atStart.store.insert ((labelled .configMap "other" "else").withVersion (some "2")),
    fun version => atStart.given version ∨ version = "2"⟩

def atEnd : Ledger :=
  ⟨amidst.store.insert repairedService, fun version => amidst.given version ∨ version = "3"⟩

theorem atStart_sound : atStart.Sound := by
  intro object hmem
  obtain rfl : object = editedService := by
    simpa [atStart] using Store.mem_of_mem_ofList hmem
  exact ⟨"1", rfl, rfl⟩

/-- The server writes over the edited Service, as it has the version that the call names. -/
theorem answers_repaired : (Server.plain fun _ _ _ => False).Answers amidst.store
    (.replace (plannedService.update editedService)) (.ok repairedService) atEnd.store := by
  refine ⟨⟨editedService, ?_, ?_⟩, ⟨"3", ?_⟩, rfl⟩ <;> decide +kernel

/-- The pass lists the edited Service, and replaces it after the write of somebody else. -/
theorem repairing_run : ∃ before q,
    (reconcileWorkloads "lab" "sim" servicePlans).Reaches
        (Server.plain fun _ _ _ => False).AttemptsAmong ⟨atStart, atStart⟩
        (before ++ [⟨.replace (plannedService.update editedService), .ok repairedService,
          ⟨amidst, atEnd⟩⟩]) q ⟨amidst, atEnd⟩ ∧
      observed before editedService.key = some editedService := by
  have hlists (kind : Kind) (items : List Resource)
      (hitems : items = Server.selected atStart.store kind (Labels.ownerSelector "lab")) :
      (Server.plain fun _ _ _ => False).AttemptsAmong ⟨atStart, atStart⟩
        (.list kind (Labels.ownerSelector "lab")) (.ok items) ⟨atStart, atStart⟩ :=
    ⟨.refl, .inl ⟨hitems, rfl⟩, .inl rfl⟩
  have hreplaced : (Server.plain fun _ _ _ => False).AttemptsAmong ⟨atStart, atStart⟩
      (.replace (plannedService.update editedService)) (.ok repairedService) ⟨amidst, atEnd⟩ := by
    have hother : ¬ atStart.given "2" := by
      change ¬ "2" = "1"
      decide
    have hown : ¬ amidst.given "3" := by
      change ¬ ("3" = "1" ∨ "3" = "2")
      decide
    exact ⟨.single (.write rfl hother), .inl answers_repaired, .inr (.write rfl hown)⟩
  have started : (reconcileWorkloads "lab" "sim" servicePlans).Reaches
      (Server.plain fun _ _ _ => False).AttemptsAmong ⟨atStart, atStart⟩ [] _ ⟨atStart, atStart⟩ :=
    .here _ _
  have deployments := started.snoc (.list .deployment _) (.ok []) rfl
    (hlists .deployment [] (by decide +kernel))
  have services := deployments.snoc (.list .service _) (.ok [editedService]) rfl
    (hlists .service _ (by decide +kernel))
  have configMaps := services.snoc (.list .configMap _) (.ok []) rfl
    (hlists .configMap [] (by decide +kernel))
  have machines := configMaps.snoc (.list .virtualMachine _) (.ok []) rfl
    (hlists .virtualMachine [] (by decide +kernel))
  -- The order of applying is found by well-founded recursion, which `rfl` alone does not unfold.
  have replaced := machines.snoc (.replace (plannedService.update editedService))
    (.ok repairedService) (by with_unfolding_all rfl) hreplaced
  exact ⟨_, _, replaced, by decide +kernel⟩

/-- The replace of the edited Service loses nothing: it keeps the address that is in it. -/
theorem edited_service_keeps_address :
    LosesNothing (.plain fun _ _ _ => False) plannedService editedService
        (plannedService.update editedService) (.ok repairedService) ⟨amidst, atEnd⟩ ∧
      (repairedService.get "spec").get? "clusterIP" = some (.string "10.0.0.7") := by
  obtain ⟨before, q, hreach, hobserved⟩ := repairing_run
  obtain ⟨p, hp, live, hshown, hloses, -⟩ := replaces_what_was_compared (plain_keepsAddresses _)
    (.workloads servicePlans) atStart_sound hreach
  have hobjects : NodePlan.allObjects servicePlans = [.free plannedService] := rfl
  obtain rfl : p = .free plannedService := by simpa [hobjects] using hp
  have hkey : (plannedService.update editedService).key = editedService.key := by decide +kernel
  rw [hkey, hobserved] at hshown
  obtain rfl : editedService = live := Option.some.inj hshown
  have haddress : (editedService.get "spec").get? "clusterIP" = some (.string "10.0.0.7") := by
    decide +kernel
  exact ⟨hloses, hloses.kept _ answers_repaired (by decide +kernel) ⟨_, rfl⟩ "clusterIP"
    (by decide) _ haddress rfl⟩

end NetLab.Overwriting
