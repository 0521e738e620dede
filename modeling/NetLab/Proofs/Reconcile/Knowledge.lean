import NetLab.Proofs.Reconcile.Groups

/-!
# What a pass knows

A pass takes an object to be there because an answer has said so: the object was listed as one of
the topology, it was created or replaced, or it was read back as one of the topology after its
creation had failed because it existed.  What the last such answer has established under a key is
`known`.

In the course of a pass the live objects are exactly what is known, and what counts as in order is
there (`Tracks`).  So it depends on the answers alone whether a dependency exists
(`Tracks.exists?_iff`).
-/

namespace NetLab

open Cluster Kube Program

/-- What an answer establishes under a key: an object that is there as one of the topology. -/
def Cluster.Call.establishes (topology : String) (key : Key) :
    (call : Call) → call.Answer → Option Resource
  | .list _ _, .ok items =>
    (items.filter fun item => item.ownedBy topology && item.key = key).getLast?
  | .get asked, .ok found =>
    if asked = key ∧ found.ownedBy topology = true then some found else none
  | .create sent, .ok stored | .replace sent, .ok stored =>
    if sent.key = key then some stored else none
  | .delete _, _ | .list _ _, .error _ | .get _, .error _ | .create _, .error _
  | .replace _, .error _ => none

/-- The object that was established last under a key. -/
def known (topology : String) (done : History) (key : Key) : Option Resource :=
  done.foldl (fun known exchange => (exchange.1.establishes topology key exchange.2).or known) none

/-- Some answer has established an object under the key. -/
def There (topology : String) (done : History) (key : Key) : Prop :=
  ∃ exchange ∈ done, ∃ object, exchange.1.establishes topology key exchange.2 = some object

variable {topology : String} {done more : History} {key : Key}

@[simp]
theorem known_nil : known topology [] key = none := rfl

@[simp]
theorem known_concat (exchange : Exchange) : known topology (done ++ [exchange]) key =
    (exchange.1.establishes topology key exchange.2).or (known topology done key) := by
  simp [known]

/-- What is established later counts. -/
theorem known_append : known topology (done ++ more) key =
    (known topology more key).or (known topology done key) := by
  induction more using List.reverseRecOn with
  | nil => simp
  | append_singleton more exchange ih =>
    rw [← List.append_assoc, known_concat, ih, known_concat, Option.or_assoc]

theorem there_iff : There topology done key ↔ ∃ object, known topology done key = some object := by
  induction done using List.reverseRecOn with
  | nil => simp [There]
  | append_singleton done exchange ih =>
    rw [known_concat]
    cases hest : exchange.1.establishes topology key exchange.2 with
    | some object => simp [There, hest]
    | none => simpa [There, hest] using ih

/-- What is known was established. -/
theorem exists_of_known {object : Resource} (h : known topology done key = some object) :
    ∃ exchange ∈ done, exchange.1.establishes topology key exchange.2 = some object := by
  induction done using List.reverseRecOn with
  | nil => cases h
  | append_singleton done exchange ih =>
    rw [known_concat] at h
    rcases Option.or_eq_some_iff.1 h with hlast | ⟨-, hearlier⟩
    · exact ⟨exchange, List.mem_concat_self, hlast⟩
    · obtain ⟨other, hmem, hest⟩ := ih hearlier
      exact ⟨other, List.mem_append_left _ hmem, hest⟩

theorem not_there_iff : ¬ There topology done key ↔ known topology done key = none := by
  rw [there_iff, Option.eq_none_iff_forall_ne_some, not_exists]

/-- What is there stays there, as far as a pass can tell. -/
theorem There.mono (h : There topology done key) (hsub : ∀ exchange ∈ done, exchange ∈ more) :
    There topology more key := by
  obtain ⟨exchange, hmem, hest⟩ := h
  exact ⟨exchange, hsub exchange hmem, hest⟩

/-- What is there was established for a first time. -/
theorem There.exists_first (h : There topology done key) : ∃ before exchange after object,
    done = before ++ exchange :: after ∧ ¬ There topology before key ∧
      exchange.1.establishes topology key exchange.2 = some object := by
  induction done using List.reverseRecOn with
  | nil =>
    obtain ⟨exchange, hmem, -⟩ := h
    cases hmem
  | append_singleton done last ih =>
    by_cases hearlier : There topology done key
    · obtain ⟨before, exchange, after, object, rfl, hfirst, hest⟩ := ih hearlier
      exact ⟨before, exchange, after ++ [last], object, by simp, hfirst, hest⟩
    · obtain ⟨exchange, hmem, object, hest⟩ := h
      rcases List.mem_append.1 hmem with hdone | hlast
      · exact absurd ⟨exchange, hdone, object, hest⟩ hearlier
      · obtain rfl := List.mem_singleton.1 hlast
        exact ⟨done, exchange, [], object, rfl, hearlier, hest⟩

/-- **How an object is established** under a key. -/
inductive Evidence (topology : String) (key : Key) : Exchange → Resource → Prop where
  | listed {kind : Kind} {selector : String} {items : List Resource} {object : Resource}
      (hmem : object ∈ items) (hown : object.ownedBy topology = true) (hkey : object.key = key) :
      Evidence topology key ⟨.list kind selector, .ok items⟩ object
  | read {object : Resource} (hown : object.ownedBy topology = true) :
      Evidence topology key ⟨.get key, .ok object⟩ object
  | created {sent object : Resource} (hkey : sent.key = key) :
      Evidence topology key ⟨.create sent, .ok object⟩ object
  | replaced {sent object : Resource} (hkey : sent.key = key) :
      Evidence topology key ⟨.replace sent, .ok object⟩ object

theorem Evidence.of_establishes {exchange : Exchange} {object : Resource}
    (h : exchange.1.establishes topology key exchange.2 = some object) :
    Evidence topology key exchange object := by
  obtain ⟨call, answer⟩ := exchange
  cases call with
  | list kind selector =>
    cases answer with
    | error e => cases h
    | ok items =>
      obtain ⟨hmem, hfine⟩ := List.mem_filter.1 (List.mem_of_getLast? h)
      obtain ⟨hown, hkey⟩ := Bool.and_eq_true_iff.1 hfine
      exact .listed hmem hown (of_decide_eq_true hkey)
  | get asked =>
    cases answer with
    | error e => cases h
    | ok found =>
      obtain ⟨⟨rfl, hown⟩, heq⟩ := Option.ite_none_right_eq_some.1 h
      obtain rfl := Option.some.inj heq
      exact .read hown
  | create sent =>
    cases answer with
    | error e => cases h
    | ok stored =>
      obtain ⟨hkey, heq⟩ := Option.ite_none_right_eq_some.1 h
      obtain rfl := Option.some.inj heq
      exact .created hkey
  | replace sent =>
    cases answer with
    | error e => cases h
    | ok stored =>
      obtain ⟨hkey, heq⟩ := Option.ite_none_right_eq_some.1 h
      obtain rfl := Option.some.inj heq
      exact .replaced hkey
  | delete asked => cases h

/-- Calls that establish nothing leave what is known. -/
theorem known_of_silent
    (h : ∀ exchange ∈ more, exchange.1.establishes topology key exchange.2 = none) :
    known topology (done ++ more) key = known topology done key := by
  have hnone : known topology more key = none := by
    rw [← not_there_iff]
    rintro ⟨exchange, hmem, object, hest⟩
    rw [h exchange hmem] at hest
    cases hest
  rw [known_append, hnone, Option.none_or]

/-! ## Snapshots -/

/-- A list adds to a snapshot what it establishes. -/
theorem get?_addOwned_eq (live : SortedMap Key Resource) (items : List Resource) :
    (Pass.addOwned topology live items).get? key =
      (items.filter fun item => item.ownedBy topology && item.key = key).getLast?.or
        (live.get? key) := by
  induction items using List.reverseRecOn with
  | nil => rfl
  | append_singleton items item ih =>
    have hstep : Pass.addOwned topology live (items ++ [item]) =
        if item.ownedBy topology then (Pass.addOwned topology live items).insert item.key item
        else Pass.addOwned topology live items := by
      unfold Pass.addOwned
      by_cases hown : item.ownedBy topology = true <;> simp [hown]
    rw [hstep]
    by_cases hown : item.ownedBy topology = true
    · by_cases hkey : item.key = key
      · simp [hown, hkey]
      · simp [hown, hkey, Ne.symm hkey, ih]
    · simp [hown, ih]

/-- **A snapshot is what its lists have established.** -/
theorem get?_snapshotOf {lists : History} (h : ∀ exchange ∈ lists, exchange.1.key? = none) :
    (snapshotOf topology lists).get? key = known topology lists key := by
  induction lists using List.reverseRecOn with
  | nil => rfl
  | append_singleton lists exchange ih =>
    obtain ⟨hlists, hlast⟩ := List.forall_mem_append.1 h
    rw [snapshotOf_concat, get?_addOwned_eq, known_concat, ih hlists]
    obtain ⟨call, answer⟩ := exchange
    cases call with
    | list kind selector => cases answer <;> rfl
    | get _ | create _ | replace _ | delete _ => cases hlast _ List.mem_cons_self

theorem Snapshot.key?_eq_none {scope : Scope} {lists : History} (h : Snapshot scope lists) :
    ∀ exchange ∈ lists, exchange.1.key? = none := by
  intro exchange hmem
  obtain ⟨kind, -, hlist⟩ := h.exists_list hmem
  rw [hlist]
  rfl

/-! ## Passes -/

/-- **A pass goes by what it knows.** -/
structure Tracks (topology : String) (pass : Pass) (done : History) : Prop where
  live : ∀ key, pass.live.get? key = known topology done key
  ready : ∀ key ∈ pass.ready, There topology done key

theorem tracks_start {scope : Scope} {lists : History} (h : Snapshot scope lists) :
    Tracks scope.topology (Pass.start (snapshotOf scope.topology lists)) lists where
  live _ := get?_snapshotOf h.key?_eq_none
  ready _ hmem := (List.not_mem_nil hmem).elim

namespace Tracks

variable {pass : Pass}

/-- An object exists for a pass exactly if some answer has established it. -/
theorem exists?_iff (h : Tracks topology pass done) :
    pass.exists? key = true ↔ There topology done key := by
  rw [Pass.exists?_iff, h.live key, ← there_iff]
  exact or_iff_right_of_imp (h.ready key)

theorem exists?_eq_false_iff (h : Tracks topology pass done) :
    pass.exists? key = false ↔ ¬ There topology done key := by
  rw [← h.exists?_iff, Bool.not_eq_true]

theorem congr {pass' : Pass} (h : Tracks topology pass done) (hlive : pass'.live = pass.live)
    (hready : pass'.ready = pass.ready) : Tracks topology pass' done where
  live key := hlive ▸ h.live key
  ready key hmem := h.ready key (hready ▸ hmem)

theorem fail (h : Tracks topology pass done) (error : ResourceError) :
    Tracks topology (pass.fail error) done :=
  h.congr rfl rfl

theorem record (h : Tracks topology pass done) (action : Action) (change : Change) :
    Tracks topology (pass.record action change) done :=
  h.congr (Pass.record_live ..) (Pass.record_ready ..)

theorem markReady (h : Tracks topology pass done) (hthere : There topology done key) :
    Tracks topology (pass.markReady key) done where
  live := h.live
  ready := List.forall_mem_cons.2 ⟨hthere, h.ready⟩

/-- A call that establishes nothing. -/
theorem silent (h : Tracks topology pass done) (exchange : Exchange)
    (hsilent : ∀ key, exchange.1.establishes topology key exchange.2 = none) :
    Tracks topology pass (done ++ [exchange]) where
  live key := by rw [known_concat, hsilent key, Option.none_or, h.live key]
  ready key hmem := (h.ready key hmem).mono fun _ => List.mem_append_left _

/-- A call that establishes the object of one key. -/
theorem observe (h : Tracks topology pass done) (key : Key) (object : Resource)
    (exchange : Exchange) (hest : ∀ other, exchange.1.establishes topology other exchange.2 =
      if key = other then some object else none) :
    Tracks topology ((pass.observe key object).markReady key) (done ++ [exchange]) := by
  refine markReady ⟨fun other => ?_, fun other hmem => ?_⟩ ?_
  · rw [Pass.observe_live, SortedMap.get?_insert_ite, known_concat, hest other, h.live other]
    by_cases hkey : key = other
    · simp [hkey]
    · simp [hkey, Ne.symm hkey]
  · exact (h.ready other hmem).mono fun _ => List.mem_append_left _
  · exact ⟨exchange, List.mem_concat_self, object, by rw [hest key, if_pos rfl]⟩

end Tracks

end NetLab
