import Mathlib.Data.List.Forall2
import NetLab.Proofs.Maps
import NetLab.Proofs.Topology.Endpoints

/-!
# Which links pass the check

The check of a topology goes through its links twice: first every link has to be a pair of endpoints,
then every endpoint has to belong to a node and to one link only.  The links pass exactly if they join
pairs of which this is so (`Topology.WellLinked`), and otherwise the first fault is reported, that of
a link before that of an endpoint (`Topology.FirstLinkFault`).

Both times the argument is the same: some beginning of the list is without fault, and the check gets
through that beginning.  For the endpoints it has to remember those before, except the attachments to
the host, which may be used any number of times (`Topology.Remembers`).
-/

namespace NetLab.Topology

/-! ## Links without fault -/

/-- The name is that of a declared node, or stands for an attachment to the host. -/
def Known (t : Topology) (node : String) : Prop :=
  node ∈ specialNodes ∨ t.nodes.contains node = true

/-- **Endpoints without fault**: each belongs to a node that is known, and none that belongs to a node
proper occurs twice. -/
structure Sound (t : Topology) (endpoints : List Endpoint) : Prop where
  known : ∀ e ∈ endpoints, t.Known e.node
  once : ∀ e : Endpoint, e.node ∉ specialNodes → endpoints.count e ≤ 1

/-- **Links without fault**: each joins two endpoints, and the endpoints of all of them together are
without fault. -/
def WellLinked (t : Topology) : Prop :=
  ∃ pairs, List.Forall₂ Link.Joins t.links pairs ∧ t.Sound (endpointsOf pairs)

/-! ## Faults -/

/-- What is wrong with an endpoint, after others that are without fault. -/
inductive EndpointFault (t : Topology) (earlier : List Endpoint) (e : Endpoint) : LinkError → Prop
  | unknown (hunknown : ¬ t.Known e.node) : EndpointFault t earlier e (.unknownNode e.node)
  | duplicate (hknown : t.Known e.node) (hproper : e.node ∉ specialNodes) (hused : e ∈ earlier) :
      EndpointFault t earlier e (.duplicateInterface e)

/-- **The first fault of the links.**  That of an endpoint counts only if every link is a pair. -/
inductive FirstLinkFault (t : Topology) : LinkError → Prop
  | malformed {before after : List Link} {link : Link} {text : String}
      (hlinks : t.links = before ++ link :: after)
      (hbefore : ∀ earlier ∈ before, ∃ joined, earlier.Joins joined)
      (hbad : link.Malformed text) : FirstLinkFault t (.malformed text)
  | endpoint {pairs : List (Endpoint × Endpoint)} {before after : List Endpoint} {e : Endpoint}
      {error : LinkError} (hjoins : List.Forall₂ Link.Joins t.links pairs)
      (hends : endpointsOf pairs = before ++ e :: after) (hbefore : t.Sound before)
      (hfault : t.EndpointFault before e error) : FirstLinkFault t error

variable {t : Topology} {endpoints earlier before : List Endpoint} {e : Endpoint}
  {error : LinkError}

theorem sound_nil (t : Topology) : t.Sound [] := ⟨nofun, fun _ _ => Nat.zero_le 1⟩

theorem sound_concat : t.Sound (endpoints ++ [e]) ↔
    t.Sound endpoints ∧ t.Known e.node ∧ (e ∈ endpoints → e.node ∈ specialNodes) := by
  constructor
  · rintro ⟨hknown, honce⟩
    refine ⟨⟨fun x hmem => hknown x (List.mem_append_left _ hmem), fun x hx => ?_⟩,
      hknown e List.mem_concat_self, fun hmem => ?_⟩
    · have htwice := honce x hx
      rw [List.count_append] at htwice
      omega
    · by_contra hproper
      have htwice := honce e hproper
      have hused := List.count_pos_iff.2 hmem
      rw [List.count_append, List.count_singleton_self] at htwice
      omega
  · rintro ⟨⟨hknown, honce⟩, hnode, hfresh⟩
    refine ⟨fun x hmem => ?_, fun x hx => ?_⟩
    · rcases List.mem_append.1 hmem with hmem | hmem
      · exact hknown x hmem
      · rwa [List.mem_singleton.1 hmem]
    · rw [List.count_append]
      by_cases heq : e = x
      · subst heq
        have hunused := List.count_eq_zero.2 fun hmem => hx (hfresh hmem)
        rw [hunused, List.count_singleton_self]
      · rw [List.count_singleton, if_neg (by simpa using heq)]
        exact honce x hx

theorem Sound.of_append {after : List Endpoint} (h : t.Sound (endpoints ++ after)) :
    t.Sound endpoints where
  known x hmem := h.known x (List.mem_append_left _ hmem)
  once x hx := by
    have htwice := h.once x hx
    rw [List.count_append] at htwice
    omega

/-- An endpoint is spoilt by a fault, and by nothing else. -/
theorem not_sound_concat_iff (hearlier : t.Sound earlier) :
    ¬ t.Sound (earlier ++ [e]) ↔ ∃ error, t.EndpointFault earlier e error := by
  rw [sound_concat]
  constructor
  · intro h
    by_cases hknown : t.Known e.node
    · by_cases hmem : e ∈ earlier
      · exact ⟨_, .duplicate hknown (fun hproper => h ⟨hearlier, hknown, fun _ => hproper⟩) hmem⟩
      · exact absurd ⟨hearlier, hknown, fun hused => absurd hused hmem⟩ h
    · exact ⟨_, .unknown hknown⟩
  · rintro ⟨error, hfault⟩ ⟨-, hknown, hfresh⟩
    cases hfault with
    | unknown hunknown => exact hunknown hknown
    | duplicate _ hproper hused => exact hproper (hfresh hused)

/-! ## Checking endpoints -/

/-- The check remembers the endpoints before, but for the attachments to the host. -/
def Remembers (used earlier : List Endpoint) : Prop :=
  ∀ e : Endpoint, e ∈ used ↔ e ∈ earlier ∧ e.node ∉ specialNodes

theorem remembers_nil : Remembers [] [] := by
  simp [Remembers]

variable {used : List Endpoint}

/-- The check passes over an endpoint that spoils nothing, and remembers it. -/
theorem checkEndpoints_cons_of_sound (hused : Remembers used earlier)
    (h : t.Sound (earlier ++ [e])) (rest : List Endpoint) :
    ∃ used', Remembers used' (earlier ++ [e]) ∧
      t.checkEndpoints used (e :: rest) = t.checkEndpoints used' rest := by
  obtain ⟨-, hknown, hfresh⟩ := sound_concat.1 h
  by_cases hspecial : e.node ∈ specialNodes
  · refine ⟨used, fun x => ?_, by simp [checkEndpoints, hspecial]⟩
    rw [hused x, List.mem_append, List.mem_singleton]
    constructor
    · exact fun ⟨hmem, hx⟩ => ⟨Or.inl hmem, hx⟩
    · rintro ⟨hmem | rfl, hx⟩
      · exact ⟨hmem, hx⟩
      · exact absurd hspecial hx
  · have hunused : e ∉ used := fun hmem => hspecial (hfresh ((hused e).1 hmem).1)
    have hdeclared := hknown.resolve_left hspecial
    refine ⟨e :: used, fun x => ?_, by simp [checkEndpoints, hspecial, hdeclared, hunused]⟩
    rw [List.mem_cons, hused x, List.mem_append, List.mem_singleton]
    constructor
    · rintro (rfl | ⟨hmem, hx⟩)
      · exact ⟨Or.inr rfl, hspecial⟩
      · exact ⟨Or.inl hmem, hx⟩
    · rintro ⟨hmem | rfl, hx⟩
      · exact Or.inr ⟨hmem, hx⟩
      · exact Or.inl rfl

/-- A fault at the next endpoint is what is reported. -/
theorem checkEndpoints_cons_of_fault (hused : Remembers used earlier)
    (hfault : t.EndpointFault earlier e error) (rest : List Endpoint) :
    t.checkEndpoints used (e :: rest) = .error error := by
  cases hfault with
  | unknown hunknown =>
    obtain ⟨hspecial, hdeclared⟩ := not_or.1 hunknown
    simp [checkEndpoints, hspecial, hdeclared]
  | duplicate hknown hproper hmem =>
    have hdeclared := hknown.resolve_left hproper
    have hagain : e ∈ used := (hused e).2 ⟨hmem, hproper⟩
    simp [checkEndpoints, hproper, hdeclared, hagain]

/-- Endpoints without fault pass. -/
theorem checkEndpoints_of_sound (hused : Remembers used earlier)
    (h : t.Sound (earlier ++ endpoints)) : t.checkEndpoints used endpoints = .ok () := by
  induction endpoints generalizing used earlier with
  | nil => rfl
  | cons e rest ih =>
    rw [List.append_cons] at h
    obtain ⟨used', hused', hcons⟩ := checkEndpoints_cons_of_sound hused h.of_append rest
    rw [hcons]
    exact ih hused' h

/-- The first fault is what is reported. -/
theorem checkEndpoints_of_fault (hused : Remembers used earlier)
    (hbefore : t.Sound (earlier ++ before)) (hfault : t.EndpointFault (earlier ++ before) e error)
    (after : List Endpoint) : t.checkEndpoints used (before ++ e :: after) = .error error := by
  induction before generalizing used earlier with
  | nil =>
    rw [List.append_nil] at hfault
    exact checkEndpoints_cons_of_fault hused hfault after
  | cons head before ih =>
    rw [List.append_cons] at hbefore hfault
    obtain ⟨used', hused', hcons⟩ := checkEndpoints_cons_of_sound hused hbefore.of_append
      (before ++ e :: after)
    rw [List.cons_append, hcons]
    exact ih hused' hbefore hfault

/-! ## Reading links -/

variable {links : List Link} {pairs : List (Endpoint × Endpoint)}

theorem mapM_pair_of_joins (h : List.Forall₂ Link.Joins links pairs) :
    links.mapM Link.pair = .ok pairs := by
  induction h with
  | nil => rfl
  | cons hjoins _ ih => simp [List.mapM_cons, hjoins.pair_eq, ih, bind, Except.bind, pure, Except.pure]

theorem mapM_pair_of_malformed {before after : List Link} {link : Link} {text : String}
    (hbefore : ∀ earlier ∈ before, ∃ joined, earlier.Joins joined) (hbad : link.Malformed text) :
    (before ++ link :: after).mapM Link.pair = .error (.malformed text) := by
  induction before with
  | nil => simp [List.mapM_cons, hbad.pair_eq, bind, Except.bind]
  | cons head before ih =>
    obtain ⟨⟨joined, hjoins⟩, hrest⟩ := List.forall_mem_cons.1 hbefore
    simp [List.mapM_cons, hjoins.pair_eq, ih hrest, bind, Except.bind]

theorem filterMap_pair?_of_joins (h : List.Forall₂ Link.Joins links pairs) :
    links.filterMap Link.pair? = pairs := by
  induction h with
  | nil => rfl
  | cons hjoins _ ih => rw [List.filterMap_cons_some hjoins.pair?_eq, ih]

/-- Links join a list of pairs if each of them joins one. -/
theorem exists_forall₂_joins_iff : (∃ pairs, List.Forall₂ Link.Joins links pairs) ↔
    ∀ link ∈ links, ∃ joined, link.Joins joined := by
  induction links with
  | nil => exact ⟨fun _ => nofun, fun _ => ⟨[], .nil⟩⟩
  | cons link rest ih =>
    rw [List.forall_mem_cons, ← ih]
    constructor
    · rintro ⟨_, hjoins | ⟨hjoins, hrest⟩⟩
      exact ⟨⟨_, hjoins⟩, _, hrest⟩
    · rintro ⟨⟨joined, hjoins⟩, pairs, hpairs⟩
      exact ⟨joined :: pairs, .cons hjoins hpairs⟩

/-! ## The whole check -/

theorem check_of_wellLinked (h : t.WellLinked) : t.check = .ok () := by
  obtain ⟨pairs, hjoins, hsound⟩ := h
  have hends : t.checkEndpoints [] (endpointsOf pairs) = .ok () :=
    checkEndpoints_of_sound remembers_nil hsound
  rw [check, mapM_pair_of_joins hjoins]
  exact hends

theorem check_of_firstLinkFault (h : t.FirstLinkFault error) : t.check = .error error := by
  cases h with
  | malformed hlinks hbefore hbad =>
    rw [check, hlinks, mapM_pair_of_malformed hbefore hbad]
    rfl
  | endpoint hjoins hends hbefore hfault =>
    rw [check, mapM_pair_of_joins hjoins]
    change t.checkEndpoints [] (endpointsOf _) = .error error
    rw [hends]
    exact checkEndpoints_of_fault remembers_nil hbefore hfault _

/-- Links are without fault, or have a first one. -/
theorem wellLinked_or_firstLinkFault (t : Topology) :
    t.WellLinked ∨ ∃ error, t.FirstLinkFault error := by
  rcases holds_or_first_fault (fun links => ∀ link ∈ links, ∃ joined, link.Joins joined) nofun
    t.links with hlinks | ⟨before, link, after, hsplit, hbefore, hspoilt⟩
  · obtain ⟨pairs, hjoins⟩ := exists_forall₂_joins_iff.2 hlinks
    rcases holds_or_first_fault t.Sound t.sound_nil (endpointsOf pairs) with
      hsound | ⟨before, e, after, hends, hbefore, hspoilt⟩
    · exact Or.inl ⟨pairs, hjoins, hsound⟩
    · obtain ⟨error, hfault⟩ := (not_sound_concat_iff hbefore).1 hspoilt
      exact Or.inr ⟨error, .endpoint hjoins hends hbefore hfault⟩
  · rcases link.joins_or_malformed with hjoins | ⟨text, hbad⟩
    · refine absurd (fun other hmem => ?_) hspoilt
      rcases List.mem_append.1 hmem with hmem | hmem
      · exact hbefore other hmem
      · rwa [List.mem_singleton.1 hmem]
    · exact Or.inr ⟨_, .malformed hsplit hbefore hbad⟩

theorem check_eq_ok_iff : t.check = .ok () ↔ t.WellLinked := by
  refine ⟨fun h => ?_, check_of_wellLinked⟩
  rcases t.wellLinked_or_firstLinkFault with hfine | ⟨error, hfirst⟩
  · exact hfine
  · rw [check_of_firstLinkFault hfirst] at h
    cases h

theorem check_eq_error_iff : t.check = .error error ↔ t.FirstLinkFault error := by
  refine ⟨fun h => ?_, check_of_firstLinkFault⟩
  rcases t.wellLinked_or_firstLinkFault with hfine | ⟨first, hfirst⟩
  · rw [check_of_wellLinked hfine] at h
    cases h
  · rw [check_of_firstLinkFault hfirst] at h
    rwa [← Except.error.inj h]

/-- A link that is no pair is what is reported, wherever it stands. -/
theorem check_of_not_joins {link : Link} (hmem : link ∈ t.links)
    (hbad : ∀ joined, ¬ link.Joins joined) : ∃ text, t.check = .error (.malformed text) := by
  have hnone (pairs : List (Endpoint × Endpoint)) : ¬ List.Forall₂ Link.Joins t.links pairs := by
    intro hjoins
    obtain ⟨joined, hjoined⟩ := exists_forall₂_joins_iff.1 ⟨pairs, hjoins⟩ link hmem
    exact hbad joined hjoined
  rcases t.wellLinked_or_firstLinkFault with ⟨pairs, hjoins, -⟩ | ⟨error, hfirst⟩
  · exact absurd hjoins (hnone pairs)
  · have hreported := check_of_firstLinkFault hfirst
    cases hfirst with
    | malformed => exact ⟨_, hreported⟩
    | endpoint hjoins => exact absurd hjoins (hnone _)

/-- How the check of a topology turns out. -/
structure ChecksExactly (t : Topology) : Prop where
  /-- It passes links without fault and no others. -/
  ok_iff : t.check = .ok () ↔ t.WellLinked
  /-- What it reports is the first fault. -/
  error_iff : ∀ error, t.check = .error error ↔ t.FirstLinkFault error
  /-- A link that is no pair is reported before whatever is wrong with endpoints. -/
  malformed_first : ∀ link ∈ t.links, (∀ joined, ¬ link.Joins joined) →
    ∃ text, t.check = .error (.malformed text)
  /-- Of links that pass none is skipped, and each has the texts of its endpoints. -/
  pairs : t.check = .ok () → List.Forall₂
    (fun link joined => link.endpoints = [joined.1.text, joined.2.text]) t.links t.endpointPairs

/-- **The check passes exactly what is well linked**, and reports the first fault of anything
else. -/
theorem checks_exactly (t : Topology) : t.ChecksExactly where
  ok_iff := check_eq_ok_iff
  error_iff _ := check_eq_error_iff
  malformed_first _ := check_of_not_joins
  pairs h := by
    obtain ⟨pairs, hjoins, -⟩ := check_eq_ok_iff.1 h
    rw [endpointPairs, filterMap_pair?_of_joins hjoins]
    exact hjoins.imp fun _ _ hjoin => hjoin.endpoints_eq

end NetLab.Topology
