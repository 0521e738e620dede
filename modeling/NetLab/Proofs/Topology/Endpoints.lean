import Mathlib.Data.List.Basic
import Mathlib.Data.List.TakeWhile
import NetLab.Topology.Endpoint

/-!
# Texts of endpoints

An endpoint is read from a text exactly if the text writes it (`Endpoint.WrittenAs`), and a link is a
pair of endpoints exactly if it has two texts that write them (`Link.Joins`).  Both readers, the one
that passes over what it cannot read and the one that reports it, read the same; what is reported of a
link that is no pair is in `Link.Malformed`.
-/

namespace NetLab

/-! ## Endpoints -/

namespace Endpoint

/-- **A text writes an endpoint**: it is the node, a colon and the interface.  Neither part is empty,
and no colon stands before that one. -/
structure WrittenAs (endpoint : Endpoint) (text : String) : Prop where
  text_eq : endpoint.text = text
  node : endpoint.node ≠ ""
  interface : endpoint.interface ≠ ""
  colon : ':' ∉ endpoint.node.toList

variable {endpoint : Endpoint} {text : String}

theorem toList_text (endpoint : Endpoint) :
    endpoint.text.toList = endpoint.node.toList ++ ':' :: endpoint.interface.toList := by
  simp [Endpoint.text]

/-- A text is split at its first colon. -/
theorem ofText?_of_split {node interface : List Char}
    (htext : text.toList = node ++ ':' :: interface) (hcolon : ':' ∉ node) :
    ofText? text = if node.isEmpty || interface.isEmpty then none
      else some ⟨String.ofList node, String.ofList interface⟩ := by
  have hnode : ∀ c ∈ node, decide (c ≠ ':') = true := fun c hmem =>
    decide_eq_true fun heq => hcolon (heq ▸ hmem)
  have htake : (node ++ ':' :: interface).takeWhile (· ≠ ':') = node := by
    rw [List.takeWhile_append_of_pos hnode]
    simp
  have hdrop : (node ++ ':' :: interface).dropWhile (· ≠ ':') = ':' :: interface := by
    rw [List.dropWhile_append_of_pos hnode]
    simp
  unfold ofText?
  rw [htext, htake, hdrop]

theorem ofText?_of_not_mem (hcolon : ':' ∉ text.toList) : ofText? text = none := by
  have hall : ∀ c ∈ text.toList, decide (c ≠ ':') = true := fun c hmem =>
    decide_eq_true fun heq => hcolon (heq ▸ hmem)
  unfold ofText?
  rw [List.dropWhile_eq_nil_iff.2 hall]

/-- **What is read of a text is what it writes.** -/
theorem ofText?_eq_some_iff : ofText? text = some endpoint ↔ endpoint.WrittenAs text := by
  constructor
  · intro h
    by_cases hmem : ':' ∈ text.toList
    · obtain ⟨node, interface, htext, hcolon⟩ := List.eq_append_cons_of_mem hmem
      rw [ofText?_of_split htext hcolon] at h
      split at h
      · cases h
      · rename_i hparts
        obtain rfl := Option.some.inj h
        simp only [Bool.or_eq_true, List.isEmpty_iff, not_or] at hparts
        exact {
          text_eq := String.toList_inj.1 (by simp [toList_text, htext])
          node := by simpa [← String.toList_inj] using hparts.1
          interface := by simpa [← String.toList_inj] using hparts.2
          colon := by simpa using hcolon }
    · rw [ofText?_of_not_mem hmem] at h
      cases h
  · intro h
    have htext : text.toList = endpoint.node.toList ++ ':' :: endpoint.interface.toList := by
      rw [← h.text_eq, toList_text]
    rw [ofText?_of_split htext h.colon, if_neg (by simp [h.node, h.interface])]
    simp

theorem ofText_eq_ok_iff : ofText text = .ok endpoint ↔ endpoint.WrittenAs text := by
  rw [← ofText?_eq_some_iff, ofText]
  cases ofText? text <;> simp

theorem ofText_eq_error_iff {error : LinkError} : ofText text = .error error ↔
    (∀ endpoint : Endpoint, ¬ endpoint.WrittenAs text) ∧ error = .malformed text := by
  simp only [← ofText?_eq_some_iff, ofText]
  cases ofText? text <;> simp [eq_comm]

end Endpoint

/-! ## Links -/

namespace Link

/-- **A link joins two endpoints**: these are all it has, and its texts write them. -/
def Joins (link : Link) (pair : Endpoint × Endpoint) : Prop :=
  ∃ a b, link.endpoints = [a, b] ∧ pair.1.WrittenAs a ∧ pair.2.WrittenAs b

/-- **What is wrong with a link that is no pair**: its first text that writes no endpoint, or, if
there are not two texts, all of them. -/
inductive Malformed (link : Link) : String → Prop
  | first {a b : String} (hends : link.endpoints = [a, b])
      (ha : ∀ endpoint : Endpoint, ¬ endpoint.WrittenAs a) : Malformed link a
  | second {a b : String} {x : Endpoint} (hends : link.endpoints = [a, b]) (ha : x.WrittenAs a)
      (hb : ∀ endpoint : Endpoint, ¬ endpoint.WrittenAs b) : Malformed link b
  | count (hends : link.endpoints.length ≠ 2) :
      Malformed link (String.intercalate "," link.endpoints)

variable {link : Link} {joined : Endpoint × Endpoint}

theorem Joins.pair?_eq (h : link.Joins joined) : link.pair? = some joined := by
  obtain ⟨a, b, hends, ha, hb⟩ := h
  simp [pair?, hends, Endpoint.ofText?_eq_some_iff.2 ha, Endpoint.ofText?_eq_some_iff.2 hb]

theorem Joins.pair_eq (h : link.Joins joined) : link.pair = .ok joined := by
  obtain ⟨a, b, hends, ha, hb⟩ := h
  simp [pair, hends, Endpoint.ofText_eq_ok_iff.2 ha, Endpoint.ofText_eq_ok_iff.2 hb, bind,
    Except.bind, pure, Except.pure]

theorem Malformed.pair_eq {text : String} (h : link.Malformed text) :
    link.pair = .error (.malformed text) := by
  cases h with
  | first hends ha =>
    simp [pair, hends, Endpoint.ofText_eq_error_iff.2 ⟨ha, rfl⟩, bind, Except.bind]
  | second hends ha hb =>
    simp [pair, hends, Endpoint.ofText_eq_ok_iff.2 ha, Endpoint.ofText_eq_error_iff.2 ⟨hb, rfl⟩,
      bind, Except.bind]
  | count hends =>
    unfold pair
    split
    · rename_i a b heq
      simp [heq] at hends
    · rfl

/-- There is no third way. -/
theorem joins_or_malformed (link : Link) :
    (∃ joined, link.Joins joined) ∨ ∃ text, link.Malformed text := by
  by_cases hcount : link.endpoints.length = 2
  · obtain ⟨a, b, hends⟩ := List.length_eq_two.1 hcount
    by_cases ha : ∃ x : Endpoint, x.WrittenAs a
    · obtain ⟨x, ha⟩ := ha
      by_cases hb : ∃ y : Endpoint, y.WrittenAs b
      · obtain ⟨y, hb⟩ := hb
        exact Or.inl ⟨(x, y), a, b, hends, ha, hb⟩
      · exact Or.inr ⟨b, .second hends ha (not_exists.1 hb)⟩
    · exact Or.inr ⟨a, .first hends (not_exists.1 ha)⟩
  · exact Or.inr ⟨_, .count hcount⟩

/-- **What is said of a link**: the pair that it joins. -/
theorem pair_eq_ok_iff : link.pair = .ok joined ↔ link.Joins joined := by
  refine ⟨fun h => ?_, Joins.pair_eq⟩
  rcases link.joins_or_malformed with ⟨other, hjoins⟩ | ⟨text, hbad⟩
  · rw [hjoins.pair_eq] at h
    rwa [← Except.ok.inj h]
  · rw [hbad.pair_eq] at h
    cases h

/-- **What is said of a link that joins none**: what is wrong with it. -/
theorem pair_eq_error_iff {error : LinkError} :
    link.pair = .error error ↔ ∃ text, link.Malformed text ∧ error = .malformed text := by
  constructor
  · intro h
    rcases link.joins_or_malformed with ⟨other, hjoins⟩ | ⟨text, hbad⟩
    · rw [hjoins.pair_eq] at h
      cases h
    · rw [hbad.pair_eq] at h
      exact ⟨text, hbad, (Except.error.inj h).symm⟩
  · rintro ⟨text, hbad, rfl⟩
    exact hbad.pair_eq

/-- The texts of a pair are those of its endpoints. -/
theorem Joins.endpoints_eq (h : link.Joins joined) :
    link.endpoints = [joined.1.text, joined.2.text] := by
  obtain ⟨a, b, hends, ha, hb⟩ := h
  rw [hends, ha.text_eq, hb.text_eq]

end Link

end NetLab
