import NetLab.Proofs.Cluster.Store
import NetLab.Proofs.Drift.Filled

/-!
# Faithful servers

A server is `Faithful` to a topology if it shows exactly what the topology owns when it is asked
for it, if it stores an object with nothing but what a server may add (`Resource.Filled`), and if
it never says that something is not there when it is.
-/

namespace NetLab.Cluster

open Kube

/-- **What a topology may expect of a server.** -/
structure Server.Faithful (server : Server) (topology : String) : Prop where
  mem_list_iff : ∀ {s kind items},
    server.lists s kind (Labels.ownerSelector topology) items → ∀ object,
      object ∈ items ↔ object ∈ s ∧ object.kind = kind ∧ object.ownedBy topology = true
  filled : ∀ {sent stored}, server.stores sent stored → sent.Filled stored
  honest_list : ∀ {s kind selector message},
    server.refuses s (.list kind selector) (.notFound message) → ∀ object ∈ s, object.kind ≠ kind
  honest_delete : ∀ {s key message},
    server.refuses s (.delete key) (.notFound message) → s.get? key = none

namespace Server

theorem Faithful.willing {server : Server} {topology : String} (h : server.Faithful topology) :
    server.willing.Faithful topology where
  mem_list_iff := h.mem_list_iff
  filled := h.filled
  honest_list := False.elim
  honest_delete := False.elim

end Server

end NetLab.Cluster
