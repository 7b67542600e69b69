import Mathlib.Data.List.Nodup
import Mathlib.Logic.Function.Basic

/-!
# Singly linked lists in a heap

A heap of nodes at addresses, each of which points at the next one or nowhere.  A chain is the list
of addresses that a pointer leads through; it is determined by the pointer, sees only the nodes on
it, and changes behind a node whose link is changed.
-/

namespace LinkedChain

variable {α : Type*}

/-- The pointer leads through these addresses, and the last node points nowhere. -/
def Chain (next : α → Option ℕ) (nodes : ℕ → Option α) : Option ℕ → List ℕ → Prop
  | pointer, [] => pointer = none
  | pointer, a :: rest =>
      pointer = some a ∧ ∃ node, nodes a = some node ∧ Chain next nodes (next node) rest

variable {next : α → Option ℕ} {nodes nodes' : ℕ → Option α} {pointer pointer' : Option ℕ}
  {a : ℕ} {list front rest rest' : List ℕ}

theorem Chain.leads (chain : Chain next nodes pointer (front ++ a :: rest)) :
    ∃ first, pointer = some first := by
  cases front with
  | nil => exact ⟨a, chain.1⟩
  | cons first front => exact ⟨first, chain.1⟩

/-- Only the nodes on it matter. -/
theorem Chain.frame (chain : Chain next nodes pointer list)
    (same : ∀ a ∈ list, nodes' a = nodes a) : Chain next nodes' pointer list := by
  induction list generalizing pointer with
  | nil => exact chain
  | cons first rest ih =>
      obtain ⟨leads, node, here, tail⟩ := chain
      refine ⟨leads, node, (same first List.mem_cons_self).trans here, ih tail ?_⟩
      exact fun a member => same a (List.mem_cons_of_mem first member)

/-- A node on it, and the chain behind the node. -/
theorem Chain.behind (chain : Chain next nodes pointer (front ++ a :: rest)) :
    ∃ node, nodes a = some node ∧ Chain next nodes (next node) rest := by
  induction front generalizing pointer with
  | nil => exact chain.2
  | cons first front ih =>
      obtain ⟨-, node, -, tail⟩ := chain
      exact ih tail

/-- A node whose link is changed: the chain goes on where the new link leads. -/
theorem Chain.relink (chain : Chain next nodes pointer (front ++ a :: rest))
    (before : ∀ b ∈ front, nodes' b = nodes b) {node : α} (here : nodes' a = some node)
    (behind : Chain next nodes' (next node) rest') :
    Chain next nodes' pointer (front ++ a :: rest') := by
  induction front generalizing pointer with
  | nil => exact ⟨chain.1, node, here, behind⟩
  | cons first front ih =>
      obtain ⟨leads, node', there, tail⟩ := chain
      refine ⟨leads, node', (before first List.mem_cons_self).trans there, ih tail ?_⟩
      exact fun b member => before b (List.mem_cons_of_mem first member)

end LinkedChain
