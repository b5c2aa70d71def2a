/-! Layers of a graph on `n` nodes, by propagation along its links. A node is released once every
link into it has been followed, and following a link puts its target at least one layer after its
source. Nodes on a cycle or behind one are never released; they keep the layer that the released
nodes before them have given them. -/
namespace Flowchart

/-- The nodes that the links out of `u` point at, in the order of the links. -/
def targets (links : List (Fin n × Fin n)) (u : Fin n) : List (Fin n) :=
  (links.filter (·.1 = u)).map (·.2)

structure Propagation (n : Nat) where
  /-- How many of the links into a node are still to be followed. -/
  waiting : Vector Nat n
  layer : Vector Nat n
  released : Vector Bool n
  /-- The nodes to release next, first come first. -/
  queue : List (Fin n)
  deriving DecidableEq, Repr

namespace Propagation

/-- At first the nodes without a link into them are queued. -/
def start (links : List (Fin n × Fin n)) : Propagation n :=
  let waiting := Vector.ofFn fun v => links.countP (·.2 = v)
  { waiting
    layer := .replicate n 0
    released := .replicate n false
    queue := (List.finRange n).filter fun v => waiting[v] = 0 }

/-- Follows one link from `u` to `v`. -/
def follow (u : Fin n) (s : Propagation n) (v : Fin n) : Propagation n :=
  let left := s.waiting[v] - 1
  { s with
    waiting := s.waiting.set v left
    layer := s.layer.set v (max s.layer[v] (s.layer[u] + 1))
    queue := if left = 0 then s.queue ++ [v] else s.queue }

/-- Releases the node at the head of the queue and follows its links. -/
def release (links : List (Fin n × Fin n)) (s : Propagation n) : Propagation n :=
  match s.queue with
  | [] => s
  | u :: queue =>
    (targets links u).foldl (follow u) { s with released := s.released.set u true, queue }

/-- No node is queued twice, so that after `n` releases the queue is empty. -/
def finish (links : List (Fin n × Fin n)) : Propagation n :=
  Nat.repeat (release links) n (start links)

end Propagation

end Flowchart
