import Flowchart.Proofs.Extents

/-! How the propagation runs. Node after node is taken from the queue until none is left, and each
link out of a node takes one from the count of its target. No step takes one from a count of zero:
a run that came to one would stop there. The propagation of a chart has one run, and it goes on to
its end. Every node is queued at most once in it, and every edge followed at most once. -/
namespace Flowchart

namespace Propagation

/-- What a run does to the queue and to the counts. -/
inductive Event (n : Nat) where
  | queued (v : Fin n)
  | taken (u : Fin n)
  | followed (u v : Fin n)
  deriving DecidableEq, Repr

namespace Event

def isTaken : Event n → Bool
  | taken _ => true
  | _ => false

/-- One is taken from the count of a node. -/
def lowers (v : Fin n) : Event n → Bool
  | followed _ w => w = v
  | _ => false

end Event

/-- The links from a node to its targets are followed one by one. A target that waits for no other
link goes to the queue. -/
inductive Follows (u : Fin n) :
    Propagation n → List (Fin n) → List (Event n) → Propagation n → Prop where
  | done : Follows u s [] [] s
  | more : 1 < s.waiting.get v → Follows u (follow u s v) vs events t →
      Follows u s (v :: vs) (.followed u v :: events) t
  | last : s.waiting.get v = 1 → Follows u (follow u s v) vs events t →
      Follows u s (v :: vs) (.followed u v :: .queued v :: events) t

/-- Nodes are taken from the queue, first come first, until it is empty. -/
inductive Drains (links : List (Fin n × Fin n)) :
    Propagation n → List (Event n) → Propagation n → Prop where
  | idle : s.queue = [] → Drains links s [] s
  | next : s.queue = u :: rest →
      Follows u (dequeue u rest s) (targets links u) events s' → Drains links s' later t →
      Drains links s (.taken u :: (events ++ later)) t

variable {links : List (Fin n × Fin n)} {s s' t t' : Propagation n} {u : Fin n}
  {vs rest : List (Fin n)} {events events' : List (Event n)}

/-- Following a link takes one from the count of its target and leaves the other counts. -/
theorem waiting_follow_add (u : Fin n) {w : Fin n} (positive : 0 < s.waiting.get w) (v : Fin n) :
    (follow u s w).waiting.get v + (if (Event.followed u w).lowers v = true then 1 else 0) =
      s.waiting.get v := by
  rw [waiting_follow]
  by_cases same : w = v
  · subst same
    rw [if_pos rfl, if_pos (by simp [Event.lowers])]
    omega
  · rw [if_neg same, if_neg (by simp [Event.lowers, same])]
    omega

namespace Follows

theorem eq_foldl (follows : Follows u s vs events t) : t = vs.foldl (follow u) s := by
  induction follows with
  | done => rfl
  | more _ _ ih => exact ih
  | last _ _ ih => exact ih

theorem eq_release (follows : Follows u (dequeue u rest s) (targets links u) events t)
    (head : s.queue = u :: rest) : t = release links s := by
  rw [follows.eq_foldl, release_of_queue_eq_cons head]

/-- Links can be followed if every target waits for all of them. -/
theorem exists_of_le (enough : ∀ v : Fin n, vs.count v ≤ s.waiting.get v) :
    ∃ events, Follows u s vs events (vs.foldl (follow u) s) := by
  induction vs generalizing s with
  | nil => exact ⟨[], .done⟩
  | cons v vs ih =>
    obtain ⟨events, follows⟩ := ih (count_le_waiting_follow (u := u) enough)
    have waits : 1 ≤ s.waiting.get v := by
      have bound := enough v
      rw [List.count_cons_self] at bound
      omega
    rcases waits.lt_or_eq with many | one
    · exact ⟨_, .more many follows⟩
    · exact ⟨_, .last one.symm follows⟩

theorem unique (follows : Follows u s vs events t) (other : Follows u s vs events' t') :
    events = events' ∧ t = t' := by
  induction follows generalizing events' with
  | done =>
    cases other
    exact ⟨rfl, rfl⟩
  | more many _ ih =>
    cases other with
    | more _ other =>
      obtain ⟨rfl, rfl⟩ := ih other
      exact ⟨rfl, rfl⟩
    | last one => omega
  | last one _ ih =>
    cases other with
    | more many => omega
    | last _ other =>
      obtain ⟨rfl, rfl⟩ := ih other
      exact ⟨rfl, rfl⟩

/-! What the events tell while links are followed. -/

theorem isTaken_eq_false (follows : Follows u s vs events t) : ∀ e ∈ events, e.isTaken = false := by
  induction follows with
  | done => simp
  | more _ _ ih => simpa [Event.isTaken] using ih
  | last _ _ ih => simpa [Event.isTaken] using ih

theorem countP_isTaken (follows : Follows u s vs events t) : events.countP Event.isTaken = 0 :=
  List.countP_eq_zero.mpr fun e member => by simp [follows.isTaken_eq_false e member]

theorem count_taken (follows : Follows u s vs events t) (v : Fin n) :
    events.count (.taken v) = 0 := by
  refine List.count_eq_zero.mpr fun member => ?_
  exact absurd (follows.isTaken_eq_false _ member) (by simp [Event.isTaken])

theorem count_followed (follows : Follows u s vs events t) (a v : Fin n) :
    events.count (.followed a v) = if a = u then vs.count v else 0 := by
  have own (w : Fin n) (ws : List (Fin n)) :
      (if a = u then ws.count v else 0) + (if u = a ∧ w = v then 1 else 0) =
        if a = u then (w :: ws).count v else 0 := by
    rw [List.count_cons]
    by_cases same : a = u
    · simp [same]
    · simp [same, Ne.symm same]
  induction follows with
  | done => simp
  | more _ _ ih => simp [List.count_cons, ih, own]
  | last _ _ ih => simp [List.count_cons, ih, own]

theorem count_queued (follows : Follows u s vs events t) (v : Fin n) :
    s.queue.count v + events.count (.queued v) = t.queue.count v := by
  induction follows with
  | done => rfl
  | more many _ ih =>
    rw [queue_follow, if_neg (by omega)] at ih
    simpa using ih
  | last one _ ih =>
    rw [queue_follow, if_pos one.le] at ih
    simpa [List.count_cons, Nat.add_assoc, Nat.add_comm] using ih

theorem countP_lowers (follows : Follows u s vs events t) (v : Fin n) :
    t.waiting.get v + events.countP (·.lowers v) = s.waiting.get v := by
  induction follows with
  | done => rfl
  | more many _ ih =>
    have lowered := waiting_follow_add u (Nat.zero_lt_of_lt many) v
    rw [List.countP_cons]
    omega
  | last one _ ih =>
    have lowered := waiting_follow_add u one.ge v
    rw [List.countP_cons, List.countP_cons, if_neg (by simp [Event.lowers])]
    omega

end Follows

theorem repeat_release_succ (links : List (Fin n × Fin n)) (k : Nat) (s : Propagation n) :
    Nat.repeat (release links) (k + 1) s = Nat.repeat (release links) k (release links s) := by
  induction k with
  | zero => rfl
  | succ k ih => exact congrArg (release links) ih

namespace Drains

/-- If some releases leave the queue empty, the loop gets through them. -/
theorem exists_of_repeat (valid : Invariant links s) (k : Nat)
    (idle : (Nat.repeat (release links) k s).queue = []) :
    ∃ events, Drains links s events (Nat.repeat (release links) k s) := by
  induction k generalizing s with
  | zero => exact ⟨[], .idle idle⟩
  | succ k ih =>
    rw [repeat_release_succ] at idle ⊢
    obtain ⟨later, drains⟩ := ih (release_invariant valid) idle
    cases head : s.queue with
    | nil =>
      -- A release with nothing queued changes nothing: the loop is already at its end.
      rw [release_of_queue_eq_nil head] at drains ⊢
      exact ⟨later, drains⟩
    | cons u rest =>
      have held := valid.held head
      have enough : ∀ v : Fin n, (targets links u).count v ≤ (dequeue u rest s).waiting.get v :=
        valid.count_targets_le held
      obtain ⟨events, follows⟩ := Follows.exists_of_le (u := u) enough
      rw [← release_of_queue_eq_cons head] at follows
      exact ⟨_, .next head follows drains⟩

theorem unique (drains : Drains links s events t) (other : Drains links s events' t') :
    events = events' ∧ t = t' := by
  induction drains generalizing events' with
  | idle none =>
    cases other with
    | idle => exact ⟨rfl, rfl⟩
    | next head => simp [none] at head
  | next head follows _ ih =>
    cases other with
    | idle none => simp [head] at none
    | next head' follows' other =>
      obtain ⟨rfl, rfl⟩ := List.cons.inj (head.symm.trans head')
      obtain ⟨rfl, rfl⟩ := follows.unique follows'
      obtain ⟨rfl, rfl⟩ := ih other
      exact ⟨rfl, rfl⟩

/-- A node is taken when it is released, so no node is taken twice. -/
theorem count_taken (drains : Drains links s events t) (valid : Invariant links s) (v : Fin n) :
    events.count (.taken v) + (s.released.get v).toNat = (t.released.get v).toNat := by
  induction drains with
  | idle => simp
  | @next u rest s events s' later t head follows _ ih =>
    obtain rfl := follows.eq_release head
    have step := valid.releases head
    have held := valid.held head
    rw [← ih (release_invariant valid)]
    simp only [List.count_cons, List.count_append, follows.count_taken, beq_iff_eq,
      Event.taken.injEq]
    by_cases same : u = v
    · subst same
      have free := (step.released u).mpr (.inl rfl)
      simp [held, free]
    · have kept : (release links s).released.get v = s.released.get v := by
        rw [Bool.eq_iff_iff, step.released]
        simp [Ne.symm same]
      simp [same, kept]

theorem countP_isTaken (drains : Drains links s events t) (valid : Invariant links s) :
    events.countP Event.isTaken + s.freed.card = t.freed.card := by
  induction drains with
  | idle => simp
  | @next u rest s events s' later t head follows _ ih =>
    obtain rfl := follows.eq_release head
    have held := valid.held head
    have one := (valid.releases head).freed_eq
    rw [← ih (release_invariant valid), one, Finset.card_insert_of_notMem (by simp [held])]
    simp only [List.countP_cons, List.countP_append, follows.countP_isTaken, Event.isTaken, if_true]
    omega

/-- All links out of a node are followed each time that it is taken. -/
theorem count_followed (drains : Drains links s events t) (a v : Fin n) :
    events.count (.followed a v) = events.count (.taken a) * (targets links a).count v := by
  induction drains with
  | idle => simp
  | @next u rest s events s' later t head follows _ ih =>
    simp only [List.count_cons, List.count_append, follows.count_taken, follows.count_followed, ih,
      beq_iff_eq, Event.taken.injEq, reduceCtorEq, if_false]
    by_cases same : a = u
    · subst same
      simp [Nat.add_mul, Nat.add_comm]
    · simp [same, Ne.symm same]

/-- What goes into the queue comes out of it. -/
theorem count_queued (drains : Drains links s events t) (v : Fin n) :
    s.queue.count v + events.count (.queued v) = events.count (.taken v) := by
  induction drains with
  | idle none => simp [none]
  | next head follows _ ih =>
    have part := follows.count_queued v
    simp only [head, List.count_cons, List.count_append, follows.count_taken, ← ih, ← part, dequeue,
      beq_iff_eq, Event.taken.injEq, reduceCtorEq, if_false]
    omega

/-- A count goes down by one for each link that is followed. -/
theorem countP_lowers (drains : Drains links s events t) (v : Fin n) :
    t.waiting.get v + events.countP (·.lowers v) = s.waiting.get v := by
  induction drains with
  | idle => simp
  | next _ follows _ ih =>
    have part := follows.countP_lowers v
    rw [List.countP_cons, List.countP_append, if_neg (by simp [Event.lowers])]
    simp only [dequeue] at part
    omega

/-- Nothing is queued any more when all releases are done, so the loop stops where they do. -/
theorem exists_finish (links : List (Fin n × Fin n)) :
    ∃ events, Drains links (start links) events (finish links) :=
  exists_of_repeat (start_invariant links) n (finish_queue links)

end Drains

end Propagation

namespace Chart

open Propagation (Event Follows Drains dequeue follow)

/-- Each edge between nodes of a chart is one link, as often as it has been drawn. -/
theorem count_links (c : Chart) (u v : Fin c.nodes.length) :
    c.links.count (u, v) = c.edges.count ⟨(c.nodes.get u).id, (c.nodes.get v).id⟩ := by
  rw [links, List.count_filterMap, List.count_eq_countP]
  refine List.countP_congr fun e _ => ?_
  rw [beq_iff_eq, beq_iff_eq, link_eq_some_iff]

theorem count_targets_links (c : Chart) (u v : Fin c.nodes.length) :
    (targets c.links u).count v = c.edges.count ⟨(c.nodes.get u).id, (c.nodes.get v).id⟩ := by
  rw [← count_links, count_targets, List.count_eq_countP]
  refine List.countP_congr fun e _ => ?_
  simp [Prod.ext_iff, and_comm]

theorem map_layer_items (c : Chart) : c.items.map Item.layer = c.ranks.layers.map Prod.snd := by
  have layers : (c.layering.layer.toList.zip c.nodes).map Prod.fst = c.layering.layer.toList :=
    List.map_fst_zip (by simp)
  rw [List.zip, List.map_zipWith] at layers
  rw [ranks, List.map_snd_zip (by simp), items, List.map_zipWith, layers]

/-- A run of the propagation of a chart, and the bands that the nodes are placed in after it. -/
structure Laid (c : Chart) (events : List (Event c.nodes.length)) : Prop where
  drains : Drains c.links (.start c.links) events c.layering
  unique : ∀ events' t, Drains c.links (.start c.links) events' t →
    events' = events ∧ t = c.layering
  count_queued_le : ∀ v, ((Propagation.start c.links).queue.map Event.queued ++ events).count
    (.queued v) ≤ 1
  countP_isTaken_le : events.countP Event.isTaken ≤ c.nodes.length
  /-- An edge is followed at most as often as it has been drawn. -/
  count_followed_le : ∀ u v, events.count (.followed u v) ≤
    c.edges.count ⟨(c.nodes.get u).id, (c.nodes.get v).id⟩
  /-- What is left of a count is what has not been taken off it, so no count falls below zero. -/
  waiting_add : ∀ v, c.layering.waiting.get v + events.countP (·.lowers v) =
    c.links.countP (·.2 = v)
  length_bands : c.bands.length = (c.ranks.layers.map Prod.snd).max?.getD 0 + 1
  layer_lt : ∀ id ∈ c.ids, ∃ l, c.ranks.layer? id = some l ∧ l < c.bands.length
  /-- No band is broader than the one that the others are centred on. -/
  breadth_le : ∀ l (bound : l < c.bands.length), c.bands[l].breadth ≤ Placement.broadest c.bands

/-- The propagation of a chart has one run, which every node, edge and count takes part in at most
as often as it should, and the layers that it gives are among the bands that the nodes are placed
in. -/
theorem layout_runs (c : Chart) : ∃ events, c.Laid events := by
  have valid := Propagation.start_invariant c.links
  obtain ⟨events, drains⟩ : ∃ events, Drains c.links (.start c.links) events c.layering :=
    Drains.exists_finish c.links
  have once (v : Fin c.nodes.length) : events.count (.taken v) ≤ 1 := by
    have tally := drains.count_taken valid v
    have bound := Bool.toNat_le (c.layering.released.get v)
    omega
  refine ⟨events, ?_⟩
  constructor
  case drains => exact drains
  case unique =>
    intro _ _ other
    obtain ⟨rfl, rfl⟩ := drains.unique other
    exact ⟨rfl, rfl⟩
  case count_queued_le =>
    -- What is queued is taken later, and no node is taken twice.
    intro v
    have first : ((Propagation.start c.links).queue.map Event.queued).count (.queued v) =
        (Propagation.start c.links).queue.count v :=
      List.count_map_of_injective _ _ (fun _ _ same => Event.queued.inj same) v
    rw [List.count_append, first, drains.count_queued]
    exact once v
  case countP_isTaken_le =>
    have tally := drains.countP_isTaken valid
    have bound := card_finset_fin_le c.layering.freed
    omega
  case count_followed_le =>
    intro u v
    rw [drains.count_followed, count_targets_links]
    exact (Nat.mul_le_mul_right _ (once u)).trans_eq (Nat.one_mul _)
  case waiting_add =>
    intro v
    rw [drains.countP_lowers v, Propagation.waiting_start]
  case length_bands => rw [Chart.length_bands, top, map_layer_items]
  case layer_lt =>
    intro id known
    obtain ⟨i, l, a, stands, layer, _⟩ := exists_stands_of_mem_ids known
    exact ⟨l, layer, stands.layer_lt⟩
  case breadth_le => exact fun l bound => Placement.breadth_le_broadest bound

/-- An edge drawn twice, one from a node to itself, and one to an id that no node has. -/
def tangled : Chart where
  direction := .leftRight
  nodes := [⟨"U", "U", none⟩, ⟨"V", "V", none⟩, ⟨"W", "W", none⟩]
  edges := [⟨"U", "V"⟩, ⟨"U", "V"⟩, ⟨"W", "W"⟩, ⟨"V", "W"⟩, ⟨"U", "X"⟩]
  distinct := by decide

def tangledLinks : List (Fin 3 × Fin 3) := [(0, 1), (0, 1), (2, 2), (1, 2)]

def tangledRun : List (Event 3) :=
  [.taken 0, .followed 0 1, .followed 0 1, .queued 1, .taken 1, .followed 1 2]

theorem drains_tangled : ∃ t, Drains tangledLinks (.start tangledLinks) tangledRun t := by
  let s : Propagation 3 := dequeue 0 [] (.start tangledLinks)
  have first : Follows 0 s (targets tangledLinks 0) [.followed 0 1, .followed 0 1, .queued 1] _ :=
    .more (by decide +kernel) (.last (by decide +kernel) .done)
  have second : Follows 1 (dequeue 1 [] (follow 0 (follow 0 s 1) 1)) (targets tangledLinks 1)
      [.followed 1 2] _ :=
    .more (by decide +kernel) .done
  exact ⟨_, .next (by decide +kernel) first
    (.next (by decide +kernel) second (.idle (by decide +kernel)))⟩

theorem layout_runs_tangled :
    Drains tangled.links (.start tangled.links) tangledRun tangled.layering ∧
      tangledRun.countP Event.isTaken ≤ 3 ∧ tangledRun.count (.followed 0 1) ≤ 2 ∧
      "W" ∈ tangled.ids ∧ ∃ l, tangled.ranks.layer? "W" = some l ∧ l < tangled.bands.length := by
  have known : "W" ∈ tangled.ids := by decide
  obtain ⟨t, drains⟩ := drains_tangled
  obtain ⟨events, laid⟩ := layout_runs tangled
  obtain ⟨rfl, rfl⟩ := laid.unique tangledRun t drains
  exact ⟨laid.drains, laid.countP_isTaken_le, laid.count_followed_le (0 : Fin 3) (1 : Fin 3), known,
    laid.layer_lt "W" known⟩

end Chart

end Flowchart
