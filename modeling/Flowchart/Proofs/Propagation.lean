import Mathlib.Data.Fintype.Card
import Flowchart.Layering
import Flowchart.Proofs.Walks

/-! What one release does to the propagation, what every release preserves, and what therefore
holds when the queue has run empty. -/
namespace Flowchart

theorem mem_targets {links : List (Fin n × Fin n)} {u v : Fin n} :
    v ∈ targets links u ↔ (u, v) ∈ links := by
  simp [targets]

/-- A link that occurs several times is followed as often. -/
theorem count_targets (links : List (Fin n × Fin n)) (u v : Fin n) :
    (targets links u).count v = links.countP fun e => e.2 = v ∧ e.1 = u := by
  simp only [targets, List.count_eq_countP, List.countP_map, List.countP_filter]
  exact List.countP_congr fun e _ => by simp

namespace Propagation

section Starting

variable (links : List (Fin n × Fin n)) (v : Fin n)

@[simp] theorem waiting_start : (start links).waiting.get v = links.countP (·.2 = v) := by
  change (start links).waiting[v] = _
  simp [start]

@[simp] theorem layer_start : (start links).layer.get v = 0 := by
  change (start links).layer[v] = 0
  simp [start]

@[simp] theorem released_start : (start links).released.get v = false := by
  change (start links).released[v] = false
  simp [start]

theorem mem_queue_start : v ∈ (start links).queue ↔ (start links).waiting.get v = 0 := by
  change _ ↔ (start links).waiting[v] = 0
  simp [start]

end Starting

section Following

variable {u : Fin n} {s : Propagation n} {t : Fin n} {ts : List (Fin n)}

@[simp] theorem released_foldl_follow (u : Fin n) (s : Propagation n) (ts : List (Fin n)) :
    (ts.foldl (follow u) s).released = s.released := by
  induction ts generalizing s with
  | nil => rfl
  | cons t ts ih => rw [List.foldl_cons, ih, follow]

theorem waiting_follow (u : Fin n) (s : Propagation n) (t v : Fin n) :
    (follow u s t).waiting.get v = s.waiting.get v - if t = v then 1 else 0 := by
  change (follow u s t).waiting[v] = s.waiting[v] - if t = v then 1 else 0
  by_cases same : t = v
  · subst same
    simp [follow]
  · simp [follow, Fin.val_inj, same]

theorem waiting_foldl_follow (u : Fin n) (s : Propagation n) (ts : List (Fin n)) (v : Fin n) :
    (ts.foldl (follow u) s).waiting.get v = s.waiting.get v - ts.count v := by
  induction ts generalizing s with
  | nil => simp
  | cons t ts ih =>
    simp only [List.foldl_cons, ih, waiting_follow, List.count_cons, beq_iff_eq]
    omega

theorem layer_follow (u : Fin n) (s : Propagation n) (t v : Fin n) :
    (follow u s t).layer.get v =
      if v = t then max (s.layer.get v) (s.layer.get u + 1) else s.layer.get v := by
  change (follow u s t).layer[v] =
    if v = t then max s.layer[v] (s.layer[u] + 1) else s.layer[v]
  by_cases same : v = t
  · subst same
    simp [follow]
  · simp [follow, Fin.val_inj, same, Ne.symm same]

theorem layer_foldl_follow (apart : u ∉ ts) (v : Fin n) :
    (ts.foldl (follow u) s).layer.get v =
      if v ∈ ts then max (s.layer.get v) (s.layer.get u + 1) else s.layer.get v := by
  induction ts generalizing s with
  | nil => simp
  | cons t ts ih =>
    obtain ⟨other, apart⟩ := List.ne_and_not_mem_of_not_mem_cons apart
    rw [List.foldl_cons, ih apart, layer_follow, layer_follow, if_neg other]
    by_cases later : v ∈ ts
    · by_cases same : v = t <;> simp [later, same]
    · simp [later]

theorem queue_follow (u : Fin n) (s : Propagation n) (t : Fin n) :
    (follow u s t).queue = if s.waiting.get t ≤ 1 then s.queue ++ [t] else s.queue := by
  have last : s.waiting[t] - 1 = 0 ↔ s.waiting.get t ≤ 1 := by
    change _ ↔ s.waiting[t] ≤ 1
    omega
  simp only [follow, last]

theorem mem_queue_follow (u : Fin n) (s : Propagation n) (t v : Fin n) :
    v ∈ (follow u s t).queue ↔ v ∈ s.queue ∨ v = t ∧ s.waiting.get t ≤ 1 := by
  rw [queue_follow]
  split
  · next few => simp [few]
  · next many => simp [many]

theorem count_le_waiting_follow (enough : ∀ v : Fin n, (t :: ts).count v ≤ s.waiting.get v)
    (v : Fin n) : ts.count v ≤ (follow u s t).waiting.get v := by
  have bound := enough v
  simp only [List.count_cons, beq_iff_eq] at bound
  rw [waiting_follow]
  omega

/-- A target is queued when the last link into it has been followed. -/
theorem mem_queue_foldl_follow (enough : ∀ v : Fin n, ts.count v ≤ s.waiting.get v) (v : Fin n) :
    v ∈ (ts.foldl (follow u) s).queue ↔ v ∈ s.queue ∨ v ∈ ts ∧ s.waiting.get v = ts.count v := by
  induction ts generalizing s with
  | nil => simp
  | cons t ts ih =>
    have bound := enough v
    have positive := List.count_pos_iff (a := v) (l := ts)
    rw [List.foldl_cons, ih (count_le_waiting_follow enough), mem_queue_follow, waiting_follow]
    simp only [List.count_cons, beq_iff_eq, List.mem_cons] at bound ⊢
    by_cases queued : v ∈ s.queue
    · simp [queued]
    · rw [← positive]
      by_cases same : t = v
      · subst same
        simp only [queued, if_true, false_or, true_and, true_or] at bound ⊢
        omega
      · simp [queued, same, Ne.symm same]

/-- No target is queued a second time, because no link into it is left. -/
theorem nodup_queue_foldl_follow (enough : ∀ v : Fin n, ts.count v ≤ s.waiting.get v)
    (fresh : ∀ v ∈ ts, v ∉ s.queue) (once : s.queue.Nodup) :
    (ts.foldl (follow u) s).queue.Nodup := by
  induction ts generalizing s with
  | nil => exact once
  | cons t ts ih =>
    refine ih (count_le_waiting_follow enough) ?_ ?_
    · intro v member queued
      rcases (mem_queue_follow u s t v).mp queued with before | ⟨rfl, last⟩
      · exact fresh v (List.mem_cons_of_mem _ member) before
      · have bound := enough v
        have := List.count_pos_iff.mpr member
        rw [List.count_cons_self] at bound
        omega
    · rw [queue_follow]
      split
      · refine List.nodup_append.mpr ⟨once, by simp, ?_⟩
        intro v queued w last
        rw [List.mem_singleton.mp last]
        rintro rfl
        exact fresh _ List.mem_cons_self queued
      · exact once

end Following

/-- A node leaves the queue; its links are still to be followed. -/
def dequeue (u : Fin n) (rest : List (Fin n)) (s : Propagation n) : Propagation n :=
  { s with released := s.released.set u true u.isLt, queue := rest }

theorem released_dequeue (u : Fin n) (rest : List (Fin n)) (s : Propagation n) (v : Fin n) :
    (dequeue u rest s).released.get v = true ↔ v = u ∨ s.released.get v = true := by
  change (dequeue u rest s).released[v] = true ↔ v = u ∨ s.released[v] = true
  by_cases same : v = u
  · subst same
    simp [dequeue]
  · simp [dequeue, Fin.val_inj, same, Ne.symm same]

theorem release_of_queue_eq_nil {links : List (Fin n × Fin n)} {s : Propagation n}
    (idle : s.queue = []) : release links s = s := by
  simp [release, idle]

theorem release_of_queue_eq_cons {links : List (Fin n × Fin n)} {s : Propagation n} {u : Fin n}
    {rest : List (Fin n)} (head : s.queue = u :: rest) :
    release links s = (targets links u).foldl (follow u) (dequeue u rest s) := by
  simp [release, head, dequeue]

/-- What holds between two releases: a node waits for the links from nodes that are not released,
it is queued as soon as there are none, and its layer comes from the released nodes only. -/
structure Invariant (links : List (Fin n × Fin n)) (s : Propagation n) : Prop where
  waiting : ∀ v : Fin n,
    s.waiting.get v = links.countP fun e => e.2 = v ∧ s.released.get e.1 = false
  queued : ∀ v : Fin n, v ∈ s.queue ↔ s.waiting.get v = 0 ∧ s.released.get v = false
  once : s.queue.Nodup
  done : ∀ v : Fin n, s.released.get v = true → s.waiting.get v = 0
  above : ∀ u v : Fin n, (u, v) ∈ links → s.released.get u = true → s.layer.get u < s.layer.get v
  reached : ∀ v : Fin n, s.layer.get v = 0 ∨
    ∃ u : Fin n, (u, v) ∈ links ∧ s.released.get u = true ∧ s.layer.get v = s.layer.get u + 1

theorem start_invariant (links : List (Fin n × Fin n)) : Invariant links (start links) where
  waiting v := by simp
  queued v := by simp [mem_queue_start]
  once := (List.nodup_finRange n).filter _
  done v released := by simp at released
  above u v _ released := by simp at released
  reached v := .inl (layer_start links v)

/-- How the release of a node changes the state. -/
structure Releases (links : List (Fin n × Fin n)) (u : Fin n) (s s' : Propagation n) : Prop where
  waiting : ∀ v : Fin n, s'.waiting.get v = s.waiting.get v - (targets links u).count v
  released : ∀ v : Fin n, s'.released.get v = true ↔ v = u ∨ s.released.get v = true
  layer : ∀ v : Fin n, s'.layer.get v =
    if (u, v) ∈ links then max (s.layer.get v) (s.layer.get u + 1) else s.layer.get v
  queued : ∀ v : Fin n, v ∈ s'.queue ↔ v ∈ s.queue ∧ v ≠ u ∨
    (u, v) ∈ links ∧ s.waiting.get v = (targets links u).count v
  once : s'.queue.Nodup

variable {links : List (Fin n × Fin n)} {s s' : Propagation n} {u : Fin n}

theorem Releases.held_iff (step : Releases links u s s') (v : Fin n) :
    s'.released.get v = false ↔ v ≠ u ∧ s.released.get v = false := by
  rw [← Bool.not_eq_true, step.released, not_or, Bool.not_eq_true]

namespace Invariant

theorem count_targets_le (valid : Invariant links s) (held : s.released.get u = false) (v : Fin n) :
    (targets links u).count v ≤ s.waiting.get v := by
  rw [count_targets, valid.waiting]
  apply List.countP_mono_left
  intro e _
  simp only [decide_eq_true_eq]
  rintro ⟨target, rfl⟩
  exact ⟨target, held⟩

/-- The node at the head of the queue has not been released before. -/
theorem held {rest : List (Fin n)} (valid : Invariant links s) (head : s.queue = u :: rest) :
    s.released.get u = false :=
  ((valid.queued u).mp (by simp [head])).2

/-- No link is left into a node that waits for nothing. -/
theorem not_mem_links (valid : Invariant links s) (held : s.released.get u = false) {v : Fin n}
    (ready : s.waiting.get v = 0) : (u, v) ∉ links := by
  intro link
  have := valid.count_targets_le held v
  have := List.count_pos_iff.mpr (mem_targets.mpr link)
  omega

/-- The first node of the queue is not among its own targets, so its layer does not change while
its links are followed. -/
theorem releases {rest : List (Fin n)} (valid : Invariant links s) (head : s.queue = u :: rest) :
    Releases links u s (release links s) := by
  obtain ⟨ready, held⟩ := (valid.queued u).mp (by simp [head])
  have once := valid.once
  rw [head] at once
  obtain ⟨fresh, once⟩ := List.nodup_cons.mp once
  have apart : u ∉ targets links u := mt mem_targets.mp (valid.not_mem_links held ready)
  have enough : ∀ v : Fin n, (targets links u).count v ≤ (dequeue u rest s).waiting.get v :=
    valid.count_targets_le held
  rw [release_of_queue_eq_cons head]
  constructor
  · intro v
    rw [waiting_foldl_follow]
    rfl
  · intro v
    rw [released_foldl_follow, released_dequeue]
  · intro v
    rw [layer_foldl_follow apart]
    simp only [mem_targets, dequeue]
  · intro v
    rw [mem_queue_foldl_follow enough, mem_targets, head]
    have others : v ∈ rest ↔ v ∈ u :: rest ∧ v ≠ u := by
      constructor
      · intro member
        refine ⟨List.mem_cons_of_mem _ member, ?_⟩
        rintro rfl
        exact fresh member
      · rintro ⟨member, other⟩
        exact (List.mem_cons.mp member).resolve_left other
    rw [← others]
    rfl
  · refine nodup_queue_foldl_follow enough ?_ once
    intro v target queued
    have waits := ((valid.queued v).mp (head ▸ List.mem_cons_of_mem u queued)).1
    exact valid.not_mem_links held waits (mem_targets.mp target)

/-- Releasing a node takes the links out of it from the ones that are waited for. -/
theorem waiting_of_releases (valid : Invariant links s) (held : s.released.get u = false)
    (step : Releases links u s s') (v : Fin n) :
    s'.waiting.get v = links.countP fun e => e.2 = v ∧ s'.released.get e.1 = false := by
  have split := List.countP_eq_countP_filter_add links
    (fun e => decide (e.2 = v ∧ s.released.get e.1 = false)) (fun e => decide (e.1 = u))
  have out : links.countP (fun e => decide (e.2 = v ∧ e.1 = u)) =
      (links.filter fun e => decide (e.1 = u)).countP
        fun e => decide (e.2 = v ∧ s.released.get e.1 = false) := by
    rw [List.countP_filter]
    refine List.countP_congr fun e _ => ?_
    simp only [decide_eq_true_eq, Bool.and_eq_true]
    constructor
    · rintro ⟨target, rfl⟩
      exact ⟨⟨target, held⟩, rfl⟩
    · rintro ⟨⟨target, _⟩, source⟩
      exact ⟨target, source⟩
  have others : links.countP (fun e => decide (e.2 = v ∧ s'.released.get e.1 = false)) =
      (links.filter fun e => !decide (e.1 = u)).countP
        fun e => decide (e.2 = v ∧ s.released.get e.1 = false) := by
    rw [List.countP_filter]
    refine List.countP_congr fun e _ => ?_
    simp only [decide_eq_true_eq, Bool.and_eq_true, Bool.not_eq_true', decide_eq_false_iff_not]
    rw [step.held_iff]
    constructor
    · rintro ⟨target, other, held⟩
      exact ⟨⟨target, held⟩, other⟩
    · rintro ⟨⟨target, held⟩, other⟩
      exact ⟨target, other, held⟩
  rw [step.waiting, count_targets, valid.waiting, split, out, others]
  omega

theorem of_releases (valid : Invariant links s) (queued : u ∈ s.queue)
    (step : Releases links u s s') : Invariant links s' := by
  obtain ⟨ready, held⟩ := (valid.queued u).mp queued
  -- No link leads from `u` to `u` or to a released node, so their layers stay as they are.
  have kept (v : Fin n) (released : s'.released.get v = true) : s'.layer.get v = s.layer.get v := by
    rw [step.layer, if_neg]
    rcases (step.released v).mp released with rfl | earlier
    · exact valid.not_mem_links held ready
    · exact valid.not_mem_links held (valid.done v earlier)
  have grown (v : Fin n) : s.layer.get v ≤ s'.layer.get v := by
    rw [step.layer]
    split <;> omega
  constructor
  · exact valid.waiting_of_releases held step
  · intro v
    have bound := valid.count_targets_le held v
    have count := List.count_pos_iff (a := v) (l := targets links u)
    rw [mem_targets] at count
    rw [step.queued, step.waiting, step.held_iff, valid.queued]
    constructor
    · rintro (⟨⟨none, waits⟩, other⟩ | ⟨link, all⟩)
      · exact ⟨by omega, other, waits⟩
      · refine ⟨by omega, ?_, ?_⟩
        · rintro rfl
          exact valid.not_mem_links held ready link
        · by_contra free
          have finished := valid.done v (Bool.not_eq_false _ ▸ free)
          exact valid.not_mem_links held finished link
    · rintro ⟨none, other, waits⟩
      by_cases link : (u, v) ∈ links
      · exact .inr ⟨link, by omega⟩
      · have left := mt count.mp link
        exact .inl ⟨⟨by omega, waits⟩, other⟩
  · exact step.once
  · intro v released
    rw [step.waiting]
    rcases (step.released v).mp released with rfl | earlier
    · omega
    · have := valid.done v earlier
      omega
  · intro a v link released
    rw [kept a released]
    rcases (step.released a).mp released with rfl | earlier
    · rw [step.layer, if_pos link]
      omega
    · exact (valid.above a v link earlier).trans_le (grown v)
  · intro v
    by_cases raised : (u, v) ∈ links ∧ s.layer.get v < s.layer.get u + 1
    · refine .inr ⟨u, raised.1, (step.released u).mpr (.inl rfl), ?_⟩
      rw [step.layer v, if_pos raised.1, kept u ((step.released u).mpr (.inl rfl))]
      omega
    · have same : s'.layer.get v = s.layer.get v := by
        rw [step.layer]
        split
        · next link =>
          have low : ¬s.layer.get v < s.layer.get u + 1 := fun below => raised ⟨link, below⟩
          omega
        · rfl
      rw [same]
      rcases valid.reached v with bottom | ⟨a, link, earlier, next⟩
      · exact .inl bottom
      · have released := (step.released a).mpr (.inr earlier)
        exact .inr ⟨a, link, released, by rw [kept a released, next]⟩

end Invariant

theorem release_invariant (valid : Invariant links s) : Invariant links (release links s) := by
  cases head : s.queue with
  | nil => rwa [release_of_queue_eq_nil head]
  | cons u rest =>
    have first : u ∈ s.queue := by simp [head]
    exact valid.of_releases first (valid.releases head)

theorem repeat_release_invariant (links : List (Fin n × Fin n)) (k : Nat) :
    Invariant links (Nat.repeat (release links) k (start links)) := by
  induction k with
  | zero => exact start_invariant links
  | succ k ih => exact release_invariant ih

def freed (s : Propagation n) : Finset (Fin n) := Finset.univ.filter fun v => s.released.get v = true

@[simp] theorem mem_freed {v : Fin n} : v ∈ s.freed ↔ s.released.get v = true := by simp [freed]

theorem Releases.freed_eq (step : Releases links u s s') : s'.freed = insert u s.freed := by
  ext v
  rw [mem_freed, step.released, Finset.mem_insert, mem_freed]

/-- Every release frees one more node, until nothing is queued any more. -/
theorem repeat_release_progress (links : List (Fin n × Fin n)) (k : Nat) :
    (Nat.repeat (release links) k (start links)).queue = [] ∨
      (Nat.repeat (release links) k (start links)).freed.card = k := by
  induction k with
  | zero => exact .inr (by simp [Nat.repeat, freed])
  | succ k ih =>
    have valid := repeat_release_invariant links k
    rw [Nat.repeat]
    cases head : (Nat.repeat (release links) k (start links)).queue with
    | nil => exact .inl (by rw [release_of_queue_eq_nil head, head])
    | cons u rest =>
      have size := ih.resolve_left (by simp [head])
      have held := valid.held head
      rw [(valid.releases head).freed_eq, Finset.card_insert_of_notMem (by simp [held]), size]
      exact .inr rfl

theorem finish_queue (links : List (Fin n × Fin n)) : (finish links).queue = [] := by
  rcases repeat_release_progress links n with idle | all
  · exact idle
  · have valid := repeat_release_invariant links n
    have full := (Finset.card_eq_iff_eq_univ _).mp (all.trans (Fintype.card_fin n).symm)
    refine List.eq_nil_iff_forall_not_mem.mpr fun v queued => ?_
    have held := ((valid.queued v).mp queued).2
    have free := mem_freed.mp (full ▸ Finset.mem_univ v)
    exact absurd (free.symm.trans held) (by decide)

/-- With nothing queued, a node that is not released waits for another such node. -/
theorem finish_settled (links : List (Fin n × Fin n)) :
    Settled (fun u v => (u, v) ∈ links) (fun v => (finish links).released.get v = true)
      (fun v => (finish links).layer.get v) := by
  have valid : Invariant links (finish links) := repeat_release_invariant links n
  refine ⟨fun v => ?_, valid.above, valid.reached⟩
  have waits : (finish links).waiting.get v = 0 ↔ ∀ u, (u, v) ∈ links →
      (finish links).released.get u = true := by
    rw [valid.waiting, List.countP_eq_zero]
    simp only [decide_eq_true_eq, not_and, Bool.not_eq_false]
    constructor
    · exact fun all u link => all (u, v) link rfl
    · exact fun all e link target => all e.1 (target ▸ link)
  have queued := valid.queued v
  rw [finish_queue] at queued
  rw [← waits]
  constructor
  · exact valid.done v
  · intro none
    by_contra held
    simpa using queued.mpr ⟨none, by simpa using held⟩

end Propagation

end Flowchart
