import GameServer.Library.Chain
import GameServer.Library.Machine
import Mathlib.Data.UInt

/-!
# The queue between the services

`queue_push` and `queue_pop` of `lock_queue.c` on the memory that holds the nodes. The two ends of
a queue are updated by separate tests on `head` and `tail`; `QueueShape` relates the pointers to
the list of the nodes between them, and a call on a queue of some shape yields the shape of the
list that a queue is meant to be: a node more at the end, or one less at the front.

`lockQueueMachine` has any number of producers and consumers call the functions in any order. A
node is created by a producer, pushed, popped by a consumer and freed by it, and its memory may
then be that of another node.

## Main definitions

* `QNode`, `Queue`, `queueCreat`, `qnodeCreate`, `queuePush`, `queueIsEmpty`, `queuePop`.
* `QueueShape` : the nodes between the two ends of a queue.
* `QueueSystem`, `QueueCall`, `lockQueueMachine` : producers and consumers at a queue.

## Main results

* `QueueShape.queuePush_eq`, `QueueShape.queuePop_nil`, `QueueShape.queuePop_cons`.
* `lock_queue_fifo` : in every order of calls the queue is a list, and first in is first out.
-/

namespace GameServer

variable {μ β : Type}

/-! ### Nodes and queues -/

/-- The address of a node. -/
abbrev NodeAddr := ℕ

/-- `q_node`. -/
structure QNode (μ β : Type) where
  type : UInt8
  msgHead : μ
  buffer : β
  next : Option NodeAddr

/-- What a node carries. -/
def QNode.contents (node : QNode μ β) : UInt8 × μ × β := (node.type, node.msgHead, node.buffer)

/-- `queue`; the lock makes each call one step. -/
structure Queue where
  head : Option NodeAddr
  tail : Option NodeAddr
deriving DecidableEq, Repr

/-- The memory of the nodes; what is not allocated holds none. -/
abbrev NodeHeap (μ β : Type) := NodeAddr → Option (QNode μ β)

/-- The link of a node. -/
def NodeHeap.next (heap : NodeHeap μ β) (a : NodeAddr) : Option NodeAddr :=
  (heap a).bind QNode.next

/-- A node with what it carries. -/
def NodeHeap.entry (heap : NodeHeap μ β) (a : NodeAddr) : NodeAddr × Option (UInt8 × μ × β) :=
  (a, (heap a).map QNode.contents)

/-- Why a call does not return. -/
inductive QueueFault where
  /-- A node is read or written that is not allocated. -/
  | dangling
deriving DecidableEq, Repr

/-- A node is read through its address. -/
def NodeHeap.deref (heap : NodeHeap μ β) (a : NodeAddr) : Except QueueFault (QNode μ β) :=
  match heap a with
  | none => .error .dangling
  | some node => .ok node

/-- `queue_creat`. -/
def queueCreat : Queue := ⟨none, none⟩

/-- `qnode_create`; `addr` is what `malloc` returns. -/
def qnodeCreate (heap : NodeHeap μ β) (addr : Option NodeAddr) (type : UInt8) (msgHead : μ)
    (buffer : β) (next : Option NodeAddr) : NodeHeap μ β × Option NodeAddr :=
  match addr with
  | none => (heap, none)
  | some a => (Function.update heap a (some ⟨type, msgHead, buffer, next⟩), some a)

/-- `queue_push`. -/
def queuePush (heap : NodeHeap μ β) (q : Queue) (qnode : Option NodeAddr) :
    Except QueueFault (NodeHeap μ β × Queue × ℤ) :=
  match qnode with
  | none => .ok (heap, q, -1)
  | some a =>
    let head := if q.head = none then some a else q.head
    match q.tail with
    | none => .ok (heap, ⟨head, some a⟩, 0)
    | some t => do
      let node ← heap.deref t
      .ok (Function.update heap t (some { node with next := some a }), ⟨head, some a⟩, 0)

/-- `queue_is_empty`. -/
def queueIsEmpty (q : Queue) : Bool := q.head = none

/-- `queue_pop`. -/
def queuePop (heap : NodeHeap μ β) (q : Queue) : Except QueueFault (Queue × Option NodeAddr) :=
  match q.head with
  | none => .ok (q, none)
  | some a => do
    let tail := if q.head = q.tail then none else q.tail
    let node ← heap.deref a
    .ok (⟨node.next, tail⟩, some a)

/-! ### The shape of a queue -/

/-- The nodes of the queue are `l`: allocated, linked in this order from the head, the last one at
the tail. -/
structure QueueShape (heap : NodeHeap μ β) (q : Queue) (l : List NodeAddr) : Prop where
  chain : Chain heap.next q.head l
  tail_eq : q.tail = l.getLast?
  alloc : ∀ a ∈ l, ∃ node, heap a = some node

namespace NodeHeap

variable {heap : NodeHeap μ β} {a : NodeAddr} {node : QNode μ β}

theorem deref_eq_ok (h : heap a = some node) : heap.deref a = .ok node := by
  rw [deref, h]

theorem next_eq (h : heap a = some node) : heap.next a = node.next := by
  rw [next, h, Option.bind_some]

/-- Writing a node writes its link. -/
theorem next_update (b : Option (QNode μ β)) :
    next (Function.update heap a b) = Function.update heap.next a (b.bind QNode.next) := by
  funext k
  by_cases hk : k = a
  · subst hk
    simp only [next, Function.update_self]
  · simp only [next, Function.update_of_ne hk]

theorem entry_update_of_ne {k : NodeAddr} (hk : k ≠ a) (b : Option (QNode μ β)) :
    entry (Function.update heap a b) k = heap.entry k := by
  simp only [entry, Function.update_of_ne hk]

/-- A node that is linked anew carries what it carried. -/
theorem entry_link (h : heap a = some node) (b : Option NodeAddr) :
    entry (Function.update heap a (some { node with next := b })) = heap.entry := by
  funext k
  by_cases hk : k = a
  · subst hk
    simp only [entry, Function.update_self, h, Option.map_some, QNode.contents]
  · exact entry_update_of_ne hk _

end NodeHeap

namespace QueueShape

variable {heap : NodeHeap μ β} {q : Queue} {l : List NodeAddr} {a : NodeAddr}

theorem queueCreat (heap : NodeHeap μ β) : QueueShape heap queueCreat [] :=
  ⟨rfl, rfl, fun _ ha => nomatch ha⟩

theorem head_eq_none_iff (h : QueueShape heap q l) : q.head = none ↔ l = [] :=
  h.chain.eq_nil_iff.symm

theorem tail_eq_none_iff (h : QueueShape heap q l) : q.tail = none ↔ l = [] := by
  rw [h.tail_eq, List.getLast?_eq_none_iff]

/-- The shape is a matter of the nodes of the queue. -/
theorem congr {heap' : NodeHeap μ β} (h : QueueShape heap q l)
    (hheap : ∀ a ∈ l, heap' a = heap a) : QueueShape heap' q l where
  chain := h.chain.congr fun a ha => by rw [NodeHeap.next, hheap a ha, NodeHeap.next]
  tail_eq := h.tail_eq
  alloc a ha := by
    rw [hheap a ha]
    exact h.alloc a ha

/-- The call `queue_push` returns and puts the node at the end; only the last node of the queue is
written, and what the nodes carry stays. -/
theorem queuePush_eq (h : QueueShape heap q l) (ha : a ∉ l) (hnode : ∃ node, heap a = some node)
    (hnull : heap.next a = none) : ∃ heap' q', queuePush heap q (some a) = .ok (heap', q', 0) ∧
      QueueShape heap' q' (l ++ [a]) ∧ NodeHeap.entry heap' = heap.entry ∧
      (∀ k ∉ l, heap' k = heap k) ∧ ∀ k, heap' k = none ↔ heap k = none := by
  rcases List.eq_nil_or_concat' l with rfl | ⟨l, t, rfl⟩
  · -- An empty queue: both ends become the node.
    have hhead := h.head_eq_none_iff.mpr rfl
    have htail := h.tail_eq_none_iff.mpr rfl
    refine ⟨heap, ⟨some a, some a⟩, ?_, ⟨.singleton hnull, rfl, ?_⟩, rfl, fun _ _ => rfl,
      fun _ => Iff.rfl⟩
    · simp only [queuePush, htail, if_pos hhead]
    · intro k hk
      obtain rfl := List.mem_singleton.mp hk
      exact hnode
  · -- The last node is linked to the new one.
    have hlast : (l ++ [t]).getLast? = some t := List.getLast?_concat ..
    have htail : q.tail = some t := h.tail_eq.trans hlast
    have hhead : q.head ≠ none := fun hnone => by simpa using h.head_eq_none_iff.mp hnone
    obtain ⟨node, ht⟩ := h.alloc t (by simp)
    refine ⟨Function.update heap t (some { node with next := some a }), ⟨q.head, some a⟩, ?_,
      ⟨?_, by simp, ?_⟩, NodeHeap.entry_link ht _, ?_, ?_⟩
    · simp only [queuePush, htail, if_neg hhead, NodeHeap.deref_eq_ok ht]
      rfl
    · rw [NodeHeap.next_update]
      exact h.chain.append_link hlast ha hnull
    · intro k hk
      by_cases hkt : k = t
      · subst hkt
        exact ⟨_, Function.update_self ..⟩
      · rw [Function.update_of_ne hkt]
        rcases List.mem_append.mp hk with hk | hk
        · exact h.alloc k hk
        · obtain rfl := List.mem_singleton.mp hk
          exact hnode
    · intro k hk
      have hkt : k ≠ t := by
        rintro rfl
        exact hk (by simp)
      exact Function.update_of_ne hkt ..
    · intro k
      by_cases hkt : k = t
      · subst hkt
        simp only [Function.update_self, ht, reduceCtorEq]
      · rw [Function.update_of_ne hkt]

/-- The call `queue_pop` on an empty queue returns the null pointer. -/
theorem queuePop_nil (h : QueueShape heap q []) : queuePop heap q = .ok (q, none) := by
  simp only [queuePop, h.head_eq_none_iff.mpr rfl]

/-- The call `queue_pop` returns and takes the first node. -/
theorem queuePop_cons (h : QueueShape heap q (a :: l)) :
    ∃ q', queuePop heap q = .ok (q', some a) ∧ QueueShape heap q' l := by
  obtain ⟨hhead, hchain⟩ := h.chain
  obtain ⟨node, ha⟩ := h.alloc a List.mem_cons_self
  rw [NodeHeap.next_eq ha] at hchain
  refine ⟨⟨node.next, if q.head = q.tail then none else q.tail⟩, ?_, hchain, ?_,
    fun k hk => h.alloc k (List.mem_cons_of_mem a hk)⟩
  · simp only [queuePop, hhead, NodeHeap.deref_eq_ok ha]
    rfl
  · -- The two ends meet just when the node was the only one.
    rcases List.eq_nil_or_concat' l with rfl | ⟨l, t, rfl⟩
    · simp only [hhead, h.tail_eq, List.getLast?_singleton, if_true, List.getLast?_nil]
    · have hlast : (a :: (l ++ [t])).getLast? = some t := by
        rw [← List.cons_append, List.getLast?_concat]
      have htail : q.tail = some t := h.tail_eq.trans hlast
      have hne : a ≠ t := by
        rintro rfl
        exact (List.nodup_cons.mp h.chain.nodup).1 (by simp)
      simp only [hhead, htail, Option.some.injEq, hne, if_false]
      simp

end QueueShape

/-! ### Producers and consumers -/

/-- The threads at a queue: what each of them holds in its variable for a node. -/
structure QueueSystem (μ β : Type) where
  heap : NodeHeap μ β
  q : Queue
  /-- The node that a producer has created and not yet pushed. -/
  producer : ℕ → Option NodeAddr
  /-- The node that a consumer has popped and not yet freed. -/
  consumer : ℕ → Option NodeAddr

/-- A call of a thread. -/
inductive QueueCall (μ β : Type) where
  /-- Producer `p` calls `qnode_create` with no next node, and `malloc` returns `addr`. -/
  | create (p : ℕ) (addr : Option NodeAddr) (type : UInt8) (msgHead : μ) (buffer : β)
  /-- Producer `p` calls `queue_push` with its node. -/
  | push (p : ℕ)
  /-- Consumer `c` calls `queue_pop`. -/
  | pop (c : ℕ)
  /-- Consumer `c` frees its node. -/
  | free (c : ℕ)

/-- What the calls were made with and returned. -/
inductive QueueEvent (μ β : Type) where
  | pushed (qnode : Option (NodeAddr × Option (UInt8 × μ × β))) (ret : ℤ)
  | popped (ret : Option (NodeAddr × Option (UInt8 × μ × β)))

/-- The nodes that were pushed, with what they carried, in the order of the lock. -/
def pushedNodes (events : List (QueueEvent μ β)) : List (NodeAddr × Option (UInt8 × μ × β)) :=
  events.filterMap fun
    | .pushed qnode _ => qnode
    | .popped _ => none

/-- The nodes that were popped, with what they carried. -/
def poppedNodes (events : List (QueueEvent μ β)) : List (NodeAddr × Option (UInt8 × μ × β)) :=
  events.filterMap fun
    | .pushed _ _ => none
    | .popped ret => ret

namespace QueueSystem

/-- Before the first call. -/
def start : QueueSystem μ β := ⟨fun _ => none, queueCreat, fun _ => none, fun _ => none⟩

/-- The allocator returns memory that is not in use. -/
def Fresh (s : QueueSystem μ β) : QueueCall μ β → Prop
  | .create _ (some a) _ _ _ => s.heap a = none
  | _ => True

/-- One call; what `queue_push` and `queue_pop` do is done under the lock. -/
def step (s : QueueSystem μ β) :
    QueueCall μ β → Except QueueFault (QueueSystem μ β × List (QueueEvent μ β))
  | .create p addr type msgHead buffer =>
    let r := qnodeCreate s.heap addr type msgHead buffer none
    .ok ({ s with heap := r.1, producer := Function.update s.producer p r.2 }, [])
  | .push p => do
    let (heap, q, ret) ← queuePush s.heap s.q (s.producer p)
    .ok ({ s with heap, q, producer := Function.update s.producer p none },
      [.pushed ((s.producer p).map s.heap.entry) ret])
  | .pop c => do
    let (q, ret) ← queuePop s.heap s.q
    .ok ({ s with q, consumer := Function.update s.consumer c ret },
      [.popped (ret.map s.heap.entry)])
  | .free c =>
    match s.consumer c with
    | none => .ok (s, [])
    | some a => .ok ({ s with heap := Function.update s.heap a none,
                              consumer := Function.update s.consumer c none }, [])

end QueueSystem

/-- The calls of all threads at one queue. -/
def lockQueueMachine : Machine (QueueSystem μ β) (QueueCall μ β) (QueueEvent μ β) QueueFault :=
  ⟨QueueSystem.step⟩

/-- Who holds a node. -/
inductive Holder where
  | producer (p : ℕ)
  | queue
  | consumer (c : ℕ)
deriving DecidableEq

/-- The nodes of a holder, those of the queue being `l`. -/
def QueueSystem.Holds (s : QueueSystem μ β) (l : List NodeAddr) : Holder → NodeAddr → Prop
  | .producer p, a => s.producer p = some a
  | .queue, a => a ∈ l
  | .consumer c, a => s.consumer c = some a

/-- The queue has the shape of the list of its nodes, every node has one holder, and what was
pushed is what was popped and, behind it, the list. -/
structure QueueInv (events : List (QueueEvent μ β)) (s : QueueSystem μ β) (l : List NodeAddr) :
    Prop where
  shape : QueueShape s.heap s.q l
  held_alloc : ∀ h a, s.Holds l h a → ∃ node, s.heap a = some node
  held_unique : ∀ h h' a, s.Holds l h a → s.Holds l h' a → h = h'
  unlinked : ∀ p a, s.producer p = some a → s.heap.next a = none
  fifo : poppedNodes events ++ l.map s.heap.entry = pushedNodes events

namespace QueueInv

variable {events : List (QueueEvent μ β)} {s : QueueSystem μ β} {l : List NodeAddr}

theorem start : QueueInv ([] : List (QueueEvent μ β)) QueueSystem.start [] where
  shape := .queueCreat _
  held_alloc h a ha := by
    cases h <;> cases ha
  held_unique h h' a ha := by
    cases h <;> cases ha
  unlinked p a ha := by cases ha
  fifo := rfl

/-- Memory that is not allocated is held by nobody. -/
theorem not_holds (h : QueueInv events s l) {a : NodeAddr} (ha : s.heap a = none) (o : Holder) :
    ¬s.Holds l o a := by
  intro hold
  obtain ⟨node, hnode⟩ := h.held_alloc o a hold
  rw [ha] at hnode
  cases hnode

/-- When a node goes to a holder and nobody else gets one, every node has one holder still. -/
theorem held_unique_of_move {P P' : Holder → NodeAddr → Prop} {o₀ : Holder} {a : NodeAddr}
    (hP : ∀ o o' k, P o k → P o' k → o = o')
    (hmove : ∀ o k, P' o k → o = o₀ ∧ k = a ∨ k ≠ a ∧ P o k) :
    ∀ o o' k, P' o k → P' o' k → o = o' := by
  intro o o' k hk hk'
  rcases hmove o k hk with ⟨rfl, rfl⟩ | ⟨hne, hold⟩
  · rcases hmove o' k hk' with ⟨rfl, -⟩ | ⟨hne, -⟩
    · rfl
    · exact absurd rfl hne
  · rcases hmove o' k hk' with ⟨-, rfl⟩ | ⟨-, hold'⟩
    · exact absurd rfl hne
    · exact hP o o' k hold hold'

/-- A new node is held by its producer. -/
theorem create (h : QueueInv events s l) (p : ℕ) {a : NodeAddr} (ha : s.heap a = none)
    (node : QNode μ β) (hnull : node.next = none) :
    QueueInv events { s with heap := Function.update s.heap a (some node),
                             producer := Function.update s.producer p (some a) } l := by
  have hnot := h.not_holds ha
  have hmove : ∀ o k, QueueSystem.Holds { s with
        heap := Function.update s.heap a (some node),
        producer := Function.update s.producer p (some a) } l o k →
      o = .producer p ∧ k = a ∨ k ≠ a ∧ s.Holds l o k := by
    intro o k hk
    by_cases hp : o = .producer p
    · subst hp
      refine .inl ⟨rfl, ?_⟩
      simpa only [QueueSystem.Holds, Function.update_self, Option.some.injEq, eq_comm] using hk
    · have hold : s.Holds l o k := by
        cases o with
        | producer p' =>
          have hne : p' ≠ p := fun he => hp (congrArg Holder.producer he)
          simpa only [QueueSystem.Holds, Function.update_of_ne hne] using hk
        | queue => exact hk
        | consumer c => exact hk
      refine .inr ⟨?_, hold⟩
      rintro rfl
      exact hnot o hold
  have hne : ∀ k ∈ l, k ≠ a := by
    rintro k hk rfl
    exact hnot .queue hk
  refine ⟨h.shape.congr fun k hk => Function.update_of_ne (hne k hk) _ _, ?_,
    held_unique_of_move h.held_unique hmove, ?_, ?_⟩
  · intro o k hk
    rcases hmove o k hk with ⟨-, rfl⟩ | ⟨hka, hk⟩
    · exact ⟨node, Function.update_self ..⟩
    · simp only [Function.update_of_ne hka]
      exact h.held_alloc o k hk
  · intro p' k hk
    rcases hmove (.producer p') k hk with ⟨-, rfl⟩ | ⟨hka, hk⟩
    · rw [NodeHeap.next_update, Function.update_self, Option.bind_some, hnull]
    · rw [NodeHeap.next_update, Function.update_of_ne hka]
      exact h.unlinked p' k hk
  · rw [← h.fifo]
    congr 1
    exact List.map_congr_left fun k hk => NodeHeap.entry_update_of_ne (hne k hk) _

/-- A thread that holds nothing afterwards takes no part in the invariant. -/
theorem drop (h : QueueInv events s l) {s' : QueueSystem μ β} (hheap : s'.heap = s.heap)
    (hq : s'.q = s.q) (hsub : ∀ o k, s'.Holds l o k → s.Holds l o k) : QueueInv events s' l where
  shape := by
    rw [hheap, hq]
    exact h.shape
  held_alloc o k hk := by
    rw [hheap]
    exact h.held_alloc o k (hsub o k hk)
  held_unique o o' k hk hk' := h.held_unique o o' k (hsub o k hk) (hsub o' k hk')
  unlinked p k hk := by
    rw [hheap]
    exact h.unlinked p k (hsub (.producer p) k hk)
  fifo := by
    rw [hheap]
    exact h.fifo

theorem drop_producer (h : QueueInv events s l) (p : ℕ) :
    QueueInv events { s with producer := Function.update s.producer p none } l := by
  refine h.drop rfl rfl fun o k hk => ?_
  cases o with
  | producer p' =>
    by_cases hp : p' = p
    · subst hp
      simp only [QueueSystem.Holds, Function.update_self, reduceCtorEq] at hk
    · simpa only [QueueSystem.Holds, Function.update_of_ne hp] using hk
  | queue => exact hk
  | consumer c => exact hk

theorem drop_consumer (h : QueueInv events s l) (c : ℕ) :
    QueueInv events { s with consumer := Function.update s.consumer c none } l := by
  refine h.drop rfl rfl fun o k hk => ?_
  cases o with
  | producer p => exact hk
  | queue => exact hk
  | consumer c' =>
    by_cases hc : c' = c
    · subst hc
      simp only [QueueSystem.Holds, Function.update_self, reduceCtorEq] at hk
    · simpa only [QueueSystem.Holds, Function.update_of_ne hc] using hk

/-- A call that neither pushes nor pops a node does not count. -/
theorem append_event (h : QueueInv events s l) {e : QueueEvent μ β} (hpop : poppedNodes [e] = [])
    (hpush : pushedNodes [e] = []) : QueueInv (events ++ [e]) s l :=
  { h with
    fifo := by
      have hfifo := h.fifo
      simp only [poppedNodes, pushedNodes] at hpop hpush hfifo ⊢
      rw [List.filterMap_append, List.filterMap_append, hpop, hpush, List.append_nil,
        List.append_nil, hfifo] }

/-- The node of a producer goes to the end of the queue. -/
theorem push (h : QueueInv events s l) {p : ℕ} {a : NodeAddr} (ha : s.producer p = some a) :
    ∃ heap' q', queuePush s.heap s.q (some a) = .ok (heap', q', 0) ∧
      QueueInv (events ++ [.pushed (some (s.heap.entry a)) 0])
        { s with heap := heap', q := q', producer := Function.update s.producer p none }
        (l ++ [a]) := by
  have hout : ∀ o, s.Holds l o a → o = .producer p :=
    fun o ho => h.held_unique o (.producer p) a ho ha
  have hal : a ∉ l := fun hmem => Holder.noConfusion (hout .queue hmem)
  obtain ⟨heap', q', heq, hshape, hentry, hsame, halloc⟩ :=
    h.shape.queuePush_eq hal (h.held_alloc (.producer p) a ha) (h.unlinked p a ha)
  have hmove : ∀ o k, QueueSystem.Holds { s with
        heap := heap', q := q', producer := Function.update s.producer p none } (l ++ [a]) o k →
      o = .queue ∧ k = a ∨ k ≠ a ∧ s.Holds l o k := by
    intro o k hk
    cases o with
    | producer p' =>
      by_cases hp : p' = p
      · subst hp
        simp only [QueueSystem.Holds, Function.update_self, reduceCtorEq] at hk
      · simp only [QueueSystem.Holds, Function.update_of_ne hp] at hk
        refine .inr ⟨?_, hk⟩
        rintro rfl
        exact hp (Holder.producer.inj (hout (.producer p') hk))
    | queue =>
      rcases List.mem_append.mp hk with hmem | hmem
      · refine .inr ⟨?_, hmem⟩
        rintro rfl
        exact hal hmem
      · exact .inl ⟨rfl, List.mem_singleton.mp hmem⟩
    | consumer c =>
      refine .inr ⟨?_, hk⟩
      rintro rfl
      exact Holder.noConfusion (hout (.consumer c) hk)
  refine ⟨heap', q', heq, hshape, ?_, held_unique_of_move h.held_unique hmove, ?_, ?_⟩
  · intro o k hk
    have hold : ∃ o', s.Holds l o' k := by
      rcases hmove o k hk with ⟨-, rfl⟩ | ⟨-, hk⟩
      · exact ⟨.producer p, ha⟩
      · exact ⟨o, hk⟩
    obtain ⟨o', hold⟩ := hold
    obtain ⟨node, hnode⟩ := h.held_alloc o' k hold
    refine Option.ne_none_iff_exists'.mp fun hnone => ?_
    rw [(halloc k).mp hnone] at hnode
    cases hnode
  · intro p' k hk
    rcases hmove (.producer p') k hk with ⟨hp, -⟩ | ⟨-, hk⟩
    · cases hp
    · -- A producer's node is not in the queue, so that the call has not linked it.
      have hkl : k ∉ l := fun hmem =>
        Holder.noConfusion (h.held_unique .queue (.producer p') k hmem hk)
      exact (congrArg (Option.bind · QNode.next) (hsame k hkl)).trans (h.unlinked p' k hk)
  · simp only [hentry, List.map_append, ← List.append_assoc, poppedNodes, pushedNodes,
      List.filterMap_append, List.filterMap_cons, List.filterMap_nil, List.map_cons, List.map_nil,
      List.append_nil]
    exact congrArg (· ++ [s.heap.entry a]) h.fifo

/-- The first node of the queue goes to the consumer. -/
theorem pop {a : NodeAddr} (h : QueueInv events s (a :: l)) (c : ℕ) :
    ∃ q', queuePop s.heap s.q = .ok (q', some a) ∧
      QueueInv (events ++ [.popped (some (s.heap.entry a))])
        { s with q := q', consumer := Function.update s.consumer c (some a) } l := by
  have hout : ∀ o, s.Holds (a :: l) o a → o = .queue :=
    fun o ho => h.held_unique o .queue a ho List.mem_cons_self
  have hal : a ∉ l := (List.nodup_cons.mp h.shape.chain.nodup).1
  obtain ⟨q', heq, hshape⟩ := h.shape.queuePop_cons
  have hmove : ∀ o k, QueueSystem.Holds { s with
        q := q', consumer := Function.update s.consumer c (some a) } l o k →
      o = .consumer c ∧ k = a ∨ k ≠ a ∧ s.Holds (a :: l) o k := by
    intro o k hk
    cases o with
    | producer p =>
      refine .inr ⟨?_, hk⟩
      rintro rfl
      exact Holder.noConfusion (hout (.producer p) hk)
    | queue =>
      refine .inr ⟨?_, List.mem_cons_of_mem a hk⟩
      rintro rfl
      exact hal hk
    | consumer c' =>
      by_cases hc : c' = c
      · subst hc
        refine .inl ⟨rfl, ?_⟩
        simpa only [QueueSystem.Holds, Function.update_self, Option.some.injEq, eq_comm] using hk
      · simp only [QueueSystem.Holds, Function.update_of_ne hc] at hk
        refine .inr ⟨?_, hk⟩
        rintro rfl
        exact Holder.noConfusion (hout (.consumer c') hk)
  refine ⟨q', heq, hshape, ?_, held_unique_of_move h.held_unique hmove,
    fun p k hk => h.unlinked p k hk, ?_⟩
  · intro o k hk
    rcases hmove o k hk with ⟨-, rfl⟩ | ⟨-, hk⟩
    · exact h.held_alloc .queue _ List.mem_cons_self
    · exact h.held_alloc o k hk
  · have hfifo := h.fifo
    simp only [List.map_cons, poppedNodes, pushedNodes] at hfifo
    simp only [poppedNodes, pushedNodes, List.filterMap_append, List.filterMap_cons,
      List.filterMap_nil, List.append_nil, List.append_assoc, List.cons_append, List.nil_append]
    exact hfifo

/-- A consumer frees its node. -/
theorem free (h : QueueInv events s l) {c : ℕ} {a : NodeAddr} (ha : s.consumer c = some a) :
    QueueInv events { s with heap := Function.update s.heap a none,
                             consumer := Function.update s.consumer c none } l := by
  have hout : ∀ o, s.Holds l o a → o = .consumer c :=
    fun o ho => h.held_unique o (.consumer c) a ho ha
  have hkeep := h.drop_consumer c
  have hne : ∀ o k, QueueSystem.Holds { s with
      consumer := Function.update s.consumer c none } l o k → k ≠ a := by
    rintro o k hk rfl
    have ho : o = .consumer c := by
      refine hout o ?_
      cases o with
      | producer p => exact hk
      | queue => exact hk
      | consumer c' =>
        by_cases hc : c' = c
        · rw [hc]
          exact ha
        · simpa only [QueueSystem.Holds, Function.update_of_ne hc] using hk
    subst ho
    simp only [QueueSystem.Holds, Function.update_self, reduceCtorEq] at hk
  refine ⟨hkeep.shape.congr fun k hk => Function.update_of_ne (hne .queue k hk) _ _, ?_,
    hkeep.held_unique, ?_, ?_⟩
  · intro o k hk
    simp only [Function.update_of_ne (hne o k hk)]
    exact hkeep.held_alloc o k hk
  · intro p k hk
    rw [NodeHeap.next_update, Function.update_of_ne (hne (.producer p) k hk)]
    exact hkeep.unlinked p k hk
  · rw [← h.fifo]
    congr 1
    exact List.map_congr_left fun k hk => NodeHeap.entry_update_of_ne (hne .queue k hk) _

end QueueInv

/-- **Step lemma.** Every call returns, and keeps the invariant. -/
theorem QueueInv.step {events : List (QueueEvent μ β)} {s : QueueSystem μ β} {l : List NodeAddr}
    (h : QueueInv events s l) {call : QueueCall μ β} (hfresh : s.Fresh call) :
    ∃ s' o l', s.step call = .ok (s', o) ∧ QueueInv (events ++ o) s' l' := by
  cases call with
  | create p addr type msgHead buffer =>
    cases addr with
    | none =>
      refine ⟨_, _, l, rfl, ?_⟩
      rw [List.append_nil]
      exact h.drop_producer p
    | some a =>
      refine ⟨_, _, l, rfl, ?_⟩
      rw [List.append_nil]
      exact h.create p hfresh _ rfl
  | push p =>
    cases hp : s.producer p with
    | none =>
      refine ⟨{ s with producer := Function.update s.producer p none }, [.pushed none (-1)], l,
        ?_, (h.drop_producer p).append_event rfl rfl⟩
      simp only [QueueSystem.step, hp]
      rfl
    | some a =>
      obtain ⟨heap', q', heq, hinv⟩ := h.push hp
      refine ⟨_, _, l ++ [a], ?_, hinv⟩
      simp only [QueueSystem.step, hp, heq]
      rfl
  | pop c =>
    cases l with
    | nil =>
      refine ⟨{ s with consumer := Function.update s.consumer c none }, [.popped none], [],
        ?_, (h.drop_consumer c).append_event rfl rfl⟩
      simp only [QueueSystem.step, h.shape.queuePop_nil]
      rfl
    | cons a l =>
      obtain ⟨q', heq, hinv⟩ := h.pop c
      refine ⟨_, _, l, ?_, hinv⟩
      simp only [QueueSystem.step, heq]
      rfl
  | free c =>
    cases hc : s.consumer c with
    | none =>
      refine ⟨s, [], l, ?_, ?_⟩
      · simp only [QueueSystem.step, hc]
      · rw [List.append_nil]
        exact h
    | some a =>
      refine ⟨{ s with heap := Function.update s.heap a none,
                       consumer := Function.update s.consumer c none }, [], l, ?_, ?_⟩
      · simp only [QueueSystem.step, hc]
      · rw [List.append_nil]
        exact h.free hc

/-- The invariant along a run. -/
theorem QueueInv.exec {calls : List (QueueCall μ β)} {events : List (QueueEvent μ β)}
    {s : QueueSystem μ β}
    (hrun : lockQueueMachine.Exec QueueSystem.Fresh .start calls events s) :
    ∃ l, QueueInv events s l :=
  hrun.invariant_outputs (P := fun events s => ∃ l, QueueInv events s l) ⟨[], .start⟩
    fun _ _ _ _ _ ⟨_, hinv⟩ hfresh hs => by
      obtain ⟨_, _, l', hs', hinv'⟩ := hinv.step hfresh
      obtain ⟨rfl, rfl⟩ := Prod.mk.inj (Except.ok.inj (hs'.symm.trans hs))
      exact ⟨l', hinv'⟩

/-- **First in, first out.** In whatever order producers and consumers call `queue_push` and
`queue_pop`, the links from the head lead through distinct nodes to the tail, which links to
nothing; the head is null just when the tail is; the popped nodes, and behind them the nodes in the
queue, are the pushed ones in the order of the lock, with what they carried; `queue_pop` returns
null just when there is no node; and no call touches memory that is not allocated. -/
theorem lock_queue_fifo {calls : List (QueueCall μ β)} {events : List (QueueEvent μ β)}
    {s : QueueSystem μ β}
    (hrun : lockQueueMachine.Exec QueueSystem.Fresh .start calls events s) :
    ∃ l : List NodeAddr,
      Chain s.heap.next s.q.head l ∧ l.Nodup ∧ s.q.tail = l.getLast? ∧
      (∀ t, s.q.tail = some t → ∃ node, s.heap t = some node ∧ node.next = none) ∧
      (s.q.head = none ↔ s.q.tail = none) ∧
      poppedNodes events ++ l.map s.heap.entry = pushedNodes events ∧
      (queueIsEmpty s.q = true ↔ l = []) ∧
      (∃ q' ret, queuePop s.heap s.q = .ok (q', ret) ∧ (ret = none ↔ l = [])) ∧
      ∀ call, s.Fresh call → ∃ s' o, lockQueueMachine.step s call = .ok (s', o) := by
  obtain ⟨l, hinv⟩ := QueueInv.exec hrun
  have hshape := hinv.shape
  refine ⟨l, hshape.chain, hshape.chain.nodup, hshape.tail_eq, ?_, ?_, hinv.fifo, ?_, ?_, ?_⟩
  · intro t ht
    have hlast := hshape.tail_eq.symm.trans ht
    obtain ⟨node, hnode⟩ := hshape.alloc t (List.mem_of_getLast? hlast)
    refine ⟨node, hnode, ?_⟩
    rw [← NodeHeap.next_eq hnode]
    exact hshape.chain.next_getLast hlast
  · rw [hshape.head_eq_none_iff, hshape.tail_eq_none_iff]
  · rw [queueIsEmpty, decide_eq_true_iff, hshape.head_eq_none_iff]
  · cases l with
    | nil => exact ⟨s.q, none, hshape.queuePop_nil, iff_of_true rfl rfl⟩
    | cons a l =>
      obtain ⟨q', heq, -⟩ := hshape.queuePop_cons
      exact ⟨q', some a, heq, iff_of_false (Option.some_ne_none a) (List.cons_ne_nil a l)⟩
  · intro call hfresh
    obtain ⟨s', o, -, hs, -⟩ := hinv.step hfresh
    exact ⟨s', o, hs⟩

instance (s : QueueSystem μ β) (call : QueueCall μ β) : Decidable (s.Fresh call) := by
  unfold QueueSystem.Fresh
  split <;> infer_instance

/-- Two producers push; a consumer pops the first node and frees it, and its memory is pushed
again. -/
theorem lock_queue_fifo_run : ∃ (s : QueueSystem Unit ℕ) (events : List (QueueEvent Unit ℕ)),
    lockQueueMachine.Exec QueueSystem.Fresh .start
      [.create 0 (some 7) 0 () 40, .create 1 (some 8) 0 () 41, .push 1, .push 0, .pop 0, .free 0,
        .create 1 (some 8) 0 () 42, .push 1] events s ∧
    s.q = ⟨some 7, some 8⟩ ∧
    ∃ l, Chain s.heap.next s.q.head l ∧
      poppedNodes events ++ l.map s.heap.entry = pushedNodes events := by
  have hrun : ((lockQueueMachine (μ := Unit) (β := ℕ)).run QueueSystem.Fresh .start
      [.create 0 (some 7) 0 () 40, .create 1 (some 8) 0 () 41, .push 1, .push 0, .pop 0, .free 0,
        .create 1 (some 8) 0 () 42, .push 1]).map (fun p => p.1.q) = some ⟨some 7, some 8⟩ := by
    decide +kernel
  obtain ⟨s, events, hrun, hq⟩ := lockQueueMachine.exec_of_run_map hrun
  obtain ⟨l, hchain, -, -, -, -, hfifo, -⟩ := lock_queue_fifo hrun
  exact ⟨s, events, hrun, hq, l, hchain, hfifo⟩

end GameServer
