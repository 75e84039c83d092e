import GameServer.Library.Critical
import GameServer.Queue.LockQueue

/-!
# The lines of `queue_push` and `queue_pop`

`lockQueueMachine` takes each call of `queue_push` and of `queue_pop` as one step. Here the calls
run line by line: a thread takes the lock of `spin_lock.h`, a word that is tested and set at once,
and reads and writes `head`, `tail` and the links one after the other, while the other threads
create and free nodes, wait for the lock, or come to it. (Built without `USE_SPIN_LOCK` the lock is
a mutex: a thread that finds it taken sleeps, where here it takes steps that change nothing.)

Every interleaving of the lines is a sequence of whole calls, in the order in which they return, so
that what holds of `lockQueueMachine` holds of the code. What the lines have done so far is a
function of the queue before the call (`pushReached`, `popReached`); `Midway` says that a thread
under the lock has come so far, and that the rest of the memory is as without it.

## Main definitions

* `PushLine`, `pushLine`, `PopLine`, `popLine` : the lines under the lock.
* `lockedQueue`, `spinQueueMachine` : the threads at the lines.
* `pushReached`, `popReached`, `Midway`.

## Main results

* `lockedQueue_rule` : the lines under the lock do what the calls do.
* `queue_calls_atomic` : every interleaving is a run of `lockQueueMachine`.
* `queue_lock_released` : mutual exclusion, and the lock is given back.
-/

namespace GameServer

variable {μ β : Type}

/-! ### The code -/

/-- The lines of `queue_push` under the lock. -/
inductive PushLine where
  /-- `if (q->head == NULL)` -/
  | testHead
  /-- `q->head = qnode;` -/
  | setHead
  /-- `if (q->tail == NULL)` -/
  | testTail
  /-- `q->tail = qnode;` where there was no tail -/
  | setTail
  /-- `q->tail->next = qnode;` -/
  | link
  /-- `q->tail = qnode;` behind the old tail -/
  | moveTail
deriving DecidableEq, Repr

/-- One line of `queue_push`, and the line that follows; none does where the lock is next. -/
def pushLine (heap : NodeHeap μ β) (q : Queue) (qnode : NodeAddr) :
    PushLine → Except QueueFault (NodeHeap μ β × Queue × Option PushLine)
  | .testHead => .ok (heap, q, some (if q.head = none then .setHead else .testTail))
  | .setHead => .ok (heap, { q with head := some qnode }, some .testTail)
  | .testTail => .ok (heap, q, some (if q.tail = none then .setTail else .link))
  | .setTail => .ok (heap, { q with tail := some qnode }, none)
  | .link =>
    match q.tail with
    | none => .error .dangling
    | some t => do
      let node ← heap.deref t
      .ok (Function.update heap t (some { node with next := some qnode }), q, some .moveTail)
  | .moveTail => .ok (heap, { q with tail := some qnode }, none)

/-- The lines of `queue_pop` under the lock; `qtmp` is its variable. -/
inductive PopLine where
  /-- `q_node* qtmp = q->head;` and the test of `qtmp` -/
  | readHead
  /-- `if(q->head == q->tail)` -/
  | testEnds (qtmp : NodeAddr)
  /-- `q->tail = NULL;` -/
  | clearTail (qtmp : NodeAddr)
  /-- `q->head = q->head->next;` and `ret = qtmp;` -/
  | moveHead (qtmp : NodeAddr)
deriving DecidableEq, Repr

/-- One line of `queue_pop`, and the line that follows, or `ret` where the lock is next. -/
def popLine (heap : NodeHeap μ β) (q : Queue) :
    PopLine → Except QueueFault (Queue × (PopLine ⊕ Option NodeAddr))
  | .readHead =>
    .ok (q, match q.head with
      | none => .inr none
      | some a => .inl (.testEnds a))
  | .testEnds a => .ok (q, .inl (if q.head = q.tail then .clearTail a else .moveHead a))
  | .clearTail a => .ok ({ q with tail := none }, .inl (.moveHead a))
  | .moveHead a =>
    match q.head with
    | none => .error .dangling
    | some h => do
      let node ← heap.deref h
      .ok ({ q with head := node.next }, .inr (some a))

/-- A thread at a queue. -/
inductive QueueThread where
  | producer (p : ℕ)
  | consumer (c : ℕ)
deriving DecidableEq, Repr

/-- Who makes a call. -/
def QueueCall.caller : QueueCall μ β → QueueThread
  | .create p _ _ _ _ => .producer p
  | .push p => .producer p
  | .pop c => .consumer c
  | .free c => .consumer c

/-- Where a thread is under the lock. -/
inductive QueueLine where
  | push (p : ℕ) (qnode : NodeAddr) (line : PushLine)
  | pop (c : ℕ) (line : PopLine)
deriving DecidableEq, Repr

namespace QueueSystem

/-- After a line of `queue_push`: when it was the last, the producer has handed over its node. -/
def pushNext (s : QueueSystem μ β) (p : ℕ) (qnode : NodeAddr) :
    NodeHeap μ β × Queue × Option PushLine →
      QueueSystem μ β × (List (QueueEvent μ β) ⊕ QueueLine)
  | (heap, q, some line) => ({ s with heap, q }, .inr (.push p qnode line))
  | (heap, q, none) =>
    ({ s with heap, q, producer := Function.update s.producer p none },
      .inl [.pushed (some (heap.entry qnode)) 0])

/-- After a line of `queue_pop`: when it was the last, the consumer has the node. -/
def popNext (s : QueueSystem μ β) (c : ℕ) :
    Queue × (PopLine ⊕ Option NodeAddr) → QueueSystem μ β × (List (QueueEvent μ β) ⊕ QueueLine)
  | (q, .inl line) => ({ s with q }, .inr (.pop c line))
  | (q, .inr ret) =>
    ({ s with q, consumer := Function.update s.consumer c ret },
      .inl [.popped (ret.map s.heap.entry)])

end QueueSystem

/-- The calls with the lock. `qnode_create` and `free` do without it, and so does `queue_push` when
it is given the null pointer. -/
def lockedQueue : Critical QueueThread (QueueCall μ β) QueueLine (QueueSystem μ β)
    (QueueEvent μ β) QueueFault where
  caller := QueueCall.caller
  enter call s :=
    match call with
    | .create p addr type msgHead buffer =>
      (s.step (.create p addr type msgHead buffer)).map fun r => (r.1, .inl r.2)
    | .push p =>
      match s.producer p with
      | none =>
        .ok ({ s with producer := Function.update s.producer p none }, .inl [.pushed none (-1)])
      | some a => .ok (s, .inr (.push p a .testHead))
    | .pop c => .ok (s, .inr (.pop c .readHead))
    | .free c => (s.step (.free c)).map fun r => (r.1, .inl r.2)
  inner line s :=
    match line with
    | .push p a line => (pushLine s.heap s.q a line).map (s.pushNext p a)
    | .pop c line => (popLine s.heap s.q line).map (s.popNext c)

/-- The threads at the lines of the calls; the outputs are the calls that return. -/
def spinQueueMachine : Machine
    (Critical.State QueueThread (QueueCall μ β) QueueLine (QueueSystem μ β) (QueueEvent μ β))
    (Critical.Input QueueThread (QueueCall μ β)) (QueueCall μ β × List (QueueEvent μ β))
    QueueFault :=
  lockedQueue.machine

/-! ### How far a call has come -/

/-- The tail of a queue, if there is one, linked to a node. -/
def linkTail (heap : NodeHeap μ β) (q : Queue) (qnode : NodeAddr) : NodeHeap μ β :=
  match q.tail with
  | none => heap
  | some t => Function.update heap t ((heap t).map fun node => { node with next := some qnode })

/-- The lines of `queue_push` before `line`, done on a queue; all of them for none. -/
def pushReached (heap : NodeHeap μ β) (q : Queue) (qnode : NodeAddr) :
    Option PushLine → NodeHeap μ β × Queue
  | some .testHead | some .setHead => (heap, q)
  | some .testTail | some .setTail | some .link => (heap, ⟨some (q.head.getD qnode), q.tail⟩)
  | some .moveTail => (linkTail heap q qnode, ⟨some (q.head.getD qnode), q.tail⟩)
  | none => (linkTail heap q qnode, ⟨some (q.head.getD qnode), some qnode⟩)

/-- The tests that have led to a line of `queue_push`. -/
def PushLine.Guard (q : Queue) : PushLine → Prop
  | .setHead => q.head = none
  | .setTail => q.tail = none
  | .link | .moveTail => q.tail ≠ none
  | .testHead | .testTail => True

/-- The lines of `queue_pop` before `line`, done on a queue. -/
def popReached (q : Queue) : PopLine → Queue
  | .readHead | .testEnds _ | .clearTail _ => q
  | .moveHead _ => { q with tail := if q.head = q.tail then none else q.tail }

/-- The tests that have led to a line of `queue_pop`. -/
def PopLine.Guard (q : Queue) : PopLine → Prop
  | .readHead => True
  | .testEnds a | .moveHead a => q.head = some a
  | .clearTail a => q.head = some a ∧ q.head = q.tail

section Lines

variable {heap : NodeHeap μ β} {q : Queue} {a b : NodeAddr}

theorem linkTail_nil (h : q.tail = none) : linkTail heap q a = heap := by
  rw [linkTail, h]

theorem linkTail_some {t : NodeAddr} {node : QNode μ β} (h : q.tail = some t)
    (ht : heap t = some node) :
    linkTail heap q a = Function.update heap t (some { node with next := some a }) := by
  rw [linkTail, h]
  simp only [ht, Option.map_some]

/-- Linking the tail writes no other node. -/
theorem linkTail_update (hb : q.tail ≠ some b) (v : Option (QNode μ β)) :
    linkTail (Function.update heap b v) q a = Function.update (linkTail heap q a) b v := by
  cases ht : q.tail with
  | none => rw [linkTail_nil ht, linkTail_nil ht]
  | some t =>
    have hne : t ≠ b := fun he => hb (ht.trans (congrArg some he))
    simp only [linkTail, ht, Function.update_of_ne hne]
    exact (Function.update_comm hne ..).symm

/-- Linking the tail allocates and frees nothing, and leaves what the nodes carry. -/
theorem linkTail_eq_none_iff {k : NodeAddr} : linkTail heap q a k = none ↔ heap k = none := by
  cases ht : q.tail with
  | none => rw [linkTail_nil ht]
  | some t =>
    by_cases hk : k = t
    · subst hk
      simp only [linkTail, ht, Function.update_self, Option.map_eq_none_iff]
    · simp only [linkTail, ht, Function.update_of_ne hk]

theorem entry_linkTail : (linkTail heap q a).entry = heap.entry := by
  cases ht : q.tail with
  | none => rw [linkTail_nil ht]
  | some t =>
    cases hnode : heap t with
    | none =>
      simp only [linkTail, ht, hnode, Option.map_none]
      rw [← hnode, Function.update_eq_self]
    | some node =>
      rw [linkTail_some ht hnode]
      exact NodeHeap.entry_link hnode _

/-- All lines together are `queue_push`. -/
theorem queuePush_eq_reached (htail : ∀ t, q.tail = some t → ∃ node, heap t = some node) :
    queuePush heap q (some a) =
      .ok ((pushReached heap q a none).1, (pushReached heap q a none).2, 0) := by
  have hhead : (if q.head = none then some a else q.head) = some (q.head.getD a) := by
    cases q.head <;> rfl
  cases ht : q.tail with
  | none => simp only [queuePush, ht, hhead, pushReached, linkTail_nil ht]
  | some t =>
    obtain ⟨node, hnode⟩ := htail t ht
    simp only [queuePush, ht, hhead, pushReached, linkTail_some ht hnode,
      NodeHeap.deref_eq_ok hnode]
    rfl

/-- **Line lemma.** A line of `queue_push` leads from one place to the next. -/
theorem pushLine_reached (htail : ∀ t, q.tail = some t → ∃ node, heap t = some node)
    {line : PushLine} (hline : line.Guard q) :
    ∃ next, pushLine (pushReached heap q a (some line)).1 (pushReached heap q a (some line)).2 a
        line = .ok ((pushReached heap q a next).1, (pushReached heap q a next).2, next) ∧
      ∀ line', next = some line' → line'.Guard q := by
  cases line with
  | testHead =>
    cases hh : q.head with
    | none =>
      refine ⟨some .setHead, ?_, ?_⟩
      · simp only [pushLine, pushReached, hh, if_true]
      · rintro _ ⟨⟩
        exact hh
    | some h =>
      refine ⟨some .testTail, ?_, ?_⟩
      · obtain ⟨head, tail⟩ := q
        obtain rfl : head = some h := hh
        simp only [pushLine, pushReached, reduceCtorEq, if_false, Option.getD_some]
      · rintro _ ⟨⟩
        trivial
  | setHead =>
    refine ⟨some .testTail, ?_, ?_⟩
    · obtain ⟨head, tail⟩ := q
      obtain rfl : head = none := hline
      rfl
    · rintro _ ⟨⟩
      trivial
  | testTail =>
    cases ht : q.tail with
    | none =>
      refine ⟨some .setTail, ?_, ?_⟩
      · simp only [pushLine, pushReached, ht, if_true]
      · rintro _ ⟨⟩
        exact ht
    | some t =>
      refine ⟨some .link, ?_, ?_⟩
      · simp only [pushLine, pushReached, ht, reduceCtorEq, if_false]
      · rintro _ ⟨⟩ hnone
        cases ht.symm.trans hnone
  | setTail =>
    refine ⟨none, ?_, fun _ h => nomatch h⟩
    simp only [pushLine, pushReached, linkTail_nil hline]
  | link =>
    obtain ⟨t, ht⟩ := Option.ne_none_iff_exists'.mp hline
    obtain ⟨node, hnode⟩ := htail t ht
    refine ⟨some .moveTail, ?_, ?_⟩
    · simp only [pushLine, pushReached, ht, linkTail_some ht hnode, NodeHeap.deref_eq_ok hnode]
      rfl
    · rintro _ ⟨⟩
      exact hline
  | moveTail => exact ⟨none, rfl, fun _ h => nomatch h⟩

/-- The queue after all lines of `queue_pop`. -/
def popDone (heap : NodeHeap μ β) (q : Queue) : Queue :=
  match q.head with
  | none => q
  | some a => ⟨heap.next a, if q.head = q.tail then none else q.tail⟩

/-- All lines together are `queue_pop`. -/
theorem queuePop_eq_done (hhead : ∀ h, q.head = some h → ∃ node, heap h = some node) :
    queuePop heap q = .ok (popDone heap q, q.head) := by
  cases hh : q.head with
  | none => simp only [queuePop, popDone, hh]
  | some h =>
    obtain ⟨node, hnode⟩ := hhead h hh
    simp only [queuePop, popDone, hh, NodeHeap.deref_eq_ok hnode, NodeHeap.next_eq hnode]
    rfl

/-- A node that is not the head may change while `queue_pop` runs. -/
theorem popDone_update (hb : q.head ≠ some b) (v : Option (QNode μ β)) :
    popDone (Function.update heap b v) q = popDone heap q := by
  cases hh : q.head with
  | none => simp only [popDone, hh]
  | some h =>
    have hne : h ≠ b := fun he => hb (hh.trans (congrArg some he))
    simp only [popDone, hh, NodeHeap.next_update, Function.update_of_ne hne]

/-- **Line lemma.** A line of `queue_pop` leads from one place to the next, or to the end. -/
theorem popLine_reached (hhead : ∀ h, q.head = some h → ∃ node, heap h = some node)
    {line : PopLine} (hline : line.Guard q) :
    (∃ line', popLine heap (popReached q line) line = .ok (popReached q line', .inl line') ∧
      line'.Guard q) ∨
    popLine heap (popReached q line) line = .ok (popDone heap q, .inr q.head) := by
  cases line with
  | readHead =>
    cases hh : q.head with
    | none =>
      right
      simp only [popLine, popReached, popDone, hh]
    | some h =>
      refine .inl ⟨.testEnds h, ?_, hh⟩
      simp only [popLine, popReached, hh]
  | testEnds a =>
    left
    by_cases he : q.head = q.tail
    · exact ⟨.clearTail a, congrArg _ (congrArg _ (congrArg _ (if_pos he))), hline, he⟩
    · refine ⟨.moveHead a, ?_, hline⟩
      simp only [popLine, popReached, he, if_false]
  | clearTail a =>
    refine .inl ⟨.moveHead a, ?_, hline.1⟩
    simp only [popLine, popReached, hline.2, if_true]
  | moveHead a =>
    right
    obtain ⟨node, hnode⟩ := hhead a hline
    simp only [popLine, popReached, popDone, show q.head = some a from hline,
      NodeHeap.deref_eq_ok hnode, NodeHeap.next_eq hnode]
    rfl

end Lines

namespace QueueInv

variable {events : List (QueueEvent μ β)} {s : QueueSystem μ β} {l : List NodeAddr}

theorem tail_mem (h : QueueInv events s l) {t : NodeAddr} (ht : s.q.tail = some t) : t ∈ l :=
  List.mem_of_getLast? (h.shape.tail_eq.symm.trans ht)

theorem head_mem (h : QueueInv events s l) {a : NodeAddr} (ha : s.q.head = some a) : a ∈ l := by
  cases l with
  | nil => cases ha.symm.trans (h.shape.head_eq_none_iff.mpr rfl)
  | cons b l =>
    obtain rfl := Option.some.inj (ha.symm.trans h.shape.chain.1)
    exact List.mem_cons_self

theorem tail_alloc (h : QueueInv events s l) (t : NodeAddr) (ht : s.q.tail = some t) :
    ∃ node, s.heap t = some node :=
  h.shape.alloc t (h.tail_mem ht)

theorem head_alloc (h : QueueInv events s l) (a : NodeAddr) (ha : s.q.head = some a) :
    ∃ node, s.heap a = some node :=
  h.shape.alloc a (h.head_mem ha)

end QueueInv

/-! ### What the others do meanwhile -/

namespace QueueSystem

/-- The variable of a thread for its node. -/
def set (s : QueueSystem μ β) : QueueThread → Option NodeAddr → QueueSystem μ β
  | .producer p, v => { s with producer := Function.update s.producer p v }
  | .consumer c, v => { s with consumer := Function.update s.consumer c v }

/-- A node that is created or freed. -/
def store (s : QueueSystem μ β) (b : NodeAddr) (v : Option (QNode μ β)) : QueueSystem μ β :=
  { s with heap := Function.update s.heap b v }

theorem set_producer_of_ne {s : QueueSystem μ β} {t : QueueThread} {p : ℕ}
    (h : t ≠ .producer p) (v : Option NodeAddr) : (s.set t v).producer p = s.producer p := by
  cases t with
  | producer p' =>
    have hne : p ≠ p' := fun he => h (congrArg _ he.symm)
    exact Function.update_of_ne hne ..
  | consumer c => rfl

end QueueSystem

/-- A thread under the lock has come so far in its call on the queue of `a`, and the memory is
otherwise that of `a`. -/
inductive Midway (a : QueueSystem μ β) :
    QueueCall μ β → List (QueueEvent μ β) ⊕ QueueLine → QueueSystem μ β → Prop
  | push {p x line} (hx : a.producer p = some x) (hline : line.Guard a.q) :
      Midway a (.push p) (.inr (.push p x line))
        { a with
          heap := (pushReached a.heap a.q x (some line)).1
          q := (pushReached a.heap a.q x (some line)).2 }
  | pushed {p x} (hx : a.producer p = some x) :
      Midway a (.push p) (.inl [.pushed (some (a.heap.entry x)) 0])
        { a with
          heap := (pushReached a.heap a.q x none).1
          q := (pushReached a.heap a.q x none).2
          producer := Function.update a.producer p none }
  | pop {c line} (hline : line.Guard a.q) :
      Midway a (.pop c) (.inr (.pop c line)) { a with q := popReached a.q line }
  | popped {c} :
      Midway a (.pop c) (.inl [.popped (a.q.head.map a.heap.entry)])
        { a with q := popDone a.heap a.q, consumer := Function.update a.consumer c a.q.head }

namespace Midway

variable {a s : QueueSystem μ β} {k : QueueCall μ β} {r : List (QueueEvent μ β) ⊕ QueueLine}
  {t : QueueThread} {b : NodeAddr}

theorem pushReached_update {heap : NodeHeap μ β} {q : Queue} {x : NodeAddr} {b : NodeAddr}
    (hb : q.tail ≠ some b) (v : Option (QNode μ β)) (line : Option PushLine) :
    pushReached (Function.update heap b v) q x line =
      (Function.update (pushReached heap q x line).1 b v, (pushReached heap q x line).2) := by
  rcases line with _ | line
  · simp only [pushReached, linkTail_update hb]
  · cases line <;> simp only [pushReached, linkTail_update hb]

/-- Another thread assigns its variable. -/
theorem set (h : Midway a k r s) (ht : k.caller ≠ t) (v : Option NodeAddr) :
    Midway (a.set t v) k r (s.set t v) := by
  cases h with
  | push hx hline =>
    have hx' := (QueueSystem.set_producer_of_ne ht.symm v).trans hx
    cases t <;> exact .push hx' hline
  | @pushed p x hx =>
    have hx' := (QueueSystem.set_producer_of_ne ht.symm v).trans hx
    cases t with
    | producer p' =>
      have hne : p ≠ p' := fun he => ht (congrArg _ he)
      have hcomm := Function.update_comm hne none v a.producer
      simp only [QueueSystem.set, hcomm]
      exact .pushed hx'
    | consumer c => exact .pushed hx'
  | pop hline => cases t <;> exact .pop hline
  | @popped c =>
    cases t with
    | producer p => exact .popped
    | consumer c' =>
      have hne : c ≠ c' := fun he => ht (congrArg _ he)
      have hcomm := Function.update_comm hne a.q.head v a.consumer
      simp only [QueueSystem.set, hcomm]
      exact .popped

/-- Another thread creates or frees a node that is neither in the queue nor about to be. -/
theorem store (h : Midway a k r s) (hhead : a.q.head ≠ some b) (htail : a.q.tail ≠ some b)
    (hx : ∀ p, a.producer p ≠ some b) (v : Option (QNode μ β)) :
    Midway (a.store b v) k r (s.store b v) := by
  cases h with
  | @push p x line hp hline =>
    have hmid : Midway (a.store b v) (.push p) (.inr (.push p x line)) _ := .push hp hline
    simp only [QueueSystem.store, pushReached_update htail] at hmid ⊢
    exact hmid
  | @pushed p x hp =>
    have hxb : x ≠ b := fun he => hx p (he ▸ hp)
    have hmid : Midway (a.store b v) (.push p)
      (.inl [.pushed (some ((a.store b v).heap.entry x)) 0]) _ := .pushed hp
    simp only [QueueSystem.store, pushReached_update htail,
      NodeHeap.entry_update_of_ne hxb] at hmid ⊢
    exact hmid
  | pop hline => exact .pop hline
  | @popped c =>
    have hmid : Midway (a.store b v) (.pop c) _ _ := .popped
    have hentry : a.q.head.map (NodeHeap.entry (Function.update a.heap b v)) =
        a.q.head.map a.heap.entry := by
      refine Option.map_congr fun h hh => NodeHeap.entry_update_of_ne ?_ v
      rintro rfl
      exact hhead hh
    simp only [QueueSystem.store, popDone_update hhead, hentry] at hmid ⊢
    exact hmid

/-- The variables of the other threads are what they were. -/
theorem producer_eq (h : Midway a k r s) {p : ℕ} (hp : k.caller ≠ .producer p) :
    s.producer p = a.producer p := by
  cases h with
  | push | pop | popped => rfl
  | @pushed p' x hx =>
    have hne : p ≠ p' := fun he => hp (congrArg _ he.symm)
    exact Function.update_of_ne hne ..

theorem consumer_eq (h : Midway a k r s) {c : ℕ} (hc : k.caller ≠ .consumer c) :
    s.consumer c = a.consumer c := by
  cases h with
  | push | pop | pushed => rfl
  | @popped c' =>
    have hne : c ≠ c' := fun he => hc (congrArg _ he.symm)
    exact Function.update_of_ne hne ..

/-- What is allocated is what was. -/
theorem heap_eq_none_iff (h : Midway a k r s) (b : NodeAddr) :
    s.heap b = none ↔ a.heap b = none := by
  cases h with
  | @push p x line =>
    cases line with
    | moveTail => exact linkTail_eq_none_iff
    | testHead | setHead | testTail | setTail | link => exact Iff.rfl
  | pushed => exact linkTail_eq_none_iff
  | pop | popped => exact Iff.rfl

variable {events : List (QueueEvent μ β)} {l : List NodeAddr}

/-- **Step lemma.** The thread under the lock takes its next line. -/
theorem inner {line : QueueLine} (hinv : QueueInv events a l) (h : Midway a k (.inr line) s) :
    ∃ s' r, lockedQueue.inner line s = .ok (s', r) ∧ Midway a k r s' := by
  cases h with
  | @push p x line hx hline =>
    obtain ⟨next, heq, hguard⟩ := pushLine_reached (a := x) hinv.tail_alloc hline
    refine ⟨_, _, congrArg (Except.map _) heq, ?_⟩
    cases next with
    | none =>
      have hentry : (pushReached a.heap a.q x none).1.entry = a.heap.entry := entry_linkTail
      simp only [hentry]
      exact .pushed hx
    | some line' => exact .push hx (hguard line' rfl)
  | @pop c line hline =>
    rcases popLine_reached hinv.head_alloc hline with ⟨line', heq, hguard⟩ | heq
    · exact ⟨_, _, congrArg (Except.map _) heq, .pop hguard⟩
    · exact ⟨_, _, congrArg (Except.map _) heq, .popped⟩

/-- A thread that is through with its lines has made its call. -/
theorem done {o : List (QueueEvent μ β)} (hinv : QueueInv events a l)
    (h : Midway a k (.inl o) s) : a.step k = .ok (s, o) := by
  cases h with
  | @pushed p x hx =>
    have heq := queuePush_eq_reached (a := x) hinv.tail_alloc
    simp only [QueueSystem.step, hx, heq]
    rfl
  | popped =>
    simp only [QueueSystem.step, queuePop_eq_done hinv.head_alloc]
    rfl

end Midway

/-- The shared memory is that of `a`, except for the call under the lock. -/
def QueueAgrees (h : Option (QueueCall μ β × (List (QueueEvent μ β) ⊕ QueueLine)))
    (s a : QueueSystem μ β) : Prop :=
  (∃ events l, QueueInv events a l) ∧
    match h with
    | none => s = a
    | some (k, r) => Midway a k r s

/-- What a thread in front of the lock relies on: `queue_push` is going to push the node that its
producer holds. -/
def QueueWaits (k : QueueCall μ β) (line : QueueLine) (_s a : QueueSystem μ β) : Prop :=
  match line with
  | .push p x line => k = .push p ∧ line = .testHead ∧ a.producer p = some x
  | .pop c line => k = .pop c ∧ line = .readHead

namespace QueueAgrees

variable {h : Option (QueueCall μ β × (List (QueueEvent μ β) ⊕ QueueLine))}
  {s a : QueueSystem μ β} {t : QueueThread} {b : NodeAddr}

theorem set (hs : QueueAgrees h s a) (ht : ∀ k r, h = some (k, r) → k.caller ≠ t)
    {v : Option NodeAddr} (hinv : ∃ events l, QueueInv events (a.set t v) l) :
    QueueAgrees h (s.set t v) (a.set t v) := by
  refine ⟨hinv, ?_⟩
  cases h with
  | none => exact congrArg (QueueSystem.set · t v) hs.2
  | some kr => exact Midway.set hs.2 (ht _ _ rfl) v

theorem store_set (hs : QueueAgrees h s a) (ht : ∀ k r, h = some (k, r) → k.caller ≠ t)
    {v : Option (QNode μ β)} {w : Option NodeAddr} {l : List NodeAddr}
    {events : List (QueueEvent μ β)} (hold : QueueInv events a l) (hb : ¬a.Holds l .queue b)
    (hp : ∀ p, ¬a.Holds l (.producer p) b)
    (hinv : ∃ events l, QueueInv events ((a.store b v).set t w) l) :
    QueueAgrees h ((s.store b v).set t w) ((a.store b v).set t w) := by
  refine ⟨hinv, ?_⟩
  cases h with
  | none => exact congrArg (fun s : QueueSystem μ β => (s.store b v).set t w) hs.2
  | some kr =>
    have hmid := Midway.store hs.2 (fun he => hb (hold.head_mem he))
      (fun he => hb (hold.tail_mem he)) hp v
    exact hmid.set (ht _ _ rfl) w

/-- A thread that is not under the lock finds its own variable and the allocator as they are. -/
theorem producer_eq (hs : QueueAgrees h s a) {p : ℕ}
    (hne : ∀ k r, h = some (k, r) → k.caller ≠ .producer p) : s.producer p = a.producer p := by
  cases h with
  | none => rw [show s = a from hs.2]
  | some kr => exact Midway.producer_eq hs.2 (hne _ _ rfl)

theorem consumer_eq (hs : QueueAgrees h s a) {c : ℕ}
    (hne : ∀ k r, h = some (k, r) → k.caller ≠ .consumer c) : s.consumer c = a.consumer c := by
  cases h with
  | none => rw [show s = a from hs.2]
  | some kr => exact Midway.consumer_eq hs.2 (hne _ _ rfl)

theorem heap_eq_none_iff (hs : QueueAgrees h s a) : s.heap b = none ↔ a.heap b = none := by
  cases h with
  | none => rw [show s = a from hs.2]
  | some kr => exact Midway.heap_eq_none_iff hs.2 b

end QueueAgrees

/-- A call keeps the invariant. -/
theorem QueueInv.of_step {events : List (QueueEvent μ β)} {a a' : QueueSystem μ β}
    {l : List NodeAddr} (h : QueueInv events a l) {k : QueueCall μ β} {o : List (QueueEvent μ β)}
    (hs : a.step k = .ok (a', o)) (hfresh : a.Fresh k) : ∃ events l, QueueInv events a' l := by
  obtain ⟨_, _, l', hs', hinv'⟩ := h.step hfresh
  obtain ⟨rfl, rfl⟩ := Prod.mk.inj (Except.ok.inj (hs'.symm.trans hs))
  exact ⟨_, l', hinv'⟩

namespace QueueWaits

variable {k : QueueCall μ β} {line : QueueLine} {s s' a a' : QueueSystem μ β}

/-- A thread in front of the lock relies on its own variable. -/
theorem congr (h : QueueWaits k line s a)
    (hp : ∀ p, k.caller = .producer p → a'.producer p = a.producer p) :
    QueueWaits k line s' a' := by
  cases line with
  | push p x line =>
    obtain ⟨rfl, hline, hx⟩ := h
    exact ⟨rfl, hline, (hp p rfl).trans hx⟩
  | pop c line => exact h

theorem set (h : QueueWaits k line s a) {t : QueueThread} (ht : k.caller ≠ t)
    (v : Option NodeAddr) : QueueWaits k line s' (a.set t v) :=
  h.congr fun _ hp => QueueSystem.set_producer_of_ne (hp ▸ ht.symm) v

theorem store_set (h : QueueWaits k line s a) {t : QueueThread} (ht : k.caller ≠ t)
    (b : NodeAddr) (node : Option (QNode μ β)) (v : Option NodeAddr) :
    QueueWaits k line s' ((a.store b node).set t v) := by
  have hstore : QueueWaits k line s (a.store b node) := h.congr fun _ _ => rfl
  exact hstore.set ht v

end QueueWaits

namespace QueueSystem

variable (s : QueueSystem μ β)

/-! The calls that do not come to the lock assign the caller's variable, and may create or free a
node. -/

theorem step_create_none (p : ℕ) (type : UInt8) (msgHead : μ) (buffer : β) :
    s.step (.create p none type msgHead buffer) = .ok (s.set (.producer p) none, []) :=
  rfl

theorem step_create_some (p : ℕ) (b : NodeAddr) (type : UInt8) (msgHead : μ) (buffer : β) :
    s.step (.create p (some b) type msgHead buffer) =
      .ok ((s.store b (some ⟨type, msgHead, buffer, none⟩)).set (.producer p) (some b), []) :=
  rfl

variable {s}

theorem step_push_none {p : ℕ} (h : s.producer p = none) :
    s.step (.push p) = .ok (s.set (.producer p) none, [.pushed none (-1)]) := by
  simp only [step, h]
  rfl

theorem step_free_none {c : ℕ} (h : s.consumer c = none) : s.step (.free c) = .ok (s, []) := by
  simp only [step, h]

theorem step_free_some {c : ℕ} {b : NodeAddr} (h : s.consumer c = some b) :
    s.step (.free c) = .ok ((s.store b none).set (.consumer c) none, []) := by
  simp only [step, h]
  rfl

end QueueSystem

/-- **The lines and the calls.** What the threads do line by line under the lock are the calls of
`lockQueueMachine`, whatever is created and freed meanwhile. -/
theorem lockedQueue_rule : Critical.Rule (lockedQueue (μ := μ) (β := β)) lockQueueMachine
    QueueSystem.Fresh QueueSystem.Fresh QueueAgrees QueueWaits where
  enter {h s a k} hne hs hfresh := by
    obtain ⟨events, l, hinv⟩ := hs.1
    cases k with
    | create p addr type msgHead buffer =>
      left
      cases addr with
      | none =>
        have hstep := a.step_create_none p type msgHead buffer
        exact ⟨_, _, _, rfl, trivial, hstep, hs.set hne (hinv.of_step hstep trivial),
          fun _ _ hcaller hw => hw.set hcaller _⟩
      | some b =>
        have hb : a.heap b = none := hs.heap_eq_none_iff.mp hfresh
        have hstep := a.step_create_some p b type msgHead buffer
        exact ⟨_, _, _, rfl, hb, hstep,
          hs.store_set hne hinv (hinv.not_holds hb _) (fun _ => hinv.not_holds hb _)
            (hinv.of_step hstep hb),
          fun _ _ hcaller hw => hw.store_set hcaller _ _ _⟩
    | push p =>
      have hp : s.producer p = a.producer p := hs.producer_eq hne
      cases hx : a.producer p with
      | none =>
        have hstep := QueueSystem.step_push_none hx
        refine .inl ⟨s.set (.producer p) none, _, _, ?_, trivial, hstep,
          hs.set hne (hinv.of_step hstep trivial), fun _ _ hcaller hw => hw.set hcaller _⟩
        simp only [lockedQueue, hp, hx]
        rfl
      | some x =>
        refine .inr ⟨s, .push p x .testHead, ?_, hs, ⟨rfl, rfl, hx⟩, fun _ _ _ hw => hw⟩
        simp only [lockedQueue, hp, hx]
    | pop c => exact .inr ⟨s, .pop c .readHead, rfl, hs, ⟨rfl, rfl⟩, fun _ _ _ hw => hw⟩
    | free c =>
      left
      have hc : s.consumer c = a.consumer c := hs.consumer_eq hne
      cases hb : a.consumer c with
      | none =>
        exact ⟨_, _, _, congrArg (Except.map _) (QueueSystem.step_free_none (hc.trans hb)), trivial,
          QueueSystem.step_free_none hb, hs, fun _ _ _ hw => hw⟩
      | some b =>
        have hstep := QueueSystem.step_free_some hb
        -- The consumer's node is neither in the queue nor a producer's.
        have honly : ∀ o, a.Holds l o b → o = .consumer c :=
          fun o ho => hinv.held_unique o (.consumer c) b ho hb
        exact ⟨_, _, _, congrArg (Except.map _) (QueueSystem.step_free_some (hc.trans hb)), trivial,
          hstep,
          hs.store_set hne hinv (fun h => Holder.noConfusion (honly _ h))
            (fun _ h => Holder.noConfusion (honly _ h)) (hinv.of_step hstep trivial),
          fun _ _ hcaller hw => hw.store_set hcaller _ _ _⟩
  lock {k line s a} hs hw := by
    obtain ⟨hinv, rfl⟩ := hs
    refine ⟨hinv, ?_⟩
    cases line with
    | push p x line =>
      obtain ⟨rfl, rfl, hx⟩ := hw
      exact .push hx trivial
    | pop c line =>
      obtain ⟨rfl, rfl⟩ := hw
      exact .pop trivial
  inner {k line s a} hs := by
    obtain ⟨⟨events, l, hinv⟩, hmid⟩ := hs
    obtain ⟨s', r, heq, hmid'⟩ := Midway.inner hinv hmid
    exact ⟨s', r, heq, ⟨⟨events, l, hinv⟩, hmid'⟩, fun k' line' _ hw => hw.congr fun _ _ => rfl⟩
  unlock {k o s a} hs := by
    obtain ⟨⟨events, l, hinv⟩, hmid⟩ := hs
    have hfresh : a.Fresh k := by
      cases hmid with
      | pushed | popped => trivial
    have hstep := Midway.done hinv hmid
    refine ⟨s, hfresh, hstep, ⟨hinv.of_step hstep hfresh, rfl⟩, fun k' line' hne hw => ?_⟩
    exact hw.congr fun p hp => Midway.producer_eq hmid fun hk => hne (hp.trans hk.symm)

/-! ### Every interleaving of the lines -/

/-- The calls that a run admits: the allocator returns memory that is not in use. -/
def FreshCalls : Critical.State QueueThread (QueueCall μ β) QueueLine (QueueSystem μ β)
    (QueueEvent μ β) → Critical.Input QueueThread (QueueCall μ β) → Prop :=
  Critical.Admits QueueSystem.Fresh

/-- Before the first call. -/
def spinQueueStart : Critical.State QueueThread (QueueCall μ β) QueueLine (QueueSystem μ β)
    (QueueEvent μ β) :=
  Critical.start QueueSystem.start

instance (s : Critical.State QueueThread (QueueCall μ β) QueueLine (QueueSystem μ β)
    (QueueEvent μ β)) (i : Critical.Input QueueThread (QueueCall μ β)) :
    Decidable (FreshCalls s i) :=
  match i with
  | .call k => inferInstanceAs (Decidable (s.shared.Fresh k))
  | .run _ => .isTrue trivial

/-- Two producers and a consumer: the second producer comes to the lock while the first is between
two lines, spins, and a node is created meanwhile; then the second is on its way and the consumer
waits. -/
def spinQueueInputs : List (Critical.Input QueueThread (QueueCall Unit ℕ)) :=
  [.call (.create 0 (some 7) 0 () 40), .call (.create 1 (some 8) 0 () 41), .call (.push 0),
    .run (.producer 0), .run (.producer 0), .call (.push 1), .run (.producer 1),
    .run (.producer 0), .call (.create 2 (some 9) 0 () 42), .run (.producer 0),
    .run (.producer 0), .run (.producer 0), .run (.producer 1), .run (.producer 1),
    .call (.pop 0), .run (.consumer 0), .run (.producer 1), .run (.producer 1)]

theorem spinQueueInputs_run : ∃ (s : Critical.State QueueThread (QueueCall Unit ℕ) QueueLine
      (QueueSystem Unit ℕ) (QueueEvent Unit ℕ)) (log : _),
    spinQueueMachine.Exec FreshCalls spinQueueStart spinQueueInputs log s ∧
    s.lock = true ∧ s.shared.q = ⟨some 7, some 7⟩ ∧ s.shared.heap.next 7 = some 8 ∧
    s.place (.producer 1) = .inside (.push 1) (.inr (.push 1 8 .moveTail)) := by
  have hrun : ((spinQueueMachine (μ := Unit) (β := ℕ)).run FreshCalls spinQueueStart
      spinQueueInputs).map (fun p => (p.1.lock, p.1.shared.q, p.1.shared.heap.next 7,
        p.1.place (.producer 1))) = some (true, ⟨some 7, some 7⟩, some 8,
          .inside (.push 1) (.inr (.push 1 8 .moveTail))) := by
    rfl
  obtain ⟨s, log, hrun, hobs⟩ := spinQueueMachine.exec_of_run_map hrun
  simp only [Prod.mk.injEq] at hobs
  exact ⟨s, log, hrun, hobs⟩

variable {is : List (Critical.Input QueueThread (QueueCall μ β))}
  {log : List (QueueCall μ β × List (QueueEvent μ β))}
  {s : Critical.State QueueThread (QueueCall μ β) QueueLine (QueueSystem μ β) (QueueEvent μ β)}

theorem spinQueue_agrees (hrun : spinQueueMachine.Exec FreshCalls spinQueueStart is log s) :
    ∃ a, lockQueueMachine.logged.Exec QueueSystem.Fresh .start (log.map Prod.fst) log a ∧
      lockedQueue.Agrees QueueAgrees QueueWaits s a :=
  lockedQueue_rule.exec hrun (.start ⟨⟨[], [], .start⟩, rfl⟩)

/-- **Every interleaving is a sequence of whole calls.** However the threads interleave line by
line, the calls that have returned, in the order in which they did and with what they returned, are
a run of `lockQueueMachine`; while the lock is free the memory is what that run leaves; and no line
touches memory that is not allocated. -/
theorem queue_calls_atomic (hrun : spinQueueMachine.Exec FreshCalls spinQueueStart is log s) :
    (∃ a, lockQueueMachine.logged.Exec QueueSystem.Fresh .start (log.map Prod.fst) log a ∧
      (s.lock = false → s.shared = a)) ∧
    ∀ i, FreshCalls s i → ∃ s' o, spinQueueMachine.step s i = .ok (s', o) := by
  obtain ⟨a, hexec, hagree⟩ := spinQueue_agrees hrun
  exact ⟨⟨a, hexec, fun hfree => (hagree.free hfree).2⟩,
    fun i hok => lockedQueue_rule.exists_step hagree hok⟩

/-- In the middle of a call, with four calls returned. -/
theorem queue_calls_atomic_run : ∃ (s : Critical.State QueueThread (QueueCall Unit ℕ) QueueLine
      (QueueSystem Unit ℕ) (QueueEvent Unit ℕ)) (log : _),
    spinQueueMachine.Exec FreshCalls spinQueueStart spinQueueInputs log s ∧ s.lock = true ∧
    ∃ a, lockQueueMachine.logged.Exec QueueSystem.Fresh .start (log.map Prod.fst) log a := by
  obtain ⟨s, log, hrun, hlock, -⟩ := spinQueueInputs_run
  obtain ⟨⟨a, hexec, -⟩, -⟩ := queue_calls_atomic hrun
  exact ⟨s, log, hrun, hlock, a, hexec⟩

/-- **First in, first out, between any two lines.** At every moment, also while a thread is under
the lock, the nodes that `queue_pop` has returned are the first of those that `queue_push` has
taken, in the same order and with what they carried. While the lock is free, the links from the
head lead through the others to the tail. -/
theorem queue_fifo_between_lines
    (hrun : spinQueueMachine.Exec FreshCalls spinQueueStart is log s) :
    poppedNodes (log.flatMap Prod.snd) <+: pushedNodes (log.flatMap Prod.snd) ∧
    (s.lock = false → ∃ l : List NodeAddr,
      Chain s.shared.heap.next s.shared.q.head l ∧ l.Nodup ∧ s.shared.q.tail = l.getLast? ∧
      poppedNodes (log.flatMap Prod.snd) ++ l.map s.shared.heap.entry =
        pushedNodes (log.flatMap Prod.snd)) := by
  obtain ⟨a, hexec, hagree⟩ := spinQueue_agrees hrun
  obtain ⟨l, hinv⟩ := QueueInv.exec hexec.of_logged
  refine ⟨⟨_, hinv.fifo⟩, fun hfree => ?_⟩
  obtain rfl : s.shared = a := (hagree.free hfree).2
  exact ⟨l, hinv.shape.chain, hinv.shape.chain.nodup, hinv.shape.tail_eq, hinv.fifo⟩

/-- The second producer and the consumer go on to the end of their calls. -/
theorem queue_fifo_between_lines_run : ∃ (s : Critical.State QueueThread (QueueCall Unit ℕ)
      QueueLine (QueueSystem Unit ℕ) (QueueEvent Unit ℕ)) (is : _) (log : _),
    spinQueueMachine.Exec FreshCalls spinQueueStart is log s ∧
    poppedNodes (log.flatMap Prod.snd) = [(7, some (0, (), 40))] ∧
    ∃ l : List NodeAddr, Chain s.shared.heap.next s.shared.q.head l ∧
      poppedNodes (log.flatMap Prod.snd) ++ l.map s.shared.heap.entry =
        pushedNodes (log.flatMap Prod.snd) := by
  have hrun : ((spinQueueMachine (μ := Unit) (β := ℕ)).run FreshCalls spinQueueStart
      (spinQueueInputs ++ List.replicate 2 (.run (.producer 1)) ++
        List.replicate 5 (.run (.consumer 0)))).map
      (fun p => (p.1.lock, poppedNodes (p.2.flatMap Prod.snd))) =
        some (false, [(7, some (0, (), 40))]) := by
    rfl
  obtain ⟨s, log, hrun, hobs⟩ := spinQueueMachine.exec_of_run_map hrun
  obtain ⟨hfree, hpopped⟩ := Prod.mk.inj hobs
  obtain ⟨l, hchain, -, -, hfifo⟩ := (queue_fifo_between_lines hrun).2 hfree
  exact ⟨s, _, log, hrun, hpopped, l, hchain, hfifo⟩

/-- How many lines of `queue_push` come at most before the lock is given back, this one
included. -/
def PushLine.size : PushLine → ℕ
  | .testHead => 5
  | .setHead => 4
  | .testTail => 3
  | .link => 2
  | .setTail | .moveTail => 1

@[inherit_doc PushLine.size]
def PopLine.size : PopLine → ℕ
  | .readHead => 4
  | .testEnds _ => 3
  | .clearTail _ => 2
  | .moveHead _ => 1

@[inherit_doc PushLine.size]
def QueueLine.size : QueueLine → ℕ
  | .push _ _ line => line.size
  | .pop _ line => line.size

theorem PushLine.size_bounds (line : PushLine) : 0 < line.size ∧ line.size ≤ 5 := by
  cases line <;> decide

theorem PopLine.size_bounds (line : PopLine) : 0 < line.size ∧ line.size ≤ 5 := by
  cases line <;> exact ⟨Nat.succ_pos _, Nat.le_of_ble_eq_true rfl⟩

/-- No line of `queue_push` leads back. -/
theorem pushLine_size {heap heap' : NodeHeap μ β} {q q' : Queue} {a : NodeAddr}
    {line line' : PushLine} (h : pushLine heap q a line = .ok (heap', q', some line')) :
    line'.size < line.size := by
  cases line with
  | testHead =>
    simp only [pushLine, Except.ok.injEq, Prod.mk.injEq, Option.some.injEq] at h
    rw [← h.2.2]
    split <;> decide
  | setHead =>
    cases h
    decide
  | testTail =>
    simp only [pushLine, Except.ok.injEq, Prod.mk.injEq, Option.some.injEq] at h
    rw [← h.2.2]
    split <;> decide
  | setTail => cases h
  | link =>
    simp only [pushLine] at h
    split at h
    · cases h
    · obtain ⟨node, -, h⟩ := Except.bind_eq_ok_iff.mp h
      cases h
      decide
  | moveTail => cases h

/-- No line of `queue_pop` leads back. -/
theorem popLine_size {heap : NodeHeap μ β} {q q' : Queue} {line line' : PopLine}
    (h : popLine heap q line = .ok (q', .inl line')) : line'.size < line.size := by
  cases line with
  | readHead =>
    cases hh : q.head with
    | none =>
      simp only [popLine, hh, Except.ok.injEq, Prod.mk.injEq, reduceCtorEq, and_false] at h
    | some a =>
      simp only [popLine, hh, Except.ok.injEq, Prod.mk.injEq, Sum.inl.injEq] at h
      rw [← h.2]
      exact Nat.lt_succ_self 3
  | testEnds a =>
    simp only [popLine, Except.ok.injEq, Prod.mk.injEq, Sum.inl.injEq] at h
    rw [← h.2]
    split
    · exact Nat.lt_succ_self 2
    · exact Nat.lt_add_of_pos_right (n := 1) Nat.two_pos
  | clearTail a =>
    cases h
    exact Nat.lt_succ_self 1
  | moveHead a =>
    simp only [popLine] at h
    split at h
    · cases h
    · obtain ⟨node, -, h⟩ := Except.bind_eq_ok_iff.mp h
      cases h

theorem lockedQueue_bounded : (lockedQueue (μ := μ) (β := β)).Bounded QueueLine.size := by
  intro line s s' r h
  cases line with
  | push p x line =>
    obtain ⟨⟨heap, q, next⟩, hline, h⟩ := Except.map_eq_ok_iff.mp h
    cases next with
    | none =>
      cases h
      exact line.size_bounds.1
    | some line' =>
      cases h
      exact pushLine_size hline
  | pop c line =>
    obtain ⟨⟨q, next⟩, hline, h⟩ := Except.map_eq_ok_iff.mp h
    cases next with
    | inl line' =>
      cases h
      exact popLine_size hline
    | inr ret =>
      cases h
      exact line.size_bounds.1

theorem QueueLine.remaining_le (r : List (QueueEvent μ β) ⊕ QueueLine) :
    Critical.remaining QueueLine.size r ≤ 6 := by
  rcases r with o | line
  · exact Nat.succ_le_succ (Nat.zero_le 5)
  · rcases line with ⟨p, x, line⟩ | ⟨c, line⟩
    · exact Nat.succ_le_succ line.size_bounds.2
    · exact Nat.succ_le_succ line.size_bounds.2

/-- **The lock is given back.** At every moment at most one thread is under the lock, and the word
is set just when one is; and when that thread has taken six steps more, it has cleared the word in
one of them, whatever calls and steps of the others come between. -/
theorem queue_lock_released (hrun : spinQueueMachine.Exec FreshCalls spinQueueStart is log s) :
    (∀ t t' k k' r r', s.place t = .inside k r → s.place t' = .inside k' r' → t = t') ∧
    (s.lock = true ↔ ∃ t k r, s.place t = .inside k r) ∧
    ∀ t k r, s.place t = .inside k r →
      ∀ is' log' s', spinQueueMachine.Exec FreshCalls s is' log' s' →
      6 ≤ is'.countP (Critical.Input.isRun t) →
      ∃ is₁ is₂ log₁ s₁, is' = is₁ ++ is₂ ∧ spinQueueMachine.Exec FreshCalls s is₁ log₁ s₁ ∧
        s₁.lock = false := by
  have hex := Critical.exclusive hrun (.start _)
  refine ⟨fun _ _ _ _ _ _ => hex.unique, hex.lock_iff, fun t k r hin is' log' s' h hcount => ?_⟩
  exact Critical.exists_unlocked lockedQueue_bounded h hex hin
    ((QueueLine.remaining_le r).trans hcount)

/-- The second producer is between two lines, and gives the lock back in its next six steps. -/
theorem queue_lock_released_run : ∃ (s : Critical.State QueueThread (QueueCall Unit ℕ) QueueLine
      (QueueSystem Unit ℕ) (QueueEvent Unit ℕ)) (log : _),
    spinQueueMachine.Exec FreshCalls spinQueueStart spinQueueInputs log s ∧ s.lock = true ∧
    ∀ is' log' s', spinQueueMachine.Exec FreshCalls s is' log' s' →
      6 ≤ is'.countP (Critical.Input.isRun (.producer 1)) →
      ∃ is₁ is₂ log₁ s₁, is' = is₁ ++ is₂ ∧ spinQueueMachine.Exec FreshCalls s is₁ log₁ s₁ ∧
        s₁.lock = false := by
  obtain ⟨s, log, hrun, hlock, -, -, hplace⟩ := spinQueueInputs_run
  exact ⟨s, log, hrun, hlock, (queue_lock_released hrun).2.2 _ _ _ hplace⟩

end GameServer
