import GameServer.Library.EventCursor
import GameServer.Library.Machine
import GameServer.NetIo.Pool

/-!
# The event loops of net IO and net logic

`socket_server_event` and `net_logic_event` share one loop: while the queue flag is set they drain
a queue; otherwise they take the next event of the latest batch, after a wait when the batch is
used up. A return only ends the call. The next call starts at the top of the loop in the state
that the last one left, so a run is the sequence of turns of the loop over all calls. What an
event is dispatched to does not change the cursor and is left out here.

## Main definitions

* `Event`, `Batch`, `Turn`, `LoopState`, `eventTurn`.
* `socketServerEvent`, `netLogicEvent` : the two loops.
* `DispatchesOnce` : every reported event is taken once, in order, from the latest batch.
* `FailsUnread` : a wait fails only where no event has been taken yet.

## Main results

* `event_loops_dispatch_once` : both loops dispatch every event once as long as waits fail only
  before the first batch, and no longer.
-/

namespace GameServer

/-- `event`: what it points to, and its flags. -/
structure Event (ρ : Type*) where
  sP : ρ
  read : Bool
  write : Bool
  error : Bool
deriving DecidableEq, Repr

/-- What a successful wait for at most `max` events reports. -/
structure Batch (ε : Type*) (max : ℕ) where
  events : List ε
  pos : 0 < events.length
  le : events.length ≤ max

/-- The outcomes of the calls that a turn may make: whether the queue is empty, what
`sepoll_wait` returns (`none` for a result of at most 0), and the type fields that are read. -/
structure Turn (ρ τ : Type*) (max : ℕ) where
  queueNull : Bool
  wait : Option (Batch (Event ρ) max)
  typeOf : ρ → τ

/-- The fields of a loop that live across calls: `event_pool`, `event_index`, `event_n` and the
queue flag. -/
structure LoopState (ρ : Type*) (size : ℕ) extends EventCursor (Event ρ) size where
  checkQue : Bool

/-- What a turn does with events: a batch is reported, an event is taken. -/
inductive LoopOut (ρ : Type*)
  | reported (events : List (Event ρ))
  | taken (eve : Event ρ)
deriving DecidableEq, Repr

section Loop

variable {ρ τ : Type*} {size max : ℕ}

/-- The part of a turn after the wait. Events of the types of `wakes` set the queue flag. -/
def takeEvent (wakes : τ → Bool) (typeOf : ρ → τ) (st : LoopState ρ size) :
    Except Fault (LoopState ρ size × List (LoopOut ρ)) :=
  match st.take? with
  | none => .error .eventRange
  | some (eve, c) => .ok (⟨c, wakes (typeOf eve.sP)⟩, [.taken eve])

/-- A turn of the loop. -/
def eventTurn (wakes : τ → Bool) (st : LoopState ρ size) (t : Turn ρ τ max) :
    Except Fault (LoopState ρ size × List (LoopOut ρ)) :=
  if st.checkQue then
    if t.queueNull then .ok ({ st with checkQue := false }, []) else .ok (st, [])
  else if st.eventIndex = st.eventN then
    match t.wait with
    | none => .ok (⟨st.drop, st.checkQue⟩, [])
    | some batch =>
      match st.fill batch.events with
      | none => .error .eventRange
      | some c => do
        let (st₁, out) ← takeEvent wakes t.typeOf ⟨c, st.checkQue⟩
        .ok (st₁, .reported batch.events :: out)
  else takeEvent wakes t.typeOf st

/-- The loop as a machine that reads turns. -/
def eventLoop (wakes : τ → Bool) :
    Machine (LoopState ρ size) (Turn ρ τ max) (LoopOut ρ) Fault := ⟨eventTurn wakes⟩

/-- The state before the first call, over the contents of the allocated array. -/
def loopInit (eventPool : Vector (Event ρ) size) : LoopState ρ size := ⟨⟨eventPool, 0, 0⟩, false⟩

end Loop

/-! ### The two loops -/

/-- `MAX_EVENT`, `NET_LOGIC_MAX_EVENT` and `MAX_SERVICE`. -/
abbrev maxEvent : ℕ := 64

@[inherit_doc maxEvent] abbrev netLogicMaxEvent : ℕ := 10

@[inherit_doc maxEvent] abbrev maxService : ℕ := 8

theorem maxEvent_pos : 0 < maxEvent := Nat.succ_pos 63

theorem maxService_pos : 0 < maxService := Nat.succ_pos 7

/-- The types of a service; `unset` is the 0 that `net_logic_creat` writes. -/
inductive ServiceType
  | unset | netIo | netlogic | gameLogic | log | chat
deriving DecidableEq, Repr

/-- `socket_server_event`: its pool holds as many events as a wait may report. Events of the
connection to net logic set `que_check`. -/
def socketServerEvent :
    LoopState Uid maxEvent → Turn Uid SocketType maxEvent →
      Except Fault (LoopState Uid maxEvent × List (LoopOut Uid)) :=
  eventTurn fun ty => ty = .netlogic

/-- `net_logic_event`: it waits for at most `MAX_SERVICE` events. Events of net IO and of the game
services set `check_que`. -/
def netLogicEvent :
    LoopState (Fin maxService) netLogicMaxEvent → Turn (Fin maxService) ServiceType maxService →
      Except Fault
        (LoopState (Fin maxService) netLogicMaxEvent × List (LoopOut (Fin maxService))) :=
  eventTurn fun ty => ty = .netIo || ty = .gameLogic

/-- The loop of net IO as a machine. -/
def socketServerLoop :
    Machine (LoopState Uid maxEvent) (Turn Uid SocketType maxEvent) (LoopOut Uid) Fault :=
  ⟨socketServerEvent⟩

/-- The loop of net logic as a machine. -/
def netLogicLoop :
    Machine (LoopState (Fin maxService) netLogicMaxEvent)
      (Turn (Fin maxService) ServiceType maxService) (LoopOut (Fin maxService)) Fault :=
  ⟨netLogicEvent⟩

/-! ### Events are dispatched once -/

section Dispatch

variable {ρ τ : Type*} {size max : ℕ}

/-- The events taken, in order. -/
def takenEvents : List (LoopOut ρ) → List (Event ρ)
  | [] => []
  | .reported _ :: os => takenEvents os
  | .taken eve :: os => eve :: takenEvents os

/-- **Inversion.** With the queue flag set, a turn clears it if the queue is empty and does nothing
otherwise; else it takes an event or finds none. -/
theorem eventTurn_eq_ok {wakes : τ → Bool} {st st' : LoopState ρ size} {t : Turn ρ τ max}
    {out : List (LoopOut ρ)} (h : eventTurn wakes st t = .ok (st', out)) :
    (st.checkQue = true ∧ t.queueNull = true ∧ st'.checkQue = false) ∨
    (st.checkQue = true ∧ t.queueNull = false ∧ st' = st) ∨
    (st.checkQue = false ∧ takenEvents out = [] ∧ st'.checkQue = false) ∨
    (st.checkQue = false ∧ ∃ eve, takenEvents out = [eve] ∧
      st'.checkQue = wakes (t.typeOf eve.sP)) := by
  have htake {st₀ : LoopState ρ size} {out₀ : List (LoopOut ρ)}
      (h : takeEvent wakes t.typeOf st₀ = .ok (st', out₀)) :
      ∃ eve, out₀ = [.taken eve] ∧ st'.checkQue = wakes (t.typeOf eve.sP) := by
    unfold takeEvent at h
    split at h
    · cases h
    · next eve c _ =>
      obtain ⟨rfl, rfl⟩ := Prod.mk.inj (Except.ok.inj h)
      exact ⟨eve, rfl, rfl⟩
  unfold eventTurn at h
  cases hque : st.checkQue with
  | true =>
    rw [if_pos hque] at h
    cases hnull : t.queueNull with
    | true =>
      rw [if_pos hnull] at h
      obtain ⟨rfl, -⟩ := Prod.mk.inj (Except.ok.inj h)
      exact Or.inl ⟨rfl, rfl, rfl⟩
    | false =>
      rw [hnull, if_neg Bool.false_ne_true] at h
      exact Or.inr (Or.inl ⟨rfl, rfl, (Prod.mk.inj (Except.ok.inj h)).1.symm⟩)
  | false =>
    rw [hque, if_neg Bool.false_ne_true] at h
    refine Or.inr (Or.inr ?_)
    split_ifs at h with hend
    · cases hwait : t.wait with
      | none =>
        rw [hwait] at h
        obtain ⟨rfl, rfl⟩ := Prod.mk.inj (Except.ok.inj h)
        exact Or.inl ⟨rfl, rfl, rfl⟩
      | some batch =>
        rw [hwait] at h
        cases hfill : st.fill batch.events with
        | none =>
          simp only [hfill] at h
          cases h
        | some c =>
          simp only [hfill, Except.bind_eq_ok_iff] at h
          obtain ⟨⟨st₁, out₁⟩, hstep, h⟩ := h
          obtain ⟨rfl, rfl⟩ := Prod.mk.inj (Except.ok.inj h)
          obtain ⟨eve, rfl, hflag⟩ := htake hstep
          exact Or.inr ⟨rfl, eve, rfl, hflag⟩
    · obtain ⟨eve, rfl, hflag⟩ := htake h
      exact Or.inr ⟨rfl, eve, rfl, hflag⟩

/-- The events reported, in order. -/
def reportedEvents : List (LoopOut ρ) → List (Event ρ)
  | [] => []
  | .reported events :: os => events ++ reportedEvents os
  | .taken _ :: os => reportedEvents os

/-- The batch reported last, after an earlier batch `b`. -/
def lastBatch (b : List (Event ρ)) : List (LoopOut ρ) → List (Event ρ)
  | [] => b
  | .reported events :: os => lastBatch events os
  | .taken _ :: os => lastBatch b os

theorem takenEvents_append (os os' : List (LoopOut ρ)) :
    takenEvents (os ++ os') = takenEvents os ++ takenEvents os' := by
  induction os with
  | nil => rfl
  | cons o os ih =>
    cases o with
    | reported events => exact ih
    | taken eve => simp only [List.cons_append, takenEvents, ih]

theorem reportedEvents_append (os os' : List (LoopOut ρ)) :
    reportedEvents (os ++ os') = reportedEvents os ++ reportedEvents os' := by
  induction os with
  | nil => rfl
  | cons o os ih =>
    cases o with
    | reported events => simp only [List.cons_append, reportedEvents, ih, List.append_assoc]
    | taken eve => exact ih

theorem lastBatch_append (b : List (Event ρ)) (os os' : List (LoopOut ρ)) :
    lastBatch b (os ++ os') = lastBatch (lastBatch b os) os' := by
  induction os generalizing b with
  | nil => rfl
  | cons o os ih =>
    cases o with
    | reported events => exact ih events
    | taken eve => exact ih b

/-- The cursor is within the array, the entries below `event_n` are those of the last batch, and
the events taken so far and those still pending are the events reported so far. -/
structure DispatchesOnce (st : LoopState ρ size) (os : List (LoopOut ρ)) : Prop where
  index_le : st.eventIndex ≤ st.eventN
  n_le : st.eventN ≤ size
  latest : st.latest = lastBatch [] os
  once : takenEvents os ++ st.pending = reportedEvents os

/-- If the turn waits and the wait fails, no event has been taken yet. -/
def FailsUnread (st : LoopState ρ size) (t : Turn ρ τ max) : Prop :=
  st.checkQue = false → st.eventIndex = st.eventN → t.wait = none → st.eventIndex = 0

instance (st : LoopState ρ size) (t : Turn ρ τ max) : Decidable (FailsUnread st t) :=
  haveI : Decidable (t.wait = none) := decidable_of_iff _ Option.isNone_iff_eq_none
  inferInstanceAs (Decidable (_ → _ → _ → _))

theorem DispatchesOnce.valid {st : LoopState ρ size} {os : List (LoopOut ρ)}
    (h : DispatchesOnce st os) : st.Valid :=
  ⟨h.index_le, h.n_le⟩

theorem dispatchesOnce_init (eventPool : Vector (Event ρ) size) :
    DispatchesOnce (loopInit eventPool) [] where
  index_le := Nat.le_refl 0
  n_le := Nat.zero_le size
  latest := rfl
  once := rfl

/-- Taking a pending event dispatches it once. -/
theorem DispatchesOnce.take (wakes : τ → Bool) (typeOf : ρ → τ) {st : LoopState ρ size}
    {os : List (LoopOut ρ)} (h : DispatchesOnce st os) (hlt : st.eventIndex < st.eventN) :
    ∃ st' out, takeEvent wakes typeOf st = .ok (st', out) ∧ DispatchesOnce st' (os ++ out) := by
  obtain ⟨eve, c, htake, hvalid, hlatest, hpending, hn⟩ := st.pending_take h.valid hlt
  refine ⟨⟨c, wakes (typeOf eve.sP)⟩, [.taken eve], by simp only [takeEvent, htake], ?_⟩
  refine ⟨hvalid.1, hvalid.2, ?_, ?_⟩
  · rw [lastBatch_append]
    exact hlatest.trans h.latest
  · rw [takenEvents_append, reportedEvents_append]
    have honce := h.once
    rw [hpending] at honce
    simpa only [takenEvents, reportedEvents, List.append_assoc, List.singleton_append,
      List.append_nil] using honce

/-- **Step lemma.** A turn of a loop that has dispatched every event once does not fault, and goes
on so just when its wait, if it fails, fails before any event has been taken. -/
theorem DispatchesOnce.turn (wakes : τ → Bool) {st : LoopState ρ size} {os : List (LoopOut ρ)}
    (hmax : max ≤ size) (h : DispatchesOnce st os) (t : Turn ρ τ max) :
    ∃ st' out, eventTurn wakes st t = .ok (st', out) ∧
      (DispatchesOnce st' (os ++ out) ↔ FailsUnread st t) := by
  cases hque : st.checkQue with
  | true =>
    have hcond : FailsUnread st t := fun hfalse => by simp [hque] at hfalse
    by_cases hnull : t.queueNull
    · refine ⟨{ st with checkQue := false }, [], by simp only [eventTurn, hque, hnull, if_true], ?_⟩
      refine iff_of_true ?_ hcond
      simpa only [List.append_nil] using ⟨h.index_le, h.n_le, h.latest, h.once⟩
    · refine ⟨st, [], by simp only [eventTurn, hque, if_true, if_neg hnull], ?_⟩
      exact iff_of_true (by simpa only [List.append_nil] using h) hcond
  | false =>
    by_cases hend : st.eventIndex = st.eventN
    · cases hwait : t.wait with
      | none =>
        refine ⟨⟨st.drop, st.checkQue⟩, [], by
          simp only [eventTurn, hque, hend, hwait, Bool.false_eq_true, if_false, if_true], ?_⟩
        have hcond : FailsUnread st t ↔ st.eventIndex = 0 :=
          ⟨fun hf => hf hque hend hwait, fun hz _ _ _ => hz⟩
        rw [hcond, List.append_nil]
        constructor
        · exact fun h' => st.valid_drop_iff.mp h'.valid
        · intro hz
          have hn : 0 = st.eventN := hz.symm.trans hend
          have hdrop : st.drop = st.toEventCursor := by
            rw [EventCursor.drop, hn]
          rw [hdrop]
          exact ⟨h.index_le, h.n_le, h.latest, h.once⟩
      | some batch =>
        have hcond : FailsUnread st t := fun _ _ hnone => by simp [hwait] at hnone
        obtain ⟨c, hfill, hvalid, hlatest, hpending, hzero, hn⟩ :=
          st.pending_fill (batch.le.trans hmax)
        have hfilled : DispatchesOnce ⟨c, st.checkQue⟩ (os ++ [.reported batch.events]) := by
          refine ⟨hvalid.1, hvalid.2, ?_, ?_⟩
          · rw [lastBatch_append]
            exact hlatest
          · rw [takenEvents_append, reportedEvents_append, hpending]
            have honce := h.once
            rw [st.pending_eq_nil hend, List.append_nil] at honce
            simp only [takenEvents, reportedEvents, List.append_nil, honce]
        have hlt : c.eventIndex < c.eventN := by
          rw [hzero, hn]
          exact batch.pos
        obtain ⟨st', out, htake, hnext⟩ := hfilled.take wakes t.typeOf hlt
        refine ⟨st', .reported batch.events :: out, ?_, iff_of_true ?_ hcond⟩
        · simp only [eventTurn, hque, hend, hwait, hfill, Bool.false_eq_true, if_false, if_true]
          rw [hque] at htake
          simp only [htake, bind, Except.bind]
        · simpa only [List.append_assoc, List.singleton_append] using hnext
    · have hcond : FailsUnread st t := fun _ hend' => absurd hend' hend
      have hlt : st.eventIndex < st.eventN := lt_of_le_of_ne h.index_le hend
      obtain ⟨st', out, htake, hnext⟩ := h.take wakes t.typeOf hlt
      refine ⟨st', out, ?_, iff_of_true hnext hcond⟩
      simp only [eventTurn, hque, hend, Bool.false_eq_true, if_false, htake]

/-- The law of one loop over an array: after turns whose waits fail only before any event has been
taken, every event has been dispatched once, and the next turn does not fault and keeps this just
when it is such a turn. -/
def LoopDispatchesOnce (M : Machine (LoopState ρ size) (Turn ρ τ max) (LoopOut ρ) Fault)
    (eventPool : Vector (Event ρ) size) : Prop :=
  ∀ is os st, M.Exec FailsUnread (loopInit eventPool) is os st →
    DispatchesOnce st os ∧ ∀ t, ∃ st' out, M.step st t = .ok (st', out) ∧
      (DispatchesOnce st' (os ++ out) ↔ FailsUnread st t)

theorem eventLoop_dispatchesOnce (wakes : τ → Bool) (hmax : max ≤ size)
    (eventPool : Vector (Event ρ) size) :
    LoopDispatchesOnce
      (eventLoop wakes : Machine (LoopState ρ size) (Turn ρ τ max) (LoopOut ρ) Fault)
      eventPool := by
  intro is os st hrun
  have h : DispatchesOnce st os := by
    refine hrun.invariant_outputs (P := fun os st => DispatchesOnce st os)
      (dispatchesOnce_init eventPool) ?_
    intro os s t s' out h hok hstep
    obtain ⟨s'', out', hstep', hiff⟩ := h.turn wakes hmax t
    obtain ⟨rfl, rfl⟩ := Prod.mk.inj (Except.ok.inj (hstep.symm.trans hstep'))
    exact hiff.mpr hok
  exact ⟨h, fun t => h.turn wakes hmax t⟩

end Dispatch

/-- **Both loops dispatch every reported event once**, from within the latest batch, as long as
waits fail only before any event has been taken, and no longer, whatever their arrays hold when
they are allocated. -/
theorem event_loops_dispatch_once (eventPool : Vector (Event Uid) maxEvent)
    (servicePool : Vector (Event (Fin maxService)) netLogicMaxEvent) :
    LoopDispatchesOnce socketServerLoop eventPool ∧ LoopDispatchesOnce netLogicLoop servicePool :=
  ⟨eventLoop_dispatchesOnce _ (by decide) eventPool,
    eventLoop_dispatchesOnce _ (by decide) servicePool⟩

/-- A read event of a slot. -/
def readEvent {ρ : Type*} (s : ρ) : Event ρ := ⟨s, true, false, false⟩

/-- A wait that finds a read event of a slot. -/
def oneEvent {ρ : Type*} {max : ℕ} (h : 0 < max) (s : ρ) : Option (Batch (Event ρ) max) :=
  some ⟨[readEvent s], Nat.one_pos, h⟩

/-- A turn that would find two read events. -/
def twoEvents {ρ τ : Type*} (a b : ρ) (ty : τ) : Turn ρ τ 8 :=
  ⟨true, some ⟨[readEvent a, readEvent b], by simp, by simp⟩, fun _ => ty⟩

/-- Net logic: a failed wait before the first batch, a batch of two events of net IO, a queue
drained after each. -/
theorem event_loops_dispatch_once_run : ∃ st os,
    netLogicLoop.Exec FailsUnread (loopInit (Vector.replicate 10 (readEvent 0)))
      [⟨true, none, fun _ => .netIo⟩, twoEvents 1 2 .netIo, twoEvents 3 4 .netIo,
        twoEvents 3 4 .netIo] os st ∧
    takenEvents os = [readEvent 1, readEvent 2] ∧ DispatchesOnce st os := by
  have hrun : (netLogicLoop.run FailsUnread (loopInit (Vector.replicate 10 (readEvent 0)))
      [⟨true, none, fun _ => .netIo⟩, twoEvents 1 2 .netIo, twoEvents 3 4 .netIo,
        twoEvents 3 4 .netIo]).map (fun p => takenEvents p.2) =
      some [readEvent 1, readEvent 2] := by
    decide +kernel
  obtain ⟨st, os, hrun, htaken⟩ := netLogicLoop.exec_of_run_map hrun
  have hloop := (event_loops_dispatch_once (Vector.replicate 64 (readEvent 0))
    (Vector.replicate 10 (readEvent 0))).2
  exact ⟨st, os, hrun, htaken, (hloop _ _ _ hrun).1⟩

/-- Net IO: a wait that fails after a batch of one event leaves the index behind the number of
events, and the next turn takes an entry of the array that no wait has reported. -/
theorem failed_wait_takes_stale_event : ∃ st os,
    socketServerLoop.Exec Machine.any (loopInit (Vector.replicate 64 (readEvent 9)))
      [⟨true, some ⟨[readEvent 5], by decide, by decide⟩, fun _ => .connectAdd⟩,
        ⟨true, none, fun _ => .connectAdd⟩, ⟨true, none, fun _ => .connectAdd⟩] os st ∧
    st.eventN < st.eventIndex ∧ reportedEvents os = [readEvent 5] ∧
    takenEvents os = [readEvent 5, readEvent 9] := by
  have hrun : (socketServerLoop.run Machine.any (loopInit (Vector.replicate 64 (readEvent 9)))
      [⟨true, some ⟨[readEvent 5], by decide, by decide⟩, fun _ => .connectAdd⟩,
        ⟨true, none, fun _ => .connectAdd⟩, ⟨true, none, fun _ => .connectAdd⟩]).map
      (fun p => (decide (p.1.eventN < p.1.eventIndex), reportedEvents p.2, takenEvents p.2)) =
      some (true, [readEvent 5], [readEvent 5, readEvent 9]) := by
    decide +kernel
  obtain ⟨st, os, hrun, hobs⟩ := socketServerLoop.exec_of_run_map hrun
  obtain ⟨hlt, hobs⟩ := Prod.mk.inj hobs
  obtain ⟨hreported, htaken⟩ := Prod.mk.inj hobs
  exact ⟨st, os, hrun, of_decide_eq_true hlt, hreported, htaken⟩

end GameServer
