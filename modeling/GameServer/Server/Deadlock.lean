import GameServer.Server.ThreadSteps

/-!
# Net logic and a game service that block each other

The connections between net logic and the game services are blocking, and both sides drain a whole
queue, with a write for every message, before they read again. When both directions of a connection
are full and both sides are in the middle of a send over it, neither goes on. `SendsFindRoom` is
the condition on a step that keeps this from happening: a send over the connection does not start
while the other side is in one, unless a direction has room.

## Main definitions

* `Threads.Sending`, `Threads.Starts` : a send that has been begun, a send that begins.
* `Threads.BlockedOn`, `Threads.Deadlocked`.
* `SendsFindRoom` : the condition on the next step.
* `Threads.inFlight` : the wake-ups in flight on a connection.

## Main results

* `Threads.BlockedOn.of_step` : how a thread comes to be blocked.
* `Threads.Deadlocked.lasts` : nothing ends a deadlock.
* `deadlock_iff_no_room` : a run is free of deadlocks as long as sends find room, and no longer.
* `deadlocked_iff_inFlight`, `sendsFindRoom_iff_inFlight` : the deadlock and the condition in terms
  of the wake-ups in flight and the capacities.
-/

namespace GameServer

namespace Threads

/-- The thread has pushed a node and has still to write to `w`. -/
def Sending (s : Threads) (t : Thread) (w : Wire) : Prop := (s.todo t).head? = some (.wake w)

/-- The thread is about to push a node and to write to `w` after that. -/
def Starts (s : Threads) (t : Thread) (w : Wire) : Prop := (s.todo t).tail.head? = some (.wake w)

/-- The thread is blocked in `send_msg2_service`. -/
def BlockedOn (K : Sockets) (s : Threads) (t : Thread) (w : Wire) : Prop :=
  s.Sending t w ∧ K.capacity w ≤ s.unread w ∧ K.nonblock w = false

/-- Net logic and the game service `g` are blocked in `send_msg2_service` towards each other. -/
def Deadlocked (K : Sockets) (s : Threads) (g : ServiceId) : Prop :=
  s.BlockedOn K .netLogic (.netLogic2Game g) ∧ s.BlockedOn K (.game g) (.game2NetLogic g)

/-- A direction of the connection between net logic and `g` has room. -/
def HasRoom (K : Sockets) (s : Threads) (g : ServiceId) : Prop :=
  s.unread (.netLogic2Game g) < K.capacity (.netLogic2Game g) ∨
    s.unread (.game2NetLogic g) < K.capacity (.game2NetLogic g)

instance (s : Threads) (t : Thread) (w : Wire) : Decidable (s.Sending t w) :=
  inferInstanceAs (Decidable ((s.todo t).head? = some (.wake w)))

instance (s : Threads) (t : Thread) (w : Wire) : Decidable (s.Starts t w) :=
  inferInstanceAs (Decidable ((s.todo t).tail.head? = some (.wake w)))

instance (K : Sockets) (s : Threads) (t : Thread) (w : Wire) : Decidable (s.BlockedOn K t w) :=
  inferInstanceAs (Decidable (s.Sending t w ∧ K.capacity w ≤ s.unread w ∧ K.nonblock w = false))

instance (K : Sockets) (s : Threads) (g : ServiceId) : Decidable (s.Deadlocked K g) :=
  inferInstanceAs (Decidable (s.BlockedOn K .netLogic (.netLogic2Game g) ∧
    s.BlockedOn K (.game g) (.game2NetLogic g)))

instance (K : Sockets) (s : Threads) (g : ServiceId) : Decidable (s.HasRoom K g) :=
  inferInstanceAs (Decidable (s.unread (.netLogic2Game g) < K.capacity (.netLogic2Game g) ∨
    s.unread (.game2NetLogic g) < K.capacity (.game2NetLogic g)))

end Threads

/-- When net logic or a game service starts a send to the other while that one is in a send to it,
a direction of their connection has room. -/
def SendsFindRoom (K : Sockets) (s : Threads) (i : ThreadsIn) : Prop :=
  ∀ g, (i.thread = .netLogic ∧ s.Starts .netLogic (.netLogic2Game g) ∧
      s.Sending (.game g) (.game2NetLogic g)) ∨
    (i.thread = .game g ∧ s.Starts (.game g) (.game2NetLogic g) ∧
      s.Sending .netLogic (.netLogic2Game g)) → s.HasRoom K g

instance (K : Sockets) (s : Threads) (i : ThreadsIn) : Decidable (SendsFindRoom K s i) :=
  inferInstanceAs (Decidable (∀ g, (i.thread = .netLogic ∧ s.Starts .netLogic (.netLogic2Game g) ∧
      s.Sending (.game g) (.game2NetLogic g)) ∨
    (i.thread = .game g ∧ s.Starts (.game g) (.game2NetLogic g) ∧
      s.Sending .netLogic (.netLogic2Game g)) → s.HasRoom K g))

namespace Threads

variable {P : Protobuf} {K : Sockets} {s s' : Threads} {i : ThreadsIn} {out : List ThreadsOut}
variable {t : Thread} {w : Wire} {g : ServiceId}

theorem Sending.todo_eq (h : s.Sending t w) : ∃ rest, s.todo t = .wake w :: rest := by
  cases hdo : s.todo t with
  | nil =>
    rw [Sending, hdo] at h
    cases h
  | cons act rest =>
    rw [Sending, hdo] at h
    obtain rfl := Option.some.inj h
    exact ⟨rest, rfl⟩

/-- What is begun after the next action is begun by it. -/
theorem Starts.todo_eq (hinv : ThreadsInv s) (h : s.Starts t w) :
    ∃ node rest, s.todo t = .push node :: .wake w :: rest := by
  cases hdo : s.todo t with
  | nil =>
    rw [Starts, hdo] at h
    cases h
  | cons act rest =>
    rw [Starts, hdo] at h
    cases act with
    | push node =>
      obtain ⟨w', rest', rfl, -⟩ := hinv.of_push hdo
      obtain rfl : w' = w := by simpa using h
      exact ⟨node, rest', rfl⟩
    | wake w' =>
      cases (hinv.of_wake hdo).2 with
      | nil => cases h
      | send => cases h

theorem not_sending_of_sends (h : Sends t (s.todo t)) : ¬s.Sending t w := by
  intro hsending
  obtain ⟨rest, hdo⟩ := hsending.todo_eq
  rw [hdo] at h
  exact h.not_wake

/-- **Step lemma.** A thread that is blocked after a step was blocked before it, or has begun the
send by this step, on a connection that was full. -/
theorem BlockedOn.of_step (h : s'.BlockedOn K t w) (hinv : ThreadsInv s)
    (hstep : ThreadsStep P K s i s' out) (hw : w.writer = t) :
    s.BlockedOn K t w ∨ (i.thread = t ∧ s.Starts t w ∧ K.capacity w ≤ s.unread w) := by
  obtain ⟨hsending, hfull, hblocking⟩ := h
  by_cases hidle : s.todo i.thread = []
  · have hturn := hinv.isTurn hstep hidle
    by_cases ht : i.thread = t
    · subst ht
      exact absurd hsending (not_sending_of_sends hturn.sends)
    · rw [Sending, hturn.others t (Ne.symm ht)] at hsending
      exact Or.inl ⟨hsending, hfull.trans (hturn.le w), hblocking⟩
  · cases hstep.isAct hidle with
    | waits hs => exact Or.inl (hs ▸ ⟨hsending, hfull, hblocking⟩)
    | pushed node rest hdo hs =>
      subst hs
      by_cases ht : i.thread = t
      · subst ht
        refine Or.inr ⟨rfl, ?_, hfull⟩
        rw [Sending] at hsending
        rw [Starts, hdo, List.tail_cons, ← hsending, setTodo_self]
      · rw [Sending, setTodo_of_ne _ (Ne.symm ht)] at hsending
        exact Or.inl ⟨hsending, hfull, hblocking⟩
    | wrote w' rest hdo hroom hs =>
      subst hs
      obtain ⟨hw', hrest⟩ := hinv.of_wake hdo
      by_cases ht : i.thread = t
      · subst ht
        refine absurd hsending (not_sending_of_sends ?_)
        rw [setTodo_self]
        exact hrest
      · have hne : w ≠ w' := by
          rintro rfl
          exact ht (hw'.symm.trans hw)
        rw [Sending, setTodo_of_ne _ (Ne.symm ht)] at hsending
        simp only [Function.update_of_ne hne] at hfull
        exact Or.inl ⟨hsending, hfull, hblocking⟩
    | failed w' rest hdo hfull' hnonblock hs =>
      subst hs
      by_cases ht : i.thread = t
      · subst ht
        refine absurd hsending (not_sending_of_sends ?_)
        rw [setTodo_self]
        exact (hinv.of_wake hdo).2
      · rw [Sending, setTodo_of_ne _ (Ne.symm ht)] at hsending
        exact Or.inl ⟨hsending, hfull, hblocking⟩

/-- A thread stays blocked as long as the reader of its connection has something else to do. -/
theorem BlockedOn.step (h : s.BlockedOn K t w) (hinv : ThreadsInv s)
    (hstep : ThreadsStep P K s i s' out) (hreader : s.todo w.reader ≠ []) : s'.BlockedOn K t w := by
  obtain ⟨hsending, hfull, hblocking⟩ := h
  obtain ⟨rest₀, hdo₀⟩ := hsending.todo_eq
  by_cases hidle : s.todo i.thread = []
  · have hturn := hinv.isTurn hstep hidle
    have ht : t ≠ i.thread := by
      rintro rfl
      rw [hdo₀] at hidle
      cases hidle
    have hread : w.reader ≠ i.thread := fun he => hreader (he ▸ hidle)
    exact ⟨(congrArg List.head? (hturn.others t ht)).trans hsending,
      (hturn.unread w hread).symm ▸ hfull, hblocking⟩
  · cases hstep.isAct hidle with
    | waits hs => exact hs ▸ ⟨hsending, hfull, hblocking⟩
    | pushed node rest hdo hs =>
      subst hs
      have ht : t ≠ i.thread := by
        rintro rfl
        rw [hdo₀] at hdo
        cases hdo
      exact ⟨(congrArg List.head? (setTodo_of_ne _ ht)).trans hsending, hfull, hblocking⟩
    | wrote w' rest hdo hroom hs =>
      subst hs
      have hne : w ≠ w' := by
        rintro rfl
        exact absurd hroom (Nat.not_lt.mpr hfull)
      have ht : t ≠ i.thread := by
        rintro rfl
        rw [hdo₀] at hdo
        exact hne (Act.wake.inj (List.cons.inj hdo).1)
      refine ⟨(congrArg List.head? (setTodo_of_ne _ ht)).trans hsending, ?_, hblocking⟩
      simpa only [Function.update_of_ne hne] using hfull
    | failed w' rest hdo hfull' hnonblock hs =>
      subst hs
      have ht : t ≠ i.thread := by
        rintro rfl
        rw [hdo₀] at hdo
        obtain rfl := Act.wake.inj (List.cons.inj hdo).1
        exact Bool.false_ne_true (hblocking.symm.trans hnonblock)
      exact ⟨(congrArg List.head? (setTodo_of_ne _ ht)).trans hsending, hfull, hblocking⟩

theorem BlockedOn.todo_ne_nil (h : s.BlockedOn K t w) : s.todo t ≠ [] := by
  obtain ⟨rest, hdo⟩ := h.1.todo_eq
  rw [hdo]
  exact List.cons_ne_nil _ _

/-- **Nothing ends a deadlock.** -/
theorem Deadlocked.lasts {is : List ThreadsIn} {os : List ThreadsOut} (h : s.Deadlocked K g)
    (hinv : ThreadsInv s) (hrun : (threadsMachine P K).Exec Machine.any s is os s') :
    s'.Deadlocked K g := by
  refine (hrun.invariant (P := fun s => ThreadsInv s ∧ s.Deadlocked K g) ⟨hinv, h⟩ ?_).2
  rintro s i s' out ⟨hinv, hnet, hgame⟩ - hstep
  have hs := threadsMachine_step hstep
  exact ⟨hinv.step hs, hnet.step hinv hs hgame.todo_ne_nil, hgame.step hinv hs hnet.todo_ne_nil⟩

/-- A step that leads into a deadlock is the start of a send that finds no room. -/
theorem Deadlocked.of_step (h : s'.Deadlocked K g) (hinv : ThreadsInv s)
    (hstep : ThreadsStep P K s i s' out) (hnot : ¬s.Deadlocked K g) : ¬SendsFindRoom K s i := by
  intro hroom
  rcases h.1.of_step hinv hstep rfl with hnet | ⟨hi, hstarts, hfull⟩
  · rcases h.2.of_step hinv hstep rfl with hgame | ⟨hi, hstarts, hfull⟩
    · exact hnot ⟨hnet, hgame⟩
    · rcases hroom g (Or.inr ⟨hi, hstarts, hnet.1⟩) with hlt | hlt
      · exact Nat.not_lt.mpr hnet.2.1 hlt
      · exact Nat.not_lt.mpr hfull hlt
  · rcases h.2.of_step hinv hstep rfl with hgame | ⟨hi', -, -⟩
    · rcases hroom g (Or.inl ⟨hi, hstarts, hgame.1⟩) with hlt | hlt
      · exact Nat.not_lt.mpr hfull hlt
      · exact Nat.not_lt.mpr hgame.2.1 hlt
    · rw [hi] at hi'
      cases hi'

/-- The start of a send that finds no room leads into a deadlock. -/
theorem deadlocked_of_no_room {K : Wire → ℕ} {pos : ∀ w, 0 < K w} (hinv : ThreadsInv s)
    (h : ¬SendsFindRoom (.established K pos) s i) :
    ∃ s' out, (threadsMachine P (.established K pos)).step s i = .ok (s', out) ∧
      ∃ g, s'.Deadlocked (.established K pos) g := by
  obtain ⟨g, h⟩ := not_forall.mp h
  obtain ⟨hstart, hfull⟩ := Classical.not_imp.mp h
  rw [HasRoom, not_or, Nat.not_lt, Nat.not_lt] at hfull
  have hpush {node : QueNode} {rest : List Act} (hdo : s.todo i.thread = .push node :: rest) :
      (threadsMachine P (.established K pos)).step s i = .ok
        ({ s.setTodo i.thread rest with quePool := s.quePool ++ [node] }, [.pushed node]) := by
    simp only [threadsMachine, Threads.step, hdo, perform]
  rcases hstart with ⟨hi, hstarts, hsending⟩ | ⟨hi, hstarts, hsending⟩
  · obtain ⟨node, rest, hdo⟩ := hstarts.todo_eq hinv
    rw [← hi] at hdo
    have hne : Thread.game g ≠ i.thread := by simp [hi]
    refine ⟨_, _, hpush hdo, g, ⟨?_, hfull.1, rfl⟩, ?_, hfull.2, rfl⟩
    · rw [Sending, ← hi, setTodo_self]
      rfl
    · rw [Sending, setTodo_of_ne _ hne]
      exact hsending
  · obtain ⟨node, rest, hdo⟩ := hstarts.todo_eq hinv
    rw [← hi] at hdo
    have hne : Thread.netLogic ≠ i.thread := by simp [hi]
    refine ⟨_, _, hpush hdo, g, ⟨?_, hfull.1, rfl⟩, ?_, hfull.2, rfl⟩
    · rw [Sending, setTodo_of_ne _ hne]
      exact hsending
    · rw [Sending, ← hi, setTodo_self]
      rfl

end Threads

/-- **Net logic and a game service block each other just when a send finds no room.** As long as
neither starts a send to the other that is in a send to it while both directions are full, no
state reached has them blocked towards each other; a step that does is such a start. -/
theorem deadlock_iff_no_room {P : Protobuf} {K : Wire → ℕ} {pos : ∀ w, 0 < K w} {u : Unset}
    {is : List ThreadsIn} {os : List ThreadsOut} {s : Threads}
    (hrun : (threadsMachine P (.established K pos)).Exec (SendsFindRoom (.established K pos))
      (Threads.start u) is os s) :
    (∀ g, ¬s.Deadlocked (.established K pos) g) ∧
    ∀ i, ¬SendsFindRoom (.established K pos) s i →
      ∃ s' out, (threadsMachine P (.established K pos)).step s i = .ok (s', out) ∧
        ∃ g, s'.Deadlocked (.established K pos) g := by
  have hall : ThreadsInv s ∧ ∀ g, ¬s.Deadlocked (.established K pos) g := by
    refine hrun.invariant (P := fun s => ThreadsInv s ∧ ∀ g, ¬s.Deadlocked (.established K pos) g)
      ⟨.start u, fun g h => h.1.todo_ne_nil rfl⟩ ?_
    rintro s i s' out ⟨hinv, hnot⟩ hroom hstep
    have hs := threadsMachine_step hstep
    exact ⟨hinv.step hs, fun g h => h.of_step hinv hs (hnot g) hroom⟩
  exact ⟨hall.2, fun i hi => Threads.deadlocked_of_no_room hall.1 hi⟩

/-- Sockets that hold one byte. -/
def oneByteSockets : Sockets := .established (fun _ => 1) fun _ => Nat.one_pos

/-- A client connects and asks twice to start. Net logic passes on the connect and the first
request and begins to pass on the second; the game service has read one of the two bytes, and
handles both messages. -/
def startTwice : List ThreadsIn :=
  let event (msg : IoMsg) : ThreadsIn :=
    .netIo ⟨oneEvent maxEvent_pos 5, fun _ => .connectAdd, 0, [(msg, 1)]⟩
  let io : ThreadsIn := .netIo ⟨none, fun _ => .invalid, 0, []⟩
  let net : ThreadsIn := .netLogic ⟨none, 0⟩
  let start : IoMsg := .data 3 3 ['S'.toUInt8, 8, 1]
  [event (.success 3), io, io, event start, io, io, event start, io, io,
    .netLogic ⟨oneEvent maxService_pos 0, 512⟩, net, net, net, net, net,
    .game 0 1, net, net, net, .game 0 1, .game 0 1, .game 0 1, .game 0 1]

/-- The next step of the game service is the start of a send that finds no room. -/
theorem deadlock_iff_no_room_run : ∃ s os,
    (threadsMachine oneByteProtobuf oneByteSockets).Exec (SendsFindRoom oneByteSockets)
      (Threads.start .zero) startTwice os s ∧
    (∀ g, ¬s.Deadlocked oneByteSockets g) ∧
    ∃ s' out, (threadsMachine oneByteProtobuf oneByteSockets).step s (.game 0 1) = .ok (s', out) ∧
      ∃ g, s'.Deadlocked oneByteSockets g := by
  have hrun : ((threadsMachine oneByteProtobuf oneByteSockets).run (SendsFindRoom oneByteSockets)
      (Threads.start .zero) startTwice).map
      (fun p => decide (SendsFindRoom oneByteSockets p.1 (.game 0 1))) = some false := by
    decide +kernel
  obtain ⟨s, os, hrun, hroom⟩ := Machine.exec_of_run_map _ hrun
  have h := deadlock_iff_no_room hrun
  exact ⟨s, os, hrun, h.1, h.2 (.game 0 1) (of_decide_eq_false hroom)⟩

/-- With sockets that hold one byte, net logic and a game service block each other, and no step
from there on frees them. -/
theorem start_requests_deadlock : ∃ s os,
    (threadsMachine oneByteProtobuf oneByteSockets).Exec Machine.any (Threads.start .zero)
      (startTwice ++ [.game 0 1]) os s ∧
    s.Deadlocked oneByteSockets 0 ∧
    ∀ is os' s', (threadsMachine oneByteProtobuf oneByteSockets).Exec Machine.any s is os' s' →
      s'.Deadlocked oneByteSockets 0 := by
  have hrun : ((threadsMachine oneByteProtobuf oneByteSockets).run Machine.any
      (Threads.start .zero) (startTwice ++ [.game 0 1])).map
      (fun p => decide (p.1.Deadlocked oneByteSockets 0)) = some true := by
    decide +kernel
  obtain ⟨s, os, hrun, hdead⟩ := Machine.exec_of_run_map _ hrun
  have h : s.Deadlocked oneByteSockets 0 := of_decide_eq_true hdead
  exact ⟨s, os, hrun, h, fun _ _ _ hrun' => h.lasts (.exec hrun) hrun'⟩

/-! ### The wake-ups in flight -/

namespace Threads

/-- The wake-ups in flight on a connection: the bytes that are unread, and that of the send which
the writer is in. -/
def inFlight (s : Threads) (w : Wire) : ℕ :=
  s.unread w + if s.Sending w.writer w then 1 else 0

variable {P : Protobuf} {K : Sockets} {s s' : Threads} {i : ThreadsIn} {out : List ThreadsOut}

/-- **Step lemma.** A connection does not hold more bytes than it can. -/
theorem unread_le_capacity_step (h : ∀ w, s.unread w ≤ K.capacity w) (hinv : ThreadsInv s)
    (hstep : ThreadsStep P K s i s' out) (w : Wire) : s'.unread w ≤ K.capacity w := by
  by_cases hidle : s.todo i.thread = []
  · exact ((hinv.isTurn hstep hidle).le w).trans (h w)
  · cases hstep.isAct hidle with
    | waits hs | pushed node rest hdo hs | failed w' rest hdo hfull hnonblock hs => exact hs ▸ h w
    | wrote w' rest hdo hroom hs =>
      subst hs
      by_cases hw : w = w'
      · subst hw
        simpa only [Function.update_self] using Nat.succ_le_of_lt hroom
      · simpa only [Function.update_of_ne hw] using h w

/-- **Run lemma.** -/
theorem unread_le_capacity {ok : Threads → ThreadsIn → Prop} {u : Unset} {is : List ThreadsIn}
    {os : List ThreadsOut} (hrun : (threadsMachine P K).Exec ok (start u) is os s) (w : Wire) :
    s.unread w ≤ K.capacity w := by
  refine (hrun.invariant (P := fun s => ThreadsInv s ∧ ∀ w, s.unread w ≤ K.capacity w)
    ⟨.start u, fun w => Nat.zero_le _⟩ ?_).2 w
  rintro s i s' out ⟨hinv, hle⟩ - hstep
  have hs := threadsMachine_step hstep
  exact ⟨hinv.step hs, unread_le_capacity_step hle hinv hs⟩

/-- A send is blocked just when its byte does not fit behind those in flight. -/
theorem blockedOn_iff_inFlight {w : Wire} (hle : s.unread w ≤ K.capacity w)
    (hblocking : K.nonblock w = false) :
    s.BlockedOn K w.writer w ↔ K.capacity w < s.inFlight w := by
  unfold BlockedOn inFlight
  by_cases hsending : s.Sending w.writer w
  · simp only [hsending, hblocking, true_and, and_true, if_true]
    exact Nat.lt_succ_iff.symm
  · simpa [hsending] using hle

/-- When a send to `w` starts, there is room on its connection just when the wake-ups in flight in
both directions do not exceed the capacities. -/
theorem room_iff_inFlight {w v : Wire} (hinv : ThreadsInv s) (hle : s.unread w ≤ K.capacity w)
    (hle' : s.unread v ≤ K.capacity v) (hstarts : s.Starts w.writer w) :
    (s.Sending v.writer v → s.unread w < K.capacity w ∨ s.unread v < K.capacity v) ↔
      s.inFlight w + s.inFlight v ≤ K.capacity w + K.capacity v := by
  have hidle : ¬s.Sending w.writer w := by
    obtain ⟨node, rest, hdo⟩ := hstarts.todo_eq hinv
    simp [Sending, hdo]
  unfold inFlight
  rw [if_neg hidle]
  by_cases hsending : s.Sending v.writer v
  · simp only [hsending, true_imp_iff, if_true]
    omega
  · simp only [hsending, false_imp_iff, if_false, true_iff]
    omega

end Threads

/-- **In terms of the wake-ups in flight.** In every state reached, net logic and a game service
block each other just when more wake-ups are in flight in each direction than that direction holds.
So no state is a deadlock as long as those of one direction fit. -/
theorem deadlocked_iff_inFlight {P : Protobuf} {K : Wire → ℕ} {pos : ∀ w, 0 < K w} {u : Unset}
    {is : List ThreadsIn} {os : List ThreadsOut} {s : Threads}
    (hrun : (threadsMachine P (.established K pos)).Exec Machine.any (Threads.start u) is os s)
    (g : ServiceId) :
    s.Deadlocked (.established K pos) g ↔
      K (.netLogic2Game g) < s.inFlight (.netLogic2Game g) ∧
        K (.game2NetLogic g) < s.inFlight (.game2NetLogic g) :=
  and_congr
    (Threads.blockedOn_iff_inFlight (w := .netLogic2Game g) (Threads.unread_le_capacity hrun _) rfl)
    (Threads.blockedOn_iff_inFlight (w := .game2NetLogic g) (Threads.unread_le_capacity hrun _) rfl)

/-- The condition on the next step in these terms: when a send between net logic and a game service
starts, the wake-ups in flight between them do not exceed what the two directions hold. -/
theorem sendsFindRoom_iff_inFlight {P : Protobuf} {K : Wire → ℕ} {pos : ∀ w, 0 < K w} {u : Unset}
    {is : List ThreadsIn} {os : List ThreadsOut} {s : Threads}
    (hrun : (threadsMachine P (.established K pos)).Exec Machine.any (Threads.start u) is os s)
    (i : ThreadsIn) :
    SendsFindRoom (.established K pos) s i ↔
      ∀ g, (i.thread = .netLogic ∧ s.Starts .netLogic (.netLogic2Game g)) ∨
          (i.thread = .game g ∧ s.Starts (.game g) (.game2NetLogic g)) →
        s.inFlight (.netLogic2Game g) + s.inFlight (.game2NetLogic g) ≤
          K (.netLogic2Game g) + K (.game2NetLogic g) := by
  have hinv : ThreadsInv s := .exec hrun
  have hle := Threads.unread_le_capacity hrun
  have hnet {g : ServiceId} := Threads.room_iff_inFlight (w := .netLogic2Game g)
    (v := .game2NetLogic g) hinv (hle _) (hle _)
  have hgame {g : ServiceId} := Threads.room_iff_inFlight (w := .game2NetLogic g)
    (v := .netLogic2Game g) hinv (hle _) (hle _)
  unfold SendsFindRoom
  refine forall_congr' fun g => ⟨fun h => ?_, fun h => ?_⟩
  · rintro (⟨hi, hstarts⟩ | ⟨hi, hstarts⟩)
    · exact (hnet hstarts).mp fun hsending => h (.inl ⟨hi, hstarts, hsending⟩)
    · rw [add_comm (s.inFlight _), add_comm (K _)]
      exact (hgame hstarts).mp fun hsending => (h (.inr ⟨hi, hstarts, hsending⟩)).symm
  · rintro (⟨hi, hstarts, hsending⟩ | ⟨hi, hstarts, hsending⟩)
    · exact (hnet hstarts).mpr (h (.inl ⟨hi, hstarts⟩)) hsending
    · have hsum := h (.inr ⟨hi, hstarts⟩)
      rw [add_comm (s.inFlight _), add_comm (K _)] at hsum
      exact ((hgame hstarts).mpr hsum hsending).symm

end GameServer
