import GameServer.Server.ThreadSteps

/-!
# No wake-up is lost

A consumer that finds its queue empty goes to sleep, and nothing wakes it but the bytes on its
connections. One read swallows the bytes of many pushes, and net logic drains two queues that five
connections announce. What never fails is `Threads.Announced`: a queue is empty, or a byte that
announces it is unread, or a producer has still to write that byte, or the consumer is draining
the queue. The last is ruled out when the consumer is about to wait.

## Main definitions

* `Threads.Ringing`, `Threads.Announcing`, `Threads.Draining`, `Threads.Announced`.
* `Threads.AboutToWait` : the next call of a thread is `sepoll_wait` or `select`.

## Main results

* `Threads.Announced.step` : the step lemma.
* `no_wakeup_lost` : a consumer that is about to wait will be woken for what is in its queues.
-/

namespace GameServer

namespace Threads

/-- A byte that announces the queue is unread. -/
def Ringing (s : Threads) (q : QueId) : Prop := ∃ w, w.que = q ∧ 0 < s.unread w

/-- A producer of the queue is between its push and its write. -/
def Announcing (s : Threads) (q : QueId) : Prop :=
  ∃ t w rest, s.todo t = .wake w :: rest ∧ w.que = q

/-- A consumer has set its flag and is draining the queue. -/
def Draining (s : Threads) (q : QueId) : Prop :=
  (s.netIo.checkQue = true ∧ q = .netlogic2Netio) ∨
  (s.netLogic.checkQue = true ∧ s.currentQue = q) ∨
  ∃ g, s.checkQue g = true ∧ q = .netlogic2Game g

/-- The nodes of the queue will be seen. -/
def Announced (s : Threads) (q : QueId) : Prop :=
  s.queue q = [] ∨ s.Ringing q ∨ s.Announcing q ∨ s.Draining q

variable {P : Protobuf} {K : Sockets} {s s' : Threads} {i : ThreadsIn} {out : List ThreadsOut}

theorem Announced.ringing {w : Wire} {q : QueId} (hw : w.que = q) (hpos : 0 < s.unread w) :
    s.Announced q :=
  Or.inr (Or.inl ⟨w, hw, hpos⟩)

theorem Announced.announcing {t : Thread} {w : Wire} {rest : List Act} {q : QueId}
    (hdo : s.todo t = .wake w :: rest) (hw : w.que = q) : s.Announced q :=
  Or.inr (Or.inr (Or.inl ⟨t, w, rest, hdo, hw⟩))

theorem Announced.draining {q : QueId} (h : s.Draining q) : s.Announced q :=
  Or.inr (Or.inr (Or.inr h))

/-- A queue stays announced if each of the four reasons is kept or replaced by another. -/
theorem Announced.mono {q : QueId} (h : s.Announced q) (hque : s.queue q = [] → s'.queue q = [])
    (hring : ∀ w, w.que = q → 0 < s.unread w → s'.Announced q)
    (hact : ∀ t w rest, s.todo t = .wake w :: rest → w.que = q → s'.Announced q)
    (hdrain : s.Draining q → s'.Announced q) : s'.Announced q := by
  rcases h with hnil | ⟨w, hw, hpos⟩ | ⟨t, w, rest, hdo, hw⟩ | hdrained
  · exact Or.inl (hque hnil)
  · exact hring w hw hpos
  · exact hact t w rest hdo hw
  · exact hdrain hdrained

/-- A turn of a thread that had nothing to do and that reads nothing. -/
theorem Announced.turn {q : QueId} {t : Thread} (h : s.Announced q) (hidle : s.todo t = [])
    (htodo : ∀ t' ≠ t, s'.todo t' = s.todo t') (hunread : s'.unread = s.unread)
    (hque : s.queue q = [] → s'.queue q = []) (hdrain : s.Draining q → s'.Announced q) :
    s'.Announced q := by
  refine h.mono hque (fun w hw hpos => .ringing hw (by rwa [hunread])) ?_ hdrain
  intro t' w rest hdo hw
  have ht : t' ≠ t := by
    rintro rfl
    rw [hidle] at hdo
    cases hdo
  exact .announcing ((htodo t' ht).trans hdo) hw

/-- A turn that reads from the connection `w`, and sets the flag for the queue of `w`. -/
theorem Announced.woken {q : QueId} {w : Wire} (h : s.Announced q)
    (htodo : s'.todo = s.todo) (hpool : s'.quePool = s.quePool)
    (hunread : ∀ w' ≠ w, s'.unread w' = s.unread w') (hflag : w.que = q → s'.Draining q)
    (hdrain : s.Draining q → s'.Draining q) : s'.Announced q := by
  refine h.mono (fun hnil => ?_) (fun w' hw' hpos => ?_) (fun t w' rest hdo hw' => ?_)
    fun hd => .draining (hdrain hd)
  · rwa [queue, hpool]
  · by_cases hw : w' = w
    · subst hw
      exact .draining (hflag hw')
    · exact .ringing hw' (by rwa [hunread w' hw])
  · exact .announcing (by rw [htodo, hdo]) hw'

/-- A pop leaves an empty queue empty. -/
theorem Pops.queue_eq_nil {node : QueNode} {rest : List QueNode} (h : s.Pops node rest)
    (hs' : s'.quePool = rest) {q : QueId} (hnil : s.queue q = []) : s'.queue q = [] := by
  rw [h.queue_eq hs' q] at hnil
  exact (List.append_eq_nil_iff.mp hnil).2

/-- **Step lemma.** -/
theorem Announced.step (hinv : ThreadsInv s) (hstep : ThreadsStep P K s i s' out) {q : QueId}
    (h : s.Announced q) : s'.Announced q := by
  cases hstep with
  | waits => exact h
  | @pushed i node rest hdo =>
    obtain ⟨w, rest', rfl, -, -, hw, -⟩ := hinv.of_push hdo
    by_cases hq : node.que = q
    · exact .announcing (setTodo_self _) (hw.trans hq)
    · refine h.mono (fun hnil => ?_) (fun w hw hpos => .ringing hw hpos)
        (fun t w rest hdo' hw => ?_) fun hd => .draining hd
      · rw [queue_append (s := s) rfl, hnil, if_neg hq, List.append_nil]
      · have ht : t ≠ i.thread := by
          rintro rfl
          rw [hdo] at hdo'
          cases hdo'
        exact .announcing ((setTodo_of_ne _ ht).trans hdo') hw
  | @wrote i w rest hdo hroom =>
    refine h.mono id (fun w' hw' hpos => .ringing hw' ?_) (fun t w' rest' hdo' hw' => ?_)
      fun hd => .draining hd
    · by_cases hw : w' = w
      · subst hw
        simp only [Function.update_self, Nat.succ_pos]
      · simpa only [Function.update_of_ne hw] using hpos
    · by_cases ht : t = i.thread
      · subst ht
        rw [hdo] at hdo'
        obtain ⟨rfl, -⟩ : w = w' ∧ rest = rest' := by simpa using hdo'
        exact .ringing hw' (by simp only [Function.update_self, Nat.succ_pos])
      · exact .announcing ((setTodo_of_ne _ ht).trans hdo') hw'
  | @failed i w rest hdo hfull =>
    refine h.mono id (fun w' hw' hpos => .ringing hw' hpos) (fun t w' rest' hdo' hw' => ?_)
      fun hd => .draining hd
    by_cases ht : t = i.thread
    · subst ht
      rw [hdo] at hdo'
      obtain ⟨rfl, -⟩ : w = w' ∧ rest = rest' := by simpa using hdo'
      -- the connection is full, so the byte that was not written is not missed
      exact .ringing hw' ((K.pos w).trans_le hfull)
    · exact .announcing ((setTodo_of_ne _ ht).trans hdo') hw'
  | netIoSlept t hidle hempty hflag =>
    refine h.turn hidle (fun _ _ => rfl) rfl id fun hd => ?_
    rcases hd with ⟨htrue, rfl⟩ | hd | hd
    · exact Or.inl (hempty htrue)
    · exact .draining (Or.inr (Or.inl hd))
    · exact .draining (Or.inr (Or.inr hd))
  | netIoReported t hidle hflag hflag' =>
    refine h.turn hidle (fun _ ht => setTodo_of_ne _ ht) rfl id fun hd => .draining ?_
    exact hd.imp_left fun hd => absurd hd.1 (by simp [hflag])
  | netIoPopped t hidle hflag hpop =>
    exact h.turn hidle (fun _ ht => setTodo_of_ne _ ht) rfl (hpop.queue_eq_nil rfl)
      fun hd => .draining hd
  | netIoWoken t n hidle hflag hflag' =>
    refine h.woken rfl rfl (fun w' hw' => Function.update_of_ne hw' ..)
      (fun hw => Or.inl ⟨hflag', hw.symm⟩) fun hd => ?_
    exact hd.imp_left fun hd => absurd hd.1 (by simp [hflag])
  | netLogicSlept t hidle hempty hflag =>
    refine h.turn hidle (fun _ _ => rfl) rfl id fun hd => ?_
    rcases hd with hd | ⟨htrue, rfl⟩ | hd
    · exact .draining (Or.inl hd)
    · exact Or.inl (hempty htrue)
    · exact .draining (Or.inr (Or.inr hd))
  | routed t hidle hflag hque hpop =>
    exact h.turn hidle (fun _ ht => setTodo_of_ne _ ht) rfl (hpop.queue_eq_nil rfl)
      fun hd => .draining hd
  | packed t hidle hflag hque hpop =>
    exact h.turn hidle (fun _ ht => setTodo_of_ne _ ht) rfl (hpop.queue_eq_nil rfl)
      fun hd => .draining hd
  | dropped t hidle hflag hunused hque hpop =>
    exact h.turn hidle (fun _ _ => rfl) rfl (hpop.queue_eq_nil rfl) fun hd => .draining hd
  | netLogicWoken t n hidle hflag hflag' hentry =>
    refine h.woken rfl rfl (fun w' hw' => Function.update_of_ne hw' ..)
      (fun hw => Or.inr (Or.inl ⟨hflag', hw⟩)) fun hd => ?_
    exact hd.imp_right (Or.imp_left fun hd => absurd hd.1 (by simp [hflag]))
  | gameSlept g got hidle hempty =>
    refine h.turn hidle (fun _ _ => rfl) rfl id fun hd => ?_
    rcases hd with hd | hd | ⟨g', htrue, rfl⟩
    · exact .draining (Or.inl hd)
    · exact .draining (Or.inr (Or.inl hd))
    · by_cases hg : g' = g
      · subst hg
        exact Or.inl hempty
      · exact .draining (Or.inr (Or.inr ⟨g', by simpa only [Function.update_of_ne hg], rfl⟩))
  | handled g got hidle hflag hpop =>
    exact h.turn hidle (fun _ ht => setTodo_of_ne _ ht) rfl (hpop.queue_eq_nil rfl)
      fun hd => .draining hd
  | gameWoken g got n hidle hflag =>
    refine h.woken rfl rfl (fun w' hw' => Function.update_of_ne hw' ..)
      (fun hw => Or.inr (Or.inr ⟨g, Function.update_self .., hw.symm⟩)) fun hd => ?_
    refine hd.imp_right (Or.imp_right ?_)
    rintro ⟨g', htrue, rfl⟩
    refine ⟨g', ?_, rfl⟩
    by_cases hg : g' = g
    · subst hg
      exact Function.update_self ..
    · exact (Function.update_of_ne hg ..).trans htrue

/-! ### Waiting -/

/-- The next call of the thread is `sepoll_wait` or `select`. -/
def AboutToWait (s : Threads) : Thread → Prop
  | .netIo => s.todo .netIo = [] ∧ s.netIo.checkQue = false ∧
      s.netIo.eventIndex = s.netIo.eventN
  | .netLogic => s.todo .netLogic = [] ∧ s.netLogic.checkQue = false ∧
      s.netLogic.eventIndex = s.netLogic.eventN
  | .game g => s.todo (.game g) = [] ∧ s.checkQue g = false

end Threads

/-- The queues that a thread consumes. -/
def Thread.queues : Thread → List QueId
  | .netIo => [.netlogic2Netio]
  | .netLogic => [.netio2Netlogic, .gamelogic2Netlogic]
  | .game g => [.netlogic2Game g]

/-- Net logic drains its own queues only. -/
theorem ThreadsInv.currentQue_mem {s : Threads} (h : ThreadsInv s)
    (hflag : s.netLogic.checkQue = true) : s.currentQue ∈ Thread.netLogic.queues := by
  obtain ⟨w, hw, hque⟩ := h.current hflag
  have hreader := ServiceEntry.reader_of_wire hw
  rw [hque]
  cases w with
  | netIo2NetLogic => exact List.mem_cons_self
  | game2NetLogic g => exact List.mem_cons_of_mem _ List.mem_cons_self
  | netLogic2NetIo | netLogic2Game => cases hreader

/-- A consumer that is about to wait is not draining its queues. -/
theorem Threads.AboutToWait.not_draining {s : Threads} {t : Thread} (hinv : ThreadsInv s)
    (h : s.AboutToWait t) {q : QueId} (hq : q ∈ t.queues) : ¬s.Draining q := by
  rintro (⟨hflag, rfl⟩ | ⟨hflag, rfl⟩ | ⟨g, hflag, rfl⟩)
  · cases t with
    | netIo => exact Bool.false_ne_true (h.2.1.symm.trans hflag)
    | netLogic => simp [Thread.queues] at hq
    | game g => simp [Thread.queues] at hq
  · have hmem := hinv.currentQue_mem hflag
    cases t with
    | netLogic => exact Bool.false_ne_true (h.2.1.symm.trans hflag)
    | netIo =>
      rw [List.mem_singleton.mp hq] at hmem
      simp [Thread.queues] at hmem
    | game g =>
      rw [List.mem_singleton.mp hq] at hmem
      simp [Thread.queues] at hmem
  · cases t with
    | netIo => simp [Thread.queues] at hq
    | netLogic => simp [Thread.queues] at hq
    | game g' =>
      obtain rfl : g = g' := by simpa [Thread.queues] using hq
      exact Bool.false_ne_true (h.2.symm.trans hflag)

/-- **No wake-up is lost.** Whatever the threads do and in whatever order, when a consumer is about
to wait each of its queues is empty, or a byte that announces the queue is unread, or a producer
is between its push to the queue and its write. The queues start empty, which `message_que_creat`
does not ensure. -/
theorem no_wakeup_lost {P : Protobuf} {K : Sockets} {u : Unset} {is : List ThreadsIn}
    {os : List ThreadsOut} {s : Threads}
    (hrun : (threadsMachine P K).Exec Machine.any (Threads.start u) is os s) :
    ∀ t, s.AboutToWait t → ∀ q ∈ t.queues,
      s.queue q = [] ∨ (∃ w, w.que = q ∧ 0 < s.unread w) ∨
        ∃ t' w rest, s.todo t' = .wake w :: rest ∧ w.que = q := by
  have hall : ThreadsInv s ∧ ∀ q, s.Announced q := by
    refine hrun.invariant (P := fun s => ThreadsInv s ∧ ∀ q, s.Announced q)
      ⟨.start u, fun _ => Or.inl rfl⟩ ?_
    rintro s i s' out ⟨hinv, hann⟩ - hstep
    have hs := threadsMachine_step hstep
    exact ⟨hinv.step hs, fun q => (hann q).step hinv hs⟩
  intro t hwait q hq
  rcases hall.2 q with hnil | hring | hact | hdrain
  · exact Or.inl hnil
  · exact Or.inr (Or.inl hring)
  · exact Or.inr (Or.inr hact)
  · exact absurd hdrain (hwait.not_draining hall.1 hq)

/-- A connect crosses both queues. When net logic has pushed it, the game service is about to wait
and net logic has still to write. -/
theorem no_wakeup_lost_run : ∃ s os,
    (threadsMachine oneByteProtobuf (.established (fun _ => 1) fun _ => Nat.one_pos)).Exec
      Machine.any (Threads.start .zero)
      [.netIo ⟨oneEvent maxEvent_pos 5, fun _ => .connectAdd, 0,
          [(.success 3, 1)]⟩,
        .netIo ⟨none, fun _ => .invalid, 0, []⟩, .netIo ⟨none, fun _ => .invalid, 0, []⟩,
        .netLogic ⟨oneEvent maxService_pos 0, 512⟩, .netLogic ⟨none, 0⟩,
        .netLogic ⟨none, 0⟩] os s ∧
    s.AboutToWait (.game 0) ∧ s.queue (.netlogic2Game 0) = [.netlogic2Game 0 (.success 3) 1] ∧
    (s.queue (.netlogic2Game 0) = [] ∨ (∃ w, w.que = .netlogic2Game 0 ∧ 0 < s.unread w) ∨
      ∃ t' w rest, s.todo t' = .wake w :: rest ∧ w.que = .netlogic2Game 0) := by
  have hrun : ((threadsMachine oneByteProtobuf
      (.established (fun _ => 1) fun _ => Nat.one_pos)).run
      Machine.any (Threads.start .zero)
      [.netIo ⟨oneEvent maxEvent_pos 5, fun _ => .connectAdd, 0,
          [(.success 3, 1)]⟩,
        .netIo ⟨none, fun _ => .invalid, 0, []⟩, .netIo ⟨none, fun _ => .invalid, 0, []⟩,
        .netLogic ⟨oneEvent maxService_pos 0, 512⟩, .netLogic ⟨none, 0⟩,
        .netLogic ⟨none, 0⟩]).map
      (fun p => (p.1.todo (.game 0), p.1.checkQue 0, p.1.queue (.netlogic2Game 0))) =
      some ([], false, [.netlogic2Game 0 (.success 3) 1]) := by
    decide +kernel
  obtain ⟨s, os, hrun, hobs⟩ := Machine.exec_of_run_map _ hrun
  obtain ⟨hidle, hobs⟩ := Prod.mk.inj hobs
  obtain ⟨hflag, hque⟩ := Prod.mk.inj hobs
  exact ⟨s, os, hrun, ⟨hidle, hflag⟩, hque,
    no_wakeup_lost hrun (.game 0) ⟨hidle, hflag⟩ _ List.mem_cons_self⟩

end GameServer
