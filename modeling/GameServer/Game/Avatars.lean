import GameServer.Game.Tables

/-!
# Players and the slots they sit in

A player slot keeps what its last occupant left there: registration only marks it, removal only
clears the mark, and `uid`, name, position and step are written by a login request and by moves.
`Record` follows beside the tables what the messages of each uid have made of it since its
registration, and which uid logged in last in each slot. The slot of a player that has logged in
holds that player; the slot of any other holds whatever its signer left there.

## Main definitions

* `Avatar`, `Avatar.move`, `Avatar.Inside` : position and step of a player.
* `Record`, `avatarMachine` : the service with the avatars of its players and the signers of its
  slots.
* `AvatarInv` : slots hold the avatars of their players and the uids of their signers.
* `SpeaksFor`, `ActsAsItself` : a broadcast that is about its sender, and the messages for which
  every broadcast is.

## Main results

* `GameStep.slots` : what a message does to the contents of the slots.
* `messages_speak_for_sender` : what the service sends for a message speaks for its sender exactly
  when the slot is the sender's own.
* `positions_inside_map` : players that have logged in stay inside the map, and no request touches
  the slot of another player.
-/

namespace GameServer

/-! ### Avatars -/

/-- The position and the step of a player. -/
structure Avatar where
  pointX : ℤ
  pointY : ℤ
  step : ℤ
deriving DecidableEq, Repr

namespace Avatar

/-- Where a login puts a player. -/
def entry : Avatar := ⟨startPositionX, startPositionY, startStep⟩

/-- A step to the left, to the right, up or down, if it does not leave the map. -/
def move (a : Avatar) (move : ℤ) : Avatar :=
  if move = 1 then if 0 < a.pointX - a.step then { a with pointX := a.pointX - a.step } else a
  else if move = 2 then
    if a.pointX + a.step < mapNaxX then { a with pointX := a.pointX + a.step } else a
  else if move = 3 then
    if 0 < a.pointY - a.step then { a with pointY := a.pointY - a.step } else a
  else if move = 4 then
    if a.pointY + a.step < mapNaxY then { a with pointY := a.pointY + a.step } else a
  else a

/-- The position is one of the map. -/
structure Inside (a : Avatar) : Prop where
  step_nonneg : 0 ≤ a.step
  x_nonneg : 0 ≤ a.pointX
  x_lt : a.pointX < mapNaxX
  y_nonneg : 0 ≤ a.pointY
  y_lt : a.pointY < mapNaxY

theorem entry_inside : entry.Inside := by
  constructor <;> decide

/-- Moves do not leave the map. -/
theorem Inside.move {a : Avatar} (h : a.Inside) (move : ℤ) : (a.move move).Inside := by
  obtain ⟨hstep, hx, hx', hy, hy'⟩ := h
  unfold Avatar.move
  split_ifs with h1 hleft h2 hright h3 hup h4 hdown
  · exact ⟨hstep, hleft.le, by simp only; omega, hy, hy'⟩
  · exact ⟨hstep, hx, hx', hy, hy'⟩
  · exact ⟨hstep, by simp only; omega, hright, hy, hy'⟩
  · exact ⟨hstep, hx, hx', hy, hy'⟩
  · exact ⟨hstep, hx, hx', hup.le, by simp only; omega⟩
  · exact ⟨hstep, hx, hx', hy, hy'⟩
  · exact ⟨hstep, hx, hx', by simp only; omega, hdown⟩
  · exact ⟨hstep, hx, hx', hy, hy'⟩
  · exact ⟨hstep, hx, hx', hy, hy'⟩

end Avatar

/-- Where the player of a slot is. -/
def Player.avatar (p : Player) : Avatar := ⟨p.pointX, p.pointY, p.step⟩

/-- What a slot holds beside its mark. -/
def Player.contents (p : Player) : Player := { p with state := .typeInvalid }

theorem Player.contents_eq_iff {p p' : Player} : p'.contents = p.contents ↔
    p'.uid = p.uid ∧ p'.name = p.name ∧ p'.avatar = p.avatar := by
  simp only [contents, avatar, Player.mk.injEq, Avatar.mk.injEq, true_and]
  tauto

theorem movePlayer_uid (p : Player) (move : ℤ) : (movePlayer p move).uid = p.uid := by
  unfold movePlayer
  split_ifs <;> rfl

/-- The handler of a move request moves the avatar. -/
theorem movePlayer_avatar (p : Player) (move : ℤ) :
    (movePlayer p move).avatar = p.avatar.move move := by
  unfold movePlayer
  split_ifs <;> simp only [Avatar.move, Player.avatar, *] <;> rfl

/-! ### The contents of the slots -/

/-- What a message does to the contents of the slots: nothing, or a login or a move of the player
of one slot. -/
inductive SlotsStep (gl : GameLogic) (gl' : GameLogic) : GameMsg → Prop
  | quiet {msg : GameMsg} (h : ∀ m i, (gl'.mapPlayer m i).contents = (gl.mapPlayer m i).contents)
      (hlogin : ∀ uid req, msg = .data uid (.logReq (some req)) → ¬gl.Registered uid) :
      SlotsStep gl gl' msg
  | login (uid : Uid) (req : LoginReq) (hreg : gl.Registered uid) (h : gl' = gl.login uid req) :
      SlotsStep gl gl' (.data uid (.logReq (some req)))
  | move (uid : Uid) (req : MoveReq) (hreg : gl.Registered uid) (h : gl' = gl.move uid req) :
      SlotsStep gl gl' (.data uid (.moveReq (some req)))

/-- A mark set on a slot leaves its contents alone. -/
theorem contents_setCell_state (f : MapId → SlotId → Player) (m : MapId) (i : SlotId)
    (st : StateType) (m' : MapId) (i' : SlotId) :
    (setCell f m i { f m i with state := st } m' i').contents = (f m' i').contents := by
  by_cases hc : (m', i') = (m, i)
  · obtain ⟨rfl, rfl⟩ := Prod.mk.inj hc
    rw [setCell_self]
    rfl
  · rw [setCell_of_ne hc]

theorem GameStep.slots {gl gl' : GameLogic} {msg : GameMsg} {out : List Broadcast}
    (hstep : GameStep gl msg gl' out) : SlotsStep gl gl' msg := by
  cases hstep with
  | success uid =>
    refine .quiet (fun m i => ?_) nofun
    rcases gameRouteAppend_cases gl uid with he | ⟨m', i', -, -, -, -, he⟩ | ⟨m', i', -, -, he⟩
    · rw [he]
    · rw [he]
      exact contents_setCell_state gl.mapPlayer m' i' .typeUsing m i
    · rw [he]
      exact contents_setCell_state gl.mapPlayer m' i' .typeUsing m i
  | ignored hig =>
    refine .quiet (fun _ _ => rfl) ?_
    rintro uid req rfl hreg
    rcases hig hreg with he | ⟨d, he⟩ | ⟨b, he⟩ <;> cases he
  | start | leave => exact .quiet (fun _ _ => rfl) nofun
  | login uid req hreg => exact .login uid req hreg rfl
  | move uid req hreg => exact .move uid req hreg rfl
  | close uid l hreg =>
    refine .quiet (fun m i => ?_) nofun
    have hreg' : (gl.setList (gl.mapOf uid) l).Registered uid := hreg
    by_cases hslot : (gl.setList (gl.mapOf uid) l).mapPlayerSocketUid (gl.mapOf uid)
        (gl.slotOf uid) = some uid
    · rw [gameRouteDel_of_slot hreg' hslot]
      exact contents_setCell_state gl.mapPlayer (gl.mapOf uid) (gl.slotOf uid) .typeInvalid m i
    · rw [gameRouteDel_of_mismatch hreg' hslot]
      rfl

/-- A new contents of the slot of a uid changes no other slot. -/
theorem setPlayer_mapPlayer_of_ne {gl : GameLogic} {uid : Uid} {p : Player} {m : MapId}
    {i : SlotId} (h : (m, i) ≠ (gl.mapOf uid, gl.slotOf uid)) :
    (gl.setPlayer uid p).mapPlayer m i = gl.mapPlayer m i :=
  setCell_of_ne h

/-- A request changes no slot but that of its sender. -/
theorem GameStep.contents_of_ne {gl gl' : GameLogic} {uid : Uid} {req : Request}
    {out : List Broadcast} (hstep : GameStep gl (.data uid req) gl' out) {m : MapId} {i : SlotId}
    (h : gl.Registered uid → (m, i) ≠ (gl.mapOf uid, gl.slotOf uid)) :
    (gl'.mapPlayer m i).contents = (gl.mapPlayer m i).contents := by
  cases hstep.slots with
  | quiet hq => exact hq m i
  | login _ req hreg he =>
    rw [he]
    exact congrArg _ (setPlayer_mapPlayer_of_ne (h hreg))
  | move _ req hreg he =>
    rw [he]
    exact congrArg _ (setPlayer_mapPlayer_of_ne (h hreg))

/-- A message of another uid leaves the slot of a registered player alone. -/
theorem TableInv.playerOf_contents_of_ne {gl gl' : GameLogic} {msg : GameMsg}
    {out : List Broadcast} (h : TableInv gl) (hstep : GameStep gl msg gl' out) {u : Uid}
    (hreg : gl.Registered u) (hu : u ≠ msg.uid) :
    (gl'.playerOf u).contents = (gl.playerOf u).contents := by
  have hentry := hstep.entry_of_ne hu
  have hslot : gl'.playerOf u = gl'.mapPlayer (gl.mapOf u) (gl.slotOf u) := by
    simp only [GameLogic.playerOf, GameLogic.mapOf, GameLogic.slotOf, hentry]
  rw [hslot]
  cases msg with
  | data uid req =>
    refine hstep.contents_of_ne fun huid hc => ?_
    obtain ⟨hm, hi⟩ := Prod.mk.inj hc
    exact hu (h.eq_of_slot hreg huid hm hi)
  | close uid =>
    cases hstep.slots with
    | quiet hq => exact hq _ _
  | success uid =>
    cases hstep.slots with
    | quiet hq => exact hq _ _

/-! ### Who has logged in -/

/-- What the messages of the players have made of them: the avatar of each uid that has logged in
since its registration, and for each slot the uid of the last login there. It is not part of the
program. -/
structure Record where
  avatar : Uid → Option Avatar
  signer : MapId → SlotId → Option Uid

namespace Record

/-- Nobody has logged in. -/
def empty : Record := ⟨fun _ => none, fun _ _ => none⟩

/-- Assignment to the avatar of a uid. -/
def setAvatar (r : Record) (uid : Uid) (a : Option Avatar) : Record :=
  { r with avatar := Function.update r.avatar uid a }

/-- The record after a request of a registered uid. -/
def act (r : Record) (gl : GameLogic) (uid : Uid) : Request → Record
  | .logReq (some _) => { r.setAvatar uid (some .entry) with
      signer := setCell r.signer (gl.mapOf uid) (gl.slotOf uid) (some uid) }
  | .moveReq (some req) => r.setAvatar uid ((r.avatar uid).map (·.move req.move))
  | _ => r

/-- The record after a message. -/
def after (gl : GameLogic) (msg : GameMsg) (r : Record) : Record :=
  match msg with
  | .success uid => if (gameRouteAppend gl uid).1 = 0 then r.setAvatar uid none else r
  | .close uid => r.setAvatar uid none
  | .data uid req => if gl.Registered uid then r.act gl uid req else r

variable {gl : GameLogic} {r : Record} {msg : GameMsg} {u : Uid}

theorem setAvatar_of_ne {uid : Uid} {a : Option Avatar} (h : u ≠ uid) :
    (r.setAvatar uid a).avatar u = r.avatar u :=
  Function.update_of_ne h ..

theorem setAvatar_self {a : Option Avatar} : (r.setAvatar u a).avatar u = a :=
  Function.update_self ..

/-- A message leaves the avatars of the other uids alone. -/
theorem after_avatar_of_ne (h : u ≠ msg.uid) : (after gl msg r).avatar u = r.avatar u := by
  cases msg with
  | success uid =>
    simp only [after]
    split_ifs
    · exact setAvatar_of_ne h
    · rfl
  | close uid => exact setAvatar_of_ne h
  | data uid req =>
    simp only [after]
    split_ifs
    · unfold act
      split
      · exact setAvatar_of_ne h
      · exact setAvatar_of_ne h
      · rfl
    · rfl

/-- Only a login of a registered uid signs a slot. -/
theorem after_signer (h : ∀ uid req, msg = .data uid (.logReq (some req)) → ¬gl.Registered uid) :
    (after gl msg r).signer = r.signer := by
  cases msg with
  | success uid =>
    simp only [after]
    split_ifs <;> rfl
  | close uid => rfl
  | data uid req =>
    simp only [after]
    split_ifs with hreg
    · unfold act
      split
      · next login => exact absurd hreg (h uid login rfl)
      · rfl
      · rfl
    · rfl

/-- A message signs at most the slot of its uid. -/
theorem after_signer_of_ne {m : MapId} {i : SlotId}
    (h : gl.Registered msg.uid → (m, i) ≠ (gl.mapOf msg.uid, gl.slotOf msg.uid)) :
    (after gl msg r).signer m i = r.signer m i := by
  by_cases hlogin : ∃ uid req, msg = .data uid (.logReq (some req)) ∧ gl.Registered uid
  · obtain ⟨uid, req, rfl, hreg⟩ := hlogin
    simp only [after, hreg, if_true, act]
    exact setCell_of_ne (h hreg)
  · refine congrFun (congrFun (after_signer fun uid req he hreg => ?_) m) i
    exact hlogin ⟨uid, req, he, hreg⟩

end Record

/-- The service with its record as a machine. -/
def avatarMachine : Machine (GameLogic × Record) GameMsg Broadcast Fault :=
  gameMachine.withGhost Record.after

/-- The service and its record when it starts. -/
def avatarStart (heap : MapId → SlotId → Player) : GameLogic × Record :=
  (gameLogicCreat heap, Record.empty)

/-- The uid that the last login has left in a slot, or `malloc` where nobody has logged in. -/
def Record.signedUid (r : Record) (heap : MapId → SlotId → Player) (m : MapId) (i : SlotId) : ℤ :=
  match r.signer m i with
  | some v => v.toInt
  | none => (heap m i).uid

/-- The avatar `a` of the uid is that of a registered player, inside the map, in the slot of the
uid, which is the one that logged in there last. -/
structure Record.Holds (r : Record) (gl : GameLogic) (u : Uid) (a : Avatar) : Prop where
  inside : a.Inside
  registered : gl.Registered u
  avatar_eq : (gl.playerOf u).avatar = a
  signer_eq : r.signer (gl.mapOf u) (gl.slotOf u) = some u

/-- The tables describe a bijection, the slots of the players that have logged in hold their
avatars, and every slot holds the uid of its signer. -/
structure AvatarInv (heap : MapId → SlotId → Player) (gl : GameLogic) (r : Record) : Prop where
  tables : TableInv gl
  holds : ∀ u a, r.avatar u = some a → r.Holds gl u a
  uid_eq : ∀ m i, (gl.mapPlayer m i).uid = r.signedUid heap m i

namespace AvatarInv

variable {heap : MapId → SlotId → Player} {gl gl' : GameLogic} {r : Record} {msg : GameMsg}
  {out : List Broadcast}

theorem init (heap : MapId → SlotId → Player) :
    AvatarInv heap (gameLogicCreat heap) Record.empty where
  tables := TableInv.init heap
  holds u a h := by cases h
  uid_eq _ _ := rfl

/-- A message of another uid leaves a player that has logged in as it is. -/
theorem holds_of_ne (h : AvatarInv heap gl r) (hstep : GameStep gl msg gl' out) {u : Uid}
    {a : Avatar} (hu : u ≠ msg.uid) (ha : r.avatar u = some a) :
    (Record.after gl msg r).Holds gl' u a := by
  obtain ⟨hin, hreg, havatar, hsign⟩ := h.holds u a ha
  have hentry := hstep.entry_of_ne hu
  have hcontents := h.tables.playerOf_contents_of_ne hstep hreg hu
  refine ⟨hin, ?_, ?_, ?_⟩
  · simpa only [GameLogic.Registered, hentry] using hreg
  · rw [(Player.contents_eq_iff.mp hcontents).2.2, havatar]
  · have hne : gl.Registered msg.uid →
        (gl.mapOf u, gl.slotOf u) ≠ (gl.mapOf msg.uid, gl.slotOf msg.uid) := by
      intro hmsg hc
      obtain ⟨hm, hi⟩ := Prod.mk.inj hc
      exact hu (h.tables.eq_of_slot hreg hmsg hm hi)
    have hsame := Record.after_signer_of_ne (r := r) hne
    simp only [GameLogic.mapOf, GameLogic.slotOf, hentry] at hsame hsign ⊢
    rw [hsame, hsign]

theorem playerOf_setPlayer (gl : GameLogic) (u : Uid) (p : Player) :
    (gl.setPlayer u p).playerOf u = p :=
  setCell_self ..

/-- The sender of a message is, after it, what the record says. -/
theorem holds_self (h : AvatarInv heap gl r) (hstep : GameStep gl msg gl' out) {a : Avatar}
    (ha : (Record.after gl msg r).avatar msg.uid = some a) :
    (Record.after gl msg r).Holds gl' msg.uid a := by
  cases hstep with
  | success uid =>
    rcases h.tables.append_cases uid with he | ⟨m, i, -, -, -, -, he⟩
    · have hret : ¬(gameRouteAppend gl uid).1 = 0 := by simp only [he]; omega
      simp only [Record.after, if_neg hret, GameMsg.uid_success] at ha ⊢
      rw [he]
      exact h.holds uid a ha
    · have hret : (gameRouteAppend gl uid).1 = 0 := by rw [he]
      simp only [Record.after, if_pos hret, GameMsg.uid_success, Record.setAvatar_self] at ha
      cases ha
  | ignored hig =>
    cases msg with
    | success uid => exact hig.elim
    | close uid =>
      simp only [Record.after, GameMsg.uid_close, Record.setAvatar_self] at ha
      cases ha
    | data uid req =>
      have hsame : Record.after gl (.data uid req) r = r := by
        by_cases hreg : gl.Registered uid
        · rcases hig hreg with rfl | ⟨d, rfl⟩ | ⟨b, rfl⟩ <;>
            simp only [Record.after, hreg, if_true, Record.act]
        · simp only [Record.after, hreg, if_false]
      rw [hsame] at ha ⊢
      exact h.holds uid a ha
  | login uid req hreg =>
    simp only [Record.after, hreg, if_true, Record.act, GameMsg.uid_data] at ha ⊢
    obtain rfl : Avatar.entry = a := Option.some.inj (Record.setAvatar_self.symm.trans ha)
    refine ⟨Avatar.entry_inside, hreg, ?_, setCell_self ..⟩
    rw [GameLogic.login, playerOf_setPlayer]
    rfl
  | start uid hreg =>
    have hsame : Record.after gl (.data uid (.gameStartReq (some ⟨true⟩))) r = r := by
      simp only [Record.after, hreg, if_true, Record.act]
    rw [hsame] at ha ⊢
    obtain ⟨hin, hreg', havatar, hsign⟩ := h.holds uid a ha
    exact ⟨hin, hreg', havatar, hsign⟩
  | move uid req hreg =>
    simp only [Record.after, hreg, if_true, Record.act, GameMsg.uid_data,
      Record.setAvatar_self] at ha ⊢
    obtain ⟨b, hb, rfl⟩ := Option.map_eq_some_iff.mp ha
    obtain ⟨hin, hreg', havatar, hsign⟩ := h.holds uid b hb
    refine ⟨hin.move _, hreg', ?_, hsign⟩
    rw [GameLogic.move, playerOf_setPlayer, movePlayer_avatar, havatar]
  | leave uid data hreg =>
    have hsame : Record.after gl (.data uid (.leaveReq data)) r = r := by
      simp only [Record.after, hreg, if_true, Record.act]
    rw [hsame] at ha ⊢
    exact h.holds uid a ha
  | close uid =>
    simp only [Record.after, GameMsg.uid_close, Record.setAvatar_self] at ha
    cases ha

/-- **Step lemma.** -/
theorem step (h : AvatarInv heap gl r) (hstep : GameStep gl msg gl' out) :
    AvatarInv heap gl' (Record.after gl msg r) where
  tables := h.tables.step hstep
  holds u a ha := by
    by_cases hu : u = msg.uid
    · subst hu
      exact h.holds_self hstep ha
    · exact h.holds_of_ne hstep hu ((Record.after_avatar_of_ne hu).symm.trans ha)
  uid_eq m i := by
    have hold := h.uid_eq m i
    cases hstep.slots with
    | quiet hq hlogin =>
      rw [(Player.contents_eq_iff.mp (hq m i)).1, hold]
      simp only [Record.signedUid, Record.after_signer hlogin]
    | login uid req hreg he =>
      subst he
      by_cases hc : (m, i) = (gl.mapOf uid, gl.slotOf uid)
      · obtain ⟨rfl, rfl⟩ := Prod.mk.inj hc
        simp only [Record.signedUid, Record.after, hreg, if_true, Record.act, setCell_self]
        exact congrArg Player.uid (playerOf_setPlayer gl uid _)
      · simp only [Record.signedUid, Record.after, hreg, if_true, Record.act, setCell_of_ne hc]
        rw [GameLogic.login, setPlayer_mapPlayer_of_ne hc]
        exact hold
    | move uid req hreg he =>
      subst he
      have hsign : (Record.after gl (.data uid (.moveReq (some req))) r).signer = r.signer := by
        refine Record.after_signer fun _ _ h => ?_
        cases h
      rw [Record.signedUid, hsign, ← Record.signedUid, ← hold]
      by_cases hc : (m, i) = (gl.mapOf uid, gl.slotOf uid)
      · obtain ⟨rfl, rfl⟩ := Prod.mk.inj hc
        exact (congrArg Player.uid (playerOf_setPlayer gl uid _)).trans (movePlayer_uid _ _)
      · rw [GameLogic.move, setPlayer_mapPlayer_of_ne hc]

/-- **Run lemma.** The invariant along a run from any state that has it. -/
theorem run {ok : GameLogic × Record → GameMsg → Prop} {is : List GameMsg} {os : List Broadcast}
    {s s' : GameLogic × Record} (h : AvatarInv heap s.1 s.2)
    (hrun : avatarMachine.Exec ok s is os s') : AvatarInv heap s'.1 s'.2 :=
  hrun.invariant (P := fun s => AvatarInv heap s.1 s.2) h fun _ _ _ _ hinv _ hs => by
    obtain ⟨hgl, hr⟩ := Machine.withGhost_step_eq_ok.mp hs
    rw [hr]
    exact hinv.step (disposeQueueEvent_step hgl)

/-- The invariant along a run of the service. -/
theorem exec {ok : GameLogic × Record → GameMsg → Prop} {is : List GameMsg} {os : List Broadcast}
    {s : GameLogic × Record} (hrun : avatarMachine.Exec ok (avatarStart heap) is os s) :
    AvatarInv heap s.1 s.2 :=
  run (s := avatarStart heap) (init heap) hrun

end AvatarInv

/-! ### Whom a message is about -/

/-- The player has sent a login request since its registration. -/
def Record.LoggedIn (r : Record) (u : Uid) : Prop := (r.avatar u).isSome

instance (r : Record) (u : Uid) : Decidable (r.LoggedIn u) :=
  inferInstanceAs (Decidable (_ = true))

/-- The message is a move request. -/
def GameMsg.IsMove : GameMsg → Prop
  | .data _ (.moveReq _) => True
  | _ => False

/-- The broadcast, sent for the message `msg` of `u`, speaks for `u`: it names `u`, and the
position that it carries is the one of `own`, the avatar of `u`. The `ENEMY_MSG` of the replies to
a login are about others. -/
def SpeaksFor (u : Uid) (own : Option Avatar) (msg : GameMsg) (b : Broadcast) : Prop :=
  match b.buffer with
  | .newEnemy uid x y => uid = u.toInt ∧ ∃ a ∈ own, a.pointX = x ∧ a.pointY = y
  | .enemyMsg uid x y => msg.IsMove → uid = u.toInt ∧ ∃ a ∈ own, a.pointX = x ∧ a.pointY = y
  | .enemyLeave uid => uid = u.toInt
  | .leaveRsp _ => b.uidList = [u.toInt]
  | .moveRsp _ _ _ _ => b.uidList = [u.toInt]
  | _ => True

/-- Where a message has the service speak for a player, the slot is the player's: a start or a
move comes from a player that has logged in, and the slot of a player that leaves or closes was
last logged in to by that player, or by nobody and `malloc` left its uid there. -/
def ActsAsItself (heap : MapId → SlotId → Player) (s : GameLogic × Record) : GameMsg → Prop
  | .data u (.gameStartReq (some ⟨true⟩)) => s.1.Registered u → s.2.LoggedIn u
  | .data u (.moveReq (some _)) => s.1.Registered u → s.2.LoggedIn u
  | .data u (.leaveReq _) => s.1.Registered u →
    s.2.signedUid heap (s.1.mapOf u) (s.1.slotOf u) = u.toInt
  | .close u => s.1.Registered u → s.2.signedUid heap (s.1.mapOf u) (s.1.slotOf u) = u.toInt
  | _ => True

/-- A message of a uid that is not registered has nobody speak. -/
theorem actsAsItself_of_not_registered {heap : MapId → SlotId → Player} {s : GameLogic × Record}
    {msg : GameMsg} (h : ¬s.1.Registered msg.uid) : ActsAsItself heap s msg := by
  unfold ActsAsItself
  split
  · exact fun hreg => absurd hreg h
  · exact fun hreg => absurd hreg h
  · exact fun hreg => absurd hreg h
  · exact fun hreg => absurd hreg h
  · trivial

/-- The slot of a player that has logged in holds its uid and its position. -/
theorem AvatarInv.playerOf_eq {heap : MapId → SlotId → Player} {gl : GameLogic} {r : Record}
    (h : AvatarInv heap gl r) {u : Uid} {a : Avatar} (ha : r.avatar u = some a) :
    (gl.playerOf u).uid = u.toInt ∧ (gl.playerOf u).pointX = a.pointX ∧
      (gl.playerOf u).pointY = a.pointY := by
  obtain ⟨-, -, rfl, hsign⟩ := h.holds u a ha
  refine ⟨?_, rfl, rfl⟩
  rw [GameLogic.playerOf, h.uid_eq, Record.signedUid, hsign]

namespace AvatarInv

variable {heap : MapId → SlotId → Player} {gl gl' : GameLogic} {r : Record} {msg : GameMsg}
  {out : List Broadcast}

/-- A broadcast about the position of a player speaks for the player just when it has logged in. -/
theorem names_iff_loggedIn (h : AvatarInv heap gl r) {u : Uid} :
    ((gl.playerOf u).uid = u.toInt ∧ ∃ a ∈ r.avatar u,
      a.pointX = (gl.playerOf u).pointX ∧ a.pointY = (gl.playerOf u).pointY) ↔ r.LoggedIn u := by
  constructor
  · rintro ⟨-, a, ha, -⟩
    exact Option.isSome_of_mem ha
  · intro hlog
    obtain ⟨a, ha⟩ := Option.isSome_iff_exists.mp hlog
    obtain ⟨huid, hx, hy⟩ := h.playerOf_eq ha
    exact ⟨huid, a, ha, hx.symm, hy.symm⟩

/-- **Step lemma.** The broadcasts for a message speak for its sender exactly when the slot of the
sender is its own. -/
theorem speaksFor_iff (h : AvatarInv heap gl r) (hstep : GameStep gl msg gl' out) :
    (∀ b ∈ out, SpeaksFor msg.uid ((Record.after gl msg r).avatar msg.uid) msg b) ↔
      ActsAsItself heap (gl, r) msg := by
  have hnil : ∀ b ∈ ([] : List Broadcast),
      SpeaksFor msg.uid ((Record.after gl msg r).avatar msg.uid) msg b :=
    fun b hb => absurd hb List.not_mem_nil
  cases hstep with
  | success uid => exact iff_of_true hnil trivial
  | ignored hig =>
    refine iff_of_true hnil ?_
    cases msg with
    | success uid => trivial
    | close uid => exact fun hreg => absurd hreg hig
    | data uid req =>
      by_cases hreg : gl.Registered uid
      · rcases hig hreg with rfl | ⟨d, rfl⟩ | ⟨b, rfl⟩ <;> trivial
      · exact actsAsItself_of_not_registered hreg
  | login uid req =>
    refine iff_of_true (fun b hb => ?_) trivial
    simp only [loginReplies, List.cons_append, List.nil_append, List.mem_cons, List.mem_append,
      List.mem_map, List.not_mem_nil, or_false] at hb
    rcases hb with rfl | ⟨e, -, rfl⟩ | rfl
    · trivial
    · exact False.elim
    · trivial
  | start uid hreg =>
    have hsame : Record.after gl (.data uid (.gameStartReq (some ⟨true⟩))) r = r := by
      simp only [Record.after, hreg, if_true, Record.act]
    simp only [hsame, List.forall_mem_cons, List.not_mem_nil, false_implies, implies_true, and_true,
      SpeaksFor, toMap, ActsAsItself, hreg, forall_const, GameMsg.uid_data]
    exact h.names_iff_loggedIn
  | move uid req hreg =>
    have hafter := h.step (.move uid req hreg ‹_›)
    have hplayer : (gl.move uid req).playerOf uid = movePlayer (gl.playerOf uid) req.move :=
      playerOf_setPlayer ..
    have hlog : (Record.after gl (.data uid (.moveReq (some req))) r).LoggedIn uid ↔
        r.LoggedIn uid := by
      simp only [Record.LoggedIn, Record.after, hreg, if_true, Record.act, Record.setAvatar_self,
        Option.isSome_map]
    have hnames := hafter.names_iff_loggedIn (u := uid)
    rw [hplayer, hlog] at hnames
    simpa only [List.forall_mem_cons, List.not_mem_nil, false_implies, implies_true, and_true,
      SpeaksFor, toMap, ActsAsItself, hreg, forall_const, GameMsg.uid_data, GameMsg.IsMove]
      using hnames
  | leave uid data hreg =>
    simp only [leaveRspSend, List.forall_mem_cons, List.not_mem_nil, false_implies, implies_true,
      and_true, SpeaksFor, ActsAsItself, hreg, forall_const, GameMsg.uid_data, List.cons.injEq,
      ← h.uid_eq]
    rfl
  | close uid l hreg =>
    simp only [List.forall_mem_cons, List.not_mem_nil, false_implies, implies_true, and_true,
      SpeaksFor, toMap, ActsAsItself, hreg, forall_const, GameMsg.uid_close, ← h.uid_eq]
    rfl

end AvatarInv

/-- **The broadcasts for a message speak for its sender** exactly when the slot of the sender is
its own, in whatever state the service has reached. -/
theorem messages_speak_for_sender {heap : MapId → SlotId → Player} {is : List GameMsg}
    {os : List Broadcast} {s s' : GameLogic × Record} {msg : GameMsg} {out : List Broadcast}
    (hrun : avatarMachine.Exec Machine.any (avatarStart heap) is os s)
    (hstep : avatarMachine.step s msg = .ok (s', out)) :
    (∀ b ∈ out, SpeaksFor msg.uid (s'.2.avatar msg.uid) msg b) ↔ ActsAsItself heap s msg := by
  obtain ⟨hgl, hr⟩ := Machine.withGhost_step_eq_ok.mp hstep
  rw [hr]
  exact (AvatarInv.exec hrun).speaksFor_iff (disposeQueueEvent_step hgl)

instance (heap : MapId → SlotId → Player) (s : GameLogic × Record) (msg : GameMsg) :
    Decidable (ActsAsItself heap s msg) := by
  unfold ActsAsItself
  split <;> infer_instance

/-- A player logs in, starts and moves to the right; the broadcast names it and its position. -/
theorem messages_speak_for_sender_run : ∃ s os s' out,
    avatarMachine.Exec Machine.any (avatarStart zeroHeap)
      [.success 3, .data 3 (.logReq (some ⟨[]⟩)), .data 3 (.gameStartReq (some ⟨true⟩))] os s ∧
    avatarMachine.step s (.data 3 (.moveReq (some ⟨2⟩))) = .ok (s', out) ∧
    out = [⟨1, [3], .enemyMsg, .enemyMsg 3 4 0⟩] ∧
    ∀ b ∈ out, SpeaksFor 3 (s'.2.avatar 3) (.data 3 (.moveReq (some ⟨2⟩))) b := by
  have hrun : (avatarMachine.runStep Machine.any (avatarStart zeroHeap)
      [.success 3, .data 3 (.logReq (some ⟨[]⟩)), .data 3 (.gameStartReq (some ⟨true⟩))]
      (.data 3 (.moveReq (some ⟨2⟩)))).map (fun p =>
        (decide (ActsAsItself zeroHeap p.1 (.data 3 (.moveReq (some ⟨2⟩)))), p.2.2)) =
      some (true, [⟨1, [3], .enemyMsg, .enemyMsg 3 4 0⟩]) := by
    decide +kernel
  obtain ⟨s, os, s', out, hrun, hstep, hobs⟩ := avatarMachine.exec_step_of_runStep_map hrun
  obtain ⟨hself, hout⟩ := Prod.mk.inj hobs
  exact ⟨s, os, s', out, hrun, hstep, hout,
    (messages_speak_for_sender hrun hstep).mpr (of_decide_eq_true hself)⟩

/-- Client 3 logs in, starts, moves and leaves; client 4 gets its slot and moves without having
logged in. The broadcast says that the player that has left is moving on. -/
theorem move_names_earlier_occupant : ∃ s os s' out,
    avatarMachine.Exec Machine.any (avatarStart zeroHeap)
      [.success 3, .data 3 (.logReq (some ⟨[]⟩)), .data 3 (.gameStartReq (some ⟨true⟩)),
        .data 3 (.moveReq (some ⟨2⟩)), .close 3, .success 4] os s ∧
    avatarMachine.step s (.data 4 (.moveReq (some ⟨2⟩))) = .ok (s', out) ∧
    out = [⟨0, [], .enemyMsg, .enemyMsg 3 8 0⟩] ∧
    ¬∀ b ∈ out, SpeaksFor 4 (s'.2.avatar 4) (.data 4 (.moveReq (some ⟨2⟩))) b := by
  have hrun : (avatarMachine.runStep Machine.any (avatarStart zeroHeap)
      [.success 3, .data 3 (.logReq (some ⟨[]⟩)), .data 3 (.gameStartReq (some ⟨true⟩)),
        .data 3 (.moveReq (some ⟨2⟩)), .close 3, .success 4]
      (.data 4 (.moveReq (some ⟨2⟩)))).map (fun p => p.2.2) =
      some [⟨0, [], .enemyMsg, .enemyMsg 3 8 0⟩] := by
    decide +kernel
  obtain ⟨s, os, s', out, hrun, hstep, hout⟩ := avatarMachine.exec_step_of_runStep_map hrun
  refine ⟨s, os, s', out, hrun, hstep, hout, fun hall => ?_⟩
  subst hout
  obtain ⟨huid, -⟩ := hall _ (List.mem_singleton_self _) trivial
  exact absurd huid (by decide)

/-! ### Players stay inside the map -/

/-- **Players stay inside the map and out of each other's slots.** In every state that the service
reaches, a player that has logged in since its registration is inside the map, and a request
changes position, step and name of no slot but that of its sender. -/
theorem positions_inside_map {heap : MapId → SlotId → Player} {is : List GameMsg}
    {os : List Broadcast} {s : GameLogic × Record}
    (hrun : avatarMachine.Exec Machine.any (avatarStart heap) is os s) :
    (∀ u, s.2.LoggedIn u →
      0 ≤ (s.1.playerOf u).pointX ∧ (s.1.playerOf u).pointX < mapNaxX ∧
      0 ≤ (s.1.playerOf u).pointY ∧ (s.1.playerOf u).pointY < mapNaxY) ∧
    ∀ uid req s' out, avatarMachine.step s (.data uid req) = .ok (s', out) →
      ∀ m i, (s.1.Registered uid → (m, i) ≠ (s.1.mapOf uid, s.1.slotOf uid)) →
        (s'.1.mapPlayer m i).pointX = (s.1.mapPlayer m i).pointX ∧
        (s'.1.mapPlayer m i).pointY = (s.1.mapPlayer m i).pointY ∧
        (s'.1.mapPlayer m i).step = (s.1.mapPlayer m i).step ∧
        (s'.1.mapPlayer m i).name = (s.1.mapPlayer m i).name := by
  refine ⟨fun u hlog => ?_, fun uid req s' out hstep m i hne => ?_⟩
  · obtain ⟨a, ha⟩ := Option.isSome_iff_exists.mp hlog
    obtain ⟨hin, -, rfl, -⟩ := (AvatarInv.exec hrun).holds u a ha
    exact ⟨hin.x_nonneg, hin.x_lt, hin.y_nonneg, hin.y_lt⟩
  · obtain ⟨hgl, -⟩ := Machine.withGhost_step_eq_ok.mp hstep
    have hgame : GameStep s.1 (.data uid req) s'.1 out := disposeQueueEvent_step hgl
    obtain ⟨-, hname, havatar⟩ := Player.contents_eq_iff.mp (hgame.contents_of_ne hne)
    obtain ⟨hx, hy, hkept⟩ := Avatar.mk.inj havatar
    exact ⟨hx, hy, hkept, hname⟩

/-- Two players log in, and one of them moves down twice and left once, against the border. -/
theorem positions_inside_map_run : ∃ s os,
    avatarMachine.Exec Machine.any (avatarStart zeroHeap)
      [.success 3, .success 4, .data 3 (.logReq (some ⟨[]⟩)), .data 4 (.logReq (some ⟨[]⟩)),
        .data 3 (.moveReq (some ⟨4⟩)), .data 3 (.moveReq (some ⟨4⟩)),
        .data 3 (.moveReq (some ⟨1⟩))] os s ∧
    s.1.playerOf 3 = ⟨.typeUsing, 4, 3, [0], 0, 8⟩ ∧
    0 ≤ (s.1.playerOf 3).pointY ∧ (s.1.playerOf 3).pointY < mapNaxY := by
  have hrun : (avatarMachine.run Machine.any (avatarStart zeroHeap)
      [.success 3, .success 4, .data 3 (.logReq (some ⟨[]⟩)), .data 4 (.logReq (some ⟨[]⟩)),
        .data 3 (.moveReq (some ⟨4⟩)), .data 3 (.moveReq (some ⟨4⟩)),
        .data 3 (.moveReq (some ⟨1⟩))]).map
      (fun p => (decide (p.1.2.LoggedIn 3), p.1.1.playerOf 3)) =
      some (true, ⟨.typeUsing, 4, 3, [0], 0, 8⟩) := by
    decide +kernel
  obtain ⟨s, os, hrun, hobs⟩ := avatarMachine.exec_of_run_map hrun
  obtain ⟨hlog, hplayer⟩ := Prod.mk.inj hobs
  obtain ⟨-, -, hy, hy'⟩ := (positions_inside_map hrun).1 3 (of_decide_eq_true hlog)
  exact ⟨s, os, hrun, hplayer, hy, hy'⟩

end GameServer
