import LightServer.TableInvariant

/-! What the steps of the process leave of an object: its place in the map, its validity, and the time of its
last receive, which `HandleReceive` alone sets. -/
namespace LightServer

namespace View

/-- The object has been made, and no thread is about to enter it in the map. -/
structure Settled (p : Ptr) (v : View) : Prop where
  below : p < v.table.nextPtr
  made : ∀ task ∈ v.tasks, task.making ≠ some p

variable {v v' : View} {p : Ptr}

theorem Step.settled (step : Step v v') (settled : v.Settled p) : v'.Settled p := by
  refine ⟨settled.below.trans_le step.nextPtr_le,fun task member making => ?_⟩
  rcases step.making_new member making with ⟨before,old,was⟩ | new
  · exact settled.made before old was
  · exact settled.below.ne new

/-- It is not entered in the map again. -/
theorem Step.found_before (step : Step v v') (settled : v.Settled p) {sock : SOCKET} (found : v'.table.find sock = some p) :
    v.table.find sock = some p := by
  rcases step.find_new found with old | new | ⟨task,member,making⟩
  · exact old
  · exact absurd new settled.below.ne
  · exact absurd making (settled.made task member)

/-- Nor is it made valid again. -/
theorem Step.valid_before (step : Step v v') (settled : v.Settled p) {sock : SOCKET} {connected : Bool}
    (valid : v'.table.core p = some (sock,true,connected)) : ∃ sock connected, v.table.core p = some (sock,true,connected) := by
  have closed {T T' : Table} (closes : T.Closes T') (valid : T'.core p = some (sock,true,connected)) :
      ∃ sock connected, T.core p = some (sock,true,connected) := by
    obtain ⟨_,_,rfl,_,_⟩ := closes
    exact ⟨sock,connected,valid⟩
  have old {T : Table} {core : SOCKET × Bool × Bool} (below : p < T.nextPtr)
      (valid : (T.alloc core).core p = some (sock,true,connected)) : ∃ sock connected, T.core p = some (sock,true,connected) :=
    ⟨sock,connected,by simpa [Table.alloc,Table.setCore,below.ne] using valid⟩
  cases step with
  | work T role pending tasks T' role' work =>
    cases work with
    | connect q k _ kind core later =>
      by_cases same : p = q
      · exact ⟨k,false,same ▸ core⟩
      · exact ⟨sock,connected,by simpa [Table.record,Table.setCore,same] using valid⟩
    | add k registered absent registers => exact old settled.below valid
    | leak k core present => exact old settled.below valid
    | closeAccepted k => exact closed (T.closes_closeFD k) valid
    | disconnect fd q k known found core =>
      by_cases same : p = q
      · simp [Table.record,Table.setCore,same] at valid
      · exact ⟨sock,connected,by simpa [Table.record,Table.setCore,same] using valid⟩
    | removeClose q k => exact closed (T.closes_closeFD k) valid
    | removeDelete q k =>
      by_cases same : p = q
      · simp [Table.setCore,same] at valid
      · exact ⟨sock,connected,by simpa [Table.setCore,same] using valid⟩
    | _ => exact ⟨sock,connected,valid⟩
  | call T role pending exited tasks t task T' task' found call =>
    cases call with
    | closeFD k => exact closed (T.closes_closeFD k) valid
    | prepare k fresh notify => exact old settled.below valid
    | insert k q notify find inserts =>
      have differs : p ≠ q := by
        rintro rfl
        exact settled.made _ (List.mem_of_getElem? found) rfl
      exact ⟨sock,connected,by simpa [Table.setCore,differs] using valid⟩
    | closeListenSocket => exact closed (T.closes_closeFD T.listenSocket) valid
    | release core registered finished fewer unregistered =>
      rcases fewer p with same | ⟨gone,_⟩
      · exact ⟨sock,connected,same.symm.trans valid⟩
      · exact absurd (gone.symm.trans valid) (by simp)
    | closeFds _ finished closes => exact closed closes valid
    | _ => exact ⟨sock,connected,valid⟩
  | _ => exact ⟨sock,connected,valid⟩

end View

namespace Host

variable {p q : Ptr} {h h' next : Host}

/-- The members that `OnTimer` looks at. -/
def schedule (h : Host) : UInt32 × UInt32 × UInt64 := (h.heartbeatInterval,h.keepAliveTime,h.timerEventCount)

/-- Neither `OnTimer` nor a receive of the object. -/
structure Idles (p : Ptr) (h h' : Host) : Prop where
  schedule : h'.schedule = h.schedule
  stamped : ∀ object' ∈ h'.heap p, ∃ object ∈ h.heap p, object'.activeTime = object.activeTime

namespace Idles

theorem of_same (schedule : h'.schedule = h.schedule) (heap : h'.heap p = h.heap p) : Idles p h h' :=
  ⟨schedule,fun object live => ⟨object,heap ▸ live,rfl⟩⟩

theorem refl (p : Ptr) (h : Host) : Idles p h h := of_same rfl rfl

theorem trans (first : Idles p h h') (second : Idles p h' next) : Idles p h next := by
  refine ⟨second.schedule.trans first.schedule,fun object'' live => ?_⟩
  obtain ⟨object',live,later⟩ := second.stamped object'' live
  obtain ⟨object,live,early⟩ := first.stamped object' live
  exact ⟨object,live,later.trans early⟩

theorem modify (p q : Ptr) (change : SocketObject → SocketObject) (h : Host)
    (keeps : ∀ object ∈ h.heap q, (change object).activeTime = object.activeTime) : Idles p h (h.modify q change) := by
  refine ⟨rfl,fun object' live => ?_⟩
  by_cases same : p = q
  · subst same
    cases before : h.heap p with
    | none => simp [Host.modify,before] at live
    | some object =>
      obtain rfl : change object = object' := by simpa [Host.modify,before] using live
      exact ⟨object,rfl,keeps object before⟩
  · exact ⟨object',by simpa [Host.modify,same] using live,rfl⟩

theorem modify_ne (differs : p ≠ q) (change : SocketObject → SocketObject) (h : Host) : Idles p h (h.modify q change) :=
  of_same rfl (Function.update_of_ne differs _ _)

theorem deleteObject (p q : Ptr) (h : Host) : Idles p h (h.deleteObject q) := by
  refine ⟨rfl,fun object live => ⟨object,?_,rfl⟩⟩
  by_cases same : p = q
  · simp [Host.deleteObject,same] at live
  · simpa [Host.deleteObject,same] using live

theorem closeFD (p : Ptr) (fd : FD) (h : Host) : Idles p h (h.closeFD fd) := by
  unfold Host.closeFD
  split <;> exact of_same rfl rfl

theorem addFD (p : Ptr) (fd : FD) (pv : PVOID) (refused : Bool) (h : Host) : Idles p h (h.addFD fd pv refused).2 := by
  unfold Host.addFD
  split <;> exact of_same rfl rfl

theorem writeCmdEvt (p : Ptr) (h : Host) : Idles p h h.writeCmdEvt := by
  unfold Host.writeCmdEvt
  split <;> exact of_same rfl rfl

theorem triggerCmdEvent (p : Ptr) (cmd : EvtCommand) (fd : FD) (h : Host) : Idles p h (h.triggerCmdEvent cmd fd) := by
  unfold Host.triggerCmdEvent
  split
  · have pushed : Idles p h (h.pushCmd cmd fd) := of_same rfl rfl
    exact pushed.trans (writeCmdEvt p _)
  · exact refl p h

theorem prepareObject (other : p ≠ h.nextPtr) (raw : SocketObject) (addr : Option Sockaddr) (connected : Option UInt32) :
    Idles p h (h.prepareObject raw addr connected).2 := by
  cases addr <;> cases connected <;>
    exact of_same rfl (by simp [Host.prepareObject,Host.newSocketObject,Host.modify,other])

theorem insertSocketObject (p : Ptr) (sock : SOCKET) (q : Ptr) (h : Host) : Idles p h (h.insertSocketObject sock q) := by
  have marked := modify p q (fun object => (object.setSocketId sock).setValid) h (fun _ _ => rfl)
  exact marked.trans (of_same rfl rfl)

theorem releaseSocketObjects (p : Ptr) (h : Host) : Idles p h h.releaseSocketObjects := by
  obtain ⟨host,kept,same⟩ := h.releaseSocketObjects_rule (P := Idles p h) (refl p h) (fun host entry _ kept => by
    have deleted : Idles p host (host.deleteFD entry.1) := of_same rfl rfl
    exact kept.trans (deleted.trans (deleteObject p entry.2 _)))
  exact same ▸ kept.trans (of_same rfl rfl)

theorem closeManagerFds (p : Ptr) (h : Host) : Idles p h h.closeManagerFds :=
  h.closeManagerFds_rule (P := Idles p h) (refl p h) (fun _ _ kept => kept.trans (of_same rfl rfl))
    (fun host fd kept => kept.trans (closeFD p fd host)) (fun _ kept => kept.trans (of_same rfl rfl))

theorem startAccept (p : Ptr) (refused : Bool) (h : Host) : Idles p h (Sys.startAccept refused h) := by
  unfold Sys.startAccept
  dsimp only
  split
  · exact (addFD p h.listenSocket .listenSocket refused h).trans (of_same rfl rfl)
  · exact refl p h

theorem countReceived (p q : Ptr) {limiter : Limiter} (rc : Nat) (timeMs : UInt64) (h : Host)
    (keeps : ∀ count, limiter = some count → ∀ n time object, (count n time object).activeTime = object.activeTime) :
    Idles p h (h.countReceived limiter q rc timeMs) := by
  unfold Host.countReceived
  split
  · rename_i count object live
    split
    · exact modify p q (count rc timeMs) h (fun object _ => keeps count rfl rc timeMs object)
    · exact refl p h
  · exact refl p h

theorem receiveIteration (p q : Ptr) {limiter : Limiter} (addr : Option Sockaddr) (sock : SOCKET) (rc : Except Errno (List UInt8))
    (timeMs : UInt64) (h : Host)
    (keeps : ∀ count, limiter = some count → ∀ n time object, (count n time object).activeTime = object.activeTime) :
    Idles p h (h.receiveIteration limiter addr q sock rc timeMs).1 := by
  cases rc with
  | error code =>
    simp only [Host.receiveIteration]
    split
    · exact refl p h
    · exact triggerCmdEvent p .disconnect sock h
  | ok buf =>
    cases buf with
    | nil => exact triggerCmdEvent p .disconnect sock h
    | cons byte bytes =>
      have taken : Idles p h ({h with rxBuffer := byte::bytes ++ h.rxBuffer.drop (byte::bytes).length}.observe
          (.received q (byte::bytes))) := of_same rfl rfl
      have counted := taken.trans (countReceived p q (byte::bytes).length timeMs _ keeps)
      simp only [Host.receiveIteration]
      split
      · exact counted
      · exact counted.trans (of_same rfl rfl)

theorem handleReceive (p q : Ptr) (sock : SOCKET) (addr : Sockaddr) (rc : Except Errno (List UInt8)) (timeMs : UInt64) (h : Host) :
    Idles p h (h.handleReceive q sock addr rc timeMs).1 := by
  have bytes (num : UInt32) (now : UInt64) (object : SocketObject) :
      (object.countReceivedBytes num now).activeTime = object.activeTime := by
    simp only [SocketObject.countReceivedBytes]
    split <;> rfl
  have packets (num : UInt32) (now : UInt64) (object : SocketObject) :
      (object.countReceivedPacket num now).activeTime = object.activeTime := by
    simp only [SocketObject.countReceivedPacket]
    split <;> rfl
  cases kind : h.kind with
  | tcpServer =>
    simp only [Host.handleReceive,kind]
    exact receiveIteration p q none sock rc timeMs h (by simp)
  | tcpClient =>
    simp only [Host.handleReceive,kind]
    refine receiveIteration p q none sock rc timeMs h (fun count same n time object => ?_)
    exact (Option.some.inj same) ▸ bytes (UInt32.ofNat n) time object
  | udpServer =>
    simp only [Host.handleReceive,kind]
    refine receiveIteration p q (some addr) sock rc timeMs h (fun count same n time object => ?_)
    exact (Option.some.inj same) ▸ packets 1 time object

theorem onBeforeProcessIo (p q : Ptr) (soError : Except Errno Int) (now : UInt32) (h : Host) :
    Idles p h (TcpClient.onBeforeProcessIo q soError now h).1 := by
  have closed (sock : SOCKET) : Idles p h (h.closeSocket sock) := triggerCmdEvent p .disconnect sock h
  have opened (sock : SOCKET) : Idles p h ((h.modify q (SocketObject.setConnected now.toNat)).observe (.onConnect q sock)) :=
    (modify p q (SocketObject.setConnected now.toNat) h (fun _ _ => rfl)).trans (of_same rfl rfl)
  unfold TcpClient.onBeforeProcessIo
  split
  · exact refl p h
  · rename_i object live
    split
    · exact refl p h
    · split
      · exact refl p h
      · split
        · exact closed _
        · split
          · exact opened _
          · exact closed _

end Idles

/-- The object still has the time that the constructor gives it. -/
def NeverActive (p : Ptr) (h : Host) : Prop := ∀ object ∈ h.heap p, object.activeTime = 0

theorem Idles.neverActive (idles : Idles p h h') (never : h.NeverActive p) : h'.NeverActive p := by
  intro object' live'
  obtain ⟨object,live,same⟩ := idles.stamped object' live'
  exact same.trans (never object live)

/-- The object keeps its time, or it has just been built. -/
def LeavesTime (p : Ptr) (h h' : Host) : Prop := Idles p h h' ∨ p = h.nextPtr ∧ h'.NeverActive p

namespace LeavesTime

theorem trans (first : LeavesTime p h h') (second : Idles p h' next) : LeavesTime p h next :=
  first.imp (fun idles => idles.trans second) (fun built => ⟨built.1,second.neverActive built.2⟩)

theorem prepareObject (p : Ptr) (raw : SocketObject) (addr : Option Sockaddr) (connected : Option UInt32) (h : Host) :
    LeavesTime p h (h.prepareObject raw addr connected).2 := by
  by_cases other : p = h.nextPtr
  · refine .inr ⟨other,fun object live => ?_⟩
    cases addr <;> cases connected <;> simp only [Host.prepareObject,Host.newSocketObject,Host.modify,Option.elim_none,
      Option.elim_some,other,Function.update_self,Option.map_some,Option.mem_def,Option.some.injEq] at live <;> exact live ▸ rfl
  · exact .inl (.prepareObject other raw addr connected)

theorem addTcpSocket (p : Ptr) (sock : SOCKET) (addr : Sockaddr) (raw : SocketObject) (now : UInt32) (refused : Bool) (h : Host) :
    LeavesTime p h (h.addTcpSocket sock addr raw now refused).2.2 :=
  h.addTcpSocket_rule sock addr raw now refused (.inl (.refl p h)) (prepareObject p raw (some addr) (some now) h)
    (fun host q left => left.trans (.insertSocketObject p sock q host))
    (fun host q left => left.trans (.addFD p sock (.object q) refused host))

end LeavesTime

end Host

namespace Sys

open Host (Idles LeavesTime)

variable {s next : Sys} {act : Act} {p : Ptr}

/-- The worker reads its clock for a receive from the object. -/
def receives (p : Ptr) (s : Sys) (act : Act) : Option UInt32 :=
  match act, s.worker with
  | .readyRead now, .readyRead q _ _ => if q = p ∧ s.host.isValid (some q) then some now else none
  | _, _ => none

theorem Move.leavesTime {h h' : Host} {w w' : Worker} (move : Move h w act h' w') : h.LeavesTime p h' ∨
      (∃ exp now b, w = .timer b ∧ act = .timer (some exp) now ∧ h' = h.onTimer exp now ∧ w' = .batch b) ∨
      ∃ now events ctx sock, w = .readyRead p events ctx ∧ act = .readyRead now ∧ h.startReceive p now = some (sock,h') := by
  cases move with
  | disconnected count b cmd queue q object front left kind found live valid =>
    exact .inl (.inl ((Idles.modify p q SocketObject.setInvalid h (fun _ _ => rfl)).trans (.of_same rfl rfl)))
  | closeAccepted sock ctx => exact .inl (.inl (.closeFD p sock h))
  | popPacket q ctx => exact .inl (.inl (.modify p q SocketObject.popOutPacket h (fun _ _ => rfl)))
  | removeClose q sock count b => exact .inl (.inl (.closeFD p sock h))
  | removeDelete q sock count b => exact .inl (.inl (.deleteObject p q h))
  | timer exp now b => exact .inr (.inl ⟨exp,now,b,rfl,rfl,rfl,rfl⟩)
  | clientRefused q events ctx soError now kind refused => exact .inl (.inl (.onBeforeProcessIo p q soError now h))
  | clientIo q events ctx soError now kind passed => exact .inl (.inl (.onBeforeProcessIo p q soError now h))
  | added sock addr ctx raw now refused ok => exact .inl (.addTcpSocket p sock addr raw now refused h)
  | notAdded sock addr ctx raw now refused failed => exact .inl (.addTcpSocket p sock addr raw now refused h)
  | readStarted q events ctx now sock _ started =>
    by_cases same : q = p
    · subst same
      exact .inr (.inr ⟨now,events,ctx,sock,rfl,rfl,started⟩)
    · refine .inl (.inl ?_)
      obtain ⟨object,_,_,_,rfl⟩ := Host.startReceive_eq started
      exact .modify_ne (Ne.symm same) _ h
  | readOn q sock events ctx rc addr timeMs fits again => exact .inl (.inl (.handleReceive p q sock addr rc timeMs h))
  | readDone q sock events ctx rc addr timeMs rs fits done => exact .inl (.inl (.handleReceive p q sock addr rc timeMs h))
  | written q ctx packet count front left fits =>
    obtain ⟨addr,sent⟩ := h.handleSend_ok q packet count
    rw [sent]
    exact .inl (.inl ((Idles.modify p q (SocketObject.reduceFront count) h (fun _ _ => rfl)).trans (.of_same rfl rfl)))
  | _ => exact .inl (.inl (.of_same rfl rfl))

theorem CallStep.leavesTime {h h' : Host} {w : Worker} {c c' : Caller} {reply : Reply} (p : Ptr)
    (call : CallStep h w c reply h' c') : h.LeavesTime p h' := by
  cases call with
  | evtWrite next => exact .inl (.writeCmdEvt p h)
  | connected op addr sock raw now from_addr => exact .prepareObject p raw from_addr (some now) h
  | inProgress addr sock raw => exact .prepareObject p raw (some addr) none h
  | insert sock q notify => exact .inl (.insertSocketObject p sock q h)
  | addFD sock q notify reply refused => exact .inl (.addFD p sock (.object q) refused h)
  | closeSock sock => exact .inl (.closeFD p sock h)
  | closeListenSocket => exact .inl (.closeFD p h.listenSocket h)
  | release => exact .inl (.releaseSocketObjects p h)
  | closeFds => exact .inl ((Idles.closeManagerFds p h).trans (.of_same rfl rfl))
  | _ => exact .inl (.of_same rfl rfl)

/-- A step is a call of `OnTimer`, the start of a receive from the object, or neither. -/
theorem step_leavesTime (p : Ptr) (taken : s.step act = some next) :
    s.host.LeavesTime p next.host ∨
      (∃ exp now b, s.worker = .timer b ∧ act = .timer (some exp) now ∧ next = s.moveTo (s.host.onTimer exp now) (.batch b)) ∨
      ∃ now, s.receives p act = some now ∧ next.host = s.host.modify p (fun object => {object with activeTime := now.toNat}) := by
  cases step_taken taken with
  | startAccept refused kind => exact .inl (.inl (.startAccept p refused s.host))
  | sent act t sock addr raw buf q object sends kind idle found live valid room =>
    have pushed : (object.push raw buf addr).2.activeTime = object.activeTime := by
      unfold SocketObject.push
      split <;> rfl
    refine .inl (.inl (Idles.trans (.modify p q _ s.host (fun found at_q => ?_)) (.of_same rfl rfl)))
    obtain rfl : object = found := Option.some.inj (live.symm.trans at_q)
    exact pushed
  | limitSet sock num q change kind found which =>
    refine .inl (.inl (.modify p q change s.host (fun _ _ => ?_)))
    rcases which with rfl | rfl <;> rfl
  | caller t c reply host later found may call => exact .inl (call.leavesTime p)
  | worker act host worker idle move =>
    rcases move.leavesTime (p := p) with left | ⟨exp,now,b,at_timer,rfl,rfl,rfl⟩ | ⟨now,events,ctx,sock,at_read,rfl,started⟩
    · exact .inl left
    · exact .inr (.inl ⟨exp,now,b,at_timer,rfl,rfl⟩)
    · obtain ⟨object,live,valid,_,rfl⟩ := Host.startReceive_eq started
      exact .inr (.inr ⟨now,by simp [receives,at_read,Host.isValid,live,valid],rfl⟩)
  | _ => exact .inl (.inl (.of_same rfl rfl))

theorem step_idles (other : p ≠ s.host.nextPtr) (taken : s.step act = some next) :
    s.host.Idles p next.host ∨
      (∃ exp now b, s.worker = .timer b ∧ act = .timer (some exp) now ∧ next = s.moveTo (s.host.onTimer exp now) (.batch b)) ∨
      ∃ now, s.receives p act = some now ∧ next.host = s.host.modify p (fun object => {object with activeTime := now.toNat}) :=
  (step_leavesTime p taken).imp (fun left => left.resolve_right (fun built => other built.1)) id

/-- The object has been received from, the last time at `time`. -/
structure Since (p : Ptr) (time : Int) (s : Sys) : Prop where
  inv : Inv s
  settled : s.view.Settled p
  activeTime : ∀ object ∈ s.host.heap p, object.activeTime = time

theorem since_receive (inv : Inv s) {now : UInt32} (received : s.receives p act = some now) (taken : s.step act = some next) :
    Since p now.toNat next := by
  unfold receives at received
  split at received
  · rename_i q events ctx at_read
    split at received
    · rename_i reads
      obtain ⟨rfl,valid⟩ := reads
      obtain rfl := Option.some.inj received
      have seen : s.view.Visible q := .inl (.inr (.inr (by simp [view,at_read,Worker.role,Role.object])))
      have settled : s.view.Settled q :=
        ⟨inv.sound.visible q seen,fun task member making => inv.sound.making task member q making seen⟩
      refine ⟨inv.step taken,(view_step inv.control taken).settled settled,?_⟩
      cases step_taken taken with
      | sendRefused act sends => simp [message] at sends
      | sent act t sock addr raw buf r object sends => simp [message] at sends
      | worker act host worker idle move =>
        rw [at_read] at move
        cases move with
        | readInvalid _ _ _ _ none => simp [Host.startReceive_none.mp none] at valid
        | readStarted _ _ _ _ sock _ started =>
          obtain ⟨object,live,_,_,rfl⟩ := Host.startReceive_eq started
          intro object' live'
          obtain rfl : {object with activeTime := _} = object' := by simpa [moveTo,Host.modify,live] using live'
          rfl
    · contradiction
  · contradiction

variable {time : Int}

theorem Since.step (since : Since p time s) (unread : s.receives p act = none) (taken : s.step act = some next) :
    Since p time next := by
  refine ⟨since.inv.step taken,(view_step since.inv.control taken).settled since.settled,fun object' live' => ?_⟩
  have same (objects : (next.host.heap p).map SocketObject.activeTime = (s.host.heap p).map SocketObject.activeTime) :
      object'.activeTime = time := by
    rw [show next.host.heap p = some object' from live'] at objects
    obtain ⟨object,live,equal⟩ := Option.map_eq_some_iff.mp objects.symm
    exact equal.symm.trans (since.activeTime object live)
  rcases step_idles since.settled.below.ne taken with idles | ⟨exp,now,b,_,rfl,rfl⟩ | ⟨now,received,_⟩
  · obtain ⟨object,live,equal⟩ := idles.stamped object' live'
    exact equal.trans (since.activeTime object live)
  · have quiet : Host.Quiet SocketObject.activeTime Obs.notable s.host (s.host.onTimer exp now) := Host.onTimer_quiet exp now s.host
    exact same (quiet.objects p)
  · simp [unread] at received

/-- The object is in the map and valid. -/
def Serving (p : Ptr) (sock : SOCKET) (s : Sys) : Prop :=
  s.host.findSocketObject sock = some p ∧ s.host.isValid (some p) = true

theorem Since.serving (since : Since p time s) (taken : s.step act = some next) {sock : SOCKET} (serving : next.Serving p sock) :
    s.Serving p sock := by
  have step := view_step since.inv.control taken
  obtain ⟨k,connected,core⟩ := Host.isValid_core.mp serving.2
  exact ⟨step.found_before since.settled serving.1,Host.isValid_core.mpr (step.valid_before since.settled core)⟩

/-- An object that is in the map and valid has been so since it was received from. -/
theorem Since.was_serving {final : Sys} {first second : List Act} (since : Since p time s)
    (run : Transition.exec Sys.step s (first++second) = some final)
    (unread : Transition.Along Sys.step (fun s act => s.receives p act = none) s (first++second)) {sock : SOCKET}
    (serving : final.Serving p sock) :
    ∃ mid, Transition.exec Sys.step s first = some mid ∧ Since p time mid ∧ mid.Serving p sock := by
  rw [Transition.exec_append] at run
  obtain ⟨mid,early,late⟩ := Option.bind_eq_some_iff.mp run
  have still := Transition.exec_invariant (fun _ _ _ none since taken => since.step none taken) unread.left since early
  refine ⟨mid,early,still,?_⟩
  by_contra gone
  have stays (s : Sys) (act : Act) (next : Sys) (none : s.receives p act = none) (gone : Since p time s ∧ ¬ s.Serving p sock)
      (taken : s.step act = some next) : Since p time next ∧ ¬ next.Serving p sock :=
    ⟨gone.1.step none taken,fun now => gone.2 (gone.1.serving taken now)⟩
  exact (Transition.exec_invariant stays (unread.right early) ⟨still,gone⟩ late).2 serving

end Sys

end LightServer
