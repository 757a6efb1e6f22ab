import LightServer.Base.Session
import LightServer.Steps

/-! What the steps leave alone. A change of the process is quiet for a view of the
socket objects and of the log if all it can be seen to do is to push commands. -/
namespace LightServer

namespace SocketObject

/-- What the connection table and the callbacks depend on. -/
def core (object : SocketObject) : SOCKET × Bool × Bool := (object.socketId,object.fValid,object.connectState)

def shape (object : SocketObject) : (SOCKET × Bool × Bool) × List MsgPacket := (object.core,object.outPacketsQueue)

@[simp] theorem countReceivedPacket_shape (num : UInt32) (now : UInt64) (object : SocketObject) :
    (object.countReceivedPacket num now).shape = object.shape := by
  simp only [countReceivedPacket]
  split <;> rfl

@[simp] theorem countReceivedBytes_shape (num : UInt32) (now : UInt64) (object : SocketObject) :
    (object.countReceivedBytes num now).shape = object.shape := by
  simp only [countReceivedBytes]
  split <;> rfl

end SocketObject

namespace Obs

/-- The calls of the listener about a connection. -/
def callback : Obs → Option (Ptr × SOCKET × Session.Call)
  | .onConnect p sock => some (p,sock,.opened)
  | .doRead p sock _ _ => some (p,sock,.used)
  | .onDisconnect p sock => some (p,sock,.closed)
  | _ => none

/-- All but the bytes that `read` returned. -/
def notable : Obs → Option Obs
  | .received _ _ => none
  | obs => some obs

end Obs

namespace Host

variable {α β γ δ : Type} {view : SocketObject → α} {seen : Obs → Option β} {h h' next : Host}

structure Quiet (view : SocketObject → α) (seen : Obs → Option β) (h h' : Host) : Prop where
  commands : ∃ added, h'.cmdQueue = h.cmdQueue ++ added ∧ (∀ cmd ∈ added, cmd.owner = h.findSocketObject cmd.fd) ∧
    (added ≠ [] → h.cmdEvtFd ≠ invalidFd → h'.cmdReady)
  cmdReady : h.cmdReady → h'.cmdReady
  objects : ∀ p, (h'.heap p).map view = (h.heap p).map view
  log : h'.log.filterMap seen = h.log.filterMap seen
  kind : h'.kind = h.kind
  sockObjectMap : h'.sockObjectMap = h.sockObjectMap
  epollFd : h'.epollFd = h.epollFd
  exitEvtFd : h'.exitEvtFd = h.exitEvtFd
  cmdEvtFd : h'.cmdEvtFd = h.cmdEvtFd
  timerEvtFd : h'.timerEvtFd = h.timerEvtFd
  listenSocket : h'.listenSocket = h.listenSocket
  nextPtr : h'.nextPtr = h.nextPtr
  isOpen : h'.isOpen = h.isOpen
  interest : h'.interest = h.interest
  listenReady : h'.listenReady = h.listenReady
  backlog : h'.backlog = h.backlog

namespace Quiet

theorem silent (cmdQueue : h'.cmdQueue = h.cmdQueue) (cmdReady : h.cmdReady → h'.cmdReady)
    (objects : ∀ p, (h'.heap p).map view = (h.heap p).map view) (log : h'.log.filterMap seen = h.log.filterMap seen)
    (rest : h' = {h with cmdQueue := h'.cmdQueue, cmdReady := h'.cmdReady, exitReady := h'.exitReady, heap := h'.heap,
                         log := h'.log, rxBuffer := h'.rxBuffer, timerEventCount := h'.timerEventCount}) :
    Quiet view seen h h' := by
  refine ⟨⟨[],by simp [cmdQueue],by simp,by simp⟩,cmdReady,objects,log,?_,?_,?_,?_,?_,?_,?_,?_,?_,?_,?_,?_⟩ <;> rw [rest]

theorem refl (h : Host) : Quiet view seen h h := silent rfl id (fun _ => rfl) rfl rfl

theorem trans (first : Quiet view seen h h') (second : Quiet view seen h' next) : Quiet view seen h next := by
  obtain ⟨early,pushed,owners,raised⟩ := first.commands
  obtain ⟨late,pushed',owners',raised'⟩ := second.commands
  refine ⟨⟨early++late,by rw [pushed',pushed,List.append_assoc],?_,?_⟩,second.cmdReady ∘ first.cmdReady,
    fun p => (second.objects p).trans (first.objects p),second.log.trans first.log,second.kind.trans first.kind,
    second.sockObjectMap.trans first.sockObjectMap,second.epollFd.trans first.epollFd,
    second.exitEvtFd.trans first.exitEvtFd,second.cmdEvtFd.trans first.cmdEvtFd,second.timerEvtFd.trans first.timerEvtFd,
    second.listenSocket.trans first.listenSocket,second.nextPtr.trans first.nextPtr,second.isOpen.trans first.isOpen,
    second.interest.trans first.interest,second.listenReady.trans first.listenReady,second.backlog.trans first.backlog⟩
  · intro cmd member
    rcases List.mem_append.mp member with old | new
    · exact owners cmd old
    · rw [owners' cmd new,findSocketObject,findSocketObject,first.sockObjectMap]
  · intro some_added valid
    by_cases none_late : late = []
    · refine second.cmdReady (raised ?_ valid)
      simpa [none_late] using some_added
    · exact raised' none_late (first.cmdEvtFd ▸ valid)

/-- What is quiet for a view is quiet for what can be computed from it. -/
theorem coarsen (quiet : Quiet view seen h h') (less : α → γ) (fewer : β → Option δ) :
    Quiet (less ∘ view) (fun obs => (seen obs).bind fewer) h h' := by
  refine ⟨quiet.commands,quiet.cmdReady,fun p => ?_,?_,quiet.kind,quiet.sockObjectMap,quiet.epollFd,quiet.exitEvtFd,
    quiet.cmdEvtFd,quiet.timerEvtFd,quiet.listenSocket,quiet.nextPtr,quiet.isOpen,quiet.interest,quiet.listenReady,
    quiet.backlog⟩
  · rw [← Option.map_map,← Option.map_map,quiet.objects p]
  · rw [← List.filterMap_filterMap,← List.filterMap_filterMap,quiet.log]

theorem modify (p : Ptr) {change : SocketObject → SocketObject} (unseen : ∀ object, view (change object) = view object) :
    Quiet view seen h (h.modify p change) := by
  refine silent rfl id (fun q => ?_) rfl rfl
  by_cases same : q = p
  · subst same
    cases live : h.heap q <;> simp [Host.modify,live,unseen]
  · simp [Host.modify,same]

theorem observe {obs : Obs} (hidden : seen obs = none) : Quiet view seen h (h.observe obs) :=
  silent rfl id (fun _ => rfl) (by simp [Host.observe,hidden]) rfl

theorem triggerCmdEvent (cmd : EvtCommand) (fd : FD) : Quiet view seen h (h.triggerCmdEvent cmd fd) := by
  by_cases started : h.hasStart = true
  · by_cases valid : h.cmdEvtFd = invalidFd
    · refine ⟨⟨[⟨cmd,fd,h.findSocketObject fd⟩],?_,by simp,fun _ other => absurd valid other⟩,?_,fun _ => ?_,?_,
        ?_,?_,?_,?_,?_,?_,?_,?_,?_,?_,?_,?_⟩ <;> simp [Host.triggerCmdEvent,started,pushCmd,writeCmdEvt,valid]
    · refine ⟨⟨[⟨cmd,fd,h.findSocketObject fd⟩],?_,by simp,fun _ _ => ?_⟩,?_,fun _ => ?_,?_,
        ?_,?_,?_,?_,?_,?_,?_,?_,?_,?_,?_,?_⟩ <;> simp [Host.triggerCmdEvent,started,pushCmd,writeCmdEvt,valid]
  · simpa [Host.triggerCmdEvent,started] using refl h

end Quiet

/-! The handlers. -/

abbrev Calm (h h' : Host) : Prop := Quiet SocketObject.shape Obs.notable h h'

/-- What can be told without the bytes that were read stays as it is. -/
theorem Quiet.calm_log {fewer : Obs → Option β} (calm : Calm h h') (unread : ∀ p buf, fewer (.received p buf) = none) :
    h'.log.filterMap fewer = h.log.filterMap fewer := by
  have seen : (fun obs => (Obs.notable obs).bind fewer) = fewer := by
    funext obs
    cases obs with
    | received p buf => exact (unread p buf).symm
    | _ => rfl
  have log := (calm.coarsen id fewer).log
  rwa [seen] at log

theorem countReceived_calm (limiter : Limiter) (p : Ptr) (rc : Nat) (timeMs : UInt64) (h : Host)
    (unseen : ∀ count, limiter = some count → ∀ n time object, (count n time object).shape = object.shape) :
    Calm h (h.countReceived limiter p rc timeMs) := by
  unfold countReceived
  split
  · rename_i count object live
    split
    · exact .modify p (unseen count rfl rc timeMs)
    · exact .refl h
  · exact .refl h

theorem isOverLimit_countReceived (h h' : Host) (heap : h'.heap = h.heap) (limiter : Limiter) (p : Ptr) (rc : Nat)
    (timeMs : UInt64) : (h'.countReceived limiter p rc timeMs).isOverLimit limiter p =
      (h.countReceived limiter p rc timeMs).isOverLimit limiter p := by
  have counted : (h'.countReceived limiter p rc timeMs).heap = (h.countReceived limiter p rc timeMs).heap := by
    unfold countReceived
    rw [heap]
    split
    · split
      · simp only [modify,heap]
      · exact heap
    · exact heap
  rw [isOverLimit,isOverLimit,counted]

/-- An iteration that goes on has handed what it read to `DoRead`; one that returns has not. -/
theorem receiveIteration_calm (limiter : Limiter) {addr : Option Sockaddr} {p : Ptr} {sock : SOCKET}
    {rc : Except Errno (List UInt8)} {timeMs : UInt64}
    (unseen : ∀ count, limiter = some count → ∀ n time object, (count n time object).shape = object.shape)
    {result : Host × Option Bool} (done : h.receiveIteration limiter addr p sock rc timeMs = result) :
    (result.2 = none ∧ ∃ mid buf from_addr, Calm h mid ∧ result.1 = mid.observe (.doRead p sock buf from_addr)) ∨
      (result.2 ≠ none ∧ Calm h result.1) := by
  subst done
  cases rc with
  | error code =>
    right
    by_cases again : code = ewouldblock
    · simpa [receiveIteration,again] using Quiet.refl h
    · simpa [receiveIteration,again,closeSocket] using Quiet.triggerCmdEvent (h := h) .disconnect sock
  | ok buf =>
    cases buf with
    | nil =>
      right
      simpa [receiveIteration,closeSocket] using Quiet.triggerCmdEvent (h := h) .disconnect sock
    | cons byte bytes =>
      let filled : Host := {h with rxBuffer := byte::bytes ++ h.rxBuffer.drop (byte::bytes).length}
      have stored : Calm h filled := .silent rfl id (fun _ => rfl) rfl rfl
      have taken : Calm h (filled.observe (.received p (byte::bytes))) := stored.trans (.observe rfl)
      have counted := taken.trans (countReceived_calm limiter p (byte::bytes).length timeMs _ unseen)
      by_cases exceeded : isOverLimit limiter p
          ((filled.observe (.received p (byte::bytes))).countReceived limiter p (byte::bytes).length timeMs) = true
      · have stopped : h.receiveIteration limiter addr p sock (.ok (byte::bytes)) timeMs = (_,some false) := if_pos exceeded
        rw [stopped]
        exact .inr ⟨by simp,counted⟩
      · have again : h.receiveIteration limiter addr p sock (.ok (byte::bytes)) timeMs = (_,none) := if_neg exceeded
        rw [again]
        exact .inl ⟨rfl,_,_,_,counted,rfl⟩

theorem handleReceive_calm (p : Ptr) (sock : SOCKET) (addr : Sockaddr) (rc : Except Errno (List UInt8)) (timeMs : UInt64)
    (h : Host) :
    ((h.handleReceive p sock addr rc timeMs).2 = none ∧ ∃ mid buf from_addr, Calm h mid ∧
        (h.handleReceive p sock addr rc timeMs).1 = mid.observe (.doRead p sock buf from_addr)) ∨
      ((h.handleReceive p sock addr rc timeMs).2 ≠ none ∧ Calm h (h.handleReceive p sock addr rc timeMs).1) := by
  cases kind : h.kind with
  | tcpServer =>
    simp only [handleReceive,kind]
    exact receiveIteration_calm none (by simp) rfl
  | tcpClient =>
    simp only [handleReceive,kind]
    refine receiveIteration_calm TcpClient.limiter ?_ rfl
    intro count same n time object
    exact (Option.some.inj same) ▸ object.countReceivedBytes_shape (UInt32.ofNat n) time
  | udpServer =>
    simp only [handleReceive,kind]
    refine receiveIteration_calm UdpServer.limiter ?_ rfl
    intro count same n time object
    exact (Option.some.inj same) ▸ object.countReceivedPacket_shape 1 time

theorem handleReceive_again {p : Ptr} {sock : SOCKET} {addr : Sockaddr} {rc : Except Errno (List UInt8)} {timeMs : UInt64}
    (again : (h.handleReceive p sock addr rc timeMs).2 = none) : ∃ mid buf from_addr, Calm h mid ∧
      (h.handleReceive p sock addr rc timeMs).1 = mid.observe (.doRead p sock buf from_addr) := by
  rcases h.handleReceive_calm p sock addr rc timeMs with ⟨_,handed⟩ | ⟨stopped,_⟩
  · exact handed
  · exact absurd again stopped

theorem handleReceive_done {p : Ptr} {sock : SOCKET} {addr : Sockaddr} {rc : Except Errno (List UInt8)} {timeMs : UInt64}
    {rs : Bool} (done : (h.handleReceive p sock addr rc timeMs).2 = some rs) :
    Calm h (h.handleReceive p sock addr rc timeMs).1 := by
  rcases h.handleReceive_calm p sock addr rc timeMs with ⟨again,_⟩ | ⟨_,calm⟩
  · simp [again] at done
  · exact calm

theorem disconnectSilence_quiet (period : UInt64) (now : UInt32) (h : Host) :
    Quiet view seen h (h.disconnectSilenceConnections period now) :=
  h.disconnectSilence_rule period now (.refl h) (fun _ _ quiet => quiet.trans (.triggerCmdEvent .disconnect _))

theorem clientTimer_quiet (exp : UInt64) (now : UInt32) (h : Host) : Quiet view seen h (TcpClient.onTimer exp now h) := by
  have counted (count : UInt64) : Quiet view seen h {h with timerEventCount := count} :=
    .silent rfl id (fun _ => rfl) rfl rfl
  simp only [TcpClient.onTimer]
  split
  · exact (counted 0).trans (disconnectSilence_quiet _ now _)
  · exact counted _

theorem onTimer_quiet (exp : UInt64) (now : UInt32) (h : Host) : Quiet view seen h (h.onTimer exp now) := by
  cases kind : h.kind with
  | tcpServer => simpa [onTimer,kind] using Quiet.refl h
  | udpServer => simpa [onTimer,kind] using Quiet.refl h
  | tcpClient => simpa only [onTimer,kind] using clientTimer_quiet exp now h

theorem onTimer_calm (exp : UInt64) (now : UInt32) (h : Host) : Calm h (h.onTimer exp now) := onTimer_quiet exp now h

theorem startReceive_none {h : Host} {p : Ptr} {now : UInt32} : h.startReceive p now = none ↔ h.isValid (some p) = false := by
  unfold startReceive
  split
  · rename_i valid
    obtain ⟨object,live,_⟩ := isValid_live valid
    simp [live,valid]
  · rename_i invalid
    simpa using invalid

theorem startReceive_eq {h host : Host} {p : Ptr} {now : UInt32} {sock : SOCKET}
    (started : h.startReceive p now = some (sock,host)) :
    ∃ object, h.heap p = some object ∧ object.fValid = true ∧ object.socketId = sock ∧
      host = h.modify p (fun o => {o with activeTime := now.toNat}) := by
  unfold startReceive at started
  split at started
  · rename_i valid
    obtain ⟨object,live,same⟩ := Option.map_eq_some_iff.mp started
    obtain ⟨rfl,rfl⟩ := Prod.mk.inj same
    exact ⟨object,live,by simpa [isValid,live] using valid,rfl,rfl⟩
  · contradiction

theorem startReceive_calm {p : Ptr} {now : UInt32} {sock : SOCKET} (started : h.startReceive p now = some (sock,h')) :
    Calm h h' ∧ ∃ object, h.heap p = some object ∧ object.fValid = true ∧ object.socketId = sock := by
  obtain ⟨object,live,valid,named,rfl⟩ := startReceive_eq started
  exact ⟨.modify p (fun _ => rfl),object,live,valid,named⟩

/-- `OnBeforeProcessIo` of the client refuses the object, finds it connected, or connects it. -/
theorem onBeforeProcessIo_quiet (p : Ptr) (soError : Except Errno Int) (now : UInt32) (h : Host) :
    ((TcpClient.onBeforeProcessIo p soError now h).2 = false ∧
        Quiet view seen h (TcpClient.onBeforeProcessIo p soError now h).1) ∨
      ∃ object, h.heap p = some object ∧ object.fValid = true ∧
        ((object.connectState = true ∧ TcpClient.onBeforeProcessIo p soError now h = (h,true)) ∨
         (object.connectState = false ∧ TcpClient.onBeforeProcessIo p soError now h =
           ((h.modify p (SocketObject.setConnected now.toNat)).observe (.onConnect p object.socketId),true))) := by
  unfold TcpClient.onBeforeProcessIo
  cases live : h.heap p with
  | none => exact .inl ⟨rfl,.refl h⟩
  | some object =>
    cases valid : object.fValid with
    | false => exact .inl ⟨by simp [valid],by simpa [valid] using Quiet.refl h⟩
    | true =>
      cases connected : object.connectState with
      | true => exact .inr ⟨object,rfl,valid,.inl ⟨connected,by simp [valid,SocketObject.isConnected,connected]⟩⟩
      | false =>
        have closed : Quiet view seen h (h.closeSocket object.socketId) := .triggerCmdEvent .disconnect _
        cases soError with
        | error code =>
          exact .inl ⟨by simp [valid,SocketObject.isConnected,connected],
            by simpa [valid,SocketObject.isConnected,connected] using closed⟩
        | ok optval =>
          by_cases fine : optval = 0
          · exact .inr ⟨object,rfl,valid,.inr ⟨connected,by simp [valid,SocketObject.isConnected,connected,fine]⟩⟩
          · exact .inl ⟨by simp [valid,SocketObject.isConnected,connected,fine],
              by simpa [valid,SocketObject.isConnected,connected,fine] using closed⟩

theorem onBeforeProcessIo_refused {p : Ptr} {soError : Except Errno Int} {now : UInt32}
    (refused : (TcpClient.onBeforeProcessIo p soError now h).2 = false) :
    Calm h (TcpClient.onBeforeProcessIo p soError now h).1 := by
  rcases onBeforeProcessIo_quiet p soError now h with ⟨_,calm⟩ | ⟨object,_,_,⟨_,passed⟩ | ⟨_,passed⟩⟩
  · exact calm
  · simp [passed] at refused
  · simp [passed] at refused

theorem onBeforeProcessIo_accepted {p : Ptr} {soError : Except Errno Int} {now : UInt32}
    (passed : (TcpClient.onBeforeProcessIo p soError now h).2 = true) :
    ∃ object, h.heap p = some object ∧ object.fValid = true ∧
      (object.connectState = true ∧ (TcpClient.onBeforeProcessIo p soError now h).1 = h ∨
       object.connectState = false ∧ (TcpClient.onBeforeProcessIo p soError now h).1 =
         (h.modify p (SocketObject.setConnected now.toNat)).observe (.onConnect p object.socketId)) := by
  have outcome : (_ ∧ Calm h _) ∨ _ := onBeforeProcessIo_quiet p soError now h
  rcases outcome with ⟨refused,_⟩ | ⟨object,live,valid,⟨connected,result⟩ | ⟨fresh,result⟩⟩
  · simp [refused] at passed
  · exact ⟨object,live,valid,.inl ⟨connected,congrArg Prod.fst result⟩⟩
  · exact ⟨object,live,valid,.inr ⟨fresh,congrArg Prod.fst result⟩⟩

end Host

end LightServer
