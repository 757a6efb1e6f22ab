import LightServer.Lifecycle

/-! `TcpServer::Start` and `TcpServer::Stop` around those of the manager. `Start` stores the listener and
the new listening socket before it knows whether the manager can be started. -/
namespace LightServer

abbrev TcpServerListener := Nat

inductive ListenEvent
  | opened (fd : FD)
  | closed (fd : FD)
  deriving DecidableEq

/-- What the system calls of `CreateListenSocket` answer. -/
structure ListenCalls where
  socket : Except Errno FD
  reuseAddr : Except Errno Unit
  reusePort : Except Errno Unit
  nonBlocking : Bool
  bind : Sockaddr → Except Errno Unit
  listen : Nat → Except Errno Unit

/-- What the system calls of `TcpServer::Start` answer. -/
structure ServerCalls where
  listening : ListenCalls
  manager : ManagerCalls
  acceptRefused : Bool

/-- `listenLog` is not in the code: it records the calls of `socket` and of `close(listen_socket_)`. -/
structure TcpServer where
  sys : Sys
  pListener : Option TcpServerListener
  listenLog : List ListenEvent

namespace TcpServer

def maxConnectionsOfListenSocket : Nat := 100

/-- `my_addr`, in network byte order. -/
def sockaddrIn (ipv4 : UInt32) (port : UInt16) : Sockaddr :=
  [2,0,(port >>> 8).toUInt8,port.toUInt8,(ipv4 >>> 24).toUInt8,(ipv4 >>> 16).toUInt8,(ipv4 >>> 8).toUInt8,ipv4.toUInt8,
    0,0,0,0,0,0,0,0]

/-- The calls between `socket` and the return of `CreateListenSocket`. -/
def configured (ipv4 : UInt32) (port : UInt16) (calls : ListenCalls) : Bool :=
  calls.reuseAddr.isOk && calls.reusePort.isOk && calls.nonBlocking && (calls.bind (sockaddrIn ipv4 port)).isOk &&
    (calls.listen maxConnectionsOfListenSocket).isOk

/-- A new listening socket has no connections waiting. -/
def setListenSocket (sock : SOCKET) (server : TcpServer) : TcpServer :=
  {server with sys.host := {server.sys.host with listenSocket := sock, backlog := []}}

def closeListenSocket (server : TcpServer) : TcpServer :=
  {server with sys.host := server.sys.host.closeFD server.sys.host.listenSocket,
               listenLog := server.listenLog ++ [.closed server.sys.host.listenSocket]}

def createListenSocket (ipv4 : UInt32) (port : UInt16) (calls : ListenCalls) (server : TcpServer) : Bool × TcpServer :=
  match calls.socket with
  | .error _ => (false,(server.setListenSocket invalidSocket).closeListenSocket)
  | .ok sock =>
    let opened : TcpServer := {server with sys.host := server.sys.host.openFD sock, listenLog := server.listenLog ++ [.opened sock]}
    if configured ipv4 port calls then (true,opened.setListenSocket sock)
    else (false,(opened.setListenSocket sock).closeListenSocket)

/-- The interval of the timer, in milliseconds. -/
def timerInterval (server : TcpServer) : UInt64 := (server.sys.host.heartbeatInterval * 1000).toUInt64

/-- `Start`, which does not look at the result of `StartAccept`. -/
def start (listener : TcpServerListener) (ipv4 : UInt32) (port : UInt16) (calls : ServerCalls) (server : TcpServer) :
    Bool × TcpServer :=
  let created := createListenSocket ipv4 port calls.listening {server with pListener := some listener}
  if created.1 then
    let started := created.2.sys.start created.2.timerInterval calls.manager
    if started.1 < 0 then (false,closeListenSocket {created.2 with sys := started.2})
    else (true,{created.2 with sys := {started.2 with host := Sys.startAccept calls.acceptRefused started.2.host}})
  else created

def setHeartbeatInterval (seconds : UInt32) (server : TcpServer) : TcpServer :=
  if 3600 < seconds then server else {server with sys.host := {server.sys.host with heartbeatInterval := seconds}}

end TcpServer

def ServerCalls.obtained (calls : ServerCalls) : List FD := calls.listening.socket.toOption.toList ++ calls.manager.obtained

inductive ServerAct
  | start (listener : TcpServerListener) (ipv4 : UInt32) (port : UInt16) (calls : ServerCalls)
  | stop
  | setHeartbeatInterval (seconds : UInt32)
  | step (act : Act)

namespace TcpServer

/-- `StartAccept` is called by `Start` alone. -/
def mayTake (act : Act) (server : TcpServer) : Bool :=
  match act with
  | .startAccept _ => false
  | act => server.sys.mayStop act

/-- A thread inside `Stop` closes the listening socket. -/
def listenEvents (act : Act) (server : TcpServer) : List ListenEvent :=
  if server.sys.calling act = some (.stop .closeListenSocket) then [.closed server.sys.host.listenSocket] else []

/-- `stop` is the call on a server whose manager is not started, which has no connections to close. -/
def step (server : TcpServer) (act : ServerAct) : Option TcpServer :=
  match act with
  | .start listener ipv4 port calls =>
    if server.sys.host.Granted calls.obtained then some (server.start listener ipv4 port calls).2 else none
  | .stop => if server.sys.host.hasStart then none else some server.closeListenSocket
  | .setHeartbeatInterval seconds => some (server.setHeartbeatInterval seconds)
  | .step act =>
    if server.mayTake act then
      (server.sys.step act).map (fun sys => {server with sys := sys, listenLog := server.listenLog ++ server.listenEvents act})
    else none

/-- The constructor, in any process and with any memory for its buffer. -/
def made (raw : Construction) : TcpServer where
  sys := Construction.made {raw with kind := .tcpServer, listenSocket := invalidSocket, heartbeatInterval := 0, keepAliveTime := 0,
                                     timerEventCount := 0, backlog := []}
  pListener := none
  listenLog := []

end TcpServer

def ServerLived (raw : Construction) (acts : List ServerAct) (server : TcpServer) : Prop :=
  Transition.exec TcpServer.step (.made raw) acts = some server

theorem serverLived_reaches (raw : Construction) (acts : List ServerAct) (P : TcpServer → Prop) [DecidablePred P]
    (found : (Transition.exec TcpServer.step (.made raw) acts).any (fun server => decide (P server)) = true) :
    ∃ server, ServerLived raw acts server ∧ P server :=
  Transition.exec_reaches P found

namespace Sys

variable {s next : Sys} {act : Act}

/-- The threads of a TCP server add no connections. -/
theorem tasks_step (alive : Alive s) (server : s.host.kind = .tcpServer) (tasks : ∀ c ∈ s.callers, c.task = .other)
    (taken : s.step act = some next) : ∀ c ∈ next.callers, c.task = .other := by
  have step := view_step alive.control taken
  have other : ∀ task ∈ s.view.tasks, task = .other := by simpa [view] using tasks
  suffices all : ∀ task ∈ next.view.tasks, task = .other by simpa [view] using all
  generalize next.view = v' at step ⊢
  have kind : s.view.table.kind = .tcpServer := server
  generalize s.view = v at step other kind
  cases step with
  | call T role pending exited tasks t task T' task' found call =>
    obtain rfl : task = .other := other task (List.mem_of_getElem? found)
    intro new member
    rcases List.mem_or_eq_of_mem_set member with old | rfl
    · exact other new old
    · cases call with
      | connect away => exact absurd kind away
      | _ => rfl
  | _ => exact other

/-- A server that is not started has no connections, nor has one whose `Stop` has released them. -/
structure Emptied (s : Sys) : Prop where
  kind : s.host.kind = .tcpServer
  tasks : ∀ c ∈ s.callers, c.task = .other
  released : ∀ c ∈ s.callers, 5 ≤ c.progress → s.host.sockObjectMap = ∅
  empty : s.host.hasStart = false → s.host.sockObjectMap = ∅

theorem Emptied.step (emptied : Emptied s) (alive : Alive s) (taken : s.step act = some next) : Emptied next := by
  have kept (finished : s.worker = .exited) (empty : s.host.sockObjectMap = ∅) : next.host.sockObjectMap = ∅ := by
    rcases map_step emptied.tasks finished taken with same | ⟨now,_⟩
    · exact same.trans empty
    · exact now
  have finished {c : Caller} (member : c ∈ s.callers) (far : 5 ≤ c.progress) : s.worker = .exited :=
    alive.control.joined c member (joined_of_progress (by omega))
  refine ⟨(view_step alive.control taken).kind.trans emptied.kind,tasks_step alive emptied.kind emptied.tasks taken,
    fun c member far => ?_,fun stopped => ?_⟩
  · rcases progress_step (by decide) emptied.kind taken member far with ⟨d,before,reached⟩ | ⟨d,reply,_,early,call⟩
    · exact kept (finished before reached) (emptied.released d before reached)
    · rcases call.advances with low | ⟨_,short,_⟩ | ⟨_,short⟩ | ⟨_,short,_⟩ | ⟨_,_,result⟩
      · omega
      · omega
      · omega
      · omega
      · rw [result]
        rfl
  · rcases managed_step taken with same | ⟨_,t,at_t,_⟩
    · have down := (hasStart_of_managed same).symm.trans stopped
      exact kept (alive.exited down) (emptied.empty down)
    · have listed := List.mem_of_getElem? at_t
      exact kept (finished listed le_rfl) (emptied.released _ listed le_rfl)

theorem Alive.host (alive : Alive s) {host : Host} (managed : host.managed = s.host.managed)
    (queue : host.cmdQueue = s.host.cmdQueue) (keeps : s.host.KeepsTidy host) : Alive {s with host := host} := by
  have fds := managed
  simp only [Host.managed,Prod.mk.injEq] at fds
  obtain ⟨epollFd,_,cmdEvtFd,_⟩ := fds
  have started := hasStart_of_managed managed
  refine ⟨⟨fun count b place => ?_,alive.control.joined,fun working => ?_⟩,keeps.tidy alive.tidy,
    ⟨alive.one.fresh,alive.one.alone,fun c member going => ?_⟩,fun stopped => ?_⟩
  · exact queue.symm ▸ alive.control.executing count b place
  · exact epollFd.symm ▸ cmdEvtFd.symm ▸ alive.control.started working
  · exact started.trans (alive.one.running c member going)
  · exact managed.trans (alive.down (started.symm.trans stopped))

theorem Emptied.host (emptied : Emptied s) {host : Host} (managed : host.managed = s.host.managed)
    (kind : host.kind = s.host.kind) (map : host.sockObjectMap = s.host.sockObjectMap) : Emptied {s with host := host} :=
  ⟨kind.trans emptied.kind,emptied.tasks,fun c member far => map.trans (emptied.released c member far),
    fun stopped => map.trans (emptied.empty ((hasStart_of_managed managed).symm.trans stopped))⟩

theorem Emptied.start {interval : UInt64} {calls : ManagerCalls} (emptied : Emptied s) (alive : Alive s)
    (granted : s.host.Granted calls.obtained) : Emptied (s.start interval calls).2 := by
  rcases alive.start_cases interval granted with ⟨same,_⟩ | ⟨made,built,⟨stopped,_⟩,keeps,⟨succeed,result⟩ | ⟨failed,result⟩⟩
  · exact same ▸ emptied
  · rw [result]
    refine ⟨(congrArg Host.kind built.outside).trans emptied.kind,emptied.tasks,fun c member far => ?_,fun down => ?_⟩
    · have idle := alive.one.running c member (by omega)
      simp [stopped] at idle
    · simp [Host.hasStart,moveTo,built.epoll] at down
  · rw [result]
    obtain ⟨map,_,_,_,outside⟩ := Host.stopJoined_undoes built.epoll (keeps.tidy alive.tidy).invalid
    have before : made.2.sockObjectMap = ∅ := (congrArg Host.sockObjectMap built.outside).trans (emptied.empty stopped)
    have kind := congrArg Host.kind (outside before)
    exact ⟨kind.trans ((congrArg Host.kind built.outside).trans emptied.kind),emptied.tasks,fun _ _ _ => map,fun _ => map⟩

end Sys

namespace Host

theorem managed_closeFD (fd : FD) (h : Host) : (h.closeFD fd).managed = h.managed := (KeepsFds.closeFD fd h).managed

theorem cmdQueue_closeFD (fd : FD) (h : Host) : (h.closeFD fd).cmdQueue = h.cmdQueue :=
  congrArg Prod.fst (h.control_closeFD fd)

theorem kind_closeFD (fd : FD) (h : Host) : (h.closeFD fd).kind = h.kind := by
  have same := congrArg Host.kind (h.outside_closeFD fd)
  exact same

/-- What is left of the fds the kernel hands out once the first has been taken. -/
theorem Granted.rest {h : Host} {fds : List FD} {fd : FD} (granted : h.Granted (fd::fds)) : (h.openFD fd).Granted fds := by
  obtain ⟨distinct,unused⟩ := granted
  obtain ⟨fresh,distinct⟩ := List.nodup_cons.mp distinct
  refine ⟨distinct,fun other member => ⟨(unused other (List.mem_cons_of_mem _ member)).1,?_⟩⟩
  have differs : other ≠ fd := by
    rintro rfl
    exact fresh member
  exact (isOpen_openFD_of_ne differs).trans (unused other (List.mem_cons_of_mem _ member)).2

end Host

namespace TcpServer

variable {server next : TcpServer} {ipv4 : UInt32} {port : UInt16} {calls : ServerCalls}

structure Ready (server : TcpServer) : Prop where
  alive : server.sys.Alive
  emptied : server.sys.Emptied

theorem Ready.host (ready : server.Ready) (host : Host) (managed : host.managed = server.sys.host.managed)
    (queue : host.cmdQueue = server.sys.host.cmdQueue) (kind : host.kind = server.sys.host.kind)
    (map : host.sockObjectMap = server.sys.host.sockObjectMap) (keeps : server.sys.host.KeepsTidy host)
    (pListener : Option TcpServerListener) (listenLog : List ListenEvent) :
    Ready ⟨{server.sys with host := host},pListener,listenLog⟩ :=
  ⟨ready.alive.host managed queue keeps,ready.emptied.host managed kind map⟩

theorem Ready.closeListenSocket (ready : server.Ready) : server.closeListenSocket.Ready :=
  ready.host _ (Host.managed_closeFD _ _) (Host.cmdQueue_closeFD _ _) (Host.kind_closeFD _ _) (Host.sockObjectMap_closeFD _ _)
    (.closeFD _ _) _ _

theorem Ready.setListenSocket (ready : server.Ready) (sock : SOCKET) : (server.setListenSocket sock).Ready :=
  ready.host {server.sys.host with listenSocket := sock, backlog := []} rfl rfl rfl rfl (.of_same rfl rfl) _ _

/-- The server once `CreateListenSocket` has its socket. -/
def opened (listener : TcpServerListener) (sock : SOCKET) (server : TcpServer) : TcpServer :=
  setListenSocket sock ⟨{server.sys with host := server.sys.host.openFD sock},some listener,server.listenLog ++ [.opened sock]⟩

theorem Ready.opened (ready : server.Ready) (listener : TcpServerListener) {sock : SOCKET} (nonneg : 0 ≤ sock) :
    (server.opened listener sock).Ready :=
  (ready.host (server.sys.host.openFD sock) rfl rfl rfl rfl (.openFD nonneg _) _ _).setListenSocket sock

theorem start_cases (listener : TcpServerListener) (ipv4 : UInt32) (port : UInt16) (calls : ServerCalls) (server : TcpServer) :
    (calls.listening.socket.isOk = false ∧ server.start listener ipv4 port calls =
      (false,(setListenSocket invalidSocket {server with pListener := some listener}).closeListenSocket)) ∨
    ∃ sock, calls.listening.socket = .ok sock ∧
      (configured ipv4 port calls.listening = false ∧
          server.start listener ipv4 port calls = (false,(server.opened listener sock).closeListenSocket) ∨
        configured ipv4 port calls.listening = true ∧ ∃ result,
          (server.opened listener sock).sys.start server.timerInterval calls.manager = result ∧
          (result.1 < 0 ∧ server.start listener ipv4 port calls =
              (false,closeListenSocket {server.opened listener sock with sys := result.2}) ∨
            0 ≤ result.1 ∧ server.start listener ipv4 port calls = (true,{server.opened listener sock with
              sys := {result.2 with host := Sys.startAccept calls.acceptRefused result.2.host}}))) := by
  cases socket : calls.listening.socket with
  | error code => exact .inl ⟨rfl,by simp only [start,createListenSocket,socket,Bool.false_eq_true,if_false]⟩
  | ok sock =>
    refine .inr ⟨sock,rfl,?_⟩
    cases ready : configured ipv4 port calls.listening with
    | false => exact .inl ⟨rfl,by simp only [start,createListenSocket,socket,ready,Bool.false_eq_true,if_false]; rfl⟩
    | true =>
      refine .inr ⟨rfl,_,rfl,?_⟩
      by_cases negative : ((server.opened listener sock).sys.start server.timerInterval calls.manager).1 < 0
      · refine .inl ⟨negative,?_⟩
        simp only [start,createListenSocket,socket,ready,if_true]
        exact if_pos negative
      · refine .inr ⟨not_lt.mp negative,?_⟩
        simp only [start,createListenSocket,socket,ready,if_true]
        exact if_neg negative

theorem Granted.first {sock : SOCKET} (granted : server.sys.host.Granted calls.obtained) (socket : calls.listening.socket = .ok sock) :
    (0 ≤ sock ∧ server.sys.host.isOpen sock = false) ∧ (server.sys.host.openFD sock).Granted calls.manager.obtained := by
  simp only [ServerCalls.obtained,socket,Except.toOption,Option.toList,List.singleton_append] at granted
  exact ⟨granted.2 sock (by simp),granted.rest⟩

theorem Ready.start (ready : server.Ready) (granted : server.sys.host.Granted calls.obtained) (listener : TcpServerListener)
    (ipv4 : UInt32) (port : UInt16) : (server.start listener ipv4 port calls).2.Ready := by
  have begun {sock : SOCKET} {interval : UInt64} {result : Int × Sys} (socket : calls.listening.socket = .ok sock)
      (started : (server.opened listener sock).sys.start interval calls.manager = result) :
      Ready {server.opened listener sock with sys := result.2} := by
    obtain ⟨⟨nonneg,_⟩,rest⟩ := Granted.first granted socket
    have opened := ready.opened listener nonneg
    rw [← started]
    exact ⟨opened.alive.start _ rest,opened.emptied.start opened.alive rest⟩
  rcases start_cases listener ipv4 port calls server with ⟨_,none⟩ | ⟨sock,socket,⟨_,failed⟩ | ⟨_,result,started,⟨_,done⟩ | ⟨_,done⟩⟩⟩
  · rw [none]
    have named : Ready {server with pListener := some listener} := ⟨ready.alive,ready.emptied⟩
    exact (named.setListenSocket invalidSocket).closeListenSocket
  · rw [failed]
    exact (ready.opened listener (Granted.first granted socket).1.1).closeListenSocket
  · rw [done]
    exact (begun socket started).closeListenSocket
  · have control := Host.control_startAccept result.2.host calls.acceptRefused
    have map : (Sys.startAccept calls.acceptRefused result.2.host).sockObjectMap = result.2.host.sockObjectMap ∧
        (Sys.startAccept calls.acceptRefused result.2.host).kind = result.2.host.kind := by
      unfold Sys.startAccept Host.addFD
      split <;> simp_all
    rw [done]
    exact (begun socket started).host _ (Host.KeepsFds.startAccept _ _).managed (congrArg Prod.fst control) map.2 map.1 (.startAccept _ _) _ _

theorem mayStop_of_mayTake {act : Act} (may : server.mayTake act = true) : server.sys.mayStop act = true := by
  cases act <;> first | exact may | simp [mayTake] at may

/-- What a call or a step leaves. -/
inductive ServerStep (server : TcpServer) : ServerAct → TcpServer → Prop
  | start (listener ipv4 port calls) (granted : server.sys.host.Granted calls.obtained) :
      ServerStep server (.start listener ipv4 port calls) (server.start listener ipv4 port calls).2
  | stop (down : server.sys.host.hasStart = false) : ServerStep server .stop server.closeListenSocket
  | setHeartbeatInterval (seconds) : ServerStep server (.setHeartbeatInterval seconds) (server.setHeartbeatInterval seconds)
  | step (act sys) (may : server.mayTake act = true) (moved : server.sys.step act = some sys) :
      ServerStep server (.step act) {server with sys := sys, listenLog := server.listenLog ++ server.listenEvents act}

theorem step_taken {act : ServerAct} (taken : server.step act = some next) : ServerStep server act next := by
  cases act with
  | start listener ipv4 port calls =>
    obtain ⟨granted,rfl⟩ : _ ∧ (server.start listener ipv4 port calls).2 = next := by simpa [TcpServer.step] using taken
    exact .start listener ipv4 port calls granted
  | stop =>
    obtain ⟨down,rfl⟩ : _ ∧ server.closeListenSocket = next := by simpa [TcpServer.step] using taken
    exact .stop down
  | setHeartbeatInterval seconds =>
    obtain rfl : server.setHeartbeatInterval seconds = next := by simpa [TcpServer.step] using taken
    exact .setHeartbeatInterval seconds
  | step act =>
    obtain ⟨may,sys,moved,rfl⟩ : server.mayTake act = true ∧ ∃ sys, server.sys.step act = some sys ∧
        ({server with sys := sys, listenLog := server.listenLog ++ server.listenEvents act} : TcpServer) = next := by
      simpa [TcpServer.step] using taken
    exact .step act sys may moved

theorem Ready.step (ready : server.Ready) {act : ServerAct} (taken : server.step act = some next) : next.Ready := by
  cases step_taken taken with
  | start listener ipv4 port calls granted =>
    exact ready.start granted listener ipv4 port
  | stop _ =>
    exact ready.closeListenSocket
  | setHeartbeatInterval seconds =>
    unfold setHeartbeatInterval
    split
    · exact ready
    · exact ready.host {server.sys.host with heartbeatInterval := seconds} rfl rfl rfl rfl (.of_same rfl rfl) _ _
  | step act sys may moved =>
    exact ⟨ready.alive.step (mayStop_of_mayTake may) moved,ready.emptied.step ready.alive moved⟩

theorem made_ready (raw : Construction) : (made raw).Ready := by
  refine ⟨Sys.made_alive _,rfl,fun c member => ?_,fun _ _ _ => rfl,fun _ => rfl⟩
  simp only [made,Construction.made,List.mem_replicate] at member
  rw [member.2]
  rfl

theorem ready_of_lived {raw : Construction} {acts : List ServerAct} (lived : ServerLived raw acts server) : server.Ready :=
  Transition.exec_invariant_free (fun _ _ _ ready taken => ready.step taken) (made_ready raw) lived

/-- The listener, the listening socket, the connections and the means to accept are as before, and every fd that
was closed before is closed. -/
def AsBefore (server next : TcpServer) : Prop :=
  next.pListener = server.pListener ∧
  (next.sys.host.listenSocket = server.sys.host.listenSocket ∧
    next.sys.host.interest server.sys.host.listenSocket = server.sys.host.interest server.sys.host.listenSocket ∧
    next.sys.host.isOpen server.sys.host.listenSocket = server.sys.host.isOpen server.sys.host.listenSocket ∧
    next.sys.worker = server.sys.worker) ∧
  (next.sys.host.sockObjectMap = server.sys.host.sockObjectMap ∧ next.sys.host.heap = server.sys.host.heap ∧
    ∀ sock ∈ server.sys.host.sockObjectMap, next.sys.host.isOpen sock = server.sys.host.isOpen sock ∧
      next.sys.host.interest sock = server.sys.host.interest sock) ∧
  ∀ fd, server.sys.host.isOpen fd = false → next.sys.host.isOpen fd = false

/-- What `socket` returns. -/
def newSocket (calls : ListenCalls) : SOCKET := calls.socket.toOption.getD invalidSocket

/-- `Start` is called on a server that is not started, and comes to the manager's `Start`. -/
def ComesToManager (ipv4 : UInt32) (port : UInt16) (calls : ServerCalls) (server : TcpServer) : Prop :=
  server.sys.host.hasStart = false ∧ calls.listening.socket.isOk = true ∧ configured ipv4 port calls.listening = true

/-- `Start` gets all it asks for, or is given the listener and the fd that are stored already and sets its timer. -/
def StartsClean (listener : TcpServerListener) (ipv4 : UInt32) (port : UInt16) (calls : ServerCalls) (server : TcpServer) : Prop :=
  server.ComesToManager ipv4 port calls ∧ calls.manager.Succeed server.timerInterval ∨
  server.pListener = some listener ∧ server.sys.host.listenSocket = newSocket calls.listening ∧
    ¬ (server.ComesToManager ipv4 port calls ∧ calls.manager.SettimeFails server.timerInterval)

instance (listener : TcpServerListener) (ipv4 : UInt32) (port : UInt16) (calls : ServerCalls) (server : TcpServer) :
    Decidable (server.StartsClean listener ipv4 port calls) :=
  inferInstanceAs (Decidable (((_ ∧ _ ∧ _) ∧ _) ∨ _ ∧ _ ∧ ¬ ((_ ∧ _ ∧ _) ∧ _)))

/-- The process before the last `close` of a start that failed: nothing but the new socket has been added. -/
structure Reopened (h k : Host) (sock : SOCKET) : Prop where
  listenSocket : k.listenSocket = sock
  map : k.sockObjectMap = h.sockObjectMap
  heap : k.heap = h.heap
  isOpen : ∀ fd, k.isOpen fd = true ↔ h.isOpen fd = true ∨ fd = sock
  interest : k.interest = h.interest ∨ h.sockObjectMap = ∅

theorem Reopened.closed {h k : Host} {sock : SOCKET} (reopened : Reopened h k sock) (unused : h.isOpen sock = false) :
    (k.closeFD k.listenSocket).isOpen = h.isOpen ∧ (k.closeFD k.listenSocket).interest sock = none := by
  have opened : k.isOpen sock = true := (reopened.isOpen sock).mpr (.inr rfl)
  rw [reopened.listenSocket]
  refine ⟨?_,by simp [Host.closeFD,opened]⟩
  ext fd
  rw [Host.isOpen_closeFD]
  by_cases same : fd = sock
  · simp [same,unused]
  · rw [Function.update_of_ne same,Bool.eq_iff_iff,reopened.isOpen fd]
    simp [same]

theorem Reopened.asBefore_iff {k : Host} {sock : SOCKET} (tidy : server.sys.host.Tidy) (unused : server.sys.host.isOpen sock = false)
    (reopened : Reopened server.sys.host k sock) (listener : TcpServerListener) (log : List ListenEvent) :
    AsBefore server (closeListenSocket ⟨{server.sys with host := k},some listener,log⟩) ↔
      server.pListener = some listener ∧ server.sys.host.listenSocket = sock := by
  obtain ⟨isOpen,unregistered⟩ := reopened.closed unused
  constructor
  · rintro ⟨named,⟨same,_⟩,_⟩
    refine ⟨named.symm,same.symm.trans ?_⟩
    exact (Host.KeepsFds.closeFD _ k).listenSocket.trans reopened.listenSocket
  · rintro ⟨named,rfl⟩
    have outside := k.outside_closeFD k.listenSocket
    refine ⟨named.symm,⟨?_,?_,congrFun isOpen _,rfl⟩,⟨?_,?_,fun other member => ⟨congrFun isOpen other,?_⟩⟩,fun fd shut => ?_⟩
    · exact (Host.KeepsFds.closeFD _ k).listenSocket.trans reopened.listenSocket
    · exact unregistered.trans (tidy.registered _ unused).symm
    · exact (Host.sockObjectMap_closeFD _ k).trans reopened.map
    · exact (congrArg Host.heap outside).trans reopened.heap
    · rcases reopened.interest with same | empty
      · show (k.closeFD k.listenSocket).interest other = _
        by_cases listening : other = server.sys.host.listenSocket
        · rw [listening,unregistered,tidy.registered _ unused]
        · rw [← same]
          unfold Host.closeFD
          split
          · exact Function.update_of_ne (fun now => listening (now.trans reopened.listenSocket)) none k.interest
          · rfl
      · rw [empty] at member
        simp at member
    · exact (congrFun isOpen fd).trans shut

/-- `Start` gets as far as the socket it was given. -/
theorem opened_reopened (server : TcpServer) (listener : TcpServerListener) (sock : SOCKET) :
    Reopened server.sys.host (server.opened listener sock).sys.host sock := by
  refine ⟨rfl,rfl,rfl,fun fd => ?_,.inl rfl⟩
  by_cases same : fd = sock
  · simp [opened,setListenSocket,Host.openFD,same]
  · simp [opened,setListenSocket,Host.openFD,same]

section undone

variable {listener : TcpServerListener} {sock : SOCKET} {made : Bool × Host} {interval : UInt64} {calls : ManagerCalls}

/-- The manager's `Stop` leaves the new socket and, of a server that was not started, no connections. -/
theorem undone_kept (ready : server.Ready) (nonneg : 0 ≤ sock) (stopped : server.sys.host.hasStart = false)
    (built : Host.Made (server.opened listener sock).sys.host interval calls made)
    (keeps : (server.opened listener sock).sys.host.KeepsTidy made.2) : made.2.stopJoined.2.listenSocket = sock ∧
      made.2.stopJoined.2.sockObjectMap = server.sys.host.sockObjectMap ∧ made.2.stopJoined.2.heap = server.sys.host.heap := by
  have tidy := keeps.tidy (ready.opened listener nonneg).alive.tidy
  have empty := ready.emptied.empty stopped
  obtain ⟨map,_,_,_,outside⟩ := Host.stopJoined_undoes built.epoll tidy.invalid
  have before : made.2.sockObjectMap = ∅ := (congrArg Host.sockObjectMap built.outside).trans empty
  have listenSocket := congrArg Host.listenSocket (outside before)
  have listenSocket' := congrArg Host.listenSocket built.outside
  have heap := congrArg Host.heap (outside before)
  have heap' := congrArg Host.heap built.outside
  exact ⟨listenSocket.trans listenSocket',map.trans empty.symm,heap.trans heap'⟩

theorem undone_reopened (ready : server.Ready) (nonneg : 0 ≤ sock) (stopped : server.sys.host.hasStart = false)
    (built : Host.Made (server.opened listener sock).sys.host interval calls made)
    (keeps : (server.opened listener sock).sys.host.KeepsTidy made.2) (set : ¬ calls.SettimeFails interval) :
    Reopened server.sys.host made.2.stopJoined.2 sock := by
  obtain ⟨listenSocket,map,heap⟩ := undone_kept ready nonneg stopped built keeps
  have isOpen := (ready.opened listener nonneg).alive.undone_isOpen built keeps set
  exact ⟨listenSocket,map,heap,fun fd => isOpen ▸ (opened_reopened server listener sock).isOpen fd,
    .inr (ready.emptied.empty stopped)⟩

theorem leaked_not_asBefore (ready : server.Ready) (nonneg : 0 ≤ sock) (stopped : server.sys.host.hasStart = false)
    (built : Host.Made (server.opened listener sock).sys.host interval calls made)
    (keeps : (server.opened listener sock).sys.host.KeepsTidy made.2) (fails : calls.SettimeFails interval)
    (log : List ListenEvent) :
    ¬ AsBefore server (closeListenSocket ⟨{server.sys with host := made.2.stopJoined.2},some listener,log⟩) := by
  have tidy := keeps.tidy (ready.opened listener nonneg).alive.tidy
  obtain ⟨listenSocket,_⟩ := undone_kept ready nonneg stopped built keeps
  obtain ⟨_,_,_,isOpen,_⟩ := Host.stopJoined_undoes built.epoll tidy.invalid
  obtain ⟨fd,unused,opened,unstored⟩ := built.leaked fails
  rintro ⟨_,_,_,none⟩
  have reopened := opened_reopened server listener sock
  have differs : fd ≠ sock := by
    rintro rfl
    simp [(reopened.isOpen fd).mpr (.inr rfl)] at unused
  have shut : server.sys.host.isOpen fd = false :=
    (Bool.not_eq_true _).mp (fun now => by simp [(reopened.isOpen fd).mpr (.inl now)] at unused)
  have still := none fd shut
  simp only [closeListenSocket,Host.isOpen_closeFD,listenSocket,Function.update_of_ne differs] at still
  exact absurd ((isOpen fd).mpr ⟨opened,unstored⟩) (by simp [still])

end undone

/-- A start that is given no socket forgets the one the server holds. -/
theorem noSocket_asBefore_iff (tidy : server.sys.host.Tidy) (listener : TcpServerListener) :
    AsBefore server (setListenSocket invalidSocket {server with pListener := some listener}).closeListenSocket ↔
      server.pListener = some listener ∧ server.sys.host.listenSocket = invalidSocket := by
  have same : (setListenSocket invalidSocket {server with pListener := some listener}).closeListenSocket.sys.host =
      {server.sys.host with listenSocket := invalidSocket, backlog := []} := Host.closeFD_closed tidy.invalid
  unfold AsBefore
  rw [same]
  constructor
  · rintro ⟨named,⟨listening,_⟩,_⟩
    exact ⟨named.symm,listening.symm⟩
  · rintro ⟨named,listening⟩
    exact ⟨named.symm,⟨listening.symm,rfl,rfl,rfl⟩,⟨rfl,rfl,fun _ _ => ⟨rfl,rfl⟩⟩,fun _ => id⟩

/-- A start that fails changes nothing exactly if it was given the listener and the fd that the server holds already,
and its timer was set. -/
theorem failed_start_changes_nothing_iff {raw : Construction} {acts : List ServerAct} {server : TcpServer}
    (lived : ServerLived raw acts server) (listener : TcpServerListener) (ipv4 : UInt32) (port : UInt16) (calls : ServerCalls)
    (granted : server.sys.host.Granted calls.obtained) :
    ((server.start listener ipv4 port calls).1 = false → AsBefore server (server.start listener ipv4 port calls).2) ↔
      server.StartsClean listener ipv4 port calls := by
  have ready := ready_of_lived lived
  have tidy := ready.alive.tidy
  rcases start_cases listener ipv4 port calls server with ⟨none,result⟩ | ⟨sock,socket,outcome⟩
  · have new : newSocket calls.listening = invalidSocket := by
      cases answer : calls.listening.socket with
      | error code => simp [newSocket,answer,Except.toOption]
      | ok sock => simp [answer,Except.isOk,Except.toBool] at none
    have early : ¬ server.ComesToManager ipv4 port calls := fun comes => by simpa [none] using comes.2.1
    rw [result]
    simp only [forall_const,noSocket_asBefore_iff tidy listener,StartsClean,new,early,false_and,false_or,not_false_iff,and_true]
  · obtain ⟨⟨nonneg,unused⟩,rest⟩ := Granted.first granted socket
    have new : newSocket calls.listening = sock := by simp [newSocket,socket,Except.toOption]
    have ok : calls.listening.socket.isOk = true := by simp [socket,Except.isOk,Except.toBool]
    have reopened := opened_reopened server listener sock
    have early (left : ¬ (server.ComesToManager ipv4 port calls ∧ calls.manager.epollCreate1.isOk = true)) :
        server.StartsClean listener ipv4 port calls ↔ server.pListener = some listener ∧ server.sys.host.listenSocket = sock := by
      have registers : ¬ (server.ComesToManager ipv4 port calls ∧ calls.manager.Registers) :=
        fun comes => left ⟨comes.1,comes.2.1.1⟩
      have none : ¬ (server.ComesToManager ipv4 port calls ∧ calls.manager.Succeed server.timerInterval) :=
        fun comes => registers ⟨comes.1,comes.2.1⟩
      have unset : ¬ (server.ComesToManager ipv4 port calls ∧ calls.manager.SettimeFails server.timerInterval) :=
        fun comes => registers ⟨comes.1,comes.2.1⟩
      simp only [StartsClean,new,none,unset,false_or,not_false_iff,and_true]
    rcases outcome with ⟨refused,result⟩ | ⟨ready',result,begun,came⟩
    · rw [result,early (fun comes => by simpa [refused] using comes.1.2.2)]
      simp only [forall_const]
      exact reopened.asBefore_iff tidy unused listener _
    · have opened := ready.opened listener nonneg
      rcases opened.alive.start_cases server.timerInterval rest with
        ⟨same,reason⟩ | ⟨made,built,⟨stopped,epoll⟩,keeps,⟨succeed,done⟩ | ⟨failed,done⟩⟩
      · obtain rfl := begun.symm.trans same
        have left : ¬ (server.ComesToManager ipv4 port calls ∧ calls.manager.epollCreate1.isOk = true) := by
          rintro ⟨⟨stopped,_⟩,epoll⟩
          rcases reason with started | none
          · exact absurd (stopped.symm.trans started) (by simp)
          · simp [epoll] at none
        rcases came with ⟨_,failed⟩ | ⟨positive,_⟩
        · rw [failed,early left]
          simp only [forall_const]
          exact reopened.asBefore_iff tidy unused listener _
        · simp at positive
      · obtain rfl := begun.symm.trans done
        rcases came with ⟨negative,_⟩ | ⟨_,succeeded⟩
        · simp at negative
        · rw [succeeded]
          exact ⟨fun _ => .inl ⟨⟨stopped,ok,ready'⟩,succeed⟩,fun _ now => absurd now (by simp)⟩
      · obtain rfl := begun.symm.trans done
        have comes : server.ComesToManager ipv4 port calls := ⟨stopped,ok,ready'⟩
        rcases came with ⟨_,undone⟩ | ⟨positive,_⟩
        · rw [undone]
          simp only [forall_const,StartsClean,comes,failed,true_and,and_false,false_or,new]
          by_cases fails : calls.manager.SettimeFails server.timerInterval
          · simp only [fails,not_true_eq_false,and_false,iff_false]
            exact leaked_not_asBefore ready nonneg stopped built keeps fails _
          · simp only [fails,not_false_iff,and_true]
            exact (undone_reopened ready nonneg stopped built keeps fails).asBefore_iff tidy unused listener _
        · simp at positive

/-- The calls of a start that is given `sock` and the fds from `epoll` on. -/
def startCalls (sock epoll : FD) (bind : Except Errno Unit) : ServerCalls :=
  ⟨⟨.ok sock,.ok (),.ok (),true,fun _ => bind,fun _ => .ok ()⟩,
    ⟨.ok epoll,.ok (epoll+1),false,.ok (epoll+2),false,.ok ⟨0,0⟩,.error 24,.ok (),false,.ok ()⟩,false⟩

/-- A start whose `bind` failed is made again with the listener and the fd of the first. -/
theorem repeated_start_changes_nothing : ∃ server,
    ServerLived (.plain .tcpServer 2) [.start 1 0 80 (startCalls 3 4 (.error 98))] server ∧
      (server.start 1 0 80 (startCalls 3 4 (.error 98))).1 = false ∧
      AsBefore server (server.start 1 0 80 (startCalls 3 4 (.error 98))).2 := by
  obtain ⟨server,lived,granted,failed,clean⟩ := serverLived_reaches (.plain .tcpServer 2)
    [.start 1 0 80 (startCalls 3 4 (.error 98))]
    (fun server => server.sys.host.Granted (startCalls 3 4 (.error 98)).obtained ∧
      (server.start 1 0 80 (startCalls 3 4 (.error 98))).1 = false ∧ server.StartsClean 1 0 80 (startCalls 3 4 (.error 98)))
    (by decide +kernel)
  exact ⟨server,lived,failed,(failed_start_changes_nothing_iff lived 1 0 80 _ granted).mpr clean failed⟩

/-- A server with one connection, started for the first listener. -/
def servingOne : List ServerAct :=
  .start 1 0 80 (startCalls 3 4 (.ok ()))::.step (.arrive 0)::(Sys.acceptOne 7).map .step

/-- The running server is started once more: it is left with the second listener and an fd that is closed. -/
theorem second_start_overwrites : ∃ server, ServerLived (.plain .tcpServer 2) servingOne server ∧
    server.sys.host.sockObjectMap.keys = [7] ∧ server.sys.host.Granted (startCalls 8 9 (.ok ())).obtained ∧
    ¬ ((server.start 2 0 80 (startCalls 8 9 (.ok ()))).1 = false →
      AsBefore server (server.start 2 0 80 (startCalls 8 9 (.ok ()))).2) := by
  obtain ⟨server,lived,keys,granted,failed,before,after⟩ := serverLived_reaches (.plain .tcpServer 2) servingOne
    (fun server => server.sys.host.sockObjectMap.keys = [7] ∧ server.sys.host.Granted (startCalls 8 9 (.ok ())).obtained ∧
      (server.start 2 0 80 (startCalls 8 9 (.ok ()))).1 = false ∧ server.sys.host.listenSocket = 3 ∧
      (server.start 2 0 80 (startCalls 8 9 (.ok ()))).2.sys.host.listenSocket = 8) (by decide +kernel)
  refine ⟨server,lived,keys,granted,fun changes => ?_⟩
  have same := (changes failed).2.1.1
  rw [before,after] at same
  contradiction

end TcpServer

end LightServer
