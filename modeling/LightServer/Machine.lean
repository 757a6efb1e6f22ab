import LightServer.Base.Run
import LightServer.Handlers

/-! The threads of the process as one partial step function: the worker of
`SocketManager::DoWork`, any number of threads inside calls of the public
functions, and the kernel. A step reaches from one point where another thread can
act to the next one. Caller 0 is the worker's own thread inside a callback of the
listener: it runs only while the worker is between two returns of `epoll_pwait`,
and the worker waits for it. -/
namespace LightServer

/-- The variables of `DoWork`: `bRun` and the events still to be dispatched. -/
structure Batch where
  bRun : Bool
  rest : List EpollEvent
  deriving DecidableEq

/-- Where `ProcessIo` was called from. -/
inductive Ctx
  | batch (b : Batch)
  | command (count : Nat) (b : Batch)
  deriving DecidableEq

inductive RemoveStage
  | deleteFD
  | close
  | delete
  | erase
  deriving DecidableEq

inductive Worker
  | epollPwait
  | batch (b : Batch)
  | command (count : Nat) (b : Batch)
  | popCommand (count : Nat) (b : Batch)
  | timer (b : Batch)
  | beforeIo (pv : PVOID) (events : UInt32) (ctx : Ctx)
  | accept (ctx : Ctx)
  | setNonBlocking (sock : SOCKET) (addr : Sockaddr) (ctx : Ctx)
  | addTcpSocket (sock : SOCKET) (addr : Sockaddr) (ctx : Ctx)
  | closeAccepted (sock : SOCKET) (ctx : Ctx)
  | connected (p : Ptr) (sock : SOCKET) (ctx : Ctx)
  | readyRead (p : Ptr) (events : UInt32) (ctx : Ctx)
  | read (p : Ptr) (sock : SOCKET) (events : UInt32) (ctx : Ctx)
  | readyWrite (p : Ptr) (ctx : Ctx)
  | sendLoop (p : Ptr) (ctx : Ctx)
  | sendPacket (p : Ptr) (ctx : Ctx)
  | popPacket (p : Ptr) (ctx : Ctx)
  | remove (stage : RemoveStage) (p : Ptr) (sock : SOCKET) (count : Nat) (b : Batch)
  | exited
  deriving DecidableEq

inductive ConnectOp
  | connectToRemote
  | asynchConnectTo
  | addUdpSocket
  deriving DecidableEq

inductive StopStage
  | closeListenSocket
  | signal
  | join
  | clear
  | release
  | closeFds
  deriving DecidableEq

/-- A thread inside a public function; `notify` says that `OnConnect` is still to be raised. -/
inductive Caller
  | idle
  | trigger (cmd : EvtCommand) (fd : FD) (next : Caller)
  | evtWrite (next : Caller)
  | closeAll (last : Option SOCKET)
  | socket (op : ConnectOp) (addr : Sockaddr)
  | connect (op : ConnectOp) (addr : Sockaddr) (sock : SOCKET)
  | count (sock : SOCKET) (p : Ptr) (notify : Bool)
  | insert (sock : SOCKET) (p : Ptr) (notify : Bool)
  | addFD (sock : SOCKET) (p : Ptr) (notify : Bool)
  | onConnect (sock : SOCKET) (p : Ptr)
  | closeSock (sock : SOCKET)
  | stop (stage : StopStage)
  deriving DecidableEq

structure Sys where
  host : Host
  worker : Worker
  callers : List Caller
  stopCalled : Bool

/-- What the system calls of a caller's step answer. -/
inductive Reply
  | done
  | failed (code : Errno)
  | inProgress (raw : SocketObject)
  | fd (sock : FD)
  | object (raw : SocketObject) (now : UInt32)

inductive Act
  | arrive (conn : Nat)
  | startAccept (refused : Bool)
  | send (t : Nat) (sock : SOCKET) (raw : MsgPacket) (buf : List UInt8)
  | udpSend (t : Nat) (sock : SOCKET) (addr : Sockaddr) (raw : MsgPacket) (buf : List UInt8)
  | disconnect (t : Nat) (sock : SOCKET)
  | setReceiveLimit (sock : SOCKET) (num : UInt32)
  | connect (t : Nat) (op : ConnectOp) (addr : Sockaddr)
  | stop (t : Nat)
  | caller (t : Nat) (reply : Reply)
  | epollPwait (rs : Except Errno (List (FD × UInt32)))
  | worker
  | timer (expirations : Option UInt64) (now : UInt32)
  | beforeIo (soError : Except Errno Int) (now : UInt32)
  | accept (rc : Except Errno (FD × Sockaddr))
  | setNonBlocking (ok : Bool)
  | addTcpSocket (raw : SocketObject) (now : UInt32) (refused : Bool)
  | readyRead (now : UInt32)
  | read (rc : Except Errno (List UInt8)) (addr : Sockaddr) (timeMs : UInt64)
  | write (rc : Except Errno Nat)

def has (events flag : UInt32) : Bool := events &&& flag != 0

def resume : Ctx → Worker
  | .batch b => .batch b
  | .command count b => .popCommand count b

/-- `DoProcessIo` after `OnReadyRead`. -/
def afterRead (rs : Bool) (p : Ptr) (events : UInt32) (ctx : Ctx) : Worker :=
  if rs && has events epollout then .readyWrite p ctx else resume ctx

/-- `ProcessIo` after `OnBeforeProcessIo`. -/
def doProcessIo (p : Ptr) (events : UInt32) (ctx : Ctx) : Worker :=
  if has events epollin then .readyRead p events ctx else afterRead true p events ctx

/-- `ProcessCommand` handles at most this many commands a call. -/
def commandBudget : Nat := 20

namespace Sys

def moveTo (host : Host) (worker : Worker) (s : Sys) : Sys := {s with host := host, worker := worker}

def setCaller (t : Nat) (caller : Caller) (s : Sys) : Sys := {s with callers := s.callers.set t caller}

/-! The worker. -/

def isReady (pv : PVOID) (events : UInt32) (h : Host) : Bool :=
  match pv with
  | .cmdEvtFd => h.cmdReady && events = epollin
  | .exitEvtFd => h.exitReady && events = epollin
  | .listenSocket => h.listenReady
  | .timerEvtFd | .object _ => true

/-- The events the kernel reports: of registered fds that are ready. -/
def deliver (h : Host) (fds : List (FD × UInt32)) : Option (List EpollEvent) :=
  fds.mapM (fun fd => (h.interest fd.1).bind (fun pv => if isReady pv fd.2 h then some ⟨fd.2,pv⟩ else none))

/-- An edge is left for a later call only where the batch is full. -/
def leavesNone (h : Host) (batch : List EpollEvent) : Bool :=
  batch.length = h.maxEvents ||
    ((!h.cmdReady || batch.any (fun ev => ev.ptr = .cmdEvtFd)) &&
     (!h.exitReady || batch.any (fun ev => ev.ptr = .exitEvtFd)) &&
     (!h.listenReady || batch.any (fun ev => ev.ptr = .listenSocket)))

/-- The edges that have been reported are gone until they are raised again. -/
def clearReady (batch : List EpollEvent) (h : Host) : Host :=
  {h with cmdReady := h.cmdReady && !batch.any (fun ev => ev.ptr = .cmdEvtFd),
          exitReady := h.exitReady && !batch.any (fun ev => ev.ptr = .exitEvtFd),
          listenReady := h.listenReady && !batch.any (fun ev => ev.ptr = .listenSocket)}

def epollPwait (rs : Except Errno (List (FD × UInt32))) (s : Sys) : Option Sys :=
  match rs with
  | .error _ => some (s.moveTo s.host .exited)
  | .ok fds =>
    (deliver s.host fds).bind (fun batch =>
      if batch ≠ [] ∧ batch.length ≤ s.host.maxEvents ∧ (fds.map Prod.fst).Nodup ∧ leavesNone s.host batch then
        some (s.moveTo (clearReady batch s.host) (.batch ⟨true,batch⟩))
      else none)

/-- One round of the `for` loop of `DoWork`, or its end. -/
def dispatch (b : Batch) (s : Sys) : Sys :=
  match b.rest with
  | [] => s.moveTo s.host (if b.bRun then .epollPwait else .exited)
  | ev::rest =>
    match ev.ptr with
    | .cmdEvtFd =>
      s.moveTo s.host (if has ev.events epollin then .command commandBudget ⟨b.bRun,rest⟩ else .batch ⟨b.bRun,rest⟩)
    | .timerEvtFd => s.moveTo s.host (if has ev.events epollin then .timer ⟨b.bRun,rest⟩ else .batch ⟨b.bRun,rest⟩)
    | .exitEvtFd => s.moveTo s.host (.batch ⟨false,rest⟩)
    | pv => s.moveTo s.host (.beforeIo pv ev.events (.batch ⟨b.bRun,rest⟩))

/-- `RemoveSocketObject` up to the return of `OnDisconnect`. -/
def startRemove (p : Ptr) (count : Nat) (b : Batch) (s : Sys) : Sys :=
  match s.host.heap p with
  | none => s.moveTo s.host (.popCommand count b)
  | some object =>
    if object.fValid then
      s.moveTo ((s.host.modify p SocketObject.setInvalid).observe (.onDisconnect p object.socketId))
        (.remove .deleteFD p object.socketId count b)
    else s.moveTo s.host (.popCommand count b)

/-- One round of the `while` loop of `ProcessCommand` up to the end of the `switch`, or its end. -/
def processCommand (count : Nat) (b : Batch) (s : Sys) : Sys :=
  match s.host.cmdQueue with
  | [] => s.moveTo s.host (.batch b)
  | cmd::_ =>
    if count = 0 then s.moveTo s.host (.batch b)
    else
      match cmd.cmd, s.host.findSocketObject cmd.fd with
      | .send, some p => s.moveTo s.host (.beforeIo (.object p) epollout (.command count b))
      | .disconnect, some p => s.startRemove p count b
      | _, _ => s.moveTo s.host (.popCommand count b)

/-- The rest of `RemoveSocketObject`. -/
def removeStep (stage : RemoveStage) (p : Ptr) (sock : SOCKET) (count : Nat) (b : Batch) (s : Sys) : Sys :=
  match stage with
  | .deleteFD => s.moveTo (s.host.deleteFD sock) (.remove .close p sock count b)
  | .close => s.moveTo (s.host.closeFD sock) (.remove .delete p sock count b)
  | .delete => s.moveTo (s.host.deleteObject p) (.remove .erase p sock count b)
  | .erase => s.moveTo (s.host.eraseSocket sock) (.popCommand count b)

/-- `OnBeforeProcessIo` of the three servers and what `ProcessIo` does with its result. -/
def beforeIo (pv : PVOID) (events : UInt32) (ctx : Ctx) (soError : Except Errno Int) (now : UInt32) (s : Sys) : Option Sys :=
  match s.host.kind, pv with
  | .tcpServer, .listenSocket =>
    some (s.moveTo s.host (if has events (epollerr ||| epollhup) then resume ctx else .accept ctx))
  | .tcpServer, .object p => some (s.moveTo s.host (doProcessIo p events ctx))
  | .udpServer, .object p => some (s.moveTo s.host (doProcessIo p events ctx))
  | .tcpClient, .object p =>
    let before := TcpClient.onBeforeProcessIo p soError now s.host
    some (s.moveTo before.1 (if before.2 then doProcessIo p events ctx else resume ctx))
  | _, _ => none

/-- The call of `accept` in `HandleAccept`. -/
def accept (ctx : Ctx) (rc : Except Errno (FD × Sockaddr)) (s : Sys) : Option Sys :=
  match rc with
  | .error _ => some (s.moveTo s.host (resume ctx))
  | .ok (sock,addr) =>
    if s.host.isOpen s.host.listenSocket ∧ s.host.backlog ≠ [] ∧ 0 ≤ sock ∧ s.host.isOpen sock = false then
      some (s.moveTo ({s.host with backlog := s.host.backlog.tail}.openFD sock) (.setNonBlocking sock addr ctx))
    else none

def addTcpSocket (sock : SOCKET) (addr : Sockaddr) (ctx : Ctx) (raw : SocketObject) (now : UInt32) (refused : Bool)
    (s : Sys) : Sys :=
  let added := s.host.addTcpSocket sock addr raw now refused
  s.moveTo added.2.2 (if added.1 < 0 then .closeAccepted sock ctx else .connected added.2.1 sock ctx)

def readyRead (p : Ptr) (events : UInt32) (ctx : Ctx) (now : UInt32) (s : Sys) : Sys :=
  match s.host.startReceive p now with
  | none => s.moveTo s.host (resume ctx)
  | some (sock,host) => s.moveTo host (.read p sock events ctx)

def read (p : Ptr) (sock : SOCKET) (events : UInt32) (ctx : Ctx) (rc : Except Errno (List UInt8)) (addr : Sockaddr)
    (timeMs : UInt64) (s : Sys) : Sys :=
  let received := s.host.handleReceive p sock addr rc timeMs
  s.moveTo received.1 (received.2.elim (.read p sock events ctx) (fun rs => afterRead rs p events ctx))

def write (p : Ptr) (ctx : Ctx) (rc : Except Errno Nat) (s : Sys) : Option Sys :=
  (s.host.frontPacket p).bind (fun packet =>
    if packet.size ≠ 0 ∧ s.host.fitsPacket packet.size rc then
      let sent := s.host.handleSend p packet rc
      some (s.moveTo sent.1 (sent.2.elim (.sendPacket p ctx) (fun _ => resume ctx)))
    else none)

/-- The inner loop of `HandleSend` ends when the front packet is empty. -/
def packetSent (p : Ptr) (ctx : Ctx) (s : Sys) : Option Sys :=
  (s.host.frontPacket p).bind (fun packet =>
    if packet.size = 0 then some (s.moveTo s.host (.popPacket p ctx)) else none)

/-- The steps of the worker that depend on no answer of the kernel. -/
def workerStep (s : Sys) : Option Sys :=
  match s.worker with
  | .batch b => some (s.dispatch b)
  | .command count b => some (s.processCommand count b)
  | .popCommand count b => some (s.moveTo s.host.popCmd (.command (count-1) b))
  | .closeAccepted sock ctx => some (s.moveTo (s.host.closeFD sock) (resume ctx))
  | .connected p sock ctx => some (s.moveTo (s.host.observe (.onConnect p sock)) (resume ctx))
  | .readyWrite p ctx => some (s.moveTo s.host (if s.host.isValid (some p) then .sendLoop p ctx else resume ctx))
  | .sendLoop p ctx =>
    some (s.moveTo s.host (if (s.host.frontPacket p).isNone then resume ctx else .sendPacket p ctx))
  | .sendPacket p ctx => s.packetSent p ctx
  | .popPacket p ctx => some (s.moveTo (s.host.modify p SocketObject.popOutPacket) (.sendLoop p ctx))
  | .remove stage p sock count b => some (s.removeStep stage p sock count b)
  | _ => none

/-- The worker waits while the listener is inside a call. -/
def listenerIdle (s : Sys) : Bool := s.callers.head?.all (fun caller => caller = .idle)

def workerAct (s : Sys) (act : Act) : Option Sys :=
  match act, s.worker with
  | .epollPwait rs, .epollPwait => s.epollPwait rs
  | .worker, _ => s.workerStep
  | .timer expirations now, .timer b => some (s.moveTo (expirations.elim s.host (fun exp => s.host.onTimer exp now)) (.batch b))
  | .beforeIo soError now, .beforeIo pv events ctx => s.beforeIo pv events ctx soError now
  | .accept rc, .accept ctx => s.accept ctx rc
  | .setNonBlocking ok, .setNonBlocking sock addr ctx =>
    some (s.moveTo s.host (if ok then .addTcpSocket sock addr ctx else resume ctx))
  | .addTcpSocket raw now refused, .addTcpSocket sock addr ctx => some (s.addTcpSocket sock addr ctx raw now refused)
  | .readyRead now, .readyRead p events ctx => some (s.readyRead p events ctx now)
  | .read rc addr timeMs, .read p sock events ctx =>
    if s.host.fitsBuffer rc then some (s.read p sock events ctx rc addr timeMs) else none
  | .write rc, .sendPacket p ctx => s.write p ctx rc
  | _, _ => none

/-! The callers. -/

/-- The iterator of `CloseAllSocket`: the entry after the key `last`. -/
def nextKey (last : Option SOCKET) (h : Host) : Option SOCKET :=
  (h.sockObjectMap.keys.filter (fun key => last.all (fun done => done < key))).min?

/-- A step of `ConnectToRemote`, `AsynchConnectTo` or `AddUdpSocket` at its `connect` or `bind`. -/
def connectStep (t : Nat) (op : ConnectOp) (addr : Sockaddr) (sock : SOCKET) (reply : Reply) (s : Sys) : Option Sys :=
  match op, reply with
  | .connectToRemote, .object raw now | .asynchConnectTo, .object raw now =>
    let made := s.host.prepareObject raw (some addr) (some now)
    some ({s with host := made.2}.setCaller t (.count sock made.1 true))
  | .addUdpSocket, .object raw now =>
    let made := s.host.prepareObject raw none (some now)
    some ({s with host := made.2}.setCaller t (.count sock made.1 true))
  | .asynchConnectTo, .inProgress raw =>
    let made := s.host.prepareObject raw (some addr) none
    some ({s with host := made.2}.setCaller t (.count sock made.1 false))
  | .asynchConnectTo, .failed code => if code = einprogress then none else some (s.setCaller t .idle)
  | .connectToRemote, .failed _ | .addUdpSocket, .failed _ => some (s.setCaller t (.closeSock sock))
  | _, _ => none

def afterAdd (notify : Bool) (sock : SOCKET) (p : Ptr) : Caller := if notify then .onConnect sock p else .idle

/-- A step of `TcpServer::Stop`, `UdpServer::Stop` or `TcpClient::Stop`. -/
def stopStep (t : Nat) (stage : StopStage) (s : Sys) : Option Sys :=
  match stage with
  | .closeListenSocket => some ({s with host := s.host.closeFD s.host.listenSocket}.setCaller t (.closeAll none))
  | .signal => some ({s with host := s.host.writeExitEvt}.setCaller t (.stop .join))
  | .join => if s.worker = .exited then some (s.setCaller t (.stop .clear)) else none
  | .clear => some ({s with host := {s.host with cmdQueue := []}}.setCaller t (.stop .release))
  | .release => some ({s with host := s.host.releaseSocketObjects}.setCaller t (.stop .closeFds))
  | .closeFds => some ({s with host := s.host.closeManagerFds.observe (.stopped true)}.setCaller t .idle)

def callerStep (t : Nat) (caller : Caller) (reply : Reply) (s : Sys) : Option Sys :=
  match caller, reply with
  | .trigger cmd fd next, .done =>
    if s.host.hasStart then some ({s with host := s.host.pushCmd cmd fd}.setCaller t (.evtWrite next))
    else some (s.setCaller t next)
  | .evtWrite next, .done => some ({s with host := s.host.writeCmdEvt}.setCaller t next)
  | .closeAll last, .done =>
    match nextKey last s.host with
    | none => some (s.setCaller t (.stop .signal))
    | some sock =>
      match (s.host.findSocketObject sock).bind s.host.heap with
      | some object =>
        some (s.setCaller t
          (if object.fValid then .trigger .disconnect object.socketId (.closeAll (some sock)) else .closeAll (some sock)))
      | none => some (s.setCaller t (.closeAll (some sock)))
  | .socket _ _, .failed _ => some (s.setCaller t .idle)
  | .socket op addr, .fd sock =>
    if 0 ≤ sock ∧ s.host.isOpen sock = false then
      some ({s with host := s.host.openFD sock}.setCaller t (.connect op addr sock))
    else none
  | .connect op addr sock, reply => s.connectStep t op addr sock reply
  | .count sock p notify, .done =>
    some (s.setCaller t (if sock ∈ s.host.sockObjectMap then afterAdd notify sock p else .insert sock p notify))
  | .insert sock p notify, .done => some ({s with host := s.host.insertSocketObject sock p}.setCaller t (.addFD sock p notify))
  | .addFD sock p notify, .done =>
    some ({s with host := (s.host.addFD sock (.object p) false).2}.setCaller t (afterAdd notify sock p))
  | .addFD sock p notify, .failed _ =>
    some ({s with host := (s.host.addFD sock (.object p) true).2}.setCaller t (afterAdd notify sock p))
  | .onConnect sock p, .done => some ({s with host := s.host.observe (.onConnect p sock)}.setCaller t .idle)
  | .closeSock sock, .done => some ({s with host := s.host.closeFD sock}.setCaller t .idle)
  | .stop stage, .done => s.stopStep t stage
  | _, _ => none

/-- The listener calls from inside a callback, so only while the worker is at work. -/
def mayAct (t : Nat) (s : Sys) : Bool := t ≠ 0 || (s.worker ≠ .epollPwait && s.worker ≠ .exited)

def isIdle (t : Nat) (s : Sys) : Bool := s.callers[t]? = some .idle && s.mayAct t

def offers (kind : ServerKind) : ConnectOp → Bool
  | .connectToRemote | .asynchConnectTo => kind = .tcpClient
  | .addUdpSocket => kind = .udpServer

/-- `Send` and `UdpSend`. -/
def startSend (t : Nat) (sock : SOCKET) (addr : Option Sockaddr) (raw : MsgPacket) (buf : List UInt8) (s : Sys) : Option Sys :=
  if s.isIdle t then
    let stored := s.host.storeMessage sock addr raw buf
    if stored.1 = socketError then some s
    else some ({s with host := stored.2}.setCaller t (.trigger .send sock .idle))
  else none

def firstStopStage : ServerKind → Caller
  | .tcpServer => .stop .closeListenSocket
  | .udpServer => .closeAll none
  | .tcpClient => .stop .signal

def setReceiveLimit (sock : SOCKET) (num : UInt32) (s : Sys) : Option Sys :=
  match s.host.kind, s.host.findSocketObject sock with
  | .tcpServer, _ => none
  | _, none => some s
  | kind, some p =>
    if s.host.isValid (some p) then
      let change := if kind = .udpServer then SocketObject.setReceivePacketLimit num else SocketObject.setReceiveBytesLimit num
      some {s with host := s.host.modify p change}
    else some s

/-- The listening socket becomes readable when a connection is established. -/
def arrive (conn : Nat) (h : Host) : Host :=
  {h with backlog := h.backlog ++ [conn], listenReady := h.listenReady || h.interest h.listenSocket = some .listenSocket}

/-- `StartAccept`: a registration reports what is already waiting. -/
def startAccept (refused : Bool) (h : Host) : Host :=
  let added := h.addFD h.listenSocket .listenSocket refused
  if added.1 then {added.2 with listenReady := h.backlog ≠ []} else h

def step (s : Sys) (act : Act) : Option Sys :=
  match act with
  | .arrive conn =>
    if s.host.kind = .tcpServer ∧ s.host.isOpen s.host.listenSocket then some {s with host := arrive conn s.host} else none
  | .startAccept refused => if s.host.kind = .tcpServer then some {s with host := startAccept refused s.host} else none
  | .send t sock raw buf => if s.host.kind = .udpServer then none else s.startSend t sock none raw buf
  | .udpSend t sock addr raw buf => if s.host.kind = .udpServer then s.startSend t sock (some addr) raw buf else none
  | .disconnect t sock => if s.isIdle t then some (s.setCaller t (.trigger .disconnect sock .idle)) else none
  | .setReceiveLimit sock num => s.setReceiveLimit sock num
  | .connect t op addr => if s.isIdle t ∧ offers s.host.kind op then some (s.setCaller t (.socket op addr)) else none
  | .stop t =>
    if s.isIdle t ∧ t ≠ 0 ∧ s.stopCalled = false then
      some ({s with stopCalled := true}.setCaller t (firstStopStage s.host.kind))
    else none
  | .caller t reply =>
    (s.callers[t]?).bind (fun caller => if s.mayAct t then s.callerStep t caller reply else none)
  | act => if s.listenerIdle then s.workerAct act else none

end Sys

/-- What a successful `Start` leaves behind: the fds it opened, the connections that
arrived since `listen`, and the members of the server object. -/
structure Config where
  kind : ServerKind
  epollFd : FD
  exitEvtFd : FD
  cmdEvtFd : FD
  timerEvtFd : FD
  listenSocket : SOCKET
  heartbeatInterval : UInt32
  keepAliveTime : UInt32
  timerEventCount : UInt64
  rxBuffer : List UInt8
  isOpen : FD → Bool
  backlog : List Nat
  callers : Nat
  epoll_open : isOpen epollFd ∧ epollFd ≠ invalidFd
  exit_open : isOpen exitEvtFd ∧ exitEvtFd ≠ invalidFd
  cmd_open : isOpen cmdEvtFd ∧ cmdEvtFd ≠ invalidFd
  timer_open : timerEvtFd ≠ invalidFd → isOpen timerEvtFd
  listen_open : kind = .tcpServer → isOpen listenSocket ∧ listenSocket ≠ invalidFd
  distinct : [epollFd,exitEvtFd,cmdEvtFd,listenSocket].Nodup ∧ timerEvtFd ∉ [epollFd,exitEvtFd,cmdEvtFd]
  timer_distinct : timerEvtFd ≠ invalidFd → timerEvtFd ≠ listenSocket

namespace Config

def interest (config : Config) (fd : FD) : Option PVOID :=
  if fd = config.cmdEvtFd then some .cmdEvtFd
  else if fd = config.exitEvtFd then some .exitEvtFd
  else if fd = config.timerEvtFd ∧ fd ≠ invalidFd then some .timerEvtFd
  else none

/-- The state in which the worker first calls `epoll_pwait`. -/
def started (config : Config) : Sys :=
  {host :=
    {kind := config.kind, sockObjectMap := ∅, epollFd := config.epollFd, exitEvtFd := config.exitEvtFd,
     cmdEvtFd := config.cmdEvtFd, timerEvtFd := config.timerEvtFd, maxEvents := 6, cmdQueue := [],
     listenSocket := config.listenSocket, heartbeatInterval := config.heartbeatInterval,
     keepAliveTime := config.keepAliveTime, timerEventCount := config.timerEventCount, rxBuffer := config.rxBuffer,
     heap := fun _ => none, nextPtr := 0, isOpen := config.isOpen, interest := config.interest, cmdReady := false,
     exitReady := false, listenReady := false, backlog := config.backlog, log := []}
   worker := .epollPwait, callers := List.replicate config.callers .idle, stopCalled := false}

/-- The fds of a process that had none but the standard ones open, and no timer. -/
def plain (kind : ServerKind) (callers : Nat) : Config where
  kind := kind
  listenSocket := if kind = .tcpServer then 3 else invalidFd
  epollFd := 4
  cmdEvtFd := 5
  exitEvtFd := 6
  timerEvtFd := invalidFd
  heartbeatInterval := 0
  keepAliveTime := 0
  timerEventCount := 0
  rxBuffer := []
  isOpen := fun fd => (kind = .tcpServer && fd = 3) || (4 ≤ fd && fd ≤ 6)
  backlog := []
  callers := callers
  epoll_open := by cases kind <;> decide
  exit_open := by cases kind <;> decide
  cmd_open := by cases kind <;> decide
  timer_open := by cases kind <;> decide
  listen_open := by cases kind <;> decide
  distinct := by cases kind <;> decide
  timer_distinct := by cases kind <;> decide

end Config

/-- The runs of the process from a successful `Start` on. -/
def Run (config : Config) (acts : List Act) (s : Sys) : Prop :=
  Transition.exec Sys.step config.started acts = some s

theorem run_reaches (config : Config) (acts : List Act) (P : Sys → Prop) [DecidablePred P]
    (found : (Transition.exec Sys.step config.started acts).any (fun s => decide (P s)) = true) : ∃ s, Run config acts s ∧ P s :=
  Transition.exec_reaches P found

theorem run_snoc {config : Config} {acts : List Act} {s next : Sys} {act : Act} (run : Run config acts s)
    (taken : s.step act = some next) : Run config (acts ++ [act]) next := by
  rw [Run,Transition.exec_append,show Transition.exec Sys.step config.started acts = some s from run]
  simp [taken]

end LightServer
