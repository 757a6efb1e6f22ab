import LightServer.SocketObject
import Mathlib.Data.List.AList
import Mathlib.Data.List.Sort
import Mathlib.Logic.Function.Basic

/-! The process around one `SocketManager`: the manager's members and those of the
server object that owns it, the socket objects on the heap, and what the kernel
keeps for the process. Each definition is the function of `socket_manager.cpp` of
that name, or the part of it between two points where another thread can act. -/
namespace LightServer

/-- The identity of a socket object; a deleted object's is never given out again. -/
abbrev Ptr := Nat

abbrev Errno := Nat

def eagain : Errno := 11
def ewouldblock : Errno := eagain
def einprogress : Errno := 115

def epollin : UInt32 := 0x001
def epollout : UInt32 := 0x004
def epollerr : UInt32 := 0x008
def epollhup : UInt32 := 0x010

/-- The pointers handed to `epoll_ctl`: members of the manager, of the server, or objects. -/
inductive PVOID
  | cmdEvtFd
  | timerEvtFd
  | exitEvtFd
  | listenSocket
  | object (p : Ptr)
  deriving DecidableEq

structure EpollEvent where
  events : UInt32
  ptr : PVOID
  deriving DecidableEq

inductive ServerKind
  | tcpServer
  | tcpClient
  | udpServer
  deriving DecidableEq

inductive EvtCommand
  | send
  | disconnect
  | shutdown
  deriving DecidableEq

/-- `owner` is not in the code: it records the object found under `fd` at the push. -/
structure TSockMCommand where
  cmd : EvtCommand
  fd : FD
  owner : Option Ptr
  deriving DecidableEq

/-- What can be seen from outside: calls of the listener, bytes moved by the kernel
and results of the public functions. -/
inductive Obs
  | onConnect (p : Ptr) (sock : SOCKET)
  | doRead (p : Ptr) (sock : SOCKET) (buf : List UInt8) (from_addr : Option Sockaddr)
  | onDisconnect (p : Ptr) (sock : SOCKET)
  | received (p : Ptr) (buf : List UInt8)
  | queued (p : Ptr) (buf : List UInt8) (addr : Option Sockaddr)
  | written (p : Ptr) (buf : List UInt8) (addr : Option Sockaddr)
  | closed (fd : FD)
  | deleted (p : Ptr)
  | stopped (rs : Bool)
  deriving DecidableEq

abbrev SocketObjectMap := AList (fun _ : SOCKET => Ptr)

structure Host where
  kind : ServerKind
  sockObjectMap : SocketObjectMap
  epollFd : FD
  exitEvtFd : FD
  cmdEvtFd : FD
  timerEvtFd : FD
  maxEvents : Nat
  cmdQueue : List TSockMCommand
  listenSocket : SOCKET
  heartbeatInterval : UInt32
  keepAliveTime : UInt32
  timerEventCount : UInt64
  rxBuffer : List UInt8
  heap : Ptr → Option SocketObject
  nextPtr : Ptr
  isOpen : FD → Bool
  interest : FD → Option PVOID
  cmdReady : Bool
  exitReady : Bool
  listenReady : Bool
  backlog : List Nat
  log : List Obs

namespace Host

def observe (obs : Obs) (h : Host) : Host := {h with log := h.log ++ [obs]}

/-! The heap. -/

def newSocketObject (raw : SocketObject) (h : Host) : Ptr × Host :=
  (h.nextPtr,{h with heap := Function.update h.heap h.nextPtr (some (SocketObject.create raw)), nextPtr := h.nextPtr+1})

def modify (p : Ptr) (change : SocketObject → SocketObject) (h : Host) : Host :=
  {h with heap := Function.update h.heap p ((h.heap p).map change)}

def deleteObject (p : Ptr) (h : Host) : Host :=
  {h with heap := Function.update h.heap p none, log := h.log ++ [.deleted p]}

/-- `SocketObject::IsValid`; an object that has been deleted is read as not valid. -/
def isValid (p : Option Ptr) (h : Host) : Bool := (p.bind h.heap).elim false SocketObject.fValid

theorem isValid_live {p : Ptr} {h : Host} (valid : h.isValid (some p) = true) :
    ∃ object, h.heap p = some object ∧ object.fValid = true := by
  cases live : h.heap p with
  | none => simp [isValid,live] at valid
  | some object => exact ⟨object,rfl,by simpa [isValid,live] using valid⟩

/-! The kernel. -/

def hasStart (h : Host) : Bool := h.epollFd != invalidFd

/-- `AddFD`; `refused` is a failure other than a closed or already registered fd. -/
def addFD (fd : FD) (pv : PVOID) (refused : Bool) (h : Host) : Bool × Host :=
  if refused || !h.hasStart || !h.isOpen fd || (h.interest fd).isSome then (false,h)
  else (true,{h with interest := Function.update h.interest fd (some pv)})

def deleteFD (fd : FD) (h : Host) : Host := {h with interest := Function.update h.interest fd none}

/-- `close`, which also drops the registration, and the waiting connections of the listening socket. -/
def closeFD (fd : FD) (h : Host) : Host :=
  if h.isOpen fd then
    {h with isOpen := Function.update h.isOpen fd false, interest := Function.update h.interest fd none,
            backlog := if fd = h.listenSocket then [] else h.backlog,
            listenReady := if fd = h.listenSocket then false else h.listenReady,
            log := h.log ++ [.closed fd]}
  else h

def openFD (fd : FD) (h : Host) : Host := {h with isOpen := Function.update h.isOpen fd true}

/-- `eventfd_write(cmd_evt_fd_, 6)`. -/
def writeCmdEvt (h : Host) : Host := if h.cmdEvtFd != invalidFd then {h with cmdReady := true} else h

/-- `eventfd_write(exit_evt_fd_, 6)`. -/
def writeExitEvt (h : Host) : Host := {h with exitReady := true}

/-! The command queue. -/

def findSocketObject (sock : SOCKET) (h : Host) : Option Ptr := h.sockObjectMap.lookup sock

def pushCmd (cmd : EvtCommand) (fd : FD) (h : Host) : Host :=
  {h with cmdQueue := h.cmdQueue ++ [⟨cmd,fd,h.findSocketObject fd⟩]}

def popCmd (h : Host) : Host := {h with cmdQueue := h.cmdQueue.tail}

def triggerCmdEvent (cmd : EvtCommand) (fd : FD) (h : Host) : Host :=
  if h.hasStart then (h.pushCmd cmd fd).writeCmdEvt else h

def disconnect (sock : SOCKET) : Host → Host := triggerCmdEvent .disconnect sock

def closeSocket (sock : SOCKET) : Host → Host := triggerCmdEvent .disconnect sock

/-- `Send` and `UdpSend` up to the trigger: the object stores the message or refuses it. -/
def storeMessage (sock : SOCKET) (addr : Option Sockaddr) (raw : MsgPacket) (buf : List UInt8) (h : Host) : Int × Host :=
  match h.findSocketObject sock with
  | none => (socketError,h)
  | some p =>
    match h.heap p with
    | none => (socketError,h)
    | some object =>
      if object.fValid then
        let pushed := object.push raw buf addr
        if pushed.1 = socketError then (socketError,h)
        else (0,(h.modify p (fun _ => pushed.2)).observe (.queued p buf addr))
      else (socketError,h)

/-! The connection table. -/

/-- The insertion in `AddSocketObject`, after the test for an entry. -/
def insertSocketObject (sock : SOCKET) (p : Ptr) (h : Host) : Host :=
  let marked := h.modify p (fun object => (object.setSocketId sock).setValid)
  {marked with sockObjectMap := if sock ∈ h.sockObjectMap then h.sockObjectMap else h.sockObjectMap.insert sock p}

def addSocketObject (sock : SOCKET) (p : Ptr) (refused : Bool) (h : Host) : Bool × Host :=
  if sock ∈ h.sockObjectMap then (false,h)
  else (true,((h.insertSocketObject sock p).addFD sock (.object p) refused).2)

/-- An object built for a socket by `AddTcpSocket` or a connecting call. -/
def prepareObject (raw : SocketObject) (addr : Option Sockaddr) (connected : Option UInt32) (h : Host) : Ptr × Host :=
  let made := h.newSocketObject raw
  let named := addr.elim made.2 (fun sa => made.2.modify made.1 (SocketObject.setRemoteAddr sa))
  (made.1,connected.elim named (fun now => named.modify made.1 (SocketObject.setConnected now.toNat)))

/-- `AddTcpSocket`; the pointer is that of the new object. -/
def addTcpSocket (sock : SOCKET) (addr : Sockaddr) (raw : SocketObject) (now : UInt32) (refused : Bool) (h : Host) :
    Int × Ptr × Host :=
  if sock = invalidSocket then (-1,h.nextPtr,h)
  else
    let made := h.prepareObject raw (some addr) (some now)
    let added := made.2.addSocketObject sock made.1 refused
    (if added.1 then 0 else -1,made.1,added.2)

def eraseSocket (sock : SOCKET) (h : Host) : Host := {h with sockObjectMap := h.sockObjectMap.erase sock}

def releaseSocketObjects (h : Host) : Host :=
  {h.sockObjectMap.entries.foldl (fun host entry => (host.deleteFD entry.1).deleteObject entry.2) h with
    sockObjectMap := ∅}

/-- The keys in the order of a `std::map` iteration. -/
def sortedKeys (h : Host) : List SOCKET := h.sockObjectMap.keys.mergeSort (fun left right => left ≤ right)

def isSilent (period : UInt64) (now : UInt32) (object : SocketObject) : Bool :=
  object.fValid && int32 ((now.toNat : Int) - object.activeTime) ≥ int32 period.toNat

def disconnectSilenceConnections (period : UInt64) (now : UInt32) (h : Host) : Host :=
  h.sortedKeys.foldl (fun host sock =>
    match (host.findSocketObject sock).bind host.heap with
    | some object => if isSilent period now object then host.disconnect object.socketId else host
    | none => host) h

/-- `Reset()`, which leaves `sock_object_map_` and `cmd_queue_` alone. -/
def reset (h : Host) : Host :=
  {h with epollFd := invalidFd, exitEvtFd := invalidFd, cmdEvtFd := invalidFd, timerEvtFd := invalidFd, maxEvents := 6}

/-- The end of `Stop()`: the manager's own fds. -/
def closeManagerFds (h : Host) : Host :=
  let release := fun (fd : FD) (host : Host) => if fd != invalidFd then (host.deleteFD fd).closeFD fd else host
  let closed := release h.timerEvtFd (release h.exitEvtFd (release h.cmdEvtFd h))
  (if h.epollFd != invalidFd then closed.closeFD h.epollFd else closed).reset

/-! What the parts of a function keep, the function keeps. -/

section Rules

variable {P : Host → Prop} (h : Host)

theorem addSocketObject_rule (sock : SOCKET) (p : Ptr) (refused : Bool) (start : P h)
    (insert : ∀ host, P host → P (host.insertSocketObject sock p))
    (add : ∀ host, P host → P (host.addFD sock (.object p) refused).2) : P (h.addSocketObject sock p refused).2 := by
  unfold addSocketObject
  split
  · exact start
  · exact add _ (insert h start)

theorem addTcpSocket_rule (sock : SOCKET) (addr : Sockaddr) (raw : SocketObject) (now : UInt32) (refused : Bool) (start : P h)
    (prepared : P (h.prepareObject raw (some addr) (some now)).2)
    (insert : ∀ host p, P host → P (host.insertSocketObject sock p))
    (add : ∀ host p, P host → P (host.addFD sock (.object p) refused).2) : P (h.addTcpSocket sock addr raw now refused).2.2 := by
  unfold addTcpSocket
  split
  · exact start
  · exact addSocketObject_rule _ sock _ refused prepared (fun host => insert host _) (fun host => add host _)

theorem releaseSocketObjects_rule (start : P h)
    (release : ∀ host, ∀ entry ∈ h.sockObjectMap.entries, P host → P ((host.deleteFD entry.1).deleteObject entry.2)) :
    ∃ host, P host ∧ h.releaseSocketObjects = {host with sockObjectMap := ∅} :=
  ⟨_,List.foldlRecOn h.sockObjectMap.entries _ start (fun host kept entry member => release host entry member kept),rfl⟩

theorem disconnectSilence_rule (period : UInt64) (now : UInt32) (start : P h)
    (disconnect : ∀ host sock, P host → P (host.disconnect sock)) : P (h.disconnectSilenceConnections period now) := by
  apply List.foldlRecOn h.sortedKeys _ start
  intro host kept sock _
  split
  · split
    · exact disconnect host _ kept
    · exact kept
  · exact kept

theorem closeManagerFds_rule (start : P h) (delete : ∀ host fd, P host → P (host.deleteFD fd))
    (close : ∀ host fd, P host → P (host.closeFD fd)) (reset : ∀ host, P host → P host.reset) : P h.closeManagerFds := by
  have release (fd : FD) (host : Host) (kept : P host) : P (if fd != invalidFd then (host.deleteFD fd).closeFD fd else host) := by
    split
    · exact close _ fd (delete host fd kept)
    · exact kept
  apply reset
  split
  · exact close _ h.epollFd (release _ _ (release _ _ (release _ _ start)))
  · exact release _ _ (release _ _ (release _ _ start))

end Rules

end Host

end LightServer
