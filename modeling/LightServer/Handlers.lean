import LightServer.SocketManager

/-! The I/O handlers of `tcp_server.cpp`, `tcp_client.cpp` and `udp_server.cpp`, each
loop as what one of its iterations does. The receive loops have no bound, because
`flag` is the event mask and is not zero where they are called. A `bool` function
that returns `-1` returns `true`, and one that returns `0` returns `false`. -/
namespace LightServer

/-- The counters a server updates for a block of `rc` bytes, where it has a limit. -/
abbrev Limiter := Option (Nat → UInt64 → SocketObject → SocketObject)

namespace Host

/-- The test against the limit of the object, after it has been updated. -/
def isOverLimit (limiter : Limiter) (p : Ptr) (h : Host) : Bool :=
  limiter.isSome && (h.heap p).elim false (fun object => object.isReceiveLimit && object.isReceiveOverflow)

def countReceived (limiter : Limiter) (p : Ptr) (rc : Nat) (timeMs : UInt64) (h : Host) : Host :=
  match limiter, h.heap p with
  | some count, some object => if object.isReceiveLimit then h.modify p (count rc timeMs) else h
  | _, _ => h

/-- One iteration of a `HandleReceive`: `none` goes on reading, `some rs` returns `rs`. -/
def receiveIteration (limiter : Limiter) (addr : Option Sockaddr) (p : Ptr) (sock : SOCKET)
    (rc : Except Errno (List UInt8)) (timeMs : UInt64) (h : Host) : Host × Option Bool :=
  match rc with
  | .ok [] => (h.closeSocket sock,some false)
  | .ok (byte::bytes) =>
    let buf := byte::bytes
    let taken := {h with rxBuffer := buf ++ h.rxBuffer.drop buf.length}.observe (.received p buf)
    let counted := taken.countReceived limiter p buf.length timeMs
    if counted.isOverLimit limiter p then (counted,some false)
    else (counted.observe (.doRead p sock (counted.rxBuffer.take buf.length) addr),none)
  | .error code => if code = ewouldblock then (h,some true) else (h.closeSocket sock,some false)

/-- The start of a `HandleReceive`: `none` for an object that is not valid. -/
def startReceive (p : Ptr) (now : UInt32) (h : Host) : Option (SOCKET × Host) :=
  if h.isValid (some p) then
    (h.heap p).map (fun object => (object.socketId,h.modify p (fun o => {o with activeTime := now.toNat})))
  else none

/-- The packet at the front of the queue of an object. -/
def frontPacket (p : Ptr) (h : Host) : Option MsgPacket := (h.heap p).bind SocketObject.frontOutPacket

/-- One `write` or `sendto` of the front packet with `Reduce`: `some rs` returns `rs`. -/
def sendIteration (p : Ptr) (addr : Option Sockaddr) (packet : MsgPacket) (rc : Except Errno Nat) (h : Host) :
    Host × Option Bool :=
  match rc with
  | .ok count => ((h.modify p (SocketObject.reduceFront count)).observe (.written p (packet.bytesFrom count) addr),none)
  | .error code => if code = ewouldblock ∨ code = eagain then (h,some false) else (h,some true)

end Host

/-! The members of each server. -/

namespace TcpServer

def kSocketRxBufferSize : Nat := 2048

def handleReceive (p : Ptr) (sock : SOCKET) (rc : Except Errno (List UInt8)) (timeMs : UInt64) : Host → Host × Option Bool :=
  Host.receiveIteration none none p sock rc timeMs

def handleSend (p : Ptr) (packet : MsgPacket) (rc : Except Errno Nat) : Host → Host × Option Bool :=
  Host.sendIteration p none packet rc

end TcpServer

namespace TcpClient

def kSocketRxBufferSize : Nat := 1024

def limiter : Limiter := some (fun rc timeMs => SocketObject.countReceivedBytes (UInt32.ofNat rc) timeMs)

def handleReceive (p : Ptr) (sock : SOCKET) (rc : Except Errno (List UInt8)) (timeMs : UInt64) : Host → Host × Option Bool :=
  Host.receiveIteration limiter none p sock rc timeMs

def handleSend (p : Ptr) (packet : MsgPacket) (rc : Except Errno Nat) : Host → Host × Option Bool :=
  Host.sendIteration p none packet rc

/-- `OnBeforeProcessIo`, given what `getsockopt(SO_ERROR)` answers. -/
def onBeforeProcessIo (p : Ptr) (soError : Except Errno Int) (now : UInt32) (h : Host) : Host × Bool :=
  match h.heap p with
  | none => (h,false)
  | some object =>
    if !object.fValid then (h,false)
    else if object.isConnected then (h,true)
    else match soError with
      | .error _ => (h.closeSocket object.socketId,false)
      | .ok optval =>
        if optval = 0 then
          ((h.modify p (SocketObject.setConnected now.toNat)).observe (.onConnect p object.socketId),true)
        else (h.closeSocket object.socketId,false)

def onTimer (expirations : UInt64) (now : UInt32) (h : Host) : Host :=
  let counted := {h with timerEventCount := h.timerEventCount + expirations}
  if 0 < h.heartbeatInterval ∧ h.heartbeatInterval < h.keepAliveTime ∧
      (h.keepAliveTime / h.heartbeatInterval).toUInt64 ≤ counted.timerEventCount then
    {counted with timerEventCount := 0}.disconnectSilenceConnections h.keepAliveTime.toUInt64 now
  else counted

end TcpClient

namespace UdpServer

def kSocketRxBufferSize : Nat := 2048

def limiter : Limiter := some (fun _ timeMs => SocketObject.countReceivedPacket 1 timeMs)

def handleReceive (p : Ptr) (sock : SOCKET) (addr : Sockaddr) (rc : Except Errno (List UInt8)) (timeMs : UInt64) :
    Host → Host × Option Bool :=
  Host.receiveIteration limiter (some addr) p sock rc timeMs

def handleSend (p : Ptr) (packet : MsgPacket) (rc : Except Errno Nat) : Host → Host × Option Bool :=
  Host.sendIteration p (some packet.saddr) packet rc

end UdpServer

namespace Host

/-- `OnTimer` of the server object: only the client does anything. -/
def onTimer (expirations : UInt64) (now : UInt32) (h : Host) : Host :=
  match h.kind with
  | .tcpClient => TcpClient.onTimer expirations now h
  | .tcpServer | .udpServer => h

/-- `OnReadyRead` on an object that passed the test of `HandleReceive`. -/
def handleReceive (p : Ptr) (sock : SOCKET) (addr : Sockaddr) (rc : Except Errno (List UInt8)) (timeMs : UInt64)
    (h : Host) : Host × Option Bool :=
  match h.kind with
  | .tcpServer => TcpServer.handleReceive p sock rc timeMs h
  | .tcpClient => TcpClient.handleReceive p sock rc timeMs h
  | .udpServer => UdpServer.handleReceive p sock addr rc timeMs h

def handleSend (p : Ptr) (packet : MsgPacket) (rc : Except Errno Nat) (h : Host) : Host × Option Bool :=
  match h.kind with
  | .tcpServer => TcpServer.handleSend p packet rc h
  | .tcpClient => TcpClient.handleSend p packet rc h
  | .udpServer => UdpServer.handleSend p packet rc h

/-- A write that took `count` bytes moves the front packet on, in every server. -/
theorem handleSend_ok (p : Ptr) (packet : MsgPacket) (count : Nat) (h : Host) : ∃ addr, h.handleSend p packet (.ok count) =
    ((h.modify p (SocketObject.reduceFront count)).observe (.written p (packet.bytesFrom count) addr),none) := by
  unfold handleSend
  cases h.kind with
  | tcpServer => exact ⟨none,rfl⟩
  | tcpClient => exact ⟨none,rfl⟩
  | udpServer => exact ⟨some packet.saddr,rfl⟩

/-- A write that fails leaves everything alone, in every server. -/
theorem handleSend_error (p : Ptr) (packet : MsgPacket) (code : Errno) (h : Host) :
    h.handleSend p packet (.error code) = (h,some (code ≠ ewouldblock && code ≠ eagain)) := by
  have iteration (addr : Option Sockaddr) :
      h.sendIteration p addr packet (.error code) = (h,some (code ≠ ewouldblock && code ≠ eagain)) := by
    by_cases full : code = ewouldblock ∨ code = eagain
    · rw [sendIteration,if_pos full]
      rcases full with rfl | rfl <;> rfl
    · rw [sendIteration,if_neg full]
      simp [not_or.mp full]
  cases kind : h.kind <;> simp only [handleSend,kind] <;> exact iteration _

/-- The size of the receive buffer the server object was built with. -/
def rxBufferSize (h : Host) : Nat :=
  match h.kind with
  | .tcpServer => TcpServer.kSocketRxBufferSize
  | .tcpClient => TcpClient.kSocketRxBufferSize
  | .udpServer => UdpServer.kSocketRxBufferSize

/-- `read` and `recvfrom` fill no more than the buffer. -/
def fitsBuffer (rc : Except Errno (List UInt8)) (h : Host) : Bool :=
  match rc with
  | .ok buf => buf.length ≤ h.rxBufferSize
  | .error _ => true

/-- `write` takes a part of the packet, `sendto` the whole datagram. -/
def fitsPacket (size : Int) (rc : Except Errno Nat) (h : Host) : Bool :=
  match rc with
  | .error _ => true
  | .ok count =>
    match h.kind with
    | .tcpServer | .tcpClient => 0 < count && (count : Int) ≤ size
    | .udpServer => 0 < count && (count : Int) = size

end Host

end LightServer
