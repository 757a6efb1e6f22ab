import LightServer.Machine

/-! The steps of the machine, one constructor for each way a step can go. Every
invariant of the machine is proved from these and never unfolds the step function. -/
namespace LightServer

/-! `ProcessIo` goes on to the read, to the write, or back to where it was called from. -/

theorem afterRead_rule {P : Worker → Prop} {p : Ptr} {ctx : Ctx} (write : P (.readyWrite p ctx)) (back : P (resume ctx))
    (rs : Bool) (events : UInt32) : P (afterRead rs p events ctx) := by
  unfold afterRead
  split
  · exact write
  · exact back

theorem doProcessIo_rule {P : Worker → Prop} {p : Ptr} {events : UInt32} {ctx : Ctx} (read : P (.readyRead p events ctx))
    (write : P (.readyWrite p ctx)) (back : P (resume ctx)) : P (doProcessIo p events ctx) := by
  unfold doProcessIo
  split
  · exact read
  · exact afterRead_rule write back true events

namespace Sys

/-- The steps of the worker. -/
inductive Move (h : Host) : Worker → Act → Host → Worker → Prop
  | interrupted (code) : Move h .epollPwait (.epollPwait (.error code)) h .exited
  | delivered (fds batch) (found : deliver h fds = some batch) (filled : batch.length ≤ h.maxEvents)
      (none_left : leavesNone h batch) :
      Move h .epollPwait (.epollPwait (.ok fds)) (clearReady batch h) (.batch ⟨true,batch⟩)
  | batchEnd (bRun) : Move h (.batch ⟨bRun,[]⟩) .worker h (if bRun then .epollPwait else .exited)
  | cmdEvent (bRun rest ev) (ptr : ev.ptr = .cmdEvtFd) (input : has ev.events epollin) :
      Move h (.batch ⟨bRun,ev::rest⟩) .worker h (.command commandBudget ⟨bRun,rest⟩)
  | skipped (bRun rest ev) (ptr : ev.ptr = .cmdEvtFd ∨ ev.ptr = .timerEvtFd) (none : has ev.events epollin = false) :
      Move h (.batch ⟨bRun,ev::rest⟩) .worker h (.batch ⟨bRun,rest⟩)
  | timerEvent (bRun rest ev) (ptr : ev.ptr = .timerEvtFd) (input : has ev.events epollin) :
      Move h (.batch ⟨bRun,ev::rest⟩) .worker h (.timer ⟨bRun,rest⟩)
  | exitEvent (bRun rest ev) (ptr : ev.ptr = .exitEvtFd) :
      Move h (.batch ⟨bRun,ev::rest⟩) .worker h (.batch ⟨false,rest⟩)
  | ioEvent (bRun rest ev) (ptr : ev.ptr = .listenSocket ∨ ∃ p, ev.ptr = .object p) :
      Move h (.batch ⟨bRun,ev::rest⟩) .worker h (.beforeIo ev.ptr ev.events (.batch ⟨bRun,rest⟩))
  | commandsDone (count b) (finished : h.cmdQueue = [] ∨ count = 0) : Move h (.command count b) .worker h (.batch b)
  | sendCommand (count b cmd queue p) (front : h.cmdQueue = cmd::queue) (left : count ≠ 0) (kind : cmd.cmd = .send)
      (found : h.findSocketObject cmd.fd = some p) :
      Move h (.command count b) .worker h (.beforeIo (.object p) epollout (.command count b))
  | ignored (count b cmd queue) (front : h.cmdQueue = cmd::queue) (left : count ≠ 0)
      (none : cmd.cmd = .disconnect → ∀ p, h.findSocketObject cmd.fd = some p → h.isValid (some p) = false) :
      Move h (.command count b) .worker h (.popCommand count b)
  | disconnected (count b cmd queue p object) (front : h.cmdQueue = cmd::queue) (left : count ≠ 0)
      (kind : cmd.cmd = .disconnect) (found : h.findSocketObject cmd.fd = some p) (live : h.heap p = some object)
      (valid : object.fValid = true) :
      Move h (.command count b) .worker
        ((h.modify p SocketObject.setInvalid).observe (.onDisconnect p object.socketId))
        (.remove .deleteFD p object.socketId count b)
  | popCommand (count b) : Move h (.popCommand count b) .worker h.popCmd (.command (count-1) b)
  | closeAccepted (sock ctx) : Move h (.closeAccepted sock ctx) .worker (h.closeFD sock) (resume ctx)
  | connected (p sock ctx) : Move h (.connected p sock ctx) .worker (h.observe (.onConnect p sock)) (resume ctx)
  | readyWrite (p ctx) (valid : h.isValid (some p)) : Move h (.readyWrite p ctx) .worker h (.sendLoop p ctx)
  | writeInvalid (p ctx) : Move h (.readyWrite p ctx) .worker h (resume ctx)
  | sendDone (p ctx) (empty : h.frontPacket p = none) : Move h (.sendLoop p ctx) .worker h (resume ctx)
  | sendPacket (p ctx packet) (front : h.frontPacket p = some packet) :
      Move h (.sendLoop p ctx) .worker h (.sendPacket p ctx)
  | packetSent (p ctx packet) (front : h.frontPacket p = some packet) (empty : packet.size = 0) :
      Move h (.sendPacket p ctx) .worker h (.popPacket p ctx)
  | popPacket (p ctx) : Move h (.popPacket p ctx) .worker (h.modify p SocketObject.popOutPacket) (.sendLoop p ctx)
  | removeFD (p sock count b) :
      Move h (.remove .deleteFD p sock count b) .worker (h.deleteFD sock) (.remove .close p sock count b)
  | removeClose (p sock count b) :
      Move h (.remove .close p sock count b) .worker (h.closeFD sock) (.remove .delete p sock count b)
  | removeDelete (p sock count b) :
      Move h (.remove .delete p sock count b) .worker (h.deleteObject p) (.remove .erase p sock count b)
  | removeErase (p sock count b) :
      Move h (.remove .erase p sock count b) .worker (h.eraseSocket sock) (.popCommand count b)
  | timerFailed (now b) : Move h (.timer b) (.timer none now) h (.batch b)
  | timer (exp now b) : Move h (.timer b) (.timer (some exp) now) (h.onTimer exp now) (.batch b)
  | listenError (events ctx soError now) (kind : h.kind = .tcpServer) (error : has events (epollerr ||| epollhup)) :
      Move h (.beforeIo .listenSocket events ctx) (.beforeIo soError now) h (resume ctx)
  | listen (events ctx soError now) (kind : h.kind = .tcpServer) (fine : has events (epollerr ||| epollhup) = false) :
      Move h (.beforeIo .listenSocket events ctx) (.beforeIo soError now) h (.accept ctx)
  | serverIo (p events ctx soError now) (kind : h.kind ≠ .tcpClient) :
      Move h (.beforeIo (.object p) events ctx) (.beforeIo soError now) h (doProcessIo p events ctx)
  | clientRefused (p events ctx soError now) (kind : h.kind = .tcpClient)
      (refused : (TcpClient.onBeforeProcessIo p soError now h).2 = false) :
      Move h (.beforeIo (.object p) events ctx) (.beforeIo soError now)
        (TcpClient.onBeforeProcessIo p soError now h).1 (resume ctx)
  | clientIo (p events ctx soError now) (kind : h.kind = .tcpClient)
      (passed : (TcpClient.onBeforeProcessIo p soError now h).2 = true) :
      Move h (.beforeIo (.object p) events ctx) (.beforeIo soError now)
        (TcpClient.onBeforeProcessIo p soError now h).1 (doProcessIo p events ctx)
  | acceptFailed (code ctx) : Move h (.accept ctx) (.accept (.error code)) h (resume ctx)
  | accepted (sock addr ctx conn rest) (listening : h.isOpen h.listenSocket = true) (waiting : h.backlog = conn::rest)
      (nonneg : 0 ≤ sock) (unused : h.isOpen sock = false) :
      Move h (.accept ctx) (.accept (.ok (sock,addr))) ({h with backlog := rest}.openFD sock) (.setNonBlocking sock addr ctx)
  | nonBlocking (sock addr ctx) :
      Move h (.setNonBlocking sock addr ctx) (.setNonBlocking true) h (.addTcpSocket sock addr ctx)
  | blocking (sock addr ctx) : Move h (.setNonBlocking sock addr ctx) (.setNonBlocking false) h (resume ctx)
  | added (sock addr ctx raw now refused) (ok : ¬ (h.addTcpSocket sock addr raw now refused).1 < 0) :
      Move h (.addTcpSocket sock addr ctx) (.addTcpSocket raw now refused)
        (h.addTcpSocket sock addr raw now refused).2.2
        (.connected (h.addTcpSocket sock addr raw now refused).2.1 sock ctx)
  | notAdded (sock addr ctx raw now refused) (failed : (h.addTcpSocket sock addr raw now refused).1 < 0) :
      Move h (.addTcpSocket sock addr ctx) (.addTcpSocket raw now refused)
        (h.addTcpSocket sock addr raw now refused).2.2 (.closeAccepted sock ctx)
  | readInvalid (p events ctx now) (none : h.startReceive p now = none) :
      Move h (.readyRead p events ctx) (.readyRead now) h (resume ctx)
  | readStarted (p events ctx now sock next) (started : h.startReceive p now = some (sock,next)) :
      Move h (.readyRead p events ctx) (.readyRead now) next (.read p sock events ctx)
  | readOn (p sock events ctx rc addr timeMs) (fits : h.fitsBuffer rc)
      (again : (h.handleReceive p sock addr rc timeMs).2 = none) :
      Move h (.read p sock events ctx) (.read rc addr timeMs) (h.handleReceive p sock addr rc timeMs).1
        (.read p sock events ctx)
  | readDone (p sock events ctx rc addr timeMs rs) (fits : h.fitsBuffer rc)
      (done : (h.handleReceive p sock addr rc timeMs).2 = some rs) :
      Move h (.read p sock events ctx) (.read rc addr timeMs) (h.handleReceive p sock addr rc timeMs).1
        (afterRead rs p events ctx)
  | written (p ctx packet count) (front : h.frontPacket p = some packet) (left : packet.size ≠ 0)
      (fits : h.fitsPacket packet.size (.ok count)) :
      Move h (.sendPacket p ctx) (.write (.ok count)) (h.handleSend p packet (.ok count)).1 (.sendPacket p ctx)
  | writeFailed (p ctx code) : Move h (.sendPacket p ctx) (.write (.error code)) h (resume ctx)

/-- The steps of a thread inside a public function. -/
inductive CallStep (h : Host) (worker : Worker) : Caller → Reply → Host → Caller → Prop
  | push (cmd fd next) (started : h.hasStart) :
      CallStep h worker (.trigger cmd fd next) .done (h.pushCmd cmd fd) (.evtWrite next)
  | notStarted (cmd fd next) (stopped : h.hasStart = false) : CallStep h worker (.trigger cmd fd next) .done h next
  | evtWrite (next) : CallStep h worker (.evtWrite next) .done h.writeCmdEvt next
  | closedAll (last) : CallStep h worker (.closeAll last) .done h (.stop .signal)
  | closeOne (last sock p object) (found : h.findSocketObject sock = some p) (live : h.heap p = some object)
      (valid : object.fValid) :
      CallStep h worker (.closeAll last) .done h (.trigger .disconnect object.socketId (.closeAll (some sock)))
  | closeNone (last sock) : CallStep h worker (.closeAll last) .done h (.closeAll (some sock))
  | noSocket (op addr code) : CallStep h worker (.socket op addr) (.failed code) h .idle
  | socket (op addr sock) (nonneg : 0 ≤ sock) (unused : h.isOpen sock = false) :
      CallStep h worker (.socket op addr) (.fd sock) (h.openFD sock) (.connect op addr sock)
  | connected (op addr sock raw now from_addr) :
      CallStep h worker (.connect op addr sock) (.object raw now) (h.prepareObject raw from_addr (some now)).2
        (.count sock (h.prepareObject raw from_addr (some now)).1 true)
  | inProgress (addr sock raw) :
      CallStep h worker (.connect .asynchConnectTo addr sock) (.inProgress raw) (h.prepareObject raw (some addr) none).2
        (.count sock (h.prepareObject raw (some addr) none).1 false)
  | leaked (addr sock code) : CallStep h worker (.connect .asynchConnectTo addr sock) (.failed code) h .idle
  | refused (op addr sock code) : CallStep h worker (.connect op addr sock) (.failed code) h (.closeSock sock)
  | present (sock p notify) (found : sock ∈ h.sockObjectMap) :
      CallStep h worker (.count sock p notify) .done h (afterAdd notify sock p)
  | absent (sock p notify) (missing : sock ∉ h.sockObjectMap) :
      CallStep h worker (.count sock p notify) .done h (.insert sock p notify)
  | insert (sock p notify) :
      CallStep h worker (.insert sock p notify) .done (h.insertSocketObject sock p) (.addFD sock p notify)
  | addFD (sock p notify reply refused) :
      CallStep h worker (.addFD sock p notify) reply (h.addFD sock (.object p) refused).2 (afterAdd notify sock p)
  | onConnect (sock p) : CallStep h worker (.onConnect sock p) .done (h.observe (.onConnect p sock)) .idle
  | closeSock (sock) : CallStep h worker (.closeSock sock) .done (h.closeFD sock) .idle
  | closeListenSocket :
      CallStep h worker (.stop .closeListenSocket) .done (h.closeFD h.listenSocket) (.closeAll none)
  | signal : CallStep h worker (.stop .signal) .done h.writeExitEvt (.stop .join)
  | join (exited : worker = .exited) : CallStep h worker (.stop .join) .done h (.stop .clear)
  | clear : CallStep h worker (.stop .clear) .done {h with cmdQueue := []} (.stop .release)
  | release : CallStep h worker (.stop .release) .done h.releaseSocketObjects (.stop .closeFds)
  | closeFds : CallStep h worker (.stop .closeFds) .done (h.closeManagerFds.observe (.stopped true)) .idle

/-- The message an action asks to send. -/
def message : Act → Option (Nat × SOCKET × Option Sockaddr × MsgPacket × List UInt8)
  | .send t sock raw buf => some (t,sock,none,raw,buf)
  | .udpSend t sock addr raw buf => some (t,sock,some addr,raw,buf)
  | _ => none

inductive Taken (s : Sys) : Act → Sys → Prop
  | arrive (conn) (kind : s.host.kind = .tcpServer) (listening : s.host.isOpen s.host.listenSocket = true) :
      Taken s (.arrive conn) {s with host := arrive conn s.host}
  | startAccept (refused) (kind : s.host.kind = .tcpServer) :
      Taken s (.startAccept refused) {s with host := startAccept refused s.host}
  | sendRefused (act) (sends : (message act).isSome) : Taken s act s
  | sent (act t sock addr raw buf p object) (sends : message act = some (t,sock,addr,raw,buf))
      (kind : addr.isSome ↔ s.host.kind = .udpServer) (idle : s.callers[t]? = some .idle)
        (found : s.host.findSocketObject sock = some p)
      (live : s.host.heap p = some object) (valid : object.fValid = true)
      (room : object.outPacketsQueue.length < SocketObject.kMaxNumOfPackets) :
      Taken s act ({s with host := (s.host.modify p (fun _ => (object.push raw buf addr).2)).observe (.queued p buf addr)}.setCaller t
        (.trigger .send sock .idle))
  | disconnect (t sock) (idle : s.callers[t]? = some .idle) :
      Taken s (.disconnect t sock) (s.setCaller t (.trigger .disconnect sock .idle))
  | limitIgnored (sock num) : Taken s (.setReceiveLimit sock num) s
  | limitSet (sock num p change) (kind : s.host.kind ≠ .tcpServer) (found : s.host.findSocketObject sock = some p)
      (which : change = SocketObject.setReceivePacketLimit num ∨ change = SocketObject.setReceiveBytesLimit num) :
      Taken s (.setReceiveLimit sock num) {s with host := s.host.modify p change}
  | connect (t op addr) (idle : s.callers[t]? = some .idle) (offered : offers s.host.kind op) :
      Taken s (.connect t op addr) (s.setCaller t (.socket op addr))
  | stop (t) (idle : s.callers[t]? = some .idle) (outside : t ≠ 0) (first : s.stopCalled = false) :
      Taken s (.stop t) ({s with stopCalled := true}.setCaller t (firstStopStage s.host.kind))
  | caller (t c reply host next) (found : s.callers[t]? = some c) (may : s.mayAct t)
      (call : CallStep s.host s.worker c reply host next) :
      Taken s (.caller t reply) ({s with host := host}.setCaller t next)
  | worker (act host next) (idle : s.listenerIdle) (move : Move s.host s.worker act host next) :
      Taken s act (s.moveTo host next)

theorem epollPwait_move {s next : Sys} {rs : Except Errno (List (FD × UInt32))} (at_wait : s.worker = .epollPwait)
    (taken : s.epollPwait rs = some next) :
    ∃ host worker, Move s.host s.worker (.epollPwait rs) host worker ∧ next = s.moveTo host worker := by
  rw [at_wait]
  cases rs with
  | error code => exact ⟨_,_,.interrupted code,(Option.some.inj taken).symm⟩
  | ok fds =>
    obtain ⟨batch,found,taken⟩ := Option.bind_eq_some_iff.mp taken
    split at taken
    · rename_i guard
      exact ⟨_,_,.delivered fds batch found guard.2.1 guard.2.2.2,(Option.some.inj taken).symm⟩
    · contradiction

theorem dispatch_move (s : Sys) (b : Batch) :
    ∃ host worker, Move s.host (.batch b) .worker host worker ∧ s.dispatch b = s.moveTo host worker := by
  obtain ⟨bRun,rest⟩ := b
  cases rest with
  | nil => exact ⟨_,_,.batchEnd bRun,rfl⟩
  | cons ev rest =>
    simp only [dispatch]
    split
    · rename_i ptr
      by_cases input : has ev.events epollin
      · exact ⟨_,_,.cmdEvent bRun rest ev ptr input,by rw [if_pos input]⟩
      · exact ⟨_,_,.skipped bRun rest ev (.inl ptr) (by simpa using input),by rw [if_neg input]⟩
    · rename_i ptr
      by_cases input : has ev.events epollin
      · exact ⟨_,_,.timerEvent bRun rest ev ptr input,by rw [if_pos input]⟩
      · exact ⟨_,_,.skipped bRun rest ev (.inr ptr) (by simpa using input),by rw [if_neg input]⟩
    · rename_i ptr
      exact ⟨_,_,.exitEvent bRun rest ev ptr,rfl⟩
    · refine ⟨_,_,.ioEvent bRun rest ev ?_,rfl⟩
      cases ptr : ev.ptr <;> simp_all

theorem processCommand_move (s : Sys) (count : Nat) (b : Batch) :
    ∃ host worker, Move s.host (.command count b) .worker host worker ∧ s.processCommand count b = s.moveTo host worker := by
  cases front : s.host.cmdQueue with
  | nil => exact ⟨_,_,.commandsDone count b (.inl front),by simp [processCommand,front]⟩
  | cons cmd queue =>
    by_cases spent : count = 0
    · exact ⟨_,_,.commandsDone count b (.inr spent),by simp [processCommand,front,spent]⟩
    · simp only [processCommand,front,if_neg spent]
      split
      · rename_i p kind found
        exact ⟨_,_,.sendCommand count b cmd queue p front spent kind found,rfl⟩
      · rename_i p kind found
        cases live : s.host.heap p with
        | none =>
          refine ⟨_,_,.ignored count b cmd queue front spent ?_,by simp [startRemove,live]⟩
          intro _ other same
          have equal : p = other := Option.some.inj (found.symm.trans same)
          simp [Host.isValid,← equal,live]
        | some object =>
          by_cases valid : object.fValid = true
          · exact ⟨_,_,.disconnected count b cmd queue p object front spent kind found live valid,
              by simp [startRemove,live,valid]⟩
          · refine ⟨_,_,.ignored count b cmd queue front spent ?_,by simp [startRemove,live,valid]⟩
            intro _ other same
            have equal : p = other := Option.some.inj (found.symm.trans same)
            simpa [Host.isValid,← equal,live] using valid
      · rename_i notSend notFound
        exact ⟨_,_,.ignored count b cmd queue front spent (fun kind p found => absurd found (notFound p kind)),rfl⟩

theorem beforeIo_move {s next : Sys} {pv : PVOID} {events : UInt32} {ctx : Ctx} {soError : Except Errno Int} {now : UInt32}
    (taken : s.beforeIo pv events ctx soError now = some next) :
    ∃ host worker, Move s.host (.beforeIo pv events ctx) (.beforeIo soError now) host worker ∧
      next = s.moveTo host worker := by
  simp only [beforeIo] at taken
  split at taken
  · rename_i kind
    by_cases error : has events (epollerr ||| epollhup)
    · exact ⟨_,_,.listenError events ctx soError now kind error,by rw [← Option.some.inj taken,if_pos error]⟩
    · exact ⟨_,_,.listen events ctx soError now kind (by simpa using error),by rw [← Option.some.inj taken,if_neg error]⟩
  · rename_i p kind
    exact ⟨_,_,.serverIo p events ctx soError now (by simp [kind]),(Option.some.inj taken).symm⟩
  · rename_i p kind
    exact ⟨_,_,.serverIo p events ctx soError now (by simp [kind]),(Option.some.inj taken).symm⟩
  · rename_i p kind
    cases passed : (TcpClient.onBeforeProcessIo p soError now s.host).2 with
    | false => exact ⟨_,_,.clientRefused p events ctx soError now kind passed,by simpa [passed] using taken.symm⟩
    | true => exact ⟨_,_,.clientIo p events ctx soError now kind passed,by simpa [passed] using taken.symm⟩
  · contradiction

theorem accept_move {s next : Sys} {ctx : Ctx} {rc : Except Errno (FD × Sockaddr)} (taken : s.accept ctx rc = some next) :
    ∃ host worker, Move s.host (.accept ctx) (.accept rc) host worker ∧ next = s.moveTo host worker := by
  cases rc with
  | error code => exact ⟨_,_,.acceptFailed code ctx,(Option.some.inj taken).symm⟩
  | ok pair =>
    obtain ⟨sock,addr⟩ := pair
    simp only [accept] at taken
    split at taken
    · rename_i guard
      obtain ⟨listening,waiting,nonneg,unused⟩ := guard
      obtain ⟨conn,rest,backlog⟩ := List.exists_cons_of_ne_nil waiting
      exact ⟨_,_,.accepted sock addr ctx conn rest listening backlog nonneg unused,
        by rw [← Option.some.inj taken,backlog]; rfl⟩
    · contradiction

theorem write_move {s next : Sys} {p : Ptr} {ctx : Ctx} {rc : Except Errno Nat} (taken : s.write p ctx rc = some next) :
    ∃ host worker, Move s.host (.sendPacket p ctx) (.write rc) host worker ∧ next = s.moveTo host worker := by
  obtain ⟨packet,front,taken⟩ := Option.bind_eq_some_iff.mp taken
  split at taken
  · rename_i guard
    have same := (Option.some.inj taken).symm
    cases rc with
    | ok count =>
      refine ⟨_,_,.written p ctx packet count front guard.1 guard.2,same.trans ?_⟩
      obtain ⟨addr,sent⟩ := s.host.handleSend_ok p packet count
      rw [sent]
      rfl
    | error code =>
      refine ⟨_,_,.writeFailed p ctx code,same.trans ?_⟩
      rw [Host.handleSend_error]
      rfl
  · contradiction

theorem workerStep_move {s next : Sys} (taken : s.workerStep = some next) :
    ∃ host worker, Move s.host s.worker .worker host worker ∧ next = s.moveTo host worker := by
  unfold workerStep at taken
  cases pc : s.worker <;> simp only [pc,Option.some.injEq,reduceCtorEq] at taken
  case batch b =>
    obtain ⟨host,worker,move,same⟩ := s.dispatch_move b
    exact ⟨host,worker,move,taken.symm.trans same⟩
  case command count b =>
    obtain ⟨host,worker,move,same⟩ := s.processCommand_move count b
    exact ⟨host,worker,move,taken.symm.trans same⟩
  case popCommand count b => exact ⟨_,_,.popCommand count b,taken.symm⟩
  case closeAccepted sock ctx => exact ⟨_,_,.closeAccepted sock ctx,taken.symm⟩
  case connected p sock ctx => exact ⟨_,_,.connected p sock ctx,taken.symm⟩
  case readyWrite p ctx =>
    by_cases valid : s.host.isValid (some p) = true
    · exact ⟨_,_,.readyWrite p ctx valid,by rw [← taken,if_pos valid]⟩
    · exact ⟨_,_,.writeInvalid p ctx,by rw [← taken,if_neg valid]⟩
  case sendLoop p ctx =>
    cases front : s.host.frontPacket p with
    | none => exact ⟨_,_,.sendDone p ctx front,by simpa [front] using taken.symm⟩
    | some packet => exact ⟨_,_,.sendPacket p ctx packet front,by simpa [front] using taken.symm⟩
  case sendPacket p ctx =>
    obtain ⟨packet,front,taken⟩ := Option.bind_eq_some_iff.mp taken
    split at taken
    · rename_i empty
      exact ⟨_,_,.packetSent p ctx packet front empty,(Option.some.inj taken).symm⟩
    · contradiction
  case popPacket p ctx => exact ⟨_,_,.popPacket p ctx,taken.symm⟩
  case remove stage p sock count b =>
    cases stage with
    | deleteFD => exact ⟨_,_,.removeFD p sock count b,taken.symm⟩
    | close => exact ⟨_,_,.removeClose p sock count b,taken.symm⟩
    | delete => exact ⟨_,_,.removeDelete p sock count b,taken.symm⟩
    | erase => exact ⟨_,_,.removeErase p sock count b,taken.symm⟩

theorem workerAct_move {s next : Sys} {act : Act} (taken : s.workerAct act = some next) :
    ∃ host worker, Move s.host s.worker act host worker ∧ next = s.moveTo host worker := by
  unfold workerAct at taken
  split at taken
  · rename_i rs pc
    exact epollPwait_move pc taken
  · exact workerStep_move taken
  · rename_i expirations now b pc
    rw [pc]
    cases expirations with
    | none => exact ⟨_,_,.timerFailed now b,(Option.some.inj taken).symm⟩
    | some exp => exact ⟨_,_,.timer exp now b,(Option.some.inj taken).symm⟩
  · rename_i pc
    exact pc ▸ beforeIo_move taken
  · rename_i pc
    exact pc ▸ accept_move taken
  · rename_i ok sock addr ctx pc
    rw [pc]
    cases ok with
    | false => exact ⟨_,_,.blocking sock addr ctx,(Option.some.inj taken).symm⟩
    | true => exact ⟨_,_,.nonBlocking sock addr ctx,(Option.some.inj taken).symm⟩
  · rename_i raw now refused sock addr ctx pc
    rw [pc]
    by_cases failed : (s.host.addTcpSocket sock addr raw now refused).1 < 0
    · exact ⟨_,_,.notAdded sock addr ctx raw now refused failed,by rw [← Option.some.inj taken,addTcpSocket,if_pos failed]⟩
    · exact ⟨_,_,.added sock addr ctx raw now refused failed,by rw [← Option.some.inj taken,addTcpSocket,if_neg failed]⟩
  · rename_i now p events ctx pc
    rw [pc]
    simp only [readyRead,Option.some.injEq] at taken
    split at taken
    · rename_i none
      exact ⟨_,_,.readInvalid p events ctx now none,taken.symm⟩
    · rename_i sock host started
      exact ⟨_,_,.readStarted p events ctx now sock host started,taken.symm⟩
  · rename_i rc addr timeMs p sock events ctx pc
    rw [pc]
    split at taken
    · rename_i fits
      have same := Option.some.inj taken
      cases done : (s.host.handleReceive p sock addr rc timeMs).2 with
      | none => exact ⟨_,_,.readOn p sock events ctx rc addr timeMs fits done,by rw [← same,read,done]; rfl⟩
      | some rs => exact ⟨_,_,.readDone p sock events ctx rc addr timeMs rs fits done,by rw [← same,read,done]; rfl⟩
    · contradiction
  · rename_i pc
    exact pc ▸ write_move taken
  · contradiction

theorem connectStep_call {s next : Sys} {t : Nat} {op : ConnectOp} {addr : Sockaddr} {sock : SOCKET} {reply : Reply}
    (taken : s.connectStep t op addr sock reply = some next) :
    ∃ host caller, CallStep s.host s.worker (.connect op addr sock) reply host caller ∧
      next = {s with host := host}.setCaller t caller := by
  unfold connectStep at taken
  split at taken
  · exact ⟨_,_,.connected _ addr sock _ _ _,(Option.some.inj taken).symm⟩
  · exact ⟨_,_,.connected _ addr sock _ _ _,(Option.some.inj taken).symm⟩
  · exact ⟨_,_,.connected _ addr sock _ _ _,(Option.some.inj taken).symm⟩
  · exact ⟨_,_,.inProgress addr sock _,(Option.some.inj taken).symm⟩
  · split at taken
    · contradiction
    · exact ⟨_,_,.leaked addr sock _,(Option.some.inj taken).symm⟩
  · exact ⟨_,_,.refused _ addr sock _,(Option.some.inj taken).symm⟩
  · exact ⟨_,_,.refused _ addr sock _,(Option.some.inj taken).symm⟩
  · contradiction

theorem stopStep_call {s next : Sys} {t : Nat} {stage : StopStage} (taken : s.stopStep t stage = some next) :
    ∃ host caller, CallStep s.host s.worker (.stop stage) .done host caller ∧
      next = {s with host := host}.setCaller t caller := by
  cases stage with
  | closeListenSocket => exact ⟨_,_,.closeListenSocket,(Option.some.inj taken).symm⟩
  | signal => exact ⟨_,_,.signal,(Option.some.inj taken).symm⟩
  | join =>
    simp only [stopStep] at taken
    split at taken
    · rename_i exited
      exact ⟨_,_,.join exited,(Option.some.inj taken).symm⟩
    · contradiction
  | clear => exact ⟨_,_,.clear,(Option.some.inj taken).symm⟩
  | release => exact ⟨_,_,.release,(Option.some.inj taken).symm⟩
  | closeFds => exact ⟨_,_,.closeFds,(Option.some.inj taken).symm⟩

theorem callerStep_call {s next : Sys} {t : Nat} {caller : Caller} {reply : Reply}
    (taken : s.callerStep t caller reply = some next) :
    ∃ host later, CallStep s.host s.worker caller reply host later ∧ next = {s with host := host}.setCaller t later := by
  unfold callerStep at taken
  split at taken
  · rename_i cmd fd later
    by_cases started : s.host.hasStart = true
    · exact ⟨_,_,.push cmd fd later started,by simpa [started] using taken.symm⟩
    · exact ⟨_,_,.notStarted cmd fd later (by simpa using started),by simpa [started] using taken.symm⟩
  · exact ⟨_,_,.evtWrite _,(Option.some.inj taken).symm⟩
  · rename_i last
    split at taken
    · exact ⟨_,_,.closedAll last,(Option.some.inj taken).symm⟩
    · rename_i sock after
      split at taken
      · rename_i object present
        obtain ⟨p,found,live⟩ := Option.bind_eq_some_iff.mp present
        by_cases valid : object.fValid = true
        · exact ⟨_,_,.closeOne last sock p object found live valid,by simpa [valid] using taken.symm⟩
        · exact ⟨_,_,.closeNone last sock,by simpa [valid] using taken.symm⟩
      · exact ⟨_,_,.closeNone last sock,(Option.some.inj taken).symm⟩
  · exact ⟨_,_,.noSocket _ _ _,(Option.some.inj taken).symm⟩
  · split at taken
    · rename_i guard
      exact ⟨_,_,.socket _ _ _ guard.1 guard.2,(Option.some.inj taken).symm⟩
    · contradiction
  · exact connectStep_call taken
  · rename_i sock p notify
    by_cases found : sock ∈ s.host.sockObjectMap
    · exact ⟨_,_,.present sock p notify found,by simpa [found] using taken.symm⟩
    · exact ⟨_,_,.absent sock p notify found,by simpa [found] using taken.symm⟩
  · exact ⟨_,_,.insert _ _ _,(Option.some.inj taken).symm⟩
  · exact ⟨_,_,.addFD _ _ _ _ false,(Option.some.inj taken).symm⟩
  · exact ⟨_,_,.addFD _ _ _ _ true,(Option.some.inj taken).symm⟩
  · exact ⟨_,_,.onConnect _ _,(Option.some.inj taken).symm⟩
  · exact ⟨_,_,.closeSock _,(Option.some.inj taken).symm⟩
  · exact stopStep_call taken
  · contradiction

theorem startSend_taken {s next : Sys} {act : Act} {t : Nat} {sock : SOCKET} {addr : Option Sockaddr} {raw : MsgPacket}
    {buf : List UInt8} (sends : message act = some (t,sock,addr,raw,buf)) (kind : addr.isSome ↔ s.host.kind = .udpServer)
    (taken : s.startSend t sock addr raw buf = some next) : Taken s act next := by
  have refused : Taken s act s := .sendRefused act (by simp [sends])
  unfold startSend at taken
  split at taken
  · rename_i idle
    simp only [isIdle,Bool.and_eq_true,decide_eq_true_eq] at idle
    dsimp only at taken
    unfold Host.storeMessage at taken
    split at taken
    · simpa using (Option.some.inj taken) ▸ refused
    · rename_i p found
      split at taken
      · simpa using (Option.some.inj taken) ▸ refused
      · rename_i object live
        split at taken
        · rename_i valid
          by_cases room : object.outPacketsQueue.length < SocketObject.kMaxNumOfPackets
          · have stored : (object.push raw buf addr).1 = 0 := by
              simp [SocketObject.push,Nat.not_le.mpr room]
            simp only [stored,socketError,if_neg (by decide : ¬ (0 : Int) = -1),Option.some.injEq] at taken
            exact taken ▸ .sent act t sock addr raw buf p object sends kind idle.1 found live valid room
          · have full : (object.push raw buf addr).1 = socketError := by
              simp [SocketObject.push,Nat.not_lt.mp room]
            simp only [full,if_true,Option.some.injEq] at taken
            exact taken ▸ refused
        · simpa using (Option.some.inj taken) ▸ refused
  · contradiction

theorem setReceiveLimit_taken {s next : Sys} {sock : SOCKET} {num : UInt32}
    (taken : s.setReceiveLimit sock num = some next) : Taken s (.setReceiveLimit sock num) next := by
  unfold setReceiveLimit at taken
  split at taken
  · contradiction
  · exact (Option.some.inj taken) ▸ .limitIgnored sock num
  · rename_i p found notServer
    split at taken
    · have same := Option.some.inj taken
      rw [← same]
      refine .limitSet sock num p _ notServer found ?_
      split
      · exact .inl rfl
      · exact .inr rfl
    · exact (Option.some.inj taken) ▸ .limitIgnored sock num

/-- Every step of the machine is one of the listed ones. -/
theorem step_taken {s next : Sys} {act : Act} (taken : s.step act = some next) : Taken s act next := by
  have worker (act : Act) (taken : (if s.listenerIdle then s.workerAct act else none) = some next) : Taken s act next := by
    split at taken
    · rename_i idle
      obtain ⟨host,worker,move,same⟩ := workerAct_move taken
      exact same ▸ .worker act host worker idle move
    · contradiction
  cases act with
  | arrive conn =>
    simp only [step] at taken
    split at taken
    · rename_i guard
      exact (Option.some.inj taken) ▸ .arrive conn guard.1 guard.2
    · contradiction
  | startAccept refused =>
    simp only [step] at taken
    split at taken
    · rename_i kind
      exact (Option.some.inj taken) ▸ .startAccept refused kind
    · contradiction
  | send t sock raw buf =>
    simp only [step] at taken
    split at taken
    · contradiction
    · rename_i kind
      exact startSend_taken rfl (by simpa using kind) taken
  | udpSend t sock addr raw buf =>
    simp only [step] at taken
    split at taken
    · rename_i kind
      exact startSend_taken rfl (by simpa using kind) taken
    · contradiction
  | disconnect t sock =>
    simp only [step,isIdle,Bool.and_eq_true,decide_eq_true_eq] at taken
    split at taken
    · rename_i idle
      exact (Option.some.inj taken) ▸ .disconnect t sock idle.1
    · contradiction
  | setReceiveLimit sock num => exact setReceiveLimit_taken taken
  | connect t op addr =>
    simp only [step,isIdle,Bool.and_eq_true,decide_eq_true_eq] at taken
    split at taken
    · rename_i guard
      exact (Option.some.inj taken) ▸ .connect t op addr guard.1.1 guard.2
    · contradiction
  | stop t =>
    simp only [step,isIdle,Bool.and_eq_true,decide_eq_true_eq] at taken
    split at taken
    · rename_i guard
      exact (Option.some.inj taken) ▸ .stop t guard.1.1 guard.2.1 guard.2.2
    · contradiction
  | caller t reply =>
    obtain ⟨caller,found,taken⟩ := Option.bind_eq_some_iff.mp taken
    split at taken
    · rename_i may
      obtain ⟨host,later,call,same⟩ := callerStep_call taken
      exact same ▸ .caller t caller reply host later found may call
    · contradiction
  | epollPwait rs => exact worker _ taken
  | worker => exact worker _ taken
  | timer expirations now => exact worker _ taken
  | beforeIo soError now => exact worker _ taken
  | accept rc => exact worker _ taken
  | setNonBlocking ok => exact worker _ taken
  | addTcpSocket raw now refused => exact worker _ taken
  | readyRead now => exact worker _ taken
  | read rc addr timeMs => exact worker _ taken
  | write rc => exact worker _ taken

end Sys

end LightServer
