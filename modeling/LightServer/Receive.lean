import LightServer.Base.Call
import LightServer.TableInvariant

/-! What a `HandleReceive` does with the bytes it reads. A call lasts from the test of the
object to the step that returns, and the other threads act while it goes on. -/
namespace LightServer

namespace Obs

/-- The bytes taken from a socket and the blocks handed to `DoRead`. -/
def reading : Obs → Option Obs
  | .received p buf => some (.received p buf)
  | .doRead p sock buf from_addr => some (.doRead p sock buf from_addr)
  | _ => none

def receivedFrom (p : Ptr) : Obs → Option (List UInt8)
  | .received q buf => if q = p then some buf else none
  | _ => none

def handedFor (p : Ptr) : Obs → Option (List UInt8)
  | .doRead q _ buf _ => if q = p then some buf else none
  | _ => none

def handed : Obs → Option (Ptr × SOCKET × List UInt8 × Option Sockaddr)
  | .doRead p sock buf from_addr => some (p,sock,buf,from_addr)
  | _ => none

end Obs

namespace Host

def readLog (h : Host) : List Obs := h.log.filterMap Obs.reading

/-- The bytes read from the socket of an object. -/
def received (p : Ptr) (h : Host) : List UInt8 := (h.readLog.filterMap (Obs.receivedFrom p)).flatten

/-- The bytes of an object that were passed to `DoRead`. -/
def delivered (p : Ptr) (h : Host) : List UInt8 := (h.readLog.filterMap (Obs.handedFor p)).flatten

/-- The calls of `DoRead`. -/
def handed (h : Host) : List (Ptr × SOCKET × List UInt8 × Option Sockaddr) := h.readLog.filterMap Obs.handed

section readLog

variable (h : Host)

@[simp] theorem readLog_observe (obs : Obs) : (h.observe obs).readLog = h.readLog ++ obs.reading.toList := by
  cases seen : obs.reading <;> simp [readLog,observe,seen]

@[simp] theorem readLog_modify (p : Ptr) (change : SocketObject → SocketObject) : (h.modify p change).readLog = h.readLog := rfl

@[simp] theorem readLog_deleteFD (fd : FD) : (h.deleteFD fd).readLog = h.readLog := rfl

@[simp] theorem readLog_eraseSocket (sock : SOCKET) : (h.eraseSocket sock).readLog = h.readLog := rfl

@[simp] theorem readLog_deleteObject (p : Ptr) : (h.deleteObject p).readLog = h.readLog := by
  simp [readLog,deleteObject,Obs.reading]

@[simp] theorem readLog_closeFD (fd : FD) : (h.closeFD fd).readLog = h.readLog := by
  unfold closeFD
  split
  · simp [readLog,Obs.reading]
  · rfl

@[simp] theorem readLog_addFD (fd : FD) (pv : PVOID) (refused : Bool) : (h.addFD fd pv refused).2.readLog = h.readLog := by
  unfold addFD
  split <;> rfl

@[simp] theorem readLog_startAccept (refused : Bool) : (Sys.startAccept refused h).readLog = h.readLog := by
  unfold Sys.startAccept
  dsimp only
  split
  · exact h.readLog_addFD h.listenSocket .listenSocket refused
  · rfl

@[simp] theorem readLog_writeCmdEvt : h.writeCmdEvt.readLog = h.readLog := by
  unfold writeCmdEvt
  split <;> rfl

@[simp] theorem readLog_prepareObject (raw : SocketObject) (addr : Option Sockaddr) (connected : Option UInt32) :
    (h.prepareObject raw addr connected).2.readLog = h.readLog := by
  cases addr <;> cases connected <;> rfl

@[simp] theorem readLog_addTcpSocket (sock : SOCKET) (addr : Sockaddr) (raw : SocketObject) (now : UInt32) (refused : Bool) :
    (h.addTcpSocket sock addr raw now refused).2.2.readLog = h.readLog :=
  h.addTcpSocket_rule (P := fun host => host.readLog = h.readLog) sock addr raw now refused rfl (by simp) (fun _ _ kept => kept)
    (fun _ _ kept => by simpa using kept)

@[simp] theorem readLog_releaseSocketObjects : h.releaseSocketObjects.readLog = h.readLog := by
  obtain ⟨host,kept,same⟩ := h.releaseSocketObjects_rule (P := fun host => host.readLog = h.readLog) rfl (fun _ _ _ => by simp)
  exact (congrArg readLog same).trans kept

@[simp] theorem readLog_closeManagerFds : h.closeManagerFds.readLog = h.readLog :=
  h.closeManagerFds_rule (P := fun host => host.readLog = h.readLog) rfl (fun _ _ kept => kept)
    (fun _ _ kept => by simpa using kept) (fun _ kept => kept)

end readLog

@[simp] theorem readLog_closeSocket (sock : SOCKET) (h : Host) : (h.closeSocket sock).readLog = h.readLog := by
  have quiet : h.Quiet SocketObject.core Obs.reading (h.closeSocket sock) := .triggerCmdEvent .disconnect sock
  exact quiet.log

theorem readLog_before (p : Ptr) (soError : Except Errno Int) (now : UInt32) (h : Host) :
    (TcpClient.onBeforeProcessIo p soError now h).1.readLog = h.readLog := by
  have result : (_ ∧ Quiet SocketObject.core Obs.reading h _) ∨ _ := onBeforeProcessIo_quiet p soError now h
  rcases result with ⟨_,quiet⟩ | ⟨object,_,_,⟨_,same⟩ | ⟨_,same⟩⟩
  · exact quiet.log
  · rw [same]
  · simp [same,Obs.reading]

/-! One iteration of a `HandleReceive`. -/

/-- The counters of the server the object belongs to. -/
def limiter (h : Host) : Limiter :=
  match h.kind with
  | .tcpServer => none
  | .tcpClient => TcpClient.limiter
  | .udpServer => UdpServer.limiter

/-- What `DoRead` is told about the sender. -/
def sender (addr : Sockaddr) (h : Host) : Option Sockaddr :=
  match h.kind with
  | .tcpServer | .tcpClient => none
  | .udpServer => some addr

/-- `IsReceiveOverflow` after a block of `rc` bytes has been counted. -/
def overflows (p : Ptr) (rc : Nat) (timeMs : UInt64) (h : Host) : Bool :=
  (h.countReceived h.limiter p rc timeMs).isOverLimit h.limiter p

theorem handleReceive_eq (p : Ptr) (sock : SOCKET) (addr : Sockaddr) (rc : Except Errno (List UInt8)) (timeMs : UInt64)
    (h : Host) : h.handleReceive p sock addr rc timeMs = h.receiveIteration h.limiter (h.sender addr) p sock rc timeMs := by
  cases kind : h.kind <;> simp only [handleReceive,limiter,sender,kind] <;> rfl

theorem countReceived_frame (limiter : Limiter) (p : Ptr) (rc : Nat) (timeMs : UInt64) (h : Host) :
    h.countReceived limiter p rc timeMs = {h with heap := (h.countReceived limiter p rc timeMs).heap} := by
  unfold countReceived
  split
  · split <;> rfl
  · rfl

/-- The ways an iteration can go. -/
inductive Received (h : Host) (p : Ptr) (sock : SOCKET) (addr : Sockaddr) (timeMs : UInt64) :
    Except Errno (List UInt8) → Host → Option Bool → Prop
  | drained : Received h p sock addr timeMs (.error ewouldblock) h (some true)
  | failed {code host} (other : code ≠ ewouldblock) (closed : host = h.closeSocket sock) :
      Received h p sock addr timeMs (.error code) host (some false)
  | ended {host} (closed : host = h.closeSocket sock) : Received h p sock addr timeMs (.ok []) host (some false)
  | dropped {buf host} (some_bytes : buf ≠ []) (exceeds : h.overflows p buf.length timeMs = true)
      (log : host.log = h.log ++ [.received p buf]) (cmdQueue : host.cmdQueue = h.cmdQueue) :
      Received h p sock addr timeMs (.ok buf) host (some false)
  | handed {buf host} (some_bytes : buf ≠ []) (within : h.overflows p buf.length timeMs = false)
      (log : host.log = h.log ++ [.received p buf,.doRead p sock buf (h.sender addr)]) (cmdQueue : host.cmdQueue = h.cmdQueue) :
      Received h p sock addr timeMs (.ok buf) host none

theorem handleReceive_received (h : Host) (p : Ptr) (sock : SOCKET) (addr : Sockaddr) (rc : Except Errno (List UInt8))
    (timeMs : UInt64) :
    Received h p sock addr timeMs rc (h.handleReceive p sock addr rc timeMs).1 (h.handleReceive p sock addr rc timeMs).2 := by
  rw [handleReceive_eq]
  cases rc with
  | error code =>
    by_cases again : code = ewouldblock
    · subst again
      exact .drained
    · rw [receiveIteration,if_neg again]
      exact .failed again rfl
  | ok buf =>
    cases buf with
    | nil => exact .ended rfl
    | cons byte bytes =>
      let buf := byte::bytes
      let filled : Host := {h with rxBuffer := buf ++ h.rxBuffer.drop buf.length}
      let counted := (filled.observe (.received p buf)).countReceived h.limiter p buf.length timeMs
      have frame : counted = {filled.observe (.received p buf) with heap := counted.heap} := countReceived_frame _ _ _ _ _
      have log : counted.log = h.log ++ [.received p buf] := (congrArg Host.log frame).trans rfl
      have cmdQueue : counted.cmdQueue = h.cmdQueue := (congrArg Host.cmdQueue frame).trans rfl
      have taken : counted.rxBuffer.take buf.length = buf := by
        rw [show counted.rxBuffer = buf ++ h.rxBuffer.drop buf.length from congrArg Host.rxBuffer frame]
        simp
      have same : counted.isOverLimit h.limiter p = h.overflows p buf.length timeMs :=
        isOverLimit_countReceived h (filled.observe (.received p buf)) rfl h.limiter p buf.length timeMs
      cases exceeds : h.overflows p buf.length timeMs with
      | true =>
        have result : h.receiveIteration h.limiter (h.sender addr) p sock (.ok buf) timeMs = (counted,some false) :=
          if_pos (same.trans exceeds)
        rw [result]
        exact .dropped (by simp) exceeds log cmdQueue
      | false =>
        have result : h.receiveIteration h.limiter (h.sender addr) p sock (.ok buf) timeMs =
            (counted.observe (.doRead p sock (counted.rxBuffer.take buf.length) (h.sender addr)),none) :=
          if_neg (Bool.eq_false_iff.mp (same.trans exceeds))
        have told (obs : Obs) : (counted.observe obs).log = h.log ++ [.received p buf,obs] := by
          rw [show (counted.observe obs).log = counted.log ++ [obs] from rfl,log,List.append_assoc]
          rfl
        rw [result,taken]
        exact .handed (by simp) exceeds (told _) cmdQueue

end Host

namespace View

/-- An object in the worker's hands keeps what the table knows about it, unless the worker connects or removes it. -/
theorem Step.core_held {v v' : View} (step : Step v v') (sound : v.Sound) {p : Ptr} (held : v.role.object = some p)
    (settled : v.role.settled = true) (ready : v.role = .dispatching p → ∀ core ∈ v.table.core p, core.2.2 = true) :
    v'.table.core p = v.table.core p := by
  have shown : v.table.Shows v.role p := .inr (.inr held)
  have made : p < v.table.nextPtr := sound.visible p (.inl shown)
  cases step with
  | work T role pending tasks T' role' work =>
    dsimp only at held settled ready
    cases work with
    | connect q sock _ kind core later =>
      obtain rfl : q = p := Option.some.inj held
      simpa using ready rfl _ core
    | announce q sock => simp [Role.settled] at settled
    | removeFD q sock => simp [Role.settled] at settled
    | removeClose q sock => simp [Role.settled] at settled
    | removeDelete q sock => simp [Role.settled] at settled
    | removeErase q sock => simp [Role.settled] at settled
    | disconnect fd q sock connected found core => simp [Role.object] at held
    | accept sock => simp [Role.object] at held
    | add sock registered absent registers => simp [Role.object] at held
    | leak sock core present => simp [Role.object] at held
    | closeAccepted sock => simp [Role.object] at held
    | _ => rfl
  | call T role pending exited tasks t task T' task' found call =>
    have closed {T' : Table} (closes : T.Closes T') : T'.core p = T.core p := by
      obtain ⟨_,_,rfl,_,_⟩ := closes
      rfl
    have working : exited ≠ true := by
      rintro rfl
      have idle : role = .free := (sound.finished rfl).1
      simp [idle,Role.object] at held
    cases call with
    | prepare sock valid notify => simp [Table.alloc,Table.setCore,made.ne]
    | insert sock q notify find inserts =>
      have other : p ≠ q := by
        rintro rfl
        exact sound.making _ (List.mem_of_getElem? found) p rfl (.inl shown)
      simp [Table.setCore,other]
    | closeFD sock => exact closed (T.closes_closeFD sock)
    | closeListenSocket => exact closed (T.closes_closeFD T.listenSocket)
    | release core registered finished => exact absurd finished working
    | closeFds _ finished => exact absurd finished working
    | _ => rfl
  | _ => rfl

end View

namespace Sys

theorem Move.readLog {h h' : Host} {w w' : Worker} {act : Act} (move : Move h w act h' w') :
    (∃ p sock events ctx rc addr timeMs result, w = .read p sock events ctx ∧ act = .read rc addr timeMs ∧
      h.handleReceive p sock addr rc timeMs = (h',result) ∧
      w' = result.elim (.read p sock events ctx) (fun rs => afterRead rs p events ctx)) ∨
    ((∀ rc addr timeMs, act ≠ .read rc addr timeMs) ∧ h'.readLog = h.readLog) := by
  cases move with
  | readOn p sock events ctx rc addr timeMs fits again =>
    exact .inl ⟨p,sock,events,ctx,rc,addr,timeMs,none,rfl,rfl,Prod.ext rfl again,rfl⟩
  | readDone p sock events ctx rc addr timeMs rs fits done =>
    exact .inl ⟨p,sock,events,ctx,rc,addr,timeMs,some rs,rfl,rfl,Prod.ext rfl done,rfl⟩
  | timer exp now b =>
    have quiet : h.Quiet SocketObject.core Obs.reading (h.onTimer exp now) := Host.onTimer_quiet exp now h
    exact .inr ⟨by simp,quiet.log⟩
  | clientRefused p events ctx soError now kind refused => exact .inr ⟨by simp,Host.readLog_before p soError now h⟩
  | clientIo p events ctx soError now kind passed => exact .inr ⟨by simp,Host.readLog_before p soError now h⟩
  | readStarted p events ctx now sock next started =>
    obtain ⟨object,_,_,_,rfl⟩ := Host.startReceive_eq started
    exact .inr ⟨by simp,rfl⟩
  | written p ctx packet count front left fits =>
    obtain ⟨addr,sent⟩ := h.handleSend_ok p packet count
    exact .inr ⟨by simp,by simp [sent,Obs.reading]⟩
  | delivered fds batch found filled none_left => exact .inr ⟨by simp,rfl⟩
  | accepted sock addr ctx conn rest listening waiting nonneg unused => exact .inr ⟨by simp,rfl⟩
  | popCommand count b => exact .inr ⟨by simp,rfl⟩
  | _ => exact .inr ⟨by simp,by simp [Obs.reading]⟩

theorem CallStep.readLog {h h' : Host} {w : Worker} {c c' : Caller} {reply : Reply} (call : CallStep h w c reply h' c') :
    h'.readLog = h.readLog := by
  cases call with
  | push cmd fd next started => rfl
  | socket op addr sock nonneg unused => rfl
  | insert sock p notify => rfl
  | signal => rfl
  | clear => rfl
  | _ => simp [Obs.reading]

/-- The bytes that a step takes from a socket are taken by the `HandleReceive` of the worker. -/
inductive ReadStep (s : Sys) : Act → Sys → Prop
  | read {p sock events ctx rc addr timeMs host result} (at_read : s.worker = .read p sock events ctx)
      (received : s.host.handleReceive p sock addr rc timeMs = (host,result))
      (outcome : s.host.Received p sock addr timeMs rc host result) :
      ReadStep s (.read rc addr timeMs)
        (s.moveTo host (result.elim (.read p sock events ctx) (fun rs => afterRead rs p events ctx)))
  | other {act next} (silent : ∀ rc addr timeMs, act ≠ .read rc addr timeMs) (readLog : next.host.readLog = s.host.readLog) :
      ReadStep s act next

theorem step_reads {s next : Sys} {act : Act} (taken : s.step act = some next) : ReadStep s act next := by
  cases step_taken taken with
  | startAccept refused kind => exact .other (by simp) (by simp)
  | sendRefused act sends => exact .other (by rintro rc addr timeMs rfl; simp [message] at sends) rfl
  | sent act t sock addr raw buf p object sends =>
    refine .other (by rintro rc addr timeMs rfl; simp [message] at sends) ?_
    simp [setCaller,Obs.reading]
  | caller t c reply host later found may call => exact .other (by simp) call.readLog
  | worker act host worker idle move =>
    rcases move.readLog with ⟨p,sock,events,ctx,rc,addr,timeMs,result,at_read,rfl,received,rfl⟩ | ⟨silent,readLog⟩
    · have outcome := s.host.handleReceive_received p sock addr rc timeMs
      rw [received] at outcome
      exact .read at_read received outcome
    · exact .other silent readLog
  | _ => exact .other (by simp) rfl

/-- The object of which the step reads a block beyond the limit. -/
def overflows (s : Sys) (act : Act) : Option Ptr :=
  match s.worker, act with
  | .read p _ _ _, .read (.ok buf) _ timeMs => if buf ≠ [] ∧ s.host.overflows p buf.length timeMs = true then some p else none
  | _, _ => none

/-- The object of which the step passes a block to `DoRead`. -/
def passes (s : Sys) (act : Act) : Option Ptr :=
  match s.worker, act with
  | .read p _ _ _, .read (.ok buf) _ timeMs => if buf ≠ [] ∧ s.host.overflows p buf.length timeMs = false then some p else none
  | _, _ => none

theorem overflows_silent {s : Sys} {act : Act} (silent : ∀ rc addr timeMs, act ≠ .read rc addr timeMs) :
    s.overflows act = none ∧ s.passes act = none := by
  unfold overflows passes
  constructor
  · split
    · exact absurd rfl (silent _ _ _)
    · rfl
  · split
    · exact absurd rfl (silent _ _ _)
    · rfl

/-- A block that is read is dropped or passed on whole. -/
theorem stream_step {s next : Sys} {act : Act} (taken : s.step act = some next) (p : Ptr) :
    (s.overflows act ≠ some p ∧ s.passes act ≠ some p ∧ next.host.received p = s.host.received p ∧
      next.host.delivered p = s.host.delivered p) ∨
    ∃ buf, next.host.received p = s.host.received p ++ buf ∧
      ((s.overflows act = some p ∧ s.passes act ≠ some p ∧ next.host.delivered p = s.host.delivered p) ∨
       (s.overflows act ≠ some p ∧ s.passes act = some p ∧ next.host.delivered p = s.host.delivered p ++ buf)) := by
  have kept {host : Host} (same : host.readLog = s.host.readLog) :
      host.received p = s.host.received p ∧ host.delivered p = s.host.delivered p := by
    simp only [Host.received,Host.delivered,same,and_self]
  cases step_reads taken with
  | other silent readLog =>
    obtain ⟨overflows,passes⟩ := overflows_silent (s := s) silent
    exact .inl ⟨by simp [overflows],by simp [passes],kept readLog⟩
  | read at_read received outcome =>
    rename_i q sock events ctx rc addr timeMs host result
    dsimp only [moveTo]
    cases outcome with
    | drained => exact .inl ⟨by simp [overflows,at_read],by simp [passes,at_read],kept rfl⟩
    | failed other closed =>
      exact .inl ⟨by simp [overflows,at_read],by simp [passes,at_read],kept (by rw [closed,Host.readLog_closeSocket])⟩
    | ended closed =>
      exact .inl ⟨by simp [overflows,at_read],by simp [passes,at_read],kept (by rw [closed,Host.readLog_closeSocket])⟩
    | dropped some_bytes exceeds log cmdQueue =>
      rename_i buf
      by_cases mine : q = p
      · subst mine
        refine .inr ⟨buf,?_,.inl ⟨by simp [overflows,at_read,some_bytes,exceeds],by simp [passes,at_read,exceeds],?_⟩⟩
        · simp [Host.received,Host.readLog,log,Obs.reading,Obs.receivedFrom]
        · simp [Host.delivered,Host.readLog,log,Obs.reading,Obs.handedFor]
      · refine .inl ⟨by simp [overflows,at_read,mine],by simp [passes,at_read,mine],?_,?_⟩
        · simp [Host.received,Host.readLog,log,Obs.reading,Obs.receivedFrom,mine]
        · simp [Host.delivered,Host.readLog,log,Obs.reading,Obs.handedFor]
    | handed some_bytes within log cmdQueue =>
      rename_i buf
      by_cases mine : q = p
      · subst mine
        refine .inr ⟨buf,?_,.inr ⟨by simp [overflows,at_read,within],by simp [passes,at_read,some_bytes,within],?_⟩⟩
        · simp [Host.received,Host.readLog,log,Obs.reading,Obs.receivedFrom]
        · simp [Host.delivered,Host.readLog,log,Obs.reading,Obs.handedFor,List.filterMap_cons]
      · refine .inl ⟨by simp [overflows,at_read,mine],by simp [passes,at_read,mine],?_,?_⟩
        · simp [Host.received,Host.readLog,log,Obs.reading,Obs.receivedFrom,mine]
        · simp [Host.delivered,Host.readLog,log,Obs.reading,Obs.handedFor,mine]

/-- Of a connection that drops no block, or no longer passes any once it has, the listener
sees a prefix of what was read. -/
theorem delivered_prefix {config : Config} {acts : List Act} (p : Ptr)
    (after : Transition.After Sys.step (fun s act => s.overflows act = some p) (fun s act => s.passes act ≠ some p)
      config.started acts) :
    Transition.Always Sys.step (fun s => s.host.delivered p <+: s.host.received p) config.started acts := by
  refine Transition.always_of_after (I := fun s => s.host.delivered p = s.host.received p)
    (J := fun s => s.host.delivered p <+: s.host.received p) ?_ (fun _ cut => cut) ?_ ?_ ?_ after rfl
  · exact fun s whole => whole ▸ List.prefix_rfl
  · intro s act next within whole taken
    rcases stream_step taken p with ⟨_,_,received,delivered⟩ | ⟨buf,received,⟨exceeds,_⟩ | ⟨_,_,delivered⟩⟩
    · rw [received,delivered,whole]
    · exact absurd exceeds within
    · rw [received,delivered,whole]
  · intro s act next exceeds whole taken
    rcases stream_step taken p with ⟨within,_⟩ | ⟨buf,received,⟨_,_,delivered⟩ | ⟨within,_⟩⟩
    · exact absurd exceeds within
    · rw [received,delivered,whole]
      exact List.prefix_append _ _
    · exact absurd exceeds within
  · intro s act next silent cut taken
    rcases stream_step taken p with ⟨_,_,received,delivered⟩ | ⟨buf,received,⟨_,_,delivered⟩ | ⟨_,passes,_⟩⟩
    · rwa [received,delivered]
    · rw [received,delivered]
      exact cut.trans (List.prefix_append _ _)
    · exact absurd passes silent

/-- A connection of a client that is limited to two bytes a second. -/
def limitedClient : List Act :=
  [.connect 1 .connectToRemote [],.caller 1 (.fd 7),.caller 1 (.object .blank 0)] ++ List.replicate 4 (.caller 1 .done) ++
    [.setReceiveLimit 7 2]

/-- The connection becomes readable. -/
def limitedConnection : List Act := limitedClient ++ [.epollPwait (.ok [(7,epollin)]),.worker,.beforeIo (.ok 0) 0]

/-- Three bytes in the first second. -/
def limitedReads : List Act :=
  limitedConnection ++ [.readyRead 0,.read (.ok [1]) [] 5000,.read (.ok [2,3]) [] 5000,.worker]

/-- The next bytes that are read when a second has passed. -/
def laterRead (buf : List UInt8) : List Act :=
  [.epollPwait (.ok [(7,epollin)]),.worker,.beforeIo (.ok 0) 0,.readyRead 0,.read (.ok buf) [] 7000]

theorem stream_cut :
    (∃ s, Run (.plain .tcpClient 2) (limitedReads ++ laterRead [4,5,6]) s ∧ s.host.delivered 0 = [1] ∧
      s.host.received 0 = [1,2,3,4,5,6]) ∧
    Transition.Always Sys.step (fun s => s.host.delivered 0 <+: s.host.received 0) (Config.plain .tcpClient 2).started
      (limitedReads ++ laterRead [4,5,6]) :=
  ⟨run_reaches _ _ (fun s => s.host.delivered 0 = [1] ∧ s.host.received 0 = [1,2,3,4,5,6]) (by decide +kernel),
    delivered_prefix 0 (by decide +kernel)⟩

/-- A block is dropped, and the one after it is passed on. -/
theorem block_skipped :
    ∃ s, Run (.plain .tcpClient 2) (limitedReads ++ laterRead [4]) s ∧ ¬ s.host.delivered 0 <+: s.host.received 0 := by
  obtain ⟨s,run,delivered,received⟩ := run_reaches (.plain .tcpClient 2) (limitedReads ++ laterRead [4])
    (fun s => s.host.delivered 0 = [1,4] ∧ s.host.received 0 = [1,2,3,4]) (by decide +kernel)
  refine ⟨s,run,?_⟩
  rw [delivered,received]
  decide

end Sys

end LightServer
