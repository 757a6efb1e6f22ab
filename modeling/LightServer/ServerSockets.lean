import LightServer.Adding
import LightServer.SocketAccount
import LightServer.Base.Call

/-! The sockets of a `TcpServer` in its runs: which fds are open and which are registered, and
which objects the events of `epoll_pwait` name. -/
namespace LightServer

theorem PVOID.eq_object {pv : PVOID} {p : Ptr} (named : pv.object? = some p) : pv = .object p := by
  cases pv <;> simp_all [PVOID.object?]

namespace Host

variable {base : FD → Bool} {h : Host}

/-- What is registered for something else than a connection was open at the start. -/
def Reserved (base : FD → Bool) (h : Host) : Prop :=
  base h.listenSocket = true ∧ ∀ fd pv, h.interest fd = some pv → pv.object? = none → base fd = true

namespace Reserved

theorem deleteFD (fd : FD) (reserved : h.Reserved base) : (h.deleteFD fd).Reserved base := by
  refine ⟨reserved.1,fun other pv interest => ?_⟩
  by_cases same : other = fd
  · simp [Host.deleteFD,same] at interest
  · exact reserved.2 other pv (by simpa [Host.deleteFD,same] using interest)

theorem closeFD (fd : FD) (reserved : h.Reserved base) : (h.closeFD fd).Reserved base := by
  unfold Host.closeFD
  split
  · exact reserved.deleteFD fd
  · exact reserved

theorem addFD {fd : FD} {pv : PVOID} (allowed : pv.object? = none → base fd = true) (refused : Bool) (reserved : h.Reserved base) :
    (h.addFD fd pv refused).2.Reserved base := by
  unfold Host.addFD
  split
  · exact reserved
  · refine ⟨reserved.1,fun other entry interest plain => ?_⟩
    by_cases same : other = fd
    · subst same
      obtain rfl : pv = entry := by simpa using interest
      exact allowed plain
    · exact reserved.2 other entry (by simpa [same] using interest) plain

theorem prepareObject (raw : SocketObject) (addr : Option Sockaddr) (connected : Option UInt32) (reserved : h.Reserved base) :
    (h.prepareObject raw addr connected).2.Reserved base := by
  cases addr <;> cases connected <;> exact reserved

theorem addTcpSocket (sock : SOCKET) (addr : Sockaddr) (raw : SocketObject) (now : UInt32) (refused : Bool)
    (reserved : h.Reserved base) : (h.addTcpSocket sock addr raw now refused).2.2.Reserved base :=
  h.addTcpSocket_rule sock addr raw now refused reserved (reserved.prepareObject raw (some addr) (some now))
    (fun _ _ kept => kept) (fun _ p kept => kept.addFD (show (PVOID.object p).object? = none → _ by simp [PVOID.object?]) refused)

theorem releaseSocketObjects (reserved : h.Reserved base) : h.releaseSocketObjects.Reserved base := by
  obtain ⟨host,kept,same⟩ := h.releaseSocketObjects_rule (P := Reserved base) reserved (fun _ entry _ kept => kept.deleteFD entry.1)
  exact same ▸ kept

theorem closeManagerFds (reserved : h.Reserved base) : h.closeManagerFds.Reserved base :=
  h.closeManagerFds_rule (P := Reserved base) reserved (fun _ fd kept => kept.deleteFD fd) (fun _ fd kept => kept.closeFD fd)
    (fun _ kept => kept)

theorem startAccept (refused : Bool) (reserved : h.Reserved base) : (Sys.startAccept refused h).Reserved base := by
  unfold Sys.startAccept
  dsimp only
  split
  · exact reserved.addFD (fun _ => reserved.1) refused
  · exact reserved

theorem calm {h' : Host} (calm : Calm h h') (reserved : h.Reserved base) : h'.Reserved base := by
  refine ⟨calm.listenSocket ▸ reserved.1,?_⟩
  rw [calm.interest]
  exact reserved.2

end Reserved

end Host

namespace Sys

open Host

variable {base : FD → Bool}

private theorem Move.reserved {h h' : Host} {w w' : Worker} {act : Act} (move : Move h w act h' w') (reserved : h.Reserved base) :
    h'.Reserved base := by
  cases move with
  | closeAccepted sock ctx => exact reserved.closeFD sock
  | removeFD p sock count b => exact reserved.deleteFD sock
  | removeClose p sock count b => exact reserved.closeFD sock
  | timer exp now b => exact reserved.calm (onTimer_calm exp now h)
  | clientRefused p events ctx soError now kind refused => exact reserved.calm (onBeforeProcessIo_refused refused)
  | clientIo p events ctx soError now kind passed =>
    obtain ⟨object,_,_,⟨_,result⟩ | ⟨_,result⟩⟩ := onBeforeProcessIo_accepted passed
    · rw [result]
      exact reserved
    · rw [result]
      exact reserved
  | added sock addr ctx raw now refused ok => exact reserved.addTcpSocket sock addr raw now refused
  | notAdded sock addr ctx raw now refused failed => exact reserved.addTcpSocket sock addr raw now refused
  | readStarted p events ctx now sock next started => exact reserved.calm (startReceive_calm started).1
  | readOn p sock events ctx rc addr timeMs fits again =>
    obtain ⟨mid,buf,from_addr,calm,result⟩ := handleReceive_again again
    have kept : mid.Reserved base := reserved.calm calm
    exact result ▸ kept
  | readDone p sock events ctx rc addr timeMs rs fits done => exact reserved.calm (handleReceive_done done)
  | written p ctx packet count front left fits =>
    obtain ⟨addr,sent⟩ := h.handleSend_ok p packet count
    exact sent ▸ reserved
  | _ => exact reserved

private theorem CallStep.reserved {h h' : Host} {w : Worker} {c c' : Caller} {reply : Reply} (call : CallStep h w c reply h' c')
    (reserved : h.Reserved base) : h'.Reserved base := by
  cases call with
  | evtWrite next =>
    unfold Host.writeCmdEvt
    split <;> exact reserved
  | connected op addr sock raw now from_addr => exact reserved.prepareObject raw from_addr (some now)
  | inProgress addr sock raw => exact reserved.prepareObject raw (some addr) none
  | addFD sock p notify reply refused => exact reserved.addFD (by simp [PVOID.object?]) refused
  | closeSock sock => exact reserved.closeFD sock
  | closeListenSocket => exact reserved.closeFD h.listenSocket
  | release => exact reserved.releaseSocketObjects
  | closeFds => exact reserved.closeManagerFds
  | _ => exact reserved

theorem step_reserved {s next : Sys} {act : Act} (taken : s.step act = some next) (reserved : s.host.Reserved base) :
    next.host.Reserved base := by
  cases step_taken taken with
  | startAccept refused kind => exact reserved.startAccept refused
  | caller t c reply host later found may call => exact call.reserved reserved
  | worker act host worker idle move => exact move.reserved reserved
  | _ => exact reserved

theorem started_reserved (config : Config) (server : config.kind = .tcpServer) : config.started.host.Reserved config.isOpen := by
  refine ⟨(config.listen_open server).1,fun fd pv interest _ => ?_⟩
  simp only [Config.started,Config.interest] at interest
  split at interest
  · rename_i same
    exact same ▸ config.cmd_open.1
  · split at interest
    · rename_i same
      exact same ▸ config.exit_open.1
    · split at interest
      · rename_i same
        exact same.1 ▸ config.timer_open (same.1 ▸ same.2)
      · cases interest

/-- What `HandleAccept` loses: a socket that `fcntl` fails on, and an event of the object that
`epoll_ctl` refuses. -/
inductive Loss
  | leaked (fd : FD)
  | refused (p : Ptr)
  deriving DecidableEq

def Loss.fd? : Loss → Option FD
  | .leaked fd => some fd
  | .refused _ => none

def Loss.object? : Loss → Option Ptr
  | .leaked _ => none
  | .refused p => some p

def losses (s : Sys) (act : Act) : List Loss :=
  match s.worker, act with
  | .setNonBlocking sock _ _, .setNonBlocking false => [.leaked sock]
  | .addTcpSocket _ _ _, .addTcpSocket _ _ true => [.refused s.host.nextPtr]
  | _, _ => []

/-- The account of a `TcpServer` whose worker has not left its loop. -/
structure Balance (base : FD → Bool) (s : Sys) (lost : List Loss) : Prop where
  inv : s.Inv
  serving : s.view.Serving
  current : s.view.Current
  reserved : s.host.Reserved base
  holding : ∀ sock, s.worker.role = .holding sock → 0 ≤ sock
  accounted : s.worker ≠ .exited → s.view.Accounted base (lost.filterMap Loss.fd?) (lost.filterMap Loss.object?)

theorem Balance.held {s : Sys} {lost : List Loss} (balance : Balance base s lost) (working : s.worker ≠ .exited) {sock : SOCKET}
    (holding : s.worker.role = .holding sock) :
    s.host.isOpen sock = true ∧ sock ∉ s.host.sockObjectMap ∧ s.host.interest sock = none := by
  have accounted := balance.accounted working
  have ours : base sock = false := (Bool.not_eq_true _).mp (fun theirs => (accounted.away sock theirs).2.1 holding)
  have missing : s.host.findSocketObject sock = none := (accounted.apart sock (.inr holding)).1
  refine ⟨(accounted.opened sock ours).mpr (.inr (.inl holding)),AList.lookup_eq_none.mp missing,?_⟩
  cases interest : s.host.interest sock with
  | none => rfl
  | some pv =>
    cases object : pv.object? with
    | none => simp [balance.reserved.2 sock pv interest object] at ours
    | some p =>
      have entry := ((accounted.registered sock p).mp (by simp [view,Host.table,interest,object])).1
      cases missing.symm.trans entry

private theorem registered_serves {h : Host} {sock : SOCKET} (up : h.isOpen sock = true) {addr : Sockaddr} {raw : SocketObject}
    {now : UInt32} {refused : Bool} (ok : ¬ (h.addTcpSocket sock addr raw now refused).1 < 0) :
    (h.addTcpSocket sock addr raw now refused).2.2.table.registered sock = some h.nextPtr ↔
      (h.addTcpSocket sock addr raw now refused).2.2.Serves sock := by
  obtain ⟨_,⟨⟨_,registered,table,_⟩,_⟩ | ⟨_,failed⟩⟩ := table_addTcpSocket h sock addr raw now refused
  · have opened : (h.addTcpSocket sock addr raw now refused).2.2.isOpen sock = true := (congrFun (congrArg Table.isOpen table) sock).trans up
    have found : (h.addTcpSocket sock addr raw now refused).2.2.findSocketObject sock = some h.nextPtr :=
      (congrFun (congrArg Table.find table) sock).trans (Function.update_self _ _ _)
    have core : (h.addTcpSocket sock addr raw now refused).2.2.table.core h.nextPtr = some (sock,true,true) :=
      (congrFun (congrArg Table.core table) h.nextPtr).trans (Function.update_self _ _ _)
    obtain ⟨object,live,same⟩ := Option.map_eq_some_iff.mp core
    simp only [SocketObject.core,Prod.mk.injEq] at same
    constructor
    · intro now
      obtain ⟨pv,interest,named⟩ := Option.bind_eq_some_iff.mp now
      exact ⟨opened,h.nextPtr,object,found,live,same.2.1,interest.trans (congrArg some (PVOID.eq_object named))⟩
    · rintro ⟨_,p,_,found',_,_,interest⟩
      obtain rfl : h.nextPtr = p := Option.some.inj (found.symm.trans found')
      simp [Host.table,interest,PVOID.object?]
  · exact absurd failed ok

/-- What a step of the worker gives up is what it loses. -/
private theorem Move.gives {h h' : Host} {w w' : Worker} {act : Act} {callers : List Caller} {stopCalled : Bool} {lost : List Loss}
    (balance : Balance base ⟨h,w,callers,stopCalled⟩ lost) (move : Move h w act h' w') :
    View.Gives (Sys.view ⟨h,w,callers,stopCalled⟩) (Sys.view ⟨h',w',callers,stopCalled⟩)
      ((losses ⟨h,w,callers,stopCalled⟩ act).filterMap Loss.fd?) ((losses ⟨h,w,callers,stopCalled⟩ act).filterMap Loss.object?) := by
  have working := move.working
  have held (sock : SOCKET) (holding : w.role = .holding sock) := balance.held working holding
  have quiet (keeps : ∀ sock, w.role ≠ .holding sock) (nothing : losses ⟨h,w,callers,stopCalled⟩ act = []) :
      View.Gives (Sys.view ⟨h,w,callers,stopCalled⟩) (Sys.view ⟨h',w',callers,stopCalled⟩)
        ((losses ⟨h,w,callers,stopCalled⟩ act).filterMap Loss.fd?)
        ((losses ⟨h,w,callers,stopCalled⟩ act).filterMap Loss.object?) := by
    rw [nothing]
    exact ⟨fun fd => by simp [Sys.view,keeps],fun p => by simp [Sys.view,keeps]⟩
  cases move with
  | nonBlocking sock addr ctx => exact ⟨by simp [losses,Sys.view,Worker.role],by simp [losses,Sys.view,Worker.role]⟩
  | blocking sock addr ctx =>
    have up : h.isOpen sock = true := (held sock rfl).1
    refine ⟨fun fd => ?_,by simp [losses,Loss.object?,Sys.view,role_resume]⟩
    simp only [losses,List.filterMap_cons,Loss.fd?,List.filterMap_nil,List.mem_singleton]
    constructor
    · rintro rfl
      exact ⟨rfl,role_resume ctx,up⟩
    · exact fun both => (Role.holding.inj both.1).symm
  | closeAccepted sock ctx =>
    have shut : (h.closeFD sock).isOpen sock = false := by rw [isOpen_closeFD,Function.update_self]
    refine ⟨fun fd => ?_,by simp [losses,Sys.view,role_resume]⟩
    simp only [losses,List.filterMap_nil,List.not_mem_nil,false_iff,not_and]
    intro same _ up
    obtain rfl : sock = fd := Role.holding.inj same
    exact absurd up ((Bool.not_eq_true _).mpr shut)
  | added sock addr ctx raw now refused ok =>
    obtain ⟨up,absent,unregistered⟩ := held sock rfl
    have started : h.hasStart = true := by simpa [hasStart] using (balance.inv.control.started working).2
    have valid : sock ≠ invalidSocket := by
      rintro rfl
      exact absurd (balance.holding _ rfl) (by decide)
    have ptr := (table_addTcpSocket h sock addr raw now refused).1
    have serves := (addTcpSocket_absent refused valid absent up unregistered addr raw now).2
    have registers : (h.addTcpSocket sock addr raw now refused).2.2.table.registered sock = some h.nextPtr ↔ refused = false := by
      rw [registered_serves up ok,serves]
      exact ⟨fun both => both.2.2,fun accepted => ⟨absent,started,accepted⟩⟩
    refine ⟨by cases refused <;> simp [losses,Loss.fd?,Sys.view,Worker.role],fun p => ?_⟩
    simp only [Sys.view,Worker.role,ptr,Role.announcing.injEq,Role.holding.injEq]
    constructor
    · intro member
      cases refused with
      | false => simp [losses] at member
      | true =>
        obtain rfl : p = h.nextPtr := by simpa [losses,Loss.object?] using member
        exact ⟨sock,⟨rfl,rfl⟩,rfl,by simp [registers]⟩
    · rintro ⟨fd,⟨rfl,rfl⟩,_,missing⟩
      have refusal : refused = true := by simpa [registers] using missing
      simp [losses,refusal,Loss.object?]
  | notAdded sock addr ctx raw now refused failed =>
    obtain ⟨up,absent,unregistered⟩ := held sock rfl
    have valid : sock ≠ invalidSocket := by
      rintro rfl
      exact absurd (balance.holding _ rfl) (by decide)
    have passed := (addTcpSocket_absent refused valid absent up unregistered addr raw now).1
    simp [passed] at failed
  | serverIo p events ctx soError now kind => exact quiet (by simp [Worker.role]) rfl
  | _ => exact quiet (by simp [Worker.role]) rfl

theorem step_gives {s next : Sys} {act : Act} {lost : List Loss} (balance : Balance base s lost) (taken : s.step act = some next) :
    View.Gives s.view next.view ((losses s act).filterMap Loss.fd?) ((losses s act).filterMap Loss.object?) := by
  have still {next : Sys} {act : Act} (same : next.worker = s.worker) (nothing : losses s act = []) :
      View.Gives s.view next.view ((losses s act).filterMap Loss.fd?) ((losses s act).filterMap Loss.object?) := by
    rw [nothing]
    refine ⟨fun fd => ?_,fun p => ?_⟩ <;> simp only [view,same,List.filterMap_nil,List.not_mem_nil,false_iff]
    · rintro ⟨held,free,_⟩
      cases held.symm.trans free
    · rintro ⟨fd,announces,held,_⟩
      cases held.symm.trans announces
  have outside (act : Act) (other : ∀ ok, act ≠ .setNonBlocking ok) (other' : ∀ raw now refused, act ≠ .addTcpSocket raw now refused) :
      losses s act = [] := by
    unfold losses
    split
    · exact absurd rfl (other false)
    · exact absurd rfl (other' _ _ true)
    · rfl
  have sending {act : Act} (sends : (message act).isSome) : losses s act = [] := by
    cases act with
    | send t sock raw buf => exact outside _ (by simp) (by simp)
    | udpSend t sock addr raw buf => exact outside _ (by simp) (by simp)
    | _ => cases sends
  cases step_taken taken with
  | sendRefused act sends => exact still rfl (sending sends)
  | sent act t sock addr raw buf p object sends kind idle found live valid room => exact still rfl (sending (by simp [sends]))
  | worker act host worker idle move => exact move.gives balance
  | _ => exact still rfl (outside _ (by simp) (by simp))

theorem Balance.step {s next : Sys} {act : Act} {lost : List Loss} (balance : Balance base s lost)
    (taken : s.step act = some next) : Balance base next (lost ++ losses s act) := by
  have step := view_step balance.inv.control taken
  refine ⟨balance.inv.step taken,step.serving balance.inv.sound balance.inv.entered balance.serving,
    step.current balance.inv.sound balance.inv.entered balance.serving balance.current,step_reserved taken balance.reserved,step.holding balance.holding,fun working => ?_⟩
  rw [List.filterMap_append,List.filterMap_append]
  exact step.accounted balance.inv.sound balance.inv.entered balance.serving (by simpa [view] using working)
    (step_gives balance taken) (balance.accounted (step_working taken working))

theorem run_balance {config : Config} {acts : List Act} {s : Sys} (run : Run config acts s) (server : config.kind = .tcpServer) :
    Balance config.isOpen s (Transition.trace Sys.step losses config.started acts) := by
  have started : Balance config.isOpen config.started [] :=
    ⟨started_inv config,(View.started_blank config).serving server,View.started_current config,started_reserved config server,
      by simp [Config.started,Worker.role],fun _ => View.started_accounted config server⟩
  simpa using Transition.trace_invariant (fun _ _ _ _ balance taken => balance.step taken) started run

/-- Where no object is registered under two fds, no batch names an object twice. -/
theorem deliver_nodup {h : Host} (alone : ∀ fd fd' p, h.interest fd = some (.object p) → h.interest fd' = some (.object p) → fd = fd')
    {fds : List (FD × UInt32)} {batch : List EpollEvent} (found : deliver h fds = some batch) (distinct : (fds.map Prod.fst).Nodup) :
    (objectsOf batch).Nodup := by
  induction fds generalizing batch with
  | nil =>
    obtain rfl : [] = batch := Option.some.inj found
    exact .nil
  | cons fd fds ih =>
    simp only [deliver,List.mapM_cons,Option.bind_eq_bind,Option.bind_eq_some_iff] at found
    obtain ⟨first,⟨pv,registered,reported⟩,rest,later,same⟩ := found
    obtain rfl : first::rest = batch := Option.some.inj same
    obtain ⟨away,distinct⟩ := List.nodup_cons.mp distinct
    have ptr : first.ptr = pv := by
      split at reported
      · exact (congrArg EpollEvent.ptr (Option.some.inj reported)).symm
      · contradiction
    have nodup := ih later distinct
    cases object : first.ptr.object? with
    | none => simpa [objectsOf,object] using nodup
    | some p =>
      have here : h.interest fd.1 = some (.object p) := by rw [registered,← ptr,PVOID.eq_object object]
      simp only [objectsOf,List.filterMap_cons,object]
      refine List.nodup_cons.mpr ⟨fun again => away ?_,nodup⟩
      obtain ⟨ev,member,named⟩ := List.mem_filterMap.mp again
      obtain ⟨fd',listed,there,_,_⟩ := deliver_mem later member
      rw [PVOID.eq_object named] at there
      exact alone _ _ p here there ▸ List.mem_map_of_mem listed

theorem waits_taken {s next : Sys} {rs : Except Errno (List (FD × UInt32))} (taken : s.step (.epollPwait rs) = some next) :
    s.worker = .epollPwait ∧ s.epollPwait rs = some next := by
  simp only [step] at taken
  split at taken
  · cases pc : s.worker <;> simp_all [workerAct]
  · contradiction

section accounts

variable {config : Config} {acts : List Act} {s : Sys} {fd : FD}

theorem mem_leaked {lost : List Loss} : fd ∈ lost.filterMap Loss.fd? ↔ .leaked fd ∈ lost := by
  rw [List.mem_filterMap]
  refine ⟨?_,fun member => ⟨_,member,rfl⟩⟩
  rintro ⟨loss,member,named⟩
  cases loss with
  | leaked k => exact Option.some.inj named ▸ member
  | refused p => cases named

theorem mem_refused {lost : List Loss} {p : Ptr} : p ∈ lost.filterMap Loss.object? ↔ .refused p ∈ lost := by
  rw [List.mem_filterMap]
  refine ⟨?_,fun member => ⟨_,member,rfl⟩⟩
  rintro ⟨loss,member,named⟩
  cases loss with
  | leaked k => cases named
  | refused q => exact Option.some.inj named ▸ member

/-- The fds that a working `TcpServer` has open besides those of its start are the sockets of the
map, the one in the worker's hands, and those on which `fcntl` failed. -/
theorem sockets_accounted (run : Run config acts s) (server : config.kind = .tcpServer) (working : s.worker ≠ .exited)
    (fresh : config.isOpen fd = false) :
    s.host.isOpen fd = true ↔ fd ∈ s.host.sockObjectMap ∧ s.worker.role.closing fd = false ∨ s.worker.role = .holding fd ∨
      .leaked fd ∈ Transition.trace Sys.step losses config.started acts := by
  have opened := ((run_balance run server).accounted working).opened fd fresh
  rw [mem_leaked] at opened
  simpa only [view,Host.table,Host.findSocketObject,AList.lookup_isSome] using opened

/-- A socket that `fcntl` fails on, one that `epoll_ctl` refuses, and one that gets both. -/
def mixedAccepts : List Act :=
  [.startAccept false,.arrive 0,.epollPwait (.ok [(3,epollin)]),.worker,.beforeIo (.ok 0) 0,.accept (.ok (7,[])),
   .setNonBlocking false,.worker,.arrive 1,.epollPwait (.ok [(3,epollin)]),.worker,.beforeIo (.ok 0) 0,.accept (.ok (8,[])),
   .setNonBlocking true,.addTcpSocket .blank 0 true,.worker,.worker,.arrive 2] ++ acceptOne 9

theorem mixed_sockets_accounted : ∃ s, Run (.plain .tcpServer 1) mixedAccepts s ∧ s.host.isOpen 7 = true ∧
    (s.host.isOpen 7 = true ↔ 7 ∈ s.host.sockObjectMap ∧ s.worker.role.closing 7 = false ∨ s.worker.role = .holding 7 ∨
      .leaked 7 ∈ Transition.trace Sys.step losses (Config.plain .tcpServer 1).started mixedAccepts) := by
  obtain ⟨s,run,opened,working⟩ := run_reaches (.plain .tcpServer 1) mixedAccepts
    (fun s => s.host.isOpen 7 = true ∧ s.worker ≠ .exited) (by decide +kernel)
  exact ⟨s,run,opened,sockets_accounted run rfl working (by decide)⟩

theorem view_registered {p : Ptr} :
    s.host.interest fd = some (.object p) ↔ s.view.table.registered fd = some p := by
  simp only [view,Host.table,Option.bind_eq_some_iff]
  constructor
  · exact fun now => ⟨_,now,rfl⟩
  · rintro ⟨pv,now,named⟩
    rw [now,PVOID.eq_object named]

/-- An fd of a working `TcpServer` is registered for a connection exactly if it is that connection's in the
map, the registration was not refused and has not been dropped by the removal: it is the fd of an object that
has not been deleted. -/
theorem registrations_accounted (run : Run config acts s) (server : config.kind = .tcpServer) (working : s.worker ≠ .exited)
    (p : Ptr) : (s.host.interest fd = some (.object p) ↔ s.host.findSocketObject fd = some p ∧
      s.worker.role.dropped p = false ∧ .refused p ∉ Transition.trace Sys.step losses config.started acts) ∧
    (s.host.interest fd = some (.object p) → ∃ object, s.host.heap p = some object ∧ object.socketId = fd) := by
  have balance := run_balance run server
  have registered := (balance.accounted working).registered fd p
  rw [mem_refused] at registered
  have accounted := view_registered.trans registered
  refine ⟨accounted,fun now => ?_⟩
  obtain ⟨found,kept,_⟩ := accounted.mp now
  have away : s.view.role ≠ .removing .erase p fd := by
    intro erasing
    change s.view.role.dropped p = false at kept
    simp [erasing,Role.dropped] at kept
  obtain ⟨_,_,core⟩ := (balance.inv.entered.named fd p found).resolve_right away
  obtain ⟨object,live,same⟩ := Option.map_eq_some_iff.mp core
  exact ⟨object,live,congrArg Prod.fst same⟩

theorem mixed_registrations_accounted : ∃ s, Run (.plain .tcpServer 1) mixedAccepts s ∧ s.host.findSocketObject 8 = some 0 ∧
    (s.host.interest 8 = some (.object 0) ↔ s.host.findSocketObject 8 = some 0 ∧ s.worker.role.dropped 0 = false ∧
      .refused 0 ∉ Transition.trace Sys.step losses (Config.plain .tcpServer 1).started mixedAccepts) ∧
    (s.host.interest 8 = some (.object 0) → ∃ object, s.host.heap 0 = some object ∧ object.socketId = 8) := by
  obtain ⟨s,run,found,working⟩ := run_reaches (.plain .tcpServer 1) mixedAccepts
    (fun s => s.host.findSocketObject 8 = some 0 ∧ s.worker ≠ .exited) (by decide +kernel)
  exact ⟨s,run,found,registrations_accounted run rfl working 0⟩

/-- The batch of an `epoll_pwait` names each object at most once, and only objects that are valid and in
the map under their socket. -/
theorem batch_current {next : Sys} {rs : Except Errno (List (FD × UInt32))} (run : Run config acts s)
    (server : config.kind = .tcpServer) (taken : s.step (.epollPwait rs) = some next) :
    (objectsOf next.worker.place.rest).Nodup ∧ ∀ p ∈ objectsOf next.worker.place.rest, ∃ object,
      next.host.findSocketObject object.socketId = some p ∧ next.host.heap p = some object ∧ object.fValid = true := by
  obtain ⟨at_wait,taken⟩ := waits_taken taken
  have working : s.worker ≠ .exited := by simp [at_wait]
  have current {fd : FD} {p : Ptr} (interest : s.host.interest fd = some (.object p)) : s.host.findSocketObject fd = some p :=
    (((run_balance run server).accounted working).registered fd p).mp (view_registered.mp interest) |>.1
  cases rs with
  | error code =>
    obtain rfl := Option.some.inj taken
    simp [moveTo,Worker.place,Place.rest,objectsOf]
  | ok fds =>
    obtain ⟨batch,found,taken⟩ := Option.bind_eq_some_iff.mp taken
    split at taken
    · rename_i guard
      obtain rfl := Option.some.inj taken
      have balance := run_balance run server
      refine ⟨deliver_nodup (fun fd fd' p here there => ?_) found guard.2.2.1,fun p member => ?_⟩
      · exact balance.inv.entered.unique fd fd' p (current here) (current there)
      · obtain ⟨ev,listed,named⟩ := List.mem_filterMap.mp member
        obtain ⟨fd,_,interest,_,_⟩ := deliver_mem found listed
        have entry := current (PVOID.eq_object named ▸ interest)
        obtain ⟨connected,core⟩ := (balance.current fd.1 p entry).resolve_right (by simp [view,at_wait,Worker.role])
        obtain ⟨object,live,same⟩ := Option.map_eq_some_iff.mp core
        simp only [SocketObject.core,Prod.mk.injEq] at same
        exact ⟨object,same.1 ▸ entry,live,same.2.1⟩
    · contradiction

theorem mixed_batch_current : ∃ s next, Run (.plain .tcpServer 1) mixedAccepts s ∧
    s.step (.epollPwait (.ok [(9,epollout)])) = some next ∧ objectsOf next.worker.place.rest = [1] ∧
    (objectsOf next.worker.place.rest).Nodup ∧ ∀ p ∈ objectsOf next.worker.place.rest, ∃ object,
      next.host.findSocketObject object.socketId = some p ∧ next.host.heap p = some object ∧ object.fValid = true := by
  obtain ⟨s,run,batch⟩ := run_reaches (.plain .tcpServer 1) mixedAccepts
    (fun s => (s.step (.epollPwait (.ok [(9,epollout)]))).any (fun next => objectsOf next.worker.place.rest = [1]) = true)
    (by decide +kernel)
  obtain ⟨next,taken,named⟩ := (Option.any_eq_true _ _).mp batch
  exact ⟨s,next,run,taken,of_decide_eq_true named,batch_current run rfl taken⟩

end accounts

end Sys

end LightServer
