import LightServer.Accept
import LightServer.Base.Progress
import LightServer.DoWork
import LightServer.Lifecycle
import LightServer.ManagerFds
import LightServer.Operations
import LightServer.SendCalls
import Mathlib.Data.Prod.Lex

/-! The worker can always get on: in no reachable state is it stuck inside a call, and what it is doing can
end before it waits again. -/
namespace LightServer

namespace Host

variable {h h' next : Host}

/-- What is registered is the object of a connection, or was registered before. -/
def OnlyObjects (h h' : Host) : Prop := ∀ fd pv, h'.interest fd = some pv → h.interest fd = some pv ∨ ∃ p, pv = .object p

namespace OnlyObjects

theorem of_same (interest : h'.interest = h.interest) : OnlyObjects h h' := fun _ _ registered => .inl (interest ▸ registered)

theorem refl (h : Host) : OnlyObjects h h := of_same rfl

theorem trans (first : OnlyObjects h h') (second : OnlyObjects h' next) : OnlyObjects h next :=
  fun fd pv registered => (second fd pv registered).elim (first fd pv) .inr

theorem of_calm (calm : Calm h h') : OnlyObjects h h' := of_same calm.interest

theorem deleteFD (fd : FD) (h : Host) : OnlyObjects h (h.deleteFD fd) := by
  intro other pv registered
  by_cases same : other = fd
  · simp [Host.deleteFD,same] at registered
  · exact .inl (by simpa [Host.deleteFD,same] using registered)

theorem closeFD (fd : FD) (h : Host) : OnlyObjects h (h.closeFD fd) := by
  unfold Host.closeFD
  split
  · intro other pv registered
    by_cases same : other = fd
    · simp [same] at registered
    · exact .inl (by simpa [same] using registered)
  · exact refl h

theorem addFD (fd : FD) (p : Ptr) (refused : Bool) (h : Host) : OnlyObjects h (h.addFD fd (.object p) refused).2 := by
  unfold Host.addFD
  split
  · exact refl h
  · intro other pv registered
    by_cases same : other = fd
    · exact .inr ⟨p,by simpa [same] using registered.symm⟩
    · exact .inl (by simpa [same] using registered)

theorem prepareObject (raw : SocketObject) (addr : Option Sockaddr) (connected : Option UInt32) (h : Host) :
    OnlyObjects h (h.prepareObject raw addr connected).2 := by
  cases addr <;> cases connected <;> exact of_same rfl

theorem addTcpSocket (sock : SOCKET) (addr : Sockaddr) (raw : SocketObject) (now : UInt32) (refused : Bool) (h : Host) :
    OnlyObjects h (h.addTcpSocket sock addr raw now refused).2.2 :=
  h.addTcpSocket_rule sock addr raw now refused (refl h) (prepareObject raw (some addr) (some now) h)
    (fun _ _ kept => kept.trans (of_same rfl)) (fun host p kept => kept.trans (addFD sock p refused host))

theorem releaseSocketObjects (h : Host) : OnlyObjects h h.releaseSocketObjects := by
  obtain ⟨host,kept,same⟩ := h.releaseSocketObjects_rule (P := OnlyObjects h) (refl h)
    (fun host entry _ kept => kept.trans (deleteFD entry.1 host))
  exact same ▸ kept

theorem closeManagerFds (h : Host) : OnlyObjects h h.closeManagerFds :=
  h.closeManagerFds_rule (P := OnlyObjects h) (refl h) (fun host fd kept => kept.trans (deleteFD fd host))
    (fun host fd kept => kept.trans (closeFD fd host)) (fun _ => id)

end OnlyObjects

end Host

namespace Sys

open Host

private theorem Move.onlyObjects {h h' : Host} {w w' : Worker} {act : Act} (move : Move h w act h' w') : OnlyObjects h h' := by
  cases move with
  | closeAccepted sock ctx => exact .closeFD sock h
  | removeFD p sock count b => exact .deleteFD sock h
  | removeClose p sock count b => exact .closeFD sock h
  | timer exp now b => exact .of_calm (onTimer_calm exp now h)
  | clientRefused p events ctx soError now kind refused => exact .of_calm (onBeforeProcessIo_refused refused)
  | clientIo p events ctx soError now kind passed =>
    obtain ⟨object,_,_,⟨_,result⟩ | ⟨_,result⟩⟩ := onBeforeProcessIo_accepted passed
    · exact .of_same (by rw [result])
    · exact .of_same (by rw [result]; rfl)
  | added sock addr ctx raw now refused ok => exact .addTcpSocket sock addr raw now refused h
  | notAdded sock addr ctx raw now refused failed => exact .addTcpSocket sock addr raw now refused h
  | readStarted p events ctx now sock next started => exact .of_calm (startReceive_calm started).1
  | readOn p sock events ctx rc addr timeMs fits again =>
    obtain ⟨mid,buf,from_addr,calm,result⟩ := handleReceive_again again
    rw [result]
    exact (OnlyObjects.of_calm calm).trans (.of_same rfl)
  | readDone p sock events ctx rc addr timeMs rs fits done => exact .of_calm (handleReceive_done done)
  | written p ctx packet count front left fits =>
    obtain ⟨addr,sent⟩ := h.handleSend_ok p packet count
    exact .of_same (by rw [sent]; rfl)
  | _ => exact .of_same rfl

private theorem CallStep.onlyObjects {h h' : Host} {w : Worker} {c c' : Caller} {reply : Reply} (call : CallStep h w c reply h' c') :
    OnlyObjects h h' := by
  cases call with
  | evtWrite next =>
    unfold Host.writeCmdEvt
    split <;> exact .of_same rfl
  | connected op addr sock raw now from_addr => exact .prepareObject raw from_addr (some now) h
  | inProgress addr sock raw => exact .prepareObject raw (some addr) none h
  | addFD sock p notify reply refused => exact .addFD sock p refused h
  | closeSock sock => exact .closeFD sock h
  | closeListenSocket => exact .closeFD h.listenSocket h
  | release => exact .releaseSocketObjects h
  | closeFds => exact .closeManagerFds h
  | _ => exact .of_same rfl

theorem step_onlyObjects {s next : Sys} {act : Act} (taken : s.step act = some next) :
    OnlyObjects s.host next.host ∨ s.host.kind = .tcpServer := by
  cases step_taken taken with
  | startAccept refused kind => exact .inr kind
  | caller t c reply host later found may call => exact .inl call.onlyObjects
  | worker act host worker idle move => exact .inl move.onlyObjects
  | _ => exact .inl (.of_same rfl)

end Sys

/-- What `ProcessIo` has been called for, before it has passed `OnBeforeProcessIo`. -/
def Worker.entry : Worker → Option PVOID
  | .beforeIo pv _ _ => some pv
  | _ => none

@[simp] theorem entry_resume (ctx : Ctx) : (resume ctx).entry = none := by cases ctx <;> rfl

@[simp] theorem entry_afterRead (rs : Bool) (p : Ptr) (events : UInt32) (ctx : Ctx) : (afterRead rs p events ctx).entry = none :=
  afterRead_rule (P := fun w => w.entry = none) rfl (entry_resume ctx) rs events

@[simp] theorem entry_doProcessIo (p : Ptr) (events : UInt32) (ctx : Ctx) : (doProcessIo p events ctx).entry = none :=
  doProcessIo_rule (P := fun w => w.entry = none) rfl rfl (entry_resume ctx)

namespace Sys

/-- Of the events that are not for a connection, only those of a listening socket reach `ProcessIo`. -/
structure Served (s : Sys) : Prop where
  registered : ∀ fd, s.host.interest fd = some .listenSocket → s.host.kind = .tcpServer
  pending : ∀ ev ∈ s.worker.place.rest, ev.ptr = .listenSocket → s.host.kind = .tcpServer
  entered : ∀ pv, s.worker.entry = some pv → pv = .listenSocket ∧ s.host.kind = .tcpServer ∨ ∃ p, pv = .object p

theorem Move.entered {h h' : Host} {w w' : Worker} {act : Act} {pv : PVOID} (move : Move h w act h' w') (entry : w'.entry = some pv) :
    (∃ p, pv = .object p) ∨ pv = .listenSocket ∧ ∃ ev ∈ w.place.rest, ev.ptr = .listenSocket := by
  cases move with
  | batchEnd bRun => cases bRun <;> simp [Worker.entry] at entry
  | ioEvent bRun rest ev ptr =>
    obtain rfl : ev.ptr = pv := Option.some.inj entry
    rcases ptr with ptr | object
    · exact .inr ⟨ptr,ev,by simp [Worker.place,Place.rest],ptr⟩
    · exact .inl object
  | sendCommand count b cmd queue p front left kind found =>
    obtain rfl : .object p = pv := Option.some.inj entry
    exact .inl ⟨p,rfl⟩
  | _ => first | exact absurd entry (by simp) | simp [Worker.entry] at entry

theorem rest_current {place : Place} {b : Batch} (current : place.current = some b) : place.rest = b.rest := by
  cases place with
  | wait => simp [Place.current] at current
  | exited => simp [Place.current] at current
  | _ =>
    obtain rfl := Option.some.inj current
    rfl

theorem Move.pending {h h' : Host} {w w' : Worker} {act : Act} (move : Move h w act h' w') {ev : EpollEvent}
    (member : ev ∈ w'.place.rest) : ev ∈ w.place.rest ∨ ∃ fd, h.interest fd = some ev.ptr := by
  rcases move.loop with ⟨_,code,_,rfl⟩ | ⟨_,fds,batch,_,found,rfl⟩ | ⟨bRun,rfl,_,rfl⟩ | ⟨bRun,first,rest,rfl,_,current⟩ |
    ⟨_,_,_,current⟩
  · simp [Worker.place,Place.rest] at member
  · obtain ⟨fd,_,registered,_⟩ := deliver_mem found member
    exact .inr ⟨fd.1,registered⟩
  · cases bRun <;> simp [Worker.place,Place.rest] at member
  · rw [rest_current current] at member
    exact .inl (List.mem_cons_of_mem first member)
  · cases later : w'.place.current with
    | some b => exact .inl (by rwa [rest_current (current.symm.trans later),← rest_current later])
    | none =>
      exfalso
      generalize w'.place = place at member later
      cases place <;> simp [Place.current,Place.rest] at later member

theorem Served.step {s next : Sys} {act : Act} (served : s.Served) (inv : Inv s) (taken : s.step act = some next) : next.Served := by
  obtain ⟨registered,pending,entered⟩ := served
  have kind : next.host.kind = s.host.kind := inv.kind taken
  refine ⟨fun fd listens => ?_,?_,?_⟩
  · rw [kind]
    rcases step_onlyObjects taken with registers | server
    · exact registered fd ((registers fd _ listens).resolve_right (by simp))
    · exact server
  · rw [kind]
    cases step_taken taken with
    | worker act host worker idle move =>
      intro ev member listens
      rcases move.pending member with before | ⟨fd,found⟩
      · exact pending ev before listens
      · exact registered fd (listens ▸ found)
    | _ => exact pending
  · rw [kind]
    cases step_taken taken with
    | worker act host worker idle move =>
      intro pv entry
      rcases move.entered entry with object | ⟨same,ev,member,listens⟩
      · exact .inr object
      · exact .inl ⟨same,pending ev member listens⟩
    | _ => exact entered

theorem started_served (config : Config) : config.started.Served := by
  refine ⟨fun fd listens => ?_,by simp [Config.started,Worker.place,Place.rest],by simp [Config.started,Worker.entry]⟩
  simp only [Config.started,Config.interest] at listens
  split_ifs at listens
  all_goals simp at listens

/-! `HandleSend` has a packet to send. -/

@[simp] theorem sending_resume (ctx : Ctx) : (resume ctx).sending = none := by cases ctx <;> rfl

@[simp] theorem sending_afterRead (rs : Bool) (p : Ptr) (events : UInt32) (ctx : Ctx) : (afterRead rs p events ctx).sending = none :=
  afterRead_rule (P := fun w => w.sending = none) rfl (sending_resume ctx) rs events

@[simp] theorem sending_doProcessIo (p : Ptr) (events : UInt32) (ctx : Ctx) : (doProcessIo p events ctx).sending = none :=
  doProcessIo_rule (P := fun w => w.sending = none) rfl rfl (sending_resume ctx)

/-- The packet that is being sent is in the queue. -/
def Fronted (s : Sys) : Prop := ∀ p, s.worker.sending = some p → ∃ packet, s.host.frontPacket p = some packet

theorem Move.fronted {h h' : Host} {w w' : Worker} {act : Act} {p : Ptr} (move : Move h w act h' w') (sending : w'.sending = some p) :
    ∃ packet, h'.frontPacket p = some packet := by
  cases move with
  | batchEnd bRun => cases bRun <;> simp [Worker.sending] at sending
  | sendPacket q ctx packet front =>
    obtain rfl : q = p := Option.some.inj sending
    exact ⟨packet,front⟩
  | packetSent q ctx packet front empty =>
    obtain rfl : q = p := Option.some.inj sending
    exact ⟨packet,front⟩
  | written q ctx packet count front left fits =>
    obtain rfl : q = p := Option.some.inj sending
    obtain ⟨addr,sent⟩ := h.handleSend_ok q packet count
    obtain ⟨object,rest,live,queue⟩ := Host.front_packet front
    refine ⟨packet.reduce count,?_⟩
    rw [sent]
    simp [Host.frontPacket,Host.observe,Host.modify,live,SocketObject.frontOutPacket,SocketObject.reduceFront,queue]
  | _ => first | exact absurd sending (by simp) | simp [Worker.sending] at sending

theorem Fronted.step {s next : Sys} {act : Act} (fronted : s.Fronted) (call : s.SendCall) (taken : s.step act = some next) :
    next.Fronted := by
  have kept {host : Host} {p : Ptr} (sending : s.worker.sending = some p) (keeps : s.host.KeepsPackets host)
      (live : host.heap p ≠ none) : ∃ packet, host.frontPacket p = some packet := by
    obtain ⟨packet,front⟩ := fronted p sending
    obtain ⟨object,_,before,_⟩ := Host.front_packet front
    exact ⟨packet,by rw [keeps.front (call.inv.below before) live,front]⟩
  have held {p : Ptr} (sending : s.worker.sending = some p) : next.host.heap p ≠ none := by
    have inside : s.worker.handlesSend = some p := by
      cases at_w : s.worker <;> simp_all [Worker.sending,Worker.handlesSend]
    obtain ⟨object,live⟩ := call.held inside taken
    exact Option.ne_none_iff_exists'.mpr ⟨object,live⟩
  intro p sending
  cases step_taken taken with
  | arrive conn kind listening => exact fronted p sending
  | startAccept refused kind => exact kept sending (.startAccept refused s.host) (held sending)
  | sent act t sock addr raw buf q object sends kind idle found live valid room =>
    obtain ⟨packet,front⟩ := fronted p sending
    by_cases same : p = q
    · subst same
      obtain ⟨old,rest,before,queue⟩ := Host.front_packet front
      obtain rfl := Option.some.inj (before.symm.trans live)
      have pushed : (old.push raw buf addr).2.outPacketsQueue = packet::(rest ++ [MsgPacket.build raw (int32 buf.length) buf addr]) := by
        rw [SocketObject.push,if_neg (Nat.not_le.mpr room)]
        simp only [queue,List.cons_append]
      exact ⟨packet,by simp [setCaller,Host.frontPacket,Host.observe,Host.modify,live,SocketObject.frontOutPacket,pushed]⟩
    · exact ⟨packet,by simpa [setCaller,Host.frontPacket,Host.observe,Host.modify,same] using front⟩
  | limitSet sock num q change kind found which =>
    refine kept sending (.modify q change s.host (fun object => ?_)) (held sending)
    rcases which with rfl | rfl <;> rfl
  | caller t c reply host later found may step => exact kept sending step.packets (held sending)
  | worker act host worker idle move => exact move.fronted sending
  | _ => exact fronted p sending

/-! The listener acts only inside a callback. -/

theorem step_acting {s next : Sys} {act : Act} (taken : s.step act = some next) :
    next.callers = s.callers ∨ ∃ t c', next.callers = s.callers.set t c' ∧ s.mayAct t = true := by
  have free {t : Nat} (idle : s.isIdle t = true) : s.mayAct t = true := ((Bool.and_eq_true _ _).mp idle).2
  cases step_taken taken with
  | sent act t sock addr raw buf p object sends kind idle found live valid room =>
    refine .inr ⟨t,_,rfl,free ?_⟩
    by_contra busy
    cases act with
    | send u sock' raw' buf' =>
      obtain ⟨rfl,_⟩ : u = t ∧ _ := by simpa [message] using sends
      simp [step,startSend,busy] at taken
    | udpSend u sock' addr' raw' buf' =>
      obtain ⟨rfl,_⟩ : u = t ∧ _ := by simpa [message] using sends
      simp [step,startSend,busy] at taken
    | _ => simp [message] at sends
  | disconnect t sock idle =>
    refine .inr ⟨t,_,rfl,free ?_⟩
    by_contra busy
    simp [step,busy] at taken
  | connect t op addr idle offered =>
    refine .inr ⟨t,_,rfl,free ?_⟩
    by_contra busy
    simp [step,busy] at taken
  | stop t idle outside first =>
    refine .inr ⟨t,_,rfl,free ?_⟩
    by_contra busy
    simp [step,busy] at taken
  | caller t c reply host later found may call => exact .inr ⟨t,later,rfl,may⟩
  | _ => exact .inl rfl

/-- While the worker waits, or when it has exited, the listener is in no call; and it never stops the server. -/
structure Outside (s : Sys) : Prop where
  waits : s.worker = .epollPwait ∨ s.worker = .exited → s.listenerIdle = true
  stops : ∀ c, s.callers[0]? = some c → c.progress = 0

theorem Outside.step {s next : Sys} {act : Act} (outside : s.Outside) (taken : s.step act = some next) : next.Outside := by
  refine ⟨fun waits => ?_,fun c at_zero => ?_⟩
  · by_cases before : s.worker = .epollPwait ∨ s.worker = .exited
    · have idle := outside.waits before
      rcases step_acting taken with same | ⟨t,c',callers,may⟩
      · rwa [listenerIdle,same]
      · have other : t ≠ 0 := by
          rintro rfl
          rcases before with before | before <;> simp [mayAct,before] at may
        rw [listenerIdle,callers]
        cases at_callers : s.callers with
        | nil => rfl
        | cons first rest =>
          cases t with
          | zero => exact absurd rfl other
          | succ t => simpa [listenerIdle,at_callers] using idle
    · cases step_taken taken with
      | worker act host worker idle move => exact idle
      | _ => exact absurd waits before
  · rcases callers_step taken with ⟨same,_⟩ | ⟨t,d,d',found,callers,inside,_⟩ | ⟨t,d',rfl,_,_,callers⟩
    · exact outside.stops c (same ▸ at_zero)
    · by_contra stopping
      obtain ⟨e,at_e,going⟩ := progress_of_set found inside (callers ▸ at_zero) (Nat.pos_of_ne_zero stopping)
      exact absurd (outside.stops e at_e) (by omega)
    · have other : t ≠ 0 := by
        rintro rfl
        simp [Sys.step] at taken
      rw [callers,List.getElem?_set_ne other] at at_zero
      exact outside.stops c at_zero

theorem started_outside (config : Config) : config.started.Outside := by
  have idle (c) (member : c ∈ config.started.callers) : c = .idle := (List.mem_replicate.mp member).2
  refine ⟨fun _ => ?_,fun c at_zero => ?_⟩
  · rw [listenerIdle,Option.all_eq_true]
    exact fun c first => decide_eq_true (idle c (List.mem_of_mem_head? first))
  · rw [idle c (List.mem_of_getElem? at_zero)]
    rfl

/-- What keeps the worker from getting stuck. -/
structure Able (s : Sys) : Prop where
  call : s.SendCall
  served : s.Served
  fronted : s.Fronted
  outside : s.Outside

theorem Able.step {s next : Sys} {act : Act} (able : s.Able) (taken : s.step act = some next) : next.Able :=
  ⟨able.call.step taken,able.served.step able.call.inv taken,able.fronted.step able.call taken,able.outside.step taken⟩

theorem started_able (config : Config) : config.started.Able :=
  ⟨started_sendCall config,started_served config,by simp [Fronted,Config.started,Worker.sending],started_outside config⟩

theorem run_able {config : Config} {acts : List Act} {s : Sys} (run : Run config acts s) : s.Able :=
  Transition.exec_invariant_free (fun _ _ _ able taken => able.step taken) (started_able config) run

/-! A worker that waits can be woken. -/

/-- What `epoll_pwait` has to report, if there is room for it. -/
def dueBatch (h : Host) : List (FD × UInt32) :=
  (if h.cmdReady then [(h.cmdEvtFd,epollin)] else []) ++ (if h.exitReady then [(h.exitEvtFd,epollin)] else []) ++
    (if h.listenReady then [(h.listenSocket,epollin)] else [])

theorem dueBatch_found {h : Host} (cmd : h.interest h.cmdEvtFd = some .cmdEvtFd) (exit : h.interest h.exitEvtFd = some .exitEvtFd)
    (listens : h.listenReady = true → h.interest h.listenSocket = some .listenSocket) :
    ∃ batch, deliver h (dueBatch h) = some batch ∧ batch.length ≤ 3 ∧ (h.exitReady = true → ∃ ev ∈ batch, ev.ptr = .exitEvtFd) ∧
      ∀ events, leavesNone h (events ++ batch) = true := by
  cases listened : h.listenReady <;> cases commanded : h.cmdReady <;> cases raised : h.exitReady <;>
    simp [dueBatch,deliver,isReady,leavesNone,listened,commanded,raised,cmd,exit,listens]

theorem dueBatch_apart {h : Host} (cmd : h.interest h.cmdEvtFd = some .cmdEvtFd) (exit : h.interest h.exitEvtFd = some .exitEvtFd)
    (listens : h.listenReady = true → h.interest h.listenSocket = some .listenSocket) :
    ((dueBatch h).map Prod.fst).Nodup ∧ ∀ fd ∈ dueBatch h, ∀ p, h.interest fd.1 ≠ some (.object p) := by
  have differ {fd other : FD} {pv pv' : PVOID} (registered : h.interest fd = some pv) (others : h.interest other = some pv')
      (differs : pv ≠ pv') : fd ≠ other := by
    rintro rfl
    exact differs (Option.some.inj (registered.symm.trans others))
  have commands : h.cmdEvtFd ≠ h.exitEvtFd := differ cmd exit (by simp)
  cases listened : h.listenReady with
  | false => cases commanded : h.cmdReady <;> cases raised : h.exitReady <;> simp [dueBatch,listened,commanded,raised,cmd,exit,commands]
  | true =>
    have listen := listens listened
    have before : h.cmdEvtFd ≠ h.listenSocket ∧ h.exitEvtFd ≠ h.listenSocket := ⟨differ cmd listen (by simp),differ exit listen (by simp)⟩
    cases commanded : h.cmdReady <;> cases raised : h.exitReady <;>
      simp [dueBatch,listened,commanded,raised,cmd,exit,listen,commands,before]

theorem deliver_append {h : Host} {fds due : List (FD × UInt32)} {events batch : List EpollEvent} (found : deliver h fds = some events)
    (later : deliver h due = some batch) : deliver h (fds ++ due) = some (events ++ batch) := by
  rw [deliver,List.mapM_append,show fds.mapM _ = some events from found,show due.mapM _ = some batch from later]
  rfl

/-- The worker is woken by events of connections, or by the exit event, with all that is due. -/
theorem due_delivered {config : Config} {acts : List Act} {s : Sys} (run : Run config acts s) (waits : s.worker = .epollPwait)
    {fds : List (FD × UInt32)} {events : List EpollEvent} (found : deliver s.host fds = some events) (few : fds.length ≤ 3)
    (objects : ∀ fd ∈ fds, ∃ p, s.host.interest fd.1 = some (.object p)) (apart : (fds.map Prod.fst).Nodup)
    (woken : fds ≠ [] ∨ s.host.exitReady = true) : ∃ batch, s.step (.epollPwait (.ok (fds ++ dueBatch s.host))) =
      some (s.moveTo (clearReady (events ++ batch) s.host) (.batch ⟨true,events ++ batch⟩)) ∧
      (s.host.exitReady = true → ∃ ev ∈ events ++ batch, ev.ptr = .exitEvtFd) := by
  have idle := (run_able run).outside.waits (.inl waits)
  obtain ⟨managed,listenSocket,watches,listening⟩ := run_watching run (by simp [waits])
  obtain ⟨_,_,cmd⟩ := watches .cmdEvtFd (.inl rfl) config.cmd_open.2
  obtain ⟨_,_,exit⟩ := watches .exitEvtFd (.inr (.inl rfl)) config.exit_open.2
  have listens (ready : s.host.listenReady = true) : s.host.interest s.host.listenSocket = some .listenSocket := (listening ready).2
  obtain ⟨batch,due,short,told,none_left⟩ := dueBatch_found cmd exit listens
  have told (raised : s.host.exitReady = true) : ∃ ev ∈ events ++ batch, ev.ptr = .exitEvtFd := by
    obtain ⟨ev,member,ptr⟩ := told raised
    exact ⟨ev,List.mem_append_right events member,ptr⟩
  have delivered := deliver_append found due
  have size : (events ++ batch).length ≤ s.host.maxEvents := by
    rw [run_maxEvents run,List.length_append,deliver_length found]
    omega
  have some_event : events ++ batch ≠ [] := by
    rcases woken with more | raised
    · have events_some : events ≠ [] := fun none => more (List.length_eq_zero_iff.mp (by rw [← deliver_length found,none]; rfl))
      simp [events_some]
    · obtain ⟨ev,member,_⟩ := told raised
      exact List.ne_nil_of_mem member
  have nodup : ((fds ++ dueBatch s.host).map Prod.fst).Nodup := by
    obtain ⟨once,others⟩ := dueBatch_apart cmd exit listens
    rw [List.map_append,List.nodup_append]
    refine ⟨apart,once,fun fd listed other due => ?_⟩
    obtain ⟨first,member,rfl⟩ := List.mem_map.mp listed
    obtain ⟨second,later,rfl⟩ := List.mem_map.mp due
    obtain ⟨p,registered⟩ := objects first member
    exact fun same => others second later p (same ▸ registered)
  refine ⟨batch,?_,told⟩
  simp only [step,idle,if_true,workerAct,waits,epollPwait,delivered,Option.bind_some]
  exact if_pos ⟨some_event,size,nodup,none_left events⟩

end Sys

/-! The rank of the worker: the events of the batch, the rounds of `ProcessCommand`, the steps of a call. -/

def Place.events : Place → Nat
  | .batch b | .commands _ b | .executing _ b => b.rest.length + 1
  | .wait | .exited => 0

/-- The rounds that are left of the loop of `ProcessCommand`. -/
def Place.rounds : Place → Nat
  | .commands count _ => 2*count + 1
  | .executing count _ => 2*count
  | .batch _ | .wait | .exited => 0

def Host.queued (h : Host) (p : Ptr) : Nat := (h.heap p).elim 0 (fun object => object.outPacketsQueue.length)

/-- The steps that are left of a call, if no data is read or written. -/
def Worker.left (queued : Ptr → Nat) : Worker → Nat
  | .epollPwait | .batch _ | .command _ _ | .popCommand _ _ | .exited => 0
  | .timer _ | .closeAccepted _ _ | .connected _ _ _ | .remove .erase _ _ _ _ => 1
  | .addTcpSocket _ _ _ | .remove .delete _ _ _ _ => 2
  | .setNonBlocking _ _ _ | .remove .close _ _ _ _ => 3
  | .accept _ | .remove .deleteFD _ _ _ _ => 4
  | .popPacket p _ => 3*queued p - 1
  | .sendPacket p _ => 3*queued p
  | .sendLoop p _ => 3*queued p + 1
  | .readyWrite p _ => 3*queued p + 2
  | .read p _ _ _ => 3*queued p + 3
  | .readyRead p _ _ => 3*queued p + 4
  | .beforeIo (.object p) _ _ => 3*queued p + 5
  | .beforeIo _ _ _ => 5

@[simp] theorem left_resume (queued : Ptr → Nat) (ctx : Ctx) : (resume ctx).left queued = 0 := by cases ctx <;> rfl

theorem left_afterRead (queued : Ptr → Nat) (rs : Bool) (p : Ptr) (events : UInt32) (ctx : Ctx) :
    (afterRead rs p events ctx).left queued ≤ 3*queued p + 2 :=
  afterRead_rule (P := fun w => w.left queued ≤ 3*queued p + 2) le_rfl (by simp) rs events

theorem left_doProcessIo (queued : Ptr → Nat) (p : Ptr) (events : UInt32) (ctx : Ctx) :
    (doProcessIo p events ctx).left queued ≤ 3*queued p + 4 :=
  doProcessIo_rule (P := fun w => w.left queued ≤ 3*queued p + 4) le_rfl (Nat.add_le_add_left (by decide) _) (by simp)

theorem Host.KeepsPackets.queued_le {h h' : Host} (keeps : h.KeepsPackets h') (p : Ptr) : h'.queued p ≤ h.queued p := by
  unfold Host.queued
  cases live : h'.heap p with
  | none => exact Nat.zero_le _
  | some object =>
    rcases keeps.objects p object live with ⟨old,before,same⟩ | ⟨_,_,fresh⟩
    · simp [before,same]
    · simp [fresh]

theorem Host.queued_pos {h : Host} {p : Ptr} {packet : MsgPacket} (front : h.frontPacket p = some packet) : 0 < h.queued p := by
  obtain ⟨object,rest,live,queue⟩ := Host.front_packet front
  simp [Host.queued,live,queue]

theorem Host.queued_pop {h : Host} (p : Ptr) : (h.modify p SocketObject.popOutPacket).queued p = h.queued p - 1 := by
  cases live : h.heap p <;> simp [Host.queued,Host.modify,live,SocketObject.popOutPacket]

/-- A read that fails or is at the end of the stream is the last of its `HandleReceive`. -/
theorem Host.handleReceive_last (p : Ptr) (sock : SOCKET) (addr : Sockaddr) {rc : Except Errno (List UInt8)}
    (nothing : ∀ buf ∈ rc.toOption, buf = []) (timeMs : UInt64) (h : Host) : (h.handleReceive p sock addr rc timeMs).2 ≠ none := by
  have iteration (limiter : Limiter) (addr : Option Sockaddr) : (h.receiveIteration limiter addr p sock rc timeMs).2 ≠ none := by
    cases rc with
    | error code =>
      unfold Host.receiveIteration
      dsimp only
      split <;> simp
    | ok buf =>
      obtain rfl := nothing buf rfl
      simp [Host.receiveIteration]
  unfold Host.handleReceive
  cases h.kind with
  | tcpServer => exact iteration none none
  | tcpClient => exact iteration TcpClient.limiter none
  | udpServer => exact iteration UdpServer.limiter (some addr)

/-- The steps of the worker after `epoll_pwait`, where no data is read or written. -/
def Act.ends : Act → Prop
  | .worker | .timer _ _ | .beforeIo _ _ | .accept _ | .setNonBlocking _ | .addTcpSocket _ _ _ | .readyRead _ => True
  | .read (.error _) _ _ | .read (.ok []) _ _ | .write (.error _) => True
  | _ => False

/-- The steps of the worker and of the listener that lead back to `epoll_pwait`. -/
def Act.returns (act : Act) : Prop := act.ends ∨ ∃ reply, act = .caller 0 reply

namespace Sys

def rank (s : Sys) : Nat ×ₗ Nat ×ₗ Nat := toLex (s.worker.place.events,toLex (s.worker.place.rounds,s.worker.left s.host.queued))

section rank

variable {s next : Sys}

theorem rank_of_events (fewer : next.worker.place.events < s.worker.place.events) : next.rank < s.rank :=
  Prod.Lex.toLex_lt_toLex.mpr (.inl fewer)

theorem rank_of_rounds (same : next.worker.place.events = s.worker.place.events)
    (fewer : next.worker.place.rounds < s.worker.place.rounds) : next.rank < s.rank :=
  Prod.Lex.toLex_lt_toLex.mpr (.inr ⟨same,Prod.Lex.toLex_lt_toLex.mpr (.inl fewer)⟩)

theorem rank_of_left (same : next.worker.place = s.worker.place)
    (fewer : next.worker.left next.host.queued < s.worker.left s.host.queued) : next.rank < s.rank :=
  Prod.Lex.toLex_lt_toLex.mpr (.inr ⟨congrArg Place.events same,
    Prod.Lex.toLex_lt_toLex.mpr (.inr ⟨congrArg Place.rounds same,fewer⟩)⟩)

end rank

/-- A step of the worker lowers its rank, whatever the system calls answer, unless data is read or written. -/
theorem Move.lowers {s : Sys} {act : Act} {host : Host} {worker : Worker} (move : Move s.host s.worker act host worker)
    (ends : act.ends) (executing : ∀ count b, s.worker.place = .executing count b → count ≠ 0) (fronted : s.Fronted) :
    (s.moveTo host worker).rank < s.rank := by
  obtain ⟨h,w,callers,stopCalled⟩ := s
  have keeps (before : w.sending = none) : h.KeepsPackets host := by
    cases move.touched with
    | kept keeps before after => exact keeps
    | _ => simp_all [Worker.sending]
  have back {ctx : Ctx} (place : ctx.place = w.place) (positive : 0 < w.left h.queued) :
      (moveTo host (resume ctx) ⟨h,w,callers,stopCalled⟩).rank < rank ⟨h,w,callers,stopCalled⟩ :=
    rank_of_left ((place_resume ctx).trans place) ((left_resume host.queued ctx).trans_lt positive)
  cases move with
  | interrupted code => simp [Act.ends] at ends
  | delivered fds batch found filled none_left => simp [Act.ends] at ends
  | batchEnd bRun => exact rank_of_events (by cases bRun <;> simp [moveTo,Worker.place,Place.events])
  | cmdEvent bRun rest ev ptr input => exact rank_of_events (by simp [moveTo,Worker.place,Place.events])
  | skipped bRun rest ev ptr none => exact rank_of_events (by simp [moveTo,Worker.place,Place.events])
  | timerEvent bRun rest ev ptr input => exact rank_of_events (by simp [moveTo,Worker.place,Place.events])
  | exitEvent bRun rest ev ptr => exact rank_of_events (by simp [moveTo,Worker.place,Place.events])
  | ioEvent bRun rest ev ptr => exact rank_of_events (by simp [moveTo,Worker.place,Ctx.place,Place.events])
  | commandsDone count b finished => exact rank_of_rounds rfl (by simp [moveTo,Worker.place,Place.rounds])
  | sendCommand count b cmd queue p front left kind found =>
    exact rank_of_rounds rfl (by simp [moveTo,Worker.place,Ctx.place,Place.rounds])
  | ignored count b cmd queue front left none => exact rank_of_rounds rfl (by simp [moveTo,Worker.place,Place.rounds])
  | disconnected count b cmd queue p object front left kind found live valid =>
    exact rank_of_rounds rfl (by simp [moveTo,Worker.place,Place.rounds])
  | popCommand count b =>
    have positive : count ≠ 0 := executing count b rfl
    exact rank_of_rounds rfl (by simp only [moveTo,Worker.place,Place.rounds]; omega)
  | closeAccepted sock ctx => exact back rfl (by simp [Worker.left])
  | connected p sock ctx => exact back rfl (by simp [Worker.left])
  | readyWrite p ctx valid => exact rank_of_left rfl (by simp [moveTo,Worker.left])
  | writeInvalid p ctx => exact back rfl (by simp [Worker.left])
  | sendDone p ctx empty => exact back rfl (by simp [Worker.left])
  | sendPacket p ctx packet front => exact rank_of_left rfl (by simp [moveTo,Worker.left])
  | packetSent p ctx packet front empty =>
    have positive : 0 < h.queued p := Host.queued_pos front
    exact rank_of_left rfl (by simp only [moveTo,Worker.left]; omega)
  | popPacket p ctx =>
    obtain ⟨packet,front⟩ := fronted p rfl
    have positive : 0 < h.queued p := Host.queued_pos front
    exact rank_of_left rfl (by simp only [moveTo,Worker.left,Host.queued_pop]; omega)
  | removeFD p sock count b => exact rank_of_left rfl (by simp [moveTo,Worker.left])
  | removeClose p sock count b => exact rank_of_left rfl (by simp [moveTo,Worker.left])
  | removeDelete p sock count b => exact rank_of_left rfl (by simp [moveTo,Worker.left])
  | removeErase p sock count b => exact rank_of_left rfl (by simp [moveTo,Worker.left])
  | timerFailed now b => exact rank_of_left rfl (by simp [moveTo,Worker.left])
  | timer exp now b => exact rank_of_left rfl (by simp [moveTo,Worker.left])
  | listenError events ctx soError now kind error => exact back rfl (by simp [Worker.left])
  | listen events ctx soError now kind fine => exact rank_of_left rfl (by simp [moveTo,Worker.left])
  | serverIo p events ctx soError now kind =>
    have short := left_doProcessIo h.queued p events ctx
    exact rank_of_left (place_doProcessIo p events ctx) (short.trans_lt (by simp [Worker.left]))
  | clientRefused p events ctx soError now kind refused => exact back rfl (by simp [Worker.left])
  | clientIo p events ctx soError now kind passed =>
    have short := left_doProcessIo (TcpClient.onBeforeProcessIo p soError now h).1.queued p events ctx
    have kept : (TcpClient.onBeforeProcessIo p soError now h).1.queued p ≤ h.queued p := (keeps rfl).queued_le p
    exact rank_of_left (place_doProcessIo p events ctx) (short.trans_lt (by simp only [Worker.left]; omega))
  | acceptFailed code ctx => exact back rfl (by simp [Worker.left])
  | accepted sock addr ctx conn rest listening waiting nonneg unused => exact rank_of_left rfl (by simp [moveTo,Worker.left])
  | nonBlocking sock addr ctx => exact rank_of_left rfl (by simp [moveTo,Worker.left])
  | blocking sock addr ctx => exact back rfl (by simp [Worker.left])
  | added sock addr ctx raw now refused ok => exact rank_of_left rfl (by simp [moveTo,Worker.left])
  | notAdded sock addr ctx raw now refused failed => exact rank_of_left rfl (by simp [moveTo,Worker.left])
  | readInvalid p events ctx now none => exact back rfl (by simp [Worker.left])
  | readStarted p events ctx now sock next started =>
    have kept := (keeps rfl).queued_le p
    exact rank_of_left rfl (by simp only [moveTo,Worker.left]; omega)
  | readOn p sock events ctx rc addr timeMs fits again =>
    refine absurd again (h.handleReceive_last p sock addr (fun buf member => ?_) timeMs)
    cases rc with
    | error code => simp [Except.toOption] at member
    | ok data =>
      obtain rfl : data = buf := Option.some.inj member
      cases data with
      | nil => rfl
      | cons byte bytes => simp [Act.ends] at ends
  | readDone p sock events ctx rc addr timeMs rs fits done =>
    have short := left_afterRead (h.handleReceive p sock addr rc timeMs).1.queued rs p events ctx
    have kept : (h.handleReceive p sock addr rc timeMs).1.queued p ≤ h.queued p := (keeps rfl).queued_le p
    exact rank_of_left (place_afterRead rs p events ctx) (short.trans_lt (by simp only [Worker.left]; omega))
  | written p ctx packet count front left fits => simp [Act.ends] at ends
  | writeFailed p ctx code =>
    obtain ⟨packet,front⟩ := fronted p rfl
    have positive : 0 < h.queued p := Host.queued_pos front
    exact back rfl (by simp only [Worker.left]; omega)

theorem ends_move {s next : Sys} {act : Act} (ends : act.ends) (taken : s.step act = some next) :
    ∃ host worker, Move s.host s.worker act host worker ∧ next = s.moveTo host worker := by
  cases step_taken taken with
  | sendRefused act sends => cases act <;> first | exact ends.elim | simp [message] at sends
  | sent act t sock addr raw buf p object sends kind idle found live valid room =>
    cases act <;> first | exact ends.elim | simp [message] at sends
  | worker act host worker idle move => exact ⟨host,worker,move,rfl⟩
  | _ => exact ends.elim

theorem Able.lowers {s next : Sys} {act : Act} (able : s.Able) (ends : act.ends) (taken : s.step act = some next) : next.rank < s.rank := by
  obtain ⟨host,worker,move,rfl⟩ := ends_move ends taken
  exact move.lowers ends (fun count b place => (able.call.inv.control.executing count b place).2) able.fronted

theorem step_ends {s : Sys} {act : Act} (idle : s.listenerIdle = true) (ends : act.ends) : s.step act = s.workerAct act := by
  cases act <;> first | exact ends.elim | simp only [step,idle,if_true]

/-- Unless it waits or has exited, the worker has a step, and one that neither reads nor writes data. -/
theorem Able.enabled {s : Sys} (able : s.Able) (idle : s.listenerIdle = true) (busy : s.worker ≠ .epollPwait) (working : s.worker ≠ .exited) :
    ∃ act next, act.ends ∧ s.step act = some next := by
  have taken (act : Act) (ends : act.ends) (works : (s.workerAct act).isSome) : ∃ act next, act.ends ∧ s.step act = some next := by
    obtain ⟨next,works⟩ := Option.isSome_iff_exists.mp works
    exact ⟨act,next,ends,(step_ends idle ends).trans works⟩
  cases at_w : s.worker with
  | epollPwait => exact absurd at_w busy
  | exited => exact absurd at_w working
  | timer b => exact taken (.timer none 0) trivial (by simp [workerAct,at_w])
  | beforeIo pv events ctx =>
    apply taken (.beforeIo (.ok 0) 0) trivial
    rcases able.served.entered pv (by rw [at_w,Worker.entry]) with ⟨rfl,server⟩ | ⟨p,rfl⟩
    · simp [workerAct,at_w,beforeIo,server]
    · cases kind : s.host.kind <;> simp [workerAct,at_w,beforeIo,kind]
  | accept ctx => exact taken (.accept (.error ewouldblock)) trivial (by simp [workerAct,at_w,accept])
  | setNonBlocking sock addr ctx => exact taken (.setNonBlocking true) trivial (by simp [workerAct,at_w])
  | addTcpSocket sock addr ctx => exact taken (.addTcpSocket .blank 0 false) trivial (by simp [workerAct,at_w])
  | readyRead p events ctx => exact taken (.readyRead 0) trivial (by simp [workerAct,at_w])
  | read p sock events ctx => exact taken (.read (.error ewouldblock) [] 0) trivial (by simp [workerAct,at_w,Host.fitsBuffer])
  | sendPacket p ctx =>
    obtain ⟨packet,front⟩ := able.fronted p (by rw [at_w,Worker.sending])
    by_cases empty : packet.size = 0
    · exact taken .worker trivial (by simp [workerAct,workerStep,at_w,packetSent,front,empty])
    · exact taken (.write (.error ewouldblock)) trivial (by simp [workerAct,at_w,write,front,empty,Host.fitsPacket])
  | _ => exact taken .worker trivial (by simp [workerAct,workerStep,at_w])

/-! The call that the listener is in. -/

section calls

variable {t : Nat} {h h' : Host} {c c' : Caller}

theorem calls_none (h : Host) (c : Caller) : Calls t h c h c := by
  refine ⟨[],fun s host found _ => ?_⟩
  obtain ⟨inside,at_t⟩ := List.getElem?_eq_some_iff.mp found
  subst host at_t
  simp [setCaller]

theorem calls_return (outside : c.progress = 0) (h : Host) : ∃ h', Calls t h c h' .idle := by
  have added (sock : SOCKET) (p : Ptr) (notify : Bool) (h : Host) : ∃ h', Calls t h (.addFD sock p notify) h' .idle := by
    have tried : Calls t h (.addFD sock p notify) (h.addFD sock (.object p) false).2 (afterAdd notify sock p) :=
      .single .done (fun s host => by rw [← host]; rfl)
    exact ⟨_,tried.trans (calls_told sock p notify _)⟩
  induction c generalizing h with
  | idle => exact ⟨h,calls_none h .idle⟩
  | trigger cmd fd next ih =>
    exact (ih outside (h.triggerCmdEvent cmd fd)).imp (fun _ later => (calls_trigger cmd fd next h).trans later)
  | evtWrite next ih =>
    have written : Calls t h (.evtWrite next) h.writeCmdEvt next := .single .done (fun s host => by rw [← host]; rfl)
    exact (ih outside h.writeCmdEvt).imp (fun _ later => written.trans later)
  | closeAll last => simp [Caller.progress] at outside
  | socket op addr => exact ⟨h,calls_noSocket op addr 0 h⟩
  | connect op addr sock =>
    by_cases closes : op = .asynchConnectTo
    · subst closes
      exact ⟨h,.single (.failed 0) (fun s host => by rw [← host]; rfl)⟩
    · exact ⟨h.closeFD sock,calls_refused closes addr sock h⟩
  | count sock p notify => exact ⟨_,calls_added sock p notify false h⟩
  | insert sock p notify =>
    have inserted : Calls t h (.insert sock p notify) (h.insertSocketObject sock p) (.addFD sock p notify) :=
      .single .done (fun s host => by rw [← host]; rfl)
    exact (added sock p notify (h.insertSocketObject sock p)).imp (fun _ later => inserted.trans later)
  | addFD sock p notify => exact added sock p notify h
  | onConnect sock p => exact ⟨h.observe (.onConnect p sock),.single .done (fun s host => by rw [← host]; rfl)⟩
  | closeSock sock => exact ⟨h.closeFD sock,.single .done (fun s host => by rw [← host]; rfl)⟩
  | stop stage => cases stage <;> simp [Caller.progress] at outside

theorem Calls.reaches {s : Sys} (calls : Calls t s.host c h' c') (found : s.callers[t]? = some c) (may : s.mayAct t = true) :
    Transition.Reaches Sys.step (fun act => ∃ reply, act = .caller t reply) s ({s with host := h'}.setCaller t c') := by
  obtain ⟨replies,run⟩ := calls
  refine ⟨_,fun act member => ?_,run s rfl found may⟩
  obtain ⟨reply,_,same⟩ := List.mem_map.mp member
  exact ⟨reply,same.symm⟩

end calls

theorem Able.listener_returns {s : Sys} (able : s.Able) : ∃ final, Transition.Reaches Sys.step Act.returns s final ∧
    final.worker = s.worker ∧ final.listenerIdle = true ∧ ∀ t, t ≠ 0 → final.callers[t]? = s.callers[t]? := by
  by_cases idle : s.listenerIdle = true
  · exact ⟨s,.refl s,rfl,idle,fun t _ => rfl⟩
  · obtain ⟨c,rest,callers⟩ : ∃ c rest, s.callers = c::rest := by
      cases at_callers : s.callers with
      | nil => simp [listenerIdle,at_callers] at idle
      | cons c rest => exact ⟨c,rest,rfl⟩
    have found : s.callers[0]? = some c := by rw [callers]; rfl
    have waiting : s.worker ≠ .epollPwait := fun waits => idle (able.outside.waits (.inl waits))
    have exited : s.worker ≠ .exited := fun exited => idle (able.outside.waits (.inr exited))
    obtain ⟨h',calls⟩ := calls_return (t := 0) (able.outside.stops c found) s.host
    refine ⟨_,(calls.reaches found (by simp [mayAct,waiting,exited])).mono (fun _ => .inr),rfl,?_,fun t other => ?_⟩
    · simp [listenerIdle,setCaller,callers]
    · exact List.getElem?_set_ne (Ne.symm other)

/-- The worker ends what it is doing, where the listener has returned. -/
theorem Able.settles {s : Sys} (able : s.Able) (idle : s.listenerIdle = true) :
    ∃ final, Transition.Reaches Sys.step Act.ends s final ∧ (final.worker = .epollPwait ∨ final.worker = .exited) ∧
      final.callers = s.callers := by
  have progress (state : Sys) (inv : state.Able ∧ state.callers = s.callers) (busy : ¬ (state.worker = .epollPwait ∨ state.worker = .exited)) :
      ∃ next, Transition.Reaches Sys.step Act.ends state next ∧ (next.Able ∧ next.callers = s.callers) ∧ next.rank < state.rank := by
    obtain ⟨able,callers⟩ := inv
    obtain ⟨waiting,exited⟩ := not_or.mp busy
    obtain ⟨act,next,ends,taken⟩ := able.enabled (by rwa [listenerIdle,callers]) waiting exited
    refine ⟨next,.single ends taken,⟨able.step taken,?_⟩,able.lowers ends taken⟩
    obtain ⟨host,worker,_,rfl⟩ := ends_move ends taken
    exact callers
  obtain ⟨final,reached,⟨_,callers⟩,rests⟩ := Transition.Reaches.of_variant rank progress ⟨able,rfl⟩
  exact ⟨final,reached,rests,callers⟩

/-- The worker is never stuck, and what it does without reading or writing data comes to an end: it waits again
in `epoll_pwait`, or its thread has ended. -/
theorem worker_returns {config : Config} {acts : List Act} {s : Sys} (run : Run config acts s) :
    Acc (fun next state => ∃ act, Act.ends act ∧ state.step act = some next) s ∧
    ∃ final, Transition.Reaches Sys.step Act.returns s final ∧ (final.worker = .epollPwait ∨ final.worker = .exited) ∧
      ∀ t, t ≠ 0 → final.callers[t]? = s.callers[t]? := by
  have able := run_able run
  constructor
  · have ending (state : Sys) (able : state.Able) : Acc (fun next state => ∃ act, Act.ends act ∧ state.step act = some next) state := by
      induction state using (InvImage.wf rank wellFounded_lt).induction with
      | h state ih => exact .intro state (fun next ⟨act,ends,taken⟩ => ih next (able.lowers ends taken) (able.step taken))
    exact ending s able
  · obtain ⟨between,listened,_,idle,others⟩ := able.listener_returns
    have kept : between.Able := listened.invariant (fun _ _ _ able taken => able.step taken) able
    obtain ⟨final,settled,rests,callers⟩ := kept.settles idle
    exact ⟨final,listened.trans (settled.mono (fun _ => .inl)),rests,fun t other => (congrArg (·[t]?) callers).trans (others t other)⟩

/-- The listener is handed a byte and asks for the connection to be closed. -/
def calledBack : List Act :=
  connectionBurst 1 ++ [.epollPwait (.ok [(7,epollin)]),.worker,.beforeIo (.ok 0) 0,.readyRead 0,.read (.ok [1]) [] 0,.disconnect 0 7]

theorem calledBack_returns : ∃ s, Run (.plain .tcpServer 2) calledBack s ∧ s.listenerIdle = false ∧
    Acc (fun next state => ∃ act, Act.ends act ∧ state.step act = some next) s ∧
    ∃ final, Transition.Reaches Sys.step Act.returns s final ∧ (final.worker = .epollPwait ∨ final.worker = .exited) ∧
      ∀ t, t ≠ 0 → final.callers[t]? = s.callers[t]? := by
  obtain ⟨s,run,busy⟩ := run_reaches (.plain .tcpServer 2) calledBack (fun s => s.listenerIdle = false) (by decide +kernel)
  exact ⟨s,run,busy,worker_returns run⟩

end Sys

end LightServer
