import LightServer.ListenSocket

/-! What `TcpServer::Start` leaves of the connections. Nothing changes that their callbacks depend on, and a
worker that begins finds no connection. -/
namespace LightServer

namespace View

/-- What a call that is not a step of a thread or of the worker does to the table. -/
inductive Restart : View → View → Prop
  | kept (T sock isOpen registered role pending exited tasks)
      (fewer : ∀ fd p, registered fd = some p → T.registered fd = some p) (working : exited = false → isOpen = T.isOpen) :
      Restart ⟨T,role,pending,exited,tasks⟩
        ⟨{T with listenSocket := sock, isOpen := isOpen, registered := registered},role,pending,exited,tasks⟩
  | begun (T sock isOpen registered tasks) (empty : ∀ k, T.find k = none) (unregistered : ∀ fd, registered fd = none) :
      Restart ⟨T,.free,[],true,tasks⟩
        ⟨{T with listenSocket := sock, isOpen := isOpen, registered := registered},.free,[],false,tasks⟩

variable {v v' : View}

namespace Restart

theorem visible (restart : Restart v v') {p : Ptr} (seen : v'.Visible p) : v.Visible p := by
  cases restart with
  | kept T sock isOpen registered role pending exited tasks fewer working =>
    rcases seen with (found | ⟨fd,now⟩ | object) | member
    · exact .inl (.inl found)
    · exact .inl (.inr (.inl ⟨fd,fewer fd p now⟩))
    · exact .inl (.inr (.inr object))
    · exact .inr member
  | begun T sock isOpen registered tasks empty unregistered =>
    rcases seen with (found | ⟨fd,now⟩ | object) | member
    · exact .inl (.inl found)
    · simp [unregistered fd] at now
    · simp [Role.object] at object
    · simp at member

theorem sound (restart : Restart v v') (sound : v.Sound) : v'.Sound := by
  have visible (p : Ptr) (seen : v'.Visible p) : v.Visible p := restart.visible seen
  cases restart with
  | kept T sock isOpen registered role pending exited tasks fewer working =>
    exact ⟨fun p seen => sound.visible p (visible p seen),sound.core,sound.calls,sound.object,
      fun task member p making seen => sound.making task member p making (visible p seen),sound.distinct,sound.finished⟩
  | begun T sock isOpen registered tasks empty unregistered =>
    exact ⟨fun p seen => sound.visible p (visible p seen),sound.core,sound.calls,sound.object,
      fun task member p making seen => sound.making task member p making (visible p seen),sound.distinct,by simp⟩

theorem entered (restart : Restart v v') (entered : v.Entered) : v'.Entered := by
  cases restart with
  | kept => exact ⟨entered.named,entered.unique,entered.removing,entered.made⟩
  | begun T sock isOpen registered tasks empty unregistered =>
    exact ⟨fun k p found => absurd found (by simp [empty k]),entered.unique,by simp,entered.made⟩

theorem serving (restart : Restart v v') (serving : v.Serving) : v'.Serving := by
  have visible (p : Ptr) (seen : v'.Visible p) : v.Visible p := restart.visible seen
  cases restart with
  | kept =>
    exact ⟨serving.kind,serving.tasks,fun working p sock connected seen => serving.entered working p sock connected (visible p seen),
      serving.reading,serving.announcing,serving.removing⟩
  | begun T sock isOpen registered tasks empty unregistered =>
    refine ⟨serving.kind,serving.tasks,fun _ p k connected seen => ?_,by simp,by simp,by simp⟩
    rcases visible p seen with (⟨fd,found⟩ | ⟨fd,now⟩ | object) | member
    · simp [empty fd] at found
    · rcases seen with (⟨fd,found⟩ | ⟨fd,now⟩ | object) | member
      · simp [empty fd] at found
      · simp [unregistered fd] at now
      · simp [Role.object] at object
      · simp at member
    · simp [Role.object] at object
    · simp at member

theorem told (restart : Restart v v') {about : About} (told : v.Told about True) : v'.Told about True := by
  cases restart with
  | kept => exact told
  | begun T sock isOpen registered tasks empty unregistered =>
    obtain ⟨stage,replayed,live,opened⟩ := told
    have closed (v : View) (none : ∀ k, v.table.find k = none) : ¬ v.Opens about := by
      rintro ⟨p,k,_,found,_⟩
      simp [none k] at found
    refine ⟨stage,replayed,fun now => absurd now (closed _ empty),fun now => ?_⟩
    rcases opened now with before | ⟨loose,_⟩
    · exact absurd before (closed _ empty)
    · exact absurd trivial loose

theorem down (restart : Restart v v') (sound : v.Sound) (down : v.Down) : v'.Down := by
  cases restart with
  | kept T sock isOpen registered role pending exited tasks fewer working =>
    cases exited with
    | true =>
      intro stage p k now
      simp [show role = .removing stage p k from now] at sound
      simpa using sound.finished rfl
    | false =>
      obtain rfl := working rfl
      exact down
  | begun => simp [Down]

theorem keeps (restart : Restart v v') {sock : SOCKET} (keeps : v.Keeps sock) (still : v'.table.isOpen sock = true) :
    v'.Keeps sock := by
  cases restart with
  | kept => exact ⟨still,keeps.found,keeps.early⟩
  | begun T k isOpen registered tasks empty unregistered => exact ⟨still,keeps.found,by simp⟩

end Restart

end View

namespace Host

/-- The listening socket and the open fds may change, and registrations may be lost. -/
structure KeepsTable (h h' : Host) : Prop where
  table : h'.table = {h.table with listenSocket := h'.listenSocket, isOpen := h'.isOpen, registered := h'.table.registered}
  fewer : ∀ fd p, h'.table.registered fd = some p → h.table.registered fd = some p

namespace KeepsTable

variable {h h' : Host} {calls : ManagerCalls}

theorem refl (h : Host) : KeepsTable h h := ⟨rfl,fun _ _ => id⟩

theorem trans {next : Host} (first : KeepsTable h h') (second : KeepsTable h' next) : KeepsTable h next :=
  ⟨second.table.trans (by rw [first.table]),fun fd p now => first.fewer fd p (second.fewer fd p now)⟩

theorem of_table {sock : SOCKET} {isOpen : FD → Bool} {registered : FD → Option Ptr}
    (same : h'.table = {h.table with listenSocket := sock, isOpen := isOpen, registered := registered})
    (fewer : ∀ fd p, registered fd = some p → h.table.registered fd = some p) : KeepsTable h h' := by
  obtain rfl : h'.listenSocket = sock := congrArg Table.listenSocket same
  obtain rfl : h'.isOpen = isOpen := congrArg Table.isOpen same
  obtain rfl : h'.table.registered = registered := congrArg Table.registered same
  exact ⟨same,fewer⟩

theorem of_closes (closes : h.table.Closes h'.table) : KeepsTable h h' := by
  obtain ⟨isOpen,registered,same,_,fewer⟩ := closes
  exact of_table same fewer

theorem openFD (fd : FD) (h : Host) : KeepsTable h (h.openFD fd) := ⟨rfl,fun _ _ => id⟩

theorem closeFD (fd : FD) (h : Host) : KeepsTable h (h.closeFD fd) := of_closes (by simpa using h.table.closes_closeFD fd)

theorem setListenSocket (sock : SOCKET) (backlog : List Nat) (h : Host) :
    KeepsTable h {h with listenSocket := sock, backlog := backlog} := ⟨rfl,fun _ _ => id⟩

theorem setEvtFd (pv : PVOID) (fd : FD) (h : Host) : KeepsTable h (h.setEvtFd pv fd) := by
  cases pv <;> exact ⟨rfl,fun _ _ => id⟩

theorem addFD (fd : FD) {pv : PVOID} (other : pv.object? = none) (refused : Bool) (h : Host) : KeepsTable h (h.addFD fd pv refused).2 := by
  unfold Host.addFD
  split
  · exact refl h
  · refine ⟨rfl,fun k p now => ?_⟩
    by_cases same : k = fd
    · simp [Host.table,same,other] at now
    · simpa [Host.table,same] using now

theorem startAccept (refused : Bool) (h : Host) : KeepsTable h (Sys.startAccept refused h) := by
  unfold Sys.startAccept
  dsimp only
  split
  · exact (addFD h.listenSocket rfl refused h).trans ⟨rfl,fun _ _ => id⟩
  · exact refl h

theorem createEpoll (fd : FD) (h : Host) : KeepsTable h (h.createEpoll fd) := ⟨rfl,fun k p now => by simp [Host.table,Host.createEpoll] at now⟩

theorem setUp (interval : UInt64) (h : Host) : KeepsTable h (h.setUp interval calls).2 :=
  setUp_rule (fun fd _ host kept => kept.trans (openFD fd host)) (fun host pv fd kept => kept.trans (setEvtFd pv fd host))
    (fun host fd pv refused evt kept => kept.trans (addFD fd (by rcases evt with rfl | rfl | rfl <;> rfl) refused host))
      (fun host fd kept => kept.trans (closeFD fd host)) interval (refl h)

/-- `Stop` deletes no object where there are no connections. -/
theorem stopJoined (empty : ∀ sock, h.table.find sock = none) : KeepsTable h h.stopJoined.2 := by
  have missing : h.table.find = fun _ => none := funext empty
  unfold Host.stopJoined
  split
  · obtain ⟨core,registered,same,fewer,unregistered⟩ := Host.table_releaseSocketObjects {h with cmdQueue := []}
    have kept : core = h.table.core := by
      funext p
      refine (fewer p).resolve_right ?_
      rintro ⟨_,sock,found⟩
      exact absurd (found.symm.trans (empty sock)) (by simp)
    have table : (Host.releaseSocketObjects {h with cmdQueue := []}).table = {h.table with registered := registered} := by
      rw [same,kept,← missing]
      rfl
    exact (of_table table unregistered).trans (of_closes (table_closeManagerFds _))
  · exact refl h

theorem find (keeps : KeepsTable h h') (sock : SOCKET) : h'.table.find sock = h.table.find sock := by rw [keeps.table]

end KeepsTable

end Host

namespace Sys

/-- A worker that begins has no connection registered. -/
theorem start_table {s : Sys} (empty : s.host.hasStart = false → ∀ sock, s.host.table.find sock = none) (interval : UInt64)
    (calls : ManagerCalls) : s.host.KeepsTable (s.start interval calls).2.host ∧
      (0 ≤ (s.start interval calls).1 → ∀ fd, (s.start interval calls).2.host.table.registered fd = none) := by
  unfold start
  split
  · exact ⟨.refl s.host,fun begun => by simp at begun⟩
  · rename_i down
    have missing := empty (by simpa using down)
    split
    · exact ⟨⟨rfl,fun _ _ => id⟩,fun begun => by simp at begun⟩
    · rename_i fd _
      dsimp only
      have created := Host.KeepsTable.createEpoll fd s.host
      have made : (s.host.createEpoll fd).KeepsTable ((s.host.createEpoll fd).setUp interval calls).2 := .setUp interval _
      split
      · refine ⟨created.trans made,fun _ other => Option.eq_none_iff_forall_not_mem.mpr (fun p now => ?_)⟩
        exact absurd (made.fewer other p now) (by simp [Host.table,Host.createEpoll])
      · have kept := created.trans made
        exact ⟨kept.trans (.stopJoined (fun sock => (kept.find sock).trans (missing sock))),fun begun => by simp at begun⟩

theorem restart_of_keeps {s next : Sys} (keeps : s.host.KeepsTable next.host) (worker : next.worker = s.worker)
    (callers : next.callers = s.callers) (working : s.worker ≠ .exited → next.host.isOpen = s.host.isOpen) :
    View.Restart s.view next.view := by
  unfold view
  rw [keeps.table,worker,callers]
  exact .kept _ _ _ _ _ _ _ _ keeps.fewer (fun going => working (of_decide_eq_false going))

end Sys

namespace TcpServer

variable {server next : TcpServer} {calls : ServerCalls}

theorem Ready.find (ready : server.Ready) (stopped : server.sys.host.hasStart = false) (sock : SOCKET) :
    server.sys.host.table.find sock = none := by
  simp [Host.table,Host.findSocketObject,ready.emptied.empty stopped]

theorem start_table (ready : server.Ready) (listener : TcpServerListener) (ipv4 : UInt32) (port : UInt16) (calls : ServerCalls) {ok : Bool}
    (started : server.start listener ipv4 port calls = (ok,next)) : server.sys.host.KeepsTable next.sys.host ∧
      (ok = true → ∀ fd, next.sys.host.table.registered fd = none) := by
  have opened (sock : SOCKET) : server.sys.host.KeepsTable (server.opened listener sock).sys.host :=
    (Host.KeepsTable.openFD sock _).trans (.setListenSocket sock [] _)
  rcases start_cases listener ipv4 port calls server with ⟨_,none⟩ | ⟨sock,_,⟨_,failed⟩ | ⟨_,result,begun,came⟩⟩
  · obtain ⟨rfl,rfl⟩ := Prod.mk.inj (started.symm.trans none)
    exact ⟨(Host.KeepsTable.setListenSocket invalidSocket [] _).trans (.closeFD _ _),by simp⟩
  · obtain ⟨rfl,rfl⟩ := Prod.mk.inj (started.symm.trans failed)
    exact ⟨(opened sock).trans (.closeFD _ _),by simp⟩
  · obtain ⟨kept,fresh⟩ := Sys.start_table (fun stopped k => ((opened sock).find k).trans (ready.find stopped k))
      server.timerInterval calls.manager
    rw [begun] at kept fresh
    rcases came with ⟨_,undone⟩ | ⟨success,done⟩
    · obtain ⟨rfl,rfl⟩ := Prod.mk.inj (started.symm.trans undone)
      exact ⟨((opened sock).trans kept).trans (.closeFD _ _),by simp⟩
    · obtain ⟨rfl,rfl⟩ := Prod.mk.inj (started.symm.trans done)
      have accepts := Host.KeepsTable.startAccept calls.acceptRefused result.2.host
      refine ⟨((opened sock).trans kept).trans accepts,fun _ fd => Option.eq_none_iff_forall_not_mem.mpr (fun p now => ?_)⟩
      exact absurd (accepts.fewer fd p now) (by simp [fresh success fd])

/-- `Start` on a server that is started leaves it with the number of another socket, which it has closed. -/
theorem start_running (ready : server.Ready) (running : server.sys.host.hasStart = true)
    (granted : server.sys.host.Granted calls.obtained) (listener : TcpServerListener) (ipv4 : UInt32) (port : UInt16) :
    ∃ sock waiting since events, (server.start listener ipv4 port calls).2 =
        ⟨{server.sys with host := {server.sys.host with listenSocket := sock, backlog := [], listenReady := waiting,
                                                        log := server.sys.host.log ++ since}},
          some listener,server.listenLog ++ events⟩ ∧
      server.sys.host.isOpen sock = false ∧ (since = [] ∨ since = [.closed sock]) ∧
        (events = [.closed sock] ∨ events = [.opened sock,.closed sock]) := by
  have tidy := ready.alive.tidy
  rcases start_cases listener ipv4 port calls server with ⟨_,none⟩ | ⟨sock,socket,outcome⟩
  · rw [none]
    refine ⟨invalidSocket,server.sys.host.listenReady,[],[.closed invalidSocket],?_,tidy.invalid,.inl rfl,.inl rfl⟩
    have shut : ({server.sys.host with listenSocket := invalidSocket, backlog := []} : Host).isOpen invalidSocket = false := tidy.invalid
    simp only [closeListenSocket,setListenSocket,Host.closeFD_closed shut,List.append_nil]
  · obtain ⟨⟨_,unused⟩,_⟩ := Granted.first granted socket
    have refused : (server.start listener ipv4 port calls).2 = (server.opened listener sock).closeListenSocket := by
      rcases outcome with ⟨_,failed⟩ | ⟨_,result,begun,⟨_,undone⟩ | ⟨success,_⟩⟩
      · rw [failed]
      · have still : (server.opened listener sock).sys.host.hasStart = true := running
        rw [undone,← begun,Sys.start,if_pos still]
      · have still : (server.opened listener sock).sys.host.hasStart = true := running
        rw [← begun,Sys.start,if_pos still] at success
        simp at success
    rw [refused]
    refine ⟨sock,false,[.closed sock],[.opened sock,.closed sock],?_,unused,.inr rfl,.inr rfl⟩
    have shut : Function.update (Function.update server.sys.host.isOpen sock true) sock false = server.sys.host.isOpen := by
      rw [Function.update_idem,← unused,Function.update_eq_self]
    have unregistered : Function.update server.sys.host.interest sock none = server.sys.host.interest := by
      rw [← tidy.registered sock unused,Function.update_eq_self]
    simp [closeListenSocket,opened,setListenSocket,Host.openFD,Host.closeFD,shut,unregistered]

/-- `Start` on a server that is not started opens its listening socket and begins, or closes what it has opened. -/
theorem start_stopped (ready : server.Ready) (stopped : server.sys.host.hasStart = false)
    (granted : server.sys.host.Granted calls.obtained) (listener : TcpServerListener) (ipv4 : UInt32) (port : UInt16) {ok : Bool}
    (started : server.start listener ipv4 port calls = (ok,next)) : next.sys.callers = server.sys.callers ∧ ∃ sock,
      (next.listenLog = server.listenLog ++ [.opened sock] ∧ ok = true ∧ next.sys.host.hasStart = true ∧ next.sys.worker = .epollPwait ∨
        (next.listenLog = server.listenLog ++ [.closed sock] ∨ next.listenLog = server.listenLog ++ [.opened sock,.closed sock]) ∧
          next.sys.worker = .exited) := by
  have exited := ready.alive.exited stopped
  rcases start_cases listener ipv4 port calls server with ⟨_,none⟩ | ⟨sock,socket,outcome⟩
  · obtain ⟨_,rfl⟩ := Prod.mk.inj (started.symm.trans none)
    exact ⟨rfl,invalidSocket,.inr ⟨.inl rfl,exited⟩⟩
  · obtain ⟨⟨nonneg,_⟩,rest⟩ := Granted.first granted socket
    have closed {sys : Sys} (same : sys.host.listenSocket = sock) :
        (closeListenSocket {server.opened listener sock with sys := sys}).listenLog = server.listenLog ++ [.opened sock,.closed sock] := by
      simp [closeListenSocket,opened,setListenSocket,same]
    rcases outcome with ⟨_,failed⟩ | ⟨_,result,begun,came⟩
    · obtain ⟨_,rfl⟩ := Prod.mk.inj (started.symm.trans failed)
      exact ⟨rfl,sock,.inr ⟨.inr (closed rfl),exited⟩⟩
    · have listening := manager_listenSocket ready nonneg rest begun
      rcases (ready.opened listener nonneg).alive.start_cases server.timerInterval rest with
        ⟨same,_⟩ | ⟨made,built,_,_,⟨_,same⟩ | ⟨_,same⟩⟩
      · obtain rfl := begun.symm.trans same
        rcases came with ⟨_,undone⟩ | ⟨success,_⟩
        · obtain ⟨_,rfl⟩ := Prod.mk.inj (started.symm.trans undone)
          exact ⟨rfl,sock,.inr ⟨.inr (closed listening),exited⟩⟩
        · simp at success
      · obtain rfl := begun.symm.trans same
        rcases came with ⟨failed,_⟩ | ⟨_,done⟩
        · simp at failed
        · obtain ⟨rfl,rfl⟩ := Prod.mk.inj (started.symm.trans done)
          have begins : made.2.hasStart = true := by simp [Host.hasStart,built.epoll]
          refine ⟨rfl,sock,.inl ⟨rfl,rfl,?_,rfl⟩⟩
          exact (Sys.hasStart_of_managed (Host.KeepsFds.startAccept calls.acceptRefused made.2).managed).trans begins
      · obtain rfl := begun.symm.trans same
        rcases came with ⟨_,undone⟩ | ⟨success,_⟩
        · obtain ⟨_,rfl⟩ := Prod.mk.inj (started.symm.trans undone)
          exact ⟨rfl,sock,.inr ⟨.inr (closed listening),exited⟩⟩
        · simp at success

theorem start_restarts (ready : server.Ready) (granted : server.sys.host.Granted calls.obtained) (listener : TcpServerListener)
    (ipv4 : UInt32) (port : UInt16) {ok : Bool} (started : server.start listener ipv4 port calls = (ok,next)) :
    View.Restart server.sys.view next.sys.view := by
  obtain ⟨keeps,fresh⟩ := start_table ready listener ipv4 port calls started
  cases status : server.sys.host.hasStart with
  | true =>
    obtain ⟨sock,waiting,since,events,result,_⟩ := start_running ready status granted listener ipv4 port
    obtain rfl := (congrArg Prod.snd started).symm.trans result
    exact Sys.restart_of_keeps keeps rfl rfl (fun _ => rfl)
  | false =>
    have exited := ready.alive.exited status
    obtain ⟨callers,sock,⟨_,ok,_,worker⟩ | ⟨_,worker⟩⟩ := start_stopped ready status granted listener ipv4 port started
    · have before : server.sys.view = ⟨server.sys.host.table,.free,[],true,server.sys.callers.map Caller.task⟩ := by
        simp [Sys.view,exited,Worker.role,Worker.place,Place.rest,objectsOf]
      rw [before]
      unfold Sys.view
      rw [keeps.table,worker,callers]
      exact .begun _ _ _ _ _ (ready.find status) (fresh ok)
    · exact Sys.restart_of_keeps keeps (worker.trans exited.symm) callers (fun working => absurd exited working)

/-- The calls that are not steps of a thread or of the worker. -/
theorem restarts (ready : server.Ready) {act : ServerAct} (outer : ∀ a, act ≠ .step a) (taken : server.step act = some next) :
    View.Restart server.sys.view next.sys.view := by
  cases step_taken taken with
  | start listener ipv4 port calls granted =>
    exact start_restarts ready granted listener ipv4 port rfl
  | stop down =>
    exact Sys.restart_of_keeps (.closeFD _ _) rfl rfl (fun working => absurd (ready.alive.exited down) working)
  | setHeartbeatInterval seconds =>
    unfold setHeartbeatInterval
    split
    · exact Sys.restart_of_keeps (.refl _) rfl rfl (fun _ => rfl)
    · exact Sys.restart_of_keeps ⟨rfl,fun _ _ => id⟩ rfl rfl (fun _ => rfl)
  | step act => exact absurd rfl (outer act)

end TcpServer

end LightServer
