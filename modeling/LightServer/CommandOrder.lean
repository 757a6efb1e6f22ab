import LightServer.Base.Call
import LightServer.CommandQueue
import LightServer.DisconnectOwner
import LightServer.KeepAlive

/-! The commands of a run: which steps push them, and that the worker executes them in the order
in which they were pushed, each once. -/
namespace LightServer

def TSockMCommand.call (command : TSockMCommand) : EvtCommand × FD := (command.cmd,command.fd)

/-- The `read` or `recvfrom` after which a `HandleReceive` calls `CloseSocket`. -/
def endsRead : Except Errno (List UInt8) → Bool
  | .ok buf => buf.isEmpty
  | .error code => code ≠ ewouldblock

namespace Host

variable {h : Host}

/-- The disconnects of an `OnTimer`. -/
def sweeps (exp : UInt64) (now : UInt32) (h : Host) : List (EvtCommand × FD) :=
  if h.kind = .tcpClient ∧ 0 < h.heartbeatInterval ∧ h.heartbeatInterval < h.keepAliveTime ∧
      (h.keepAliveTime / h.heartbeatInterval).toUInt64 ≤ h.timerEventCount + exp then
    (h.sortedKeys.filterMap (h.silence h.keepAliveTime.toUInt64 now)).map TSockMCommand.call
  else []

/-- The disconnect of an `OnBeforeProcessIo` that finds the connection failed. -/
def refuses (p : Ptr) (soError : Except Errno Int) (h : Host) : List (EvtCommand × FD) :=
  match h.kind, h.heap p with
  | .tcpClient, some object =>
    if object.fValid && !object.isConnected && soError.toOption != some 0 then [(.disconnect,object.socketId)] else []
  | _, _ => []

theorem closeSocket_pushes (started : h.hasStart = true) (sock : SOCKET) :
    (h.closeSocket sock).cmdQueue.map TSockMCommand.call = h.cmdQueue.map TSockMCommand.call ++ [(.disconnect,sock)] := by
  have pushed : (h.closeSocket sock).cmdQueue = h.cmdQueue ++ [⟨.disconnect,sock,h.findSocketObject sock⟩] :=
    disconnect_pushes started sock
  rw [pushed,List.map_append]
  rfl

theorem receiveIteration_pushes (started : h.hasStart = true) (limiter : Limiter) (addr : Option Sockaddr) (p : Ptr) (sock : SOCKET)
    (rc : Except Errno (List UInt8)) (timeMs : UInt64) :
    (h.receiveIteration limiter addr p sock rc timeMs).1.cmdQueue.map TSockMCommand.call =
      h.cmdQueue.map TSockMCommand.call ++ if endsRead rc then [(.disconnect,sock)] else [] := by
  have counted (host : Host) (count : Nat) : (host.countReceived limiter p count timeMs).cmdQueue = host.cmdQueue := by
    unfold countReceived
    split
    · split <;> rfl
    · rfl
  unfold receiveIteration
  split
  · exact closeSocket_pushes started sock
  · dsimp only
    split <;> simp [counted,observe,endsRead]
  · rename_i code
    by_cases full : code = ewouldblock
    · simp [full,endsRead]
    · simpa [full,endsRead] using closeSocket_pushes started sock

theorem handleReceive_pushes (started : h.hasStart = true) (p : Ptr) (sock : SOCKET) (addr : Sockaddr)
    (rc : Except Errno (List UInt8)) (timeMs : UInt64) :
    (h.handleReceive p sock addr rc timeMs).1.cmdQueue.map TSockMCommand.call =
      h.cmdQueue.map TSockMCommand.call ++ if endsRead rc then [(.disconnect,sock)] else [] := by
  unfold handleReceive
  cases h.kind with
  | tcpServer => exact receiveIteration_pushes started none none p sock rc timeMs
  | tcpClient => exact receiveIteration_pushes started TcpClient.limiter none p sock rc timeMs
  | udpServer => exact receiveIteration_pushes started UdpServer.limiter (some addr) p sock rc timeMs

theorem onTimer_pushes (started : h.hasStart = true) (exp : UInt64) (now : UInt32) :
    (h.onTimer exp now).cmdQueue.map TSockMCommand.call = h.cmdQueue.map TSockMCommand.call ++ h.sweeps exp now := by
  unfold onTimer sweeps
  cases kind : h.kind with
  | tcpServer => simp
  | udpServer => simp
  | tcpClient =>
    dsimp only [TcpClient.onTimer]
    split
    · rename_i due
      have pushed : ({h with timerEventCount := 0}.disconnectSilenceConnections h.keepAliveTime.toUInt64 now).cmdQueue =
          h.cmdQueue ++ h.sortedKeys.filterMap (h.silence h.keepAliveTime.toUInt64 now) :=
        disconnectSilence_pushes (h := {h with timerEventCount := 0}) started
      rw [if_pos ⟨rfl,due⟩,← List.map_append]
      exact congrArg _ pushed
    · rename_i early
      rw [if_neg (fun due => early due.2),List.append_nil]

theorem onBeforeProcessIo_pushes (started : h.hasStart = true) (client : h.kind = .tcpClient) (p : Ptr)
    (soError : Except Errno Int) (now : UInt32) :
    (TcpClient.onBeforeProcessIo p soError now h).1.cmdQueue.map TSockMCommand.call =
      h.cmdQueue.map TSockMCommand.call ++ h.refuses p soError := by
  unfold TcpClient.onBeforeProcessIo refuses
  cases live : h.heap p with
  | none => simp
  | some object =>
    simp only [client]
    by_cases valid : object.fValid = true
    · by_cases connected : object.isConnected = true
      · simp [valid,connected]
      · cases soError with
        | error code => simpa [valid,connected,Except.toOption] using closeSocket_pushes started object.socketId
        | ok optval =>
          by_cases fine : optval = 0
          · simp [valid,connected,fine,Except.toOption,observe,modify]
          · simpa [valid,connected,fine,Except.toOption] using closeSocket_pushes started object.socketId
    · simp [valid]

end Host

/-- A connection is told closed by the step that starts to remove it. -/
theorem View.Step.said_closed {v v' : View} (step : View.Step v v') (sock : SOCKET) :
    (v'.table.said (.socket sock)).count .closed = (v.table.said (.socket sock)).count .closed ∨
      v.role = .free ∧ (∃ p, v'.role = .removing .deleteFD p sock) ∧
        (v'.table.said (.socket sock)).count .closed = (v.table.said (.socket sock)).count .closed + 1 := by
  have other (T : Table) (p : Ptr) (k : SOCKET) {call : Session.Call} (speaks : call ≠ .closed) :
      ((T.record p k call).said (.socket sock)).count .closed = (T.said (.socket sock)).count .closed := by
    rw [Table.said_record]
    split <;> simp [speaks]
  have closed {T T' : Table} (closes : T.Closes T') :
      (T'.said (.socket sock)).count .closed = (T.said (.socket sock)).count .closed := by
    obtain ⟨_,_,rfl,_,_⟩ := closes
    rfl
  cases step with
  | work T role pending tasks T' role' work =>
    cases work with
    | connect p k _ kind core later => exact .inl (other (T.setCore p _) p k (by simp))
    | doRead p k => exact .inl (other T p k (by simp))
    | closeAccepted k => exact .inl (closed (T.closes_closeFD k))
    | announce p k => exact .inl (other T p k (by simp))
    | disconnect fd p k connected found core =>
      by_cases same : k = sock
      · subst same
        refine .inr ⟨rfl,⟨p,rfl⟩,(congrArg (List.count _) (Table.said_record _ p k .closed _)).trans ?_⟩
        simp [About.selects,Table.said,Table.setCore]
      · refine .inl ((congrArg (List.count _) (Table.said_other ?_)).trans rfl)
        simpa [About.selects] using same
    | removeClose p k => exact .inl (closed (T.closes_closeFD k))
    | _ => exact .inl rfl
  | call T role pending exited tasks t task T' task' found call =>
    cases call with
    | closeFD k => exact .inl (closed (T.closes_closeFD k))
    | announce k p => exact .inl (other T p k (by simp))
    | closeListenSocket => exact .inl (closed (T.closes_closeFD T.listenSocket))
    | closeFds _ finished closes => exact .inl (closed closes)
    | _ => exact .inl rfl
  | _ => exact .inl rfl

namespace Sys

/-- The commands that a step pushes: those of the threads inside `TriggerCmdEvent`, and those of the worker. -/
def pushes (s : Sys) (act : Act) : List (EvtCommand × FD) :=
  match act, s.worker with
  | .caller t _, _ =>
    match s.callers[t]? with
    | some (.trigger cmd fd _) => if s.host.hasStart then [(cmd,fd)] else []
    | _ => []
  | .read rc _ _, .read _ sock _ _ => if endsRead rc then [(.disconnect,sock)] else []
  | .timer (some exp) now, .timer _ => s.host.sweeps exp now
  | .beforeIo soError _, .beforeIo (.object p) _ _ => s.host.refuses p soError
  | _, _ => []

/-- The command that the worker has executed when it pops it. -/
def executes (s : Sys) (act : Act) : List (EvtCommand × FD) :=
  match act, s.worker with
  | .worker, .popCommand _ _ => s.host.cmdQueue.head?.toList.map TSockMCommand.call
  | _, _ => []

theorem pushes_none {s : Sys} {act : Act} (outside : ∀ t reply, act ≠ .caller t reply) (reading : ∀ rc addr time, act ≠ .read rc addr time)
    (timing : ∀ exp now, act ≠ .timer exp now) (asking : ∀ soError now, act ≠ .beforeIo soError now) : s.pushes act = [] := by
  unfold pushes
  split
  · exact absurd rfl (outside _ _)
  · exact absurd rfl (reading _ _ _)
  · exact absurd rfl (timing _ _)
  · exact absurd rfl (asking _ _)
  · rfl

theorem executes_none {s : Sys} {act : Act} (other : act ≠ .worker) : s.executes act = [] := by
  unfold executes
  split
  · exact absurd rfl other
  · rfl

theorem executes_front (s : Sys) (act : Act) :
    s.executes act = [] ∨ s.executes act = s.host.cmdQueue.head?.toList.map TSockMCommand.call := by
  unfold executes
  split
  · exact .inr rfl
  · exact .inl rfl

private theorem Move.ordered {h h' : Host} {w w' : Worker} {act : Act} {callers : List Caller} {stopCalled : Bool}
    (control : Control ⟨h,w,callers,stopCalled⟩) (move : Move h w act h' w') :
    executes ⟨h,w,callers,stopCalled⟩ act ++ h'.cmdQueue.map TSockMCommand.call =
      h.cmdQueue.map TSockMCommand.call ++ pushes ⟨h,w,callers,stopCalled⟩ act := by
  have started : h.hasStart = true := by simpa [Host.hasStart] using (control.started move.working).2
  have same {w : Worker} {h' : Host} {act : Act} (executed : executes ⟨h,w,callers,stopCalled⟩ act = [])
      (pushed : pushes ⟨h,w,callers,stopCalled⟩ act = []) (queue : h'.cmdQueue = h.cmdQueue) :
      executes ⟨h,w,callers,stopCalled⟩ act ++ h'.cmdQueue.map TSockMCommand.call =
        h.cmdQueue.map TSockMCommand.call ++ pushes ⟨h,w,callers,stopCalled⟩ act := by
    rw [executed,pushed,queue,List.append_nil,List.nil_append]
  cases move with
  | popCommand count b =>
    have left : h.cmdQueue ≠ [] := (control.executing count b rfl).1
    obtain ⟨command,queue,front⟩ := List.exists_cons_of_ne_nil left
    simp [executes,pushes,front,Host.popCmd]
  | timerFailed now b => exact same rfl rfl rfl
  | timer exp now b => simpa [executes,pushes] using Host.onTimer_pushes started exp now
  | clientRefused p events ctx soError now kind refused =>
    simpa [executes,pushes] using Host.onBeforeProcessIo_pushes started kind p soError now
  | clientIo p events ctx soError now kind passed =>
    simpa [executes,pushes] using Host.onBeforeProcessIo_pushes started kind p soError now
  | serverIo p events ctx soError now kind =>
    refine same rfl ?_ rfl
    have other : h.kind ≠ .tcpClient := kind
    simp [pushes,Host.refuses,other]
  | listenError events ctx soError now kind error => exact same rfl rfl rfl
  | listen events ctx soError now kind fine => exact same rfl rfl rfl
  | readOn p sock events ctx rc addr timeMs fits again =>
    simpa [executes,pushes] using Host.handleReceive_pushes started p sock addr rc timeMs
  | readDone p sock events ctx rc addr timeMs rs fits done =>
    simpa [executes,pushes] using Host.handleReceive_pushes started p sock addr rc timeMs
  | written p ctx packet count front left fits =>
    obtain ⟨addr,sent⟩ := h.handleSend_ok p packet count
    exact same rfl rfl (by rw [sent]; rfl)
  | readStarted p events ctx now sock next begun =>
    obtain ⟨object,_,_,_,rfl⟩ := Host.startReceive_eq begun
    exact same rfl rfl rfl
  | closeAccepted sock ctx => exact same rfl rfl (congrArg Prod.fst (h.control_closeFD sock))
  | removeClose p sock count b => exact same rfl rfl (congrArg Prod.fst (h.control_closeFD sock))
  | added sock addr ctx raw now refused ok => exact same rfl rfl (congrArg Prod.fst (h.control_addTcpSocket sock addr raw now refused))
  | notAdded sock addr ctx raw now refused failed =>
    exact same rfl rfl (congrArg Prod.fst (h.control_addTcpSocket sock addr raw now refused))
  | _ => exact same rfl rfl rfl

/-- A step executes from the front and pushes at the back. -/
theorem step_ordered {s next : Sys} {act : Act} (control : Control s) (working : s.worker ≠ .exited)
    (taken : s.step act = some next) :
    s.executes act ++ next.host.cmdQueue.map TSockMCommand.call = s.host.cmdQueue.map TSockMCommand.call ++ s.pushes act := by
  have same {act : Act} {host : Host} (executed : s.executes act = []) (pushed : s.pushes act = [])
      (queue : host.cmdQueue = s.host.cmdQueue) :
      s.executes act ++ host.cmdQueue.map TSockMCommand.call = s.host.cmdQueue.map TSockMCommand.call ++ s.pushes act := by
    rw [executed,pushed,queue,List.append_nil,List.nil_append]
  have calls {act : Act} {host : Host} (other : act ≠ .worker) (outside : ∀ t reply, act ≠ .caller t reply)
      (reading : ∀ rc addr time, act ≠ .read rc addr time) (timing : ∀ exp now, act ≠ .timer exp now)
      (asking : ∀ soError now, act ≠ .beforeIo soError now) (queue : host.cmdQueue = s.host.cmdQueue) :
      s.executes act ++ host.cmdQueue.map TSockMCommand.call = s.host.cmdQueue.map TSockMCommand.call ++ s.pushes act :=
    same (executes_none other) (pushes_none outside reading timing asking) queue
  cases step_taken taken with
  | startAccept refused kind =>
    exact calls (by simp) (by simp) (by simp) (by simp) (by simp) (congrArg Prod.fst (s.host.control_startAccept refused))
  | sendRefused act sends =>
    cases act with
    | send t sock raw buf => exact calls (by simp) (by simp) (by simp) (by simp) (by simp) rfl
    | udpSend t sock addr raw buf => exact calls (by simp) (by simp) (by simp) (by simp) (by simp) rfl
    | _ => cases sends
  | sent act t sock addr raw buf p object sends kind idle found live valid room =>
    cases act with
    | send t sock raw buf => exact calls (by simp) (by simp) (by simp) (by simp) (by simp) rfl
    | udpSend t sock addr raw buf => exact calls (by simp) (by simp) (by simp) (by simp) (by simp) rfl
    | _ => cases sends
  | caller t c reply host later found may call =>
    have unjoined : c.joined = false :=
      (Bool.not_eq_true _).mp (fun joined => working (control.joined c (List.mem_of_getElem? found) joined))
    cases call with
    | push cmd fd later started => simp [executes,pushes,found,started,setCaller,Host.pushCmd,TSockMCommand.call]
    | notStarted cmd fd later stopped => exact same rfl (by simp [pushes,found,stopped]) rfl
    | evtWrite later =>
      refine same rfl (by simp [pushes,found]) ?_
      simp only [setCaller,Host.writeCmdEvt]
      split <;> rfl
    | connected op addr sock raw now from_addr =>
      exact same rfl (by simp [pushes,found]) (congrArg Prod.fst (s.host.control_prepareObject raw from_addr (some now)))
    | inProgress addr sock raw =>
      exact same rfl (by simp [pushes,found]) (congrArg Prod.fst (s.host.control_prepareObject raw (some addr) none))
    | addFD sock p notify reply refused =>
      exact same rfl (by simp [pushes,found]) (congrArg Prod.fst (s.host.control_addFD sock (.object p) refused))
    | closeSock sock => exact same rfl (by simp [pushes,found]) (congrArg Prod.fst (s.host.control_closeFD sock))
    | closeListenSocket => exact same rfl (by simp [pushes,found]) (congrArg Prod.fst (s.host.control_closeFD s.host.listenSocket))
    | clear => cases unjoined
    | release => cases unjoined
    | closeFds => cases unjoined
    | _ => exact same rfl (by simp [pushes,found]) rfl
  | worker act host worker idle move => exact move.ordered control
  | _ => exact calls (by simp) (by simp) (by simp) (by simp) (by simp) rfl

/-- The command that the worker is executing. -/
def executing (s : Sys) : List (EvtCommand × FD) :=
  match s.worker.place with
  | .executing _ _ => s.host.cmdQueue.head?.toList.map TSockMCommand.call
  | _ => []

/-- The commands of a run so far: those that have been executed and those that are left. -/
structure Ordered (s : Sys) (executed pushed : List (EvtCommand × FD)) : Prop where
  inv : Inv s
  queued : s.worker ≠ .exited → executed ++ s.host.cmdQueue.map TSockMCommand.call = pushed
  done : executed <+: pushed

theorem Ordered.step {s next : Sys} {act : Act} {executed pushed : List (EvtCommand × FD)} (ordered : Ordered s executed pushed)
    (taken : s.step act = some next) : Ordered next (executed ++ s.executes act) (pushed ++ s.pushes act) := by
  by_cases exited : s.worker = .exited
  · have idle : s.executes act = [] := by simp [executes,exited]
    refine ⟨ordered.inv.step taken,fun working => absurd exited (step_working taken working),?_⟩
    rw [idle,List.append_nil]
    exact ordered.done.trans (List.prefix_append _ _)
  · have moved := step_ordered ordered.inv.control exited taken
    have queued : executed ++ s.executes act ++ next.host.cmdQueue.map TSockMCommand.call = pushed ++ s.pushes act := by
      rw [List.append_assoc,moved,← List.append_assoc,ordered.queued exited]
    exact ⟨ordered.inv.step taken,fun _ => queued,queued ▸ List.prefix_append _ _⟩

theorem Ordered.executing {s : Sys} {executed pushed : List (EvtCommand × FD)} (ordered : Ordered s executed pushed) :
    executed ++ s.executing <+: pushed := by
  unfold Sys.executing
  split
  · rename_i count b place
    have working : s.worker ≠ .exited := fun exited => by simp [exited,Worker.place] at place
    rw [← ordered.queued working]
    cases s.host.cmdQueue with
    | nil => simp
    | cons command queue => exact ⟨queue.map TSockMCommand.call,by simp⟩
  · simpa using ordered.done

theorem place_kept {s next : Sys} {act : Act} {count : Nat} {b : Batch} (taken : s.step act = some next)
    (place : s.worker.place = .executing count b) :
    next.worker.place = .executing count b ∨ act = .worker ∧ s.worker = .popCommand count b := by
  cases step_taken taken with
  | worker act host worker idle move =>
    have flow := move.flow
    generalize at_w : s.worker = w at flow place
    cases flow with
    | popCommand c b' =>
      obtain ⟨rfl,rfl⟩ : c = count ∧ b' = b := by simpa [Worker.place] using place
      exact .inr ⟨rfl,rfl⟩
    | inside w act host later same pushes => exact .inl (same.trans place)
    | _ => simp [Worker.place] at place
  | _ => exact .inl place

theorem executing_kept {s next : Sys} {act : Act} (control : Control s) (taken : s.step act = some next) :
    s.executing <+: s.executes act ++ next.executing := by
  unfold executing
  split
  · rename_i count b place
    have working : s.worker ≠ .exited := fun exited => by simp [exited,Worker.place] at place
    obtain ⟨command,queue,front⟩ := List.exists_cons_of_ne_nil (control.executing count b place).1
    have moved := step_ordered control working taken
    rcases place_kept taken place with still | ⟨rfl,pops⟩
    · rcases s.executes_front act with none | first
      · rw [none,List.nil_append,front] at moved
        simp only [none,List.nil_append,still,front,List.head?_cons,Option.toList_some,List.map_cons,List.map_nil]
        cases later : next.host.cmdQueue with
        | nil => simp [later] at moved
        | cons first rest =>
          rw [later,List.map_cons,List.map_cons,List.cons_append] at moved
          simp [(List.cons.inj moved).1]
      · rw [first]
        exact List.prefix_append _ _
    · simp [executes,pops]
  · exact List.nil_prefix

theorem place_removing {w : Worker} {stage : RemoveStage} {p : Ptr} {sock : SOCKET} (removing : w.role = .removing stage p sock) :
    ∃ count b, w.place = .executing count b := by
  cases w with
  | remove stage q k count b => exact ⟨count,b,rfl⟩
  | beforeIo pv events ctx => cases pv <;> simp [Worker.role] at removing
  | _ => simp [Worker.role] at removing

/-- What has been told closed was a command that has been executed. -/
structure Told (sock : SOCKET) (s : Sys) (executed : List (EvtCommand × FD)) : Prop where
  inv : Inv s
  closed : (s.host.table.said (.socket sock)).count .closed ≤ (executed ++ s.executing).count (.disconnect,sock)

theorem Told.step {sock : SOCKET} {s next : Sys} {act : Act} {executed : List (EvtCommand × FD)} (told : Told sock s executed)
    (taken : s.step act = some next) : Told sock next (executed ++ s.executes act) := by
  refine ⟨told.inv.step taken,?_⟩
  have still := executing_kept told.inv.control taken
  have closed := told.closed
  have step := (view_step told.inv.control taken).said_closed sock
  simp only [List.append_assoc,List.count_append] at closed ⊢
  rcases step with same | ⟨free,⟨p,removing⟩,one⟩
  · have kept := (still.sublist).count_le (.disconnect,sock)
    rw [List.count_append] at kept
    have same : (next.host.table.said (.socket sock)).count .closed = (s.host.table.said (.socket sock)).count .closed := same
    omega
  · have one : (next.host.table.said (.socket sock)).count .closed = (s.host.table.said (.socket sock)).count .closed + 1 := one
    have taking := step_taken taken
    cases taking with
    | worker act host worker idle move =>
      obtain ⟨count,b,cmd,queue,object,at_w,rfl,front,left,kind,found,live,valid,named⟩ := move.starts_remove removing
      have working : s.worker ≠ .exited := by simp [at_w]
      have named : cmd.fd = sock :=
        (told.inv.named found live (by simp [view,at_w,Worker.role])).symm.trans named
      have quiet : s.executing = [] := by simp [executing,at_w,Worker.place]
      obtain ⟨count',b',place⟩ := place_removing (w := worker) removing
      have moved := step_ordered told.inv.control working taken
      simp only [executes,at_w,pushes,List.nil_append,List.append_nil,front,List.map_cons] at moved
      have now : executing (s.moveTo host worker) = [(.disconnect,sock)] := by
        have place : (s.moveTo host worker).worker.place = .executing count' b' := place
        cases later : (s.moveTo host worker).host.cmdQueue with
        | nil => simp [later] at moved
        | cons first rest =>
          rw [later,List.map_cons] at moved
          simp only [executing,place,later,List.head?_cons,Option.toList_some,List.map_cons,List.map_nil]
          rw [(List.cons.inj moved).1,TSockMCommand.call,kind,named]
      rw [quiet] at closed
      rw [now]
      simp only [List.count_nil,List.count_cons_self] at closed ⊢
      omega
    | _ =>
      have removing : s.worker.role = .removing .deleteFD p sock := removing
      cases free.symm.trans removing

end Sys

end LightServer
