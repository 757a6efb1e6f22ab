import LightServer.WorkerProgress

/-! What `Send` has accepted can be written: where the socket takes the bytes, one writable event empties the
queue of its connection. -/
namespace LightServer

/-- The steps of the worker that handle an event, where writes succeed. -/
def Act.drains : Act → Prop
  | .epollPwait (.ok _) | .worker | .beforeIo (.ok _) _ | .write (.ok _) => True
  | _ => False

namespace Sys

open Transition

variable {s next : Sys} {act : Act} {p : Ptr} {ctx : Ctx} {object : SocketObject}

theorem drains_move (drains : act.drains) (taken : s.step act = some next) :
    ∃ host worker, Move s.host s.worker act host worker ∧ next = s.moveTo host worker := by
  cases step_taken taken with
  | sendRefused act sends => cases act <;> first | exact drains.elim | simp [message] at sends
  | sent act t sock addr raw buf p object sends kind idle found live valid room =>
    cases act <;> first | exact drains.elim | simp [message] at sends
  | worker act host worker idle move => exact ⟨host,worker,move,rfl⟩
  | _ => exact drains.elim

theorem drains_accepted (drains : act.drains) (tcp : s.host.kind ≠ .udpServer) (taken : s.step act = some next) (p : Ptr) :
    next.host.accepted p = s.host.accepted p ∧ next.host.kind = s.host.kind := by
  obtain ⟨host,worker,move,rfl⟩ := drains_move drains taken
  cases move.packets tcp with
  | kept keeps popping => exact ⟨keeps.accepted p,keeps.kind⟩
  | written q ctx packet count front fits host worker =>
    subst host
    exact ⟨by simp [moveTo,Host.accepted_observe,Obs.queuedTo],rfl⟩
  | popped q ctx at_pop host worker =>
    subst host
    exact ⟨rfl,rfl⟩

/-- A packet that has nothing left is popped. -/
theorem spent_popped (idle : s.listenerIdle = true) (at_packet : s.worker = .sendPacket p ctx) (live : s.host.heap p = some object)
    {packet : MsgPacket} {rest : List MsgPacket} (queue : object.outPacketsQueue = packet::rest) (spent : packet.size = 0) :
    Reaches Sys.step Act.drains s (s.moveTo (s.host.modify p SocketObject.popOutPacket) (.sendLoop p ctx)) := by
  have front : s.host.frontPacket p = some packet := by simp [Host.frontPacket,live,SocketObject.frontOutPacket,queue]
  have emptied : s.step .worker = some (s.moveTo s.host (.popPacket p ctx)) := by
    simp [step,idle,workerAct,workerStep,at_packet,packetSent,front,spent]
  have popped : (s.moveTo s.host (.popPacket p ctx)).step .worker =
      some (s.moveTo (s.host.modify p SocketObject.popOutPacket) (.sendLoop p ctx)) := by
    have idle : (s.moveTo s.host (.popPacket p ctx)).listenerIdle = true := idle
    simp only [step,idle,if_true]
    rfl
  have allowed : Act.drains .worker := trivial
  exact (Reaches.single allowed emptied).trans (.single allowed popped)

theorem front_written (idle : s.listenerIdle = true) (tcp : s.host.kind ≠ .udpServer) (at_packet : s.worker = .sendPacket p ctx)
    (live : s.host.heap p = some object) {packet : MsgPacket} {rest : List MsgPacket} (queue : object.outPacketsQueue = packet::rest)
    (left : 0 < packet.size) : ∃ host, Reaches Sys.step Act.drains s (s.moveTo host (.sendPacket p ctx)) ∧
      host.heap p = some (object.reduceFront packet.size) ∧ host.kind = s.host.kind := by
  obtain ⟨count,size⟩ : ∃ count : Nat, packet.size = count := ⟨packet.size.toNat,by omega⟩
  have front : s.host.frontPacket p = some packet := by simp [Host.frontPacket,live,SocketObject.frontOutPacket,queue]
  have fits : s.host.fitsPacket packet.size (.ok count) = true := by
    cases kind : s.host.kind with
    | udpServer => exact absurd kind tcp
    | _ => simp only [Host.fitsPacket,kind,Bool.and_eq_true,decide_eq_true_eq]; omega
  obtain ⟨addr,sent⟩ := s.host.handleSend_ok p packet count
  have taken : s.step (.write (.ok count)) = some (s.moveTo (s.host.handleSend p packet (.ok count)).1 (.sendPacket p ctx)) := by
    have nonempty : packet.size ≠ 0 := by omega
    simp only [step,idle,if_true,workerAct,at_packet,write,front,Option.bind_some,nonempty,fits,and_self,ne_eq,not_false_eq_true]
    rw [sent]
    rfl
  have allowed : Act.drains (.write (.ok count)) := trivial
  refine ⟨(s.host.handleSend p packet (.ok count)).1,.single allowed taken,?_,?_⟩
  · rw [sent,size]
    simp [Host.observe,Host.modify,live]
  · rw [sent]
    rfl

/-- The loop of `HandleSend`, where the socket takes every packet. -/
theorem sendLoop_drains (idle : s.listenerIdle = true) (tcp : s.host.kind ≠ .udpServer) (at_loop : s.worker = .sendLoop p ctx)
    (live : s.host.heap p = some object) (stored : ∀ packet ∈ object.outPacketsQueue, ∃ data, packet.Stored data) :
    ∃ final, Reaches Sys.step Act.drains s final ∧ ∃ object', final.host.heap p = some object' ∧ object'.outPacketsQueue = [] := by
  generalize at_queue : object.outPacketsQueue = queue at stored
  induction queue generalizing s object with
  | nil => exact ⟨s,.refl s,object,live,at_queue⟩
  | cons packet rest ih =>
    have front : s.host.frontPacket p = some packet := by simp [Host.frontPacket,live,SocketObject.frontOutPacket,at_queue]
    have allowed : Act.drains .worker := trivial
    have looked : s.step .worker = some (s.moveTo s.host (.sendPacket p ctx)) := by
      simp [step,idle,workerAct,workerStep,at_loop,front]
    -- the packet is popped at once, or after it has been written
    have popped {host : Host} {spent : MsgPacket} {object : SocketObject} (kind : host.kind = s.host.kind) (live : host.heap p = some object)
        (queue : object.outPacketsQueue = spent::rest) (empty : spent.size = 0) :
        ∃ final, Reaches Sys.step Act.drains (s.moveTo host (.sendPacket p ctx)) final ∧
          ∃ object', final.host.heap p = some object' ∧ object'.outPacketsQueue = [] := by
      have gone := spent_popped (s := s.moveTo host (.sendPacket p ctx)) idle rfl live queue empty
      have alive : (host.modify p SocketObject.popOutPacket).heap p = some object.popOutPacket := by simp [Host.modify,live]
      obtain ⟨final,later,drained⟩ := ih (s := s.moveTo (host.modify p SocketObject.popOutPacket) (.sendLoop p ctx)) idle
        (kind.symm ▸ tcp) rfl alive (by simp [SocketObject.popOutPacket,queue])
        (fun packet member => stored packet (List.mem_cons_of_mem _ member))
      exact ⟨final,gone.trans later,drained⟩
    obtain ⟨data,holds⟩ := stored packet (by simp)
    have nonneg : 0 ≤ packet.size := holds.unsent_length ▸ Int.natCast_nonneg _
    by_cases spent : packet.size = 0
    · obtain ⟨final,later,drained⟩ := popped rfl live at_queue spent
      exact ⟨final,(Reaches.single allowed looked).trans later,drained⟩
    · obtain ⟨host,written,reduced,kind⟩ :=
        front_written (s := s.moveTo s.host (.sendPacket p ctx)) idle tcp rfl live at_queue (by omega)
      have nothing : (packet.reduce packet.size).size = 0 := by
        obtain ⟨kept,unsent⟩ := holds.reduce nonneg le_rfl
        have whole := holds.unsent_length
        rw [← kept.unsent_length,unsent,List.length_drop]
        omega
      obtain ⟨final,later,drained⟩ := popped kind reduced (by simp [SocketObject.reduceFront,at_queue]) nothing
      exact ⟨final,((Reaches.single allowed looked).trans written).trans later,drained⟩

/-- `OnBeforeProcessIo` lets a writable event of a valid object pass, if `SO_ERROR` is 0. -/
theorem writable_passes {rest : List EpollEvent} (idle : s.listenerIdle = true) (tcp : s.host.kind ≠ .udpServer)
    (called : s.worker = .beforeIo (.object p) epollout (.batch ⟨true,rest⟩)) (live : s.host.heap p = some object)
    (valid : object.fValid = true) : ∃ host object', s.step (.beforeIo (.ok 0) 0) = some (s.moveTo host (.readyWrite p (.batch ⟨true,rest⟩))) ∧
      host.kind = s.host.kind ∧ host.heap p = some object' ∧ object'.fValid = true ∧
      object'.outPacketsQueue = object.outPacketsQueue := by
  have output : doProcessIo p epollout (.batch ⟨true,rest⟩) = .readyWrite p (.batch ⟨true,rest⟩) := by
    rw [doProcessIo,if_neg (by decide),afterRead,if_pos (by decide)]
  have ends : Act.ends (.beforeIo (.ok 0) 0) := trivial
  rw [step_ends idle ends]
  cases kind : s.host.kind with
  | udpServer => exact absurd kind tcp
  | tcpServer => exact ⟨s.host,object,by simp [workerAct,called,beforeIo,kind,output],kind,live,valid,rfl⟩
  | tcpClient =>
    by_cases connected : object.isConnected = true
    · exact ⟨s.host,object,by simp [workerAct,called,beforeIo,kind,output,TcpClient.onBeforeProcessIo,live,valid,connected],
        kind,live,valid,rfl⟩
    · refine ⟨(s.host.modify p (SocketObject.setConnected 0)).observe (.onConnect p object.socketId),object.setConnected 0,?_,kind,
        by simp [Host.observe,Host.modify,live],valid,rfl⟩
      simp [workerAct,called,beforeIo,kind,output,TcpClient.onBeforeProcessIo,live,valid,connected]

theorem writable_loops {rest : List EpollEvent} (idle : s.listenerIdle = true) (tcp : s.host.kind ≠ .udpServer)
    (at_batch : s.worker = .batch ⟨true,⟨epollout,.object p⟩::rest⟩) (live : s.host.heap p = some object) (valid : object.fValid = true) :
    ∃ host object', Reaches Sys.step Act.drains s (s.moveTo host (.sendLoop p (.batch ⟨true,rest⟩))) ∧
      host.kind = s.host.kind ∧ host.heap p = some object' ∧ object'.outPacketsQueue = object.outPacketsQueue := by
  have worker : Act.drains .worker := trivial
  have ends : Act.ends .worker := trivial
  have asked : Act.drains (.beforeIo (.ok 0) 0) := trivial
  have dispatched : s.step .worker = some (s.moveTo s.host (.beforeIo (.object p) epollout (.batch ⟨true,rest⟩))) := by
    rw [step_ends idle ends]
    simp [workerAct,workerStep,at_batch,dispatch]
  obtain ⟨host,object',passed,kind,live',valid',queue⟩ :=
    writable_passes (s := s.moveTo s.host (.beforeIo (.object p) epollout (.batch ⟨true,rest⟩))) idle tcp rfl live valid
  have looped : (s.moveTo host (.readyWrite p (.batch ⟨true,rest⟩))).step .worker =
      some (s.moveTo host (.sendLoop p (.batch ⟨true,rest⟩))) := by
    have still : host.isValid (some p) = true := by simp [Host.isValid,live',valid']
    rw [step_ends (s := s.moveTo host (.readyWrite p (.batch ⟨true,rest⟩))) idle ends]
    simp only [workerAct,workerStep,moveTo,still,if_true]
  exact ⟨host,object',((Reaches.single worker dispatched).trans (.single asked passed)).trans (.single worker looped),kind,live',queue⟩

theorem run_streaming {config : Config} {acts : List Act} (run : Run config acts s) (tcp : config.kind ≠ .udpServer)
    (sizes : ∀ act ∈ acts, SendsStored act) : s.Streaming :=
  exec_invariant (fun _ _ _ sizes streaming taken => (streaming.step sizes taken).1) (along_of_forall sizes)
    (started_streaming config tcp) run

/-- Whatever state a run has reached, if the worker waits and the connection is registered then everything that
`Send` has accepted for it can be written, in order, before anything else is handled. -/
theorem accepted_written {config : Config} {acts : List Act} (run : Run config acts s) (tcp : config.kind ≠ .udpServer)
    (sizes : ∀ act ∈ acts, SendsStored act) (waits : s.worker = .epollPwait) (live : s.host.heap p = some object)
    (valid : object.fValid = true) {fd : FD} (registered : s.host.interest fd = some (.object p)) :
    ∃ final, Reaches Sys.step Act.drains s final ∧ final.host.accepted p = s.host.accepted p ∧
      final.host.written p = s.host.accepted p := by
  have kind : s.host.kind ≠ .udpServer := run_kind run ▸ tcp
  have idle := (run_able run).outside.waits (.inl waits)
  have stored := (run_streaming run tcp sizes).sending.stored p object live
  have found : deliver s.host [(fd,epollout)] = some [⟨epollout,.object p⟩] := by simp [deliver,registered,isReady]
  obtain ⟨batch,taken,_⟩ := due_delivered run waits found (by simp) (by simpa using ⟨p,registered⟩) (by simp) (.inl (by simp))
  have woken : Act.drains (.epollPwait (.ok ([(fd,epollout)] ++ dueBatch s.host))) := trivial
  let delivered : Sys := s.moveTo (clearReady ([⟨epollout,.object p⟩] ++ batch) s.host) (.batch ⟨true,[⟨epollout,.object p⟩] ++ batch⟩)
  have at_batch : delivered.worker = .batch ⟨true,⟨epollout,.object p⟩::batch⟩ := rfl
  obtain ⟨host,object',loops,same,live',queue⟩ := writable_loops (s := delivered) idle kind at_batch live valid
  obtain ⟨final,drained,last,alive,empty⟩ := sendLoop_drains (s := delivered.moveTo host (.sendLoop p (.batch ⟨true,batch⟩))) idle
    (same.symm ▸ kind) rfl live' (queue.symm ▸ stored)
  obtain ⟨later,drains,goes_on⟩ := ((Reaches.single woken taken).trans loops).trans drained
  have accepted : final.host.accepted p = s.host.accepted p ∧ final.host.kind ≠ .udpServer :=
    exec_invariant (I := fun state => state.host.accepted p = s.host.accepted p ∧ state.host.kind ≠ .udpServer)
      (P := fun _ act => Act.drains act) (fun state act next drains inv taken => by
        obtain ⟨same,kept⟩ := drains_accepted drains inv.2 taken p
        exact ⟨same.trans inv.1,kept ▸ inv.2⟩) (along_of_forall drains) ⟨rfl,kind⟩ goes_on
  refine ⟨final,⟨later,drains,goes_on⟩,accepted.1,?_⟩
  have sizes : ∀ act ∈ acts ++ later, SendsStored act := by
    intro act member
    rcases List.mem_append.mp member with before | after
    · exact sizes act before
    · have quiet : message act = none := by
        have drains := drains act after
        cases act <;> first | rfl | exact drains.elim
      simp [SendsStored,quiet]
  have whole : Run config (acts ++ later) final := by
    rw [Run,exec_append,show exec Sys.step config.started acts = some s from run]
    exact goes_on
  have conserved := Channel.run_conserved (run_channel whole tcp sizes p) (by simp) ⟨_,_,Host.unsent last⟩
    (by rw [Host.channel,alive]; rfl)
  have written : final.host.written p ++ (Host.unsent last).flatten = final.host.accepted p := conserved
  rw [Host.unsent,empty,List.map_nil,List.flatten_nil,List.append_nil] at written
  exact written.trans accepted.1

/-- A message of which two bytes were written before the socket was full. -/
theorem partial_accepted_written : ∃ s, Run (.plain .tcpServer 2) (partialWrite ++ [.worker,.worker,.worker]) s ∧
    s.host.written 0 = [1,2] ∧ ∃ final, Reaches Sys.step Act.drains s final ∧ final.host.accepted 0 = s.host.accepted 0 ∧
      final.host.written 0 = s.host.accepted 0 := by
  obtain ⟨s,run,waits,live,registered,written⟩ : ∃ s, Run (.plain .tcpServer 2) (partialWrite ++ [.worker,.worker,.worker]) s ∧
      s.worker = .epollPwait ∧ s.host.isValid (some 0) = true ∧ s.host.interest 7 = some (.object 0) ∧ s.host.written 0 = [1,2] :=
    run_reaches _ _ _ (by decide +kernel)
  obtain ⟨object,live,valid⟩ := Host.isValid_live live
  exact ⟨s,run,written,accepted_written run (by decide) (by decide +kernel) waits live valid registered⟩

end Sys

end LightServer
