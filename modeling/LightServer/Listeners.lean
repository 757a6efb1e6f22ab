import LightServer.Datagrams
import LightServer.ReceiveCalls

/-! A process around a server: a listener whose `DoRead` answers what it is given. The listener runs on
the thread of the worker, which goes on when the listener has returned. -/
namespace LightServer

/-- The arguments of a call of `Send`. -/
abbrev Message := SOCKET × Option Sockaddr × List UInt8

/-- A class that listens to a server: the message that its `DoRead` sends, and what happens to its members
in the calls that its other functions and `main` make. It makes no others. -/
structure Listener (Members : Type) where
  doRead : Members → SOCKET → Option Sockaddr → List UInt8 → Option Message
  calls : Members → Sys → Act → Option Members

/-- `due` is the message of a `DoRead` that has been called and has not yet called `Send`. -/
structure App (Members : Type) where
  server : Sys
  members : Members
  due : Option Message

/-- A call of `DoRead`: the object and the block it is for, and the message it sends. -/
structure Callback where
  object : Ptr
  sock : SOCKET
  buf : List UInt8
  addr : Option Sockaddr
  message : Option Message

/-- The `Send` of a listener: the object it is for, and how many packets wait there. -/
structure Answer where
  object : Option Ptr
  message : Message
  waiting : Nat

namespace App

variable {Members : Type} (listener : Listener Members)

/-- The call of `DoRead` in a step of the server. -/
def callback (members : Members) (s next : Sys) : Option Callback :=
  (next.host.handed.drop s.host.handed.length).head?.map (fun call =>
    ⟨call.1,call.2.1,call.2.2.1,call.2.2.2,listener.doRead members call.2.1 call.2.2.2 call.2.2.1⟩)

def step (app : App Members) (act : Act) : Option (App Members) :=
  match Sys.message act with
  | some (t,sock,addr,_,buf) =>
    if t = 0 ∧ app.due = some (sock,addr,buf) then (app.server.step act).map (fun next => ⟨next,app.members,none⟩) else none
  | none =>
    if app.due = none ∨ act.works = false then
      (listener.calls app.members app.server act).bind (fun members => (app.server.step act).map (fun next =>
        ⟨next,members,app.due.or ((callback listener app.members app.server next).bind Callback.message)⟩))
    else none

def callbacks (app : App Members) (act : Act) : List Callback :=
  ((app.server.step act).bind (callback listener app.members app.server)).toList

def answers (app : App Members) (act : Act) : List Answer :=
  match Sys.message act with
  | some (_,sock,addr,_,buf) =>
    let object := app.server.host.findSocketObject sock
    [⟨object,(sock,addr,buf),(object.bind app.server.host.heap).elim 0 (fun object => object.outPacketsQueue.length)⟩]
  | none => []

def Run (config : Config) (members : Members) (acts : List Act) (app : App Members) : Prop :=
  Transition.exec (step listener) ⟨config.started,members,none⟩ acts = some app

/-- The message for an object whose `DoRead` has not returned. -/
def dueTo (p : Ptr) (app : App Members) : List Message :=
  match app.server.worker with
  | .read q _ _ _ => if q = p then app.due.toList else []
  | _ => []

end App

/-- The messages that `DoRead` has asked to send for an object. -/
def asksFor (p : Ptr) (callbacks : List Callback) : List Message :=
  (callbacks.filter (fun call => call.object = p)).filterMap Callback.message

def answersFor (p : Ptr) (answers : List Answer) : List Message :=
  (answers.filter (fun answer => answer.object = some p)).map Answer.message

theorem asksFor_append (p : Ptr) (first second : List Callback) : asksFor p (first ++ second) = asksFor p first ++ asksFor p second := by
  simp [asksFor]

theorem answersFor_append (p : Ptr) (first second : List Answer) :
    answersFor p (first ++ second) = answersFor p first ++ answersFor p second := by
  simp [answersFor]

/-- `PushMsg` refuses a message for which no place is left. -/
def storedFor (p : Ptr) (answers : List Answer) : List Message :=
  (answers.filter (fun answer => answer.object = some p ∧ answer.waiting < SocketObject.kMaxNumOfPackets)).map Answer.message

/-- The listener answers a block on the socket it came from. -/
def Listener.Answers {Members : Type} (listener : Listener Members) : Prop :=
  ∀ members sock addr buf message, listener.doRead members sock addr buf = some message →
    message.1 = sock ∧ message.2.2 = buf

namespace Sys

/-- A step calls `DoRead` once, for a block that has been read, or not at all. -/
theorem step_handed {s next : Sys} {act : Act} (taken : s.step act = some next) : next.host.handed = s.host.handed ∨
    ∃ p sock events ctx buf addr timeMs, s.worker = .read p sock events ctx ∧ act = .read (.ok buf) addr timeMs ∧
      0 < buf.length ∧ buf.length ≤ s.host.rxBufferSize ∧ next.worker = .read p sock events ctx ∧
      next.host.handed = s.host.handed ++ [(p,sock,buf,s.host.sender addr)] := by
  have same {host : Host} (readLog : host.readLog = s.host.readLog) : host.handed = s.host.handed := by
    rw [Host.handed,readLog,Host.handed]
  cases step_reads taken with
  | other silent readLog => exact .inl (same readLog)
  | read at_read received outcome =>
    rename_i p sock events ctx rc addr timeMs host result
    dsimp only [moveTo]
    cases outcome with
    | drained => exact .inl rfl
    | failed other closed => exact .inl (same (by rw [closed,Host.readLog_closeSocket]))
    | ended closed => exact .inl (same (by rw [closed,Host.readLog_closeSocket]))
    | dropped some_bytes exceeds log cmdQueue =>
      exact .inl (by simp [Host.handed,Host.readLog,log,Obs.reading,Obs.handed])
    | handed some_bytes within log cmdQueue =>
      rename_i buf
      have fits : buf.length ≤ s.host.rxBufferSize := by
        simp only [step,workerAct,at_read,Host.fitsBuffer] at taken
        grind
      refine .inr ⟨p,sock,events,ctx,buf,addr,timeMs,at_read,rfl,List.length_pos_iff.mpr some_bytes,fits,rfl,?_⟩
      simp [Host.handed,Host.readLog,log,Obs.reading,Obs.handed,List.filterMap_cons]

theorem queued_silent {s next : Sys} {act : Act} (taken : s.step act = some next) (silent : message act = none) (p : Ptr) :
    next.host.queuedDatagrams p = s.host.queuedDatagrams p := by
  cases step_taken taken with
  | arrive conn kind listening =>
    have keeps : s.host.KeepsPackets (arrive conn s.host) := .of_same rfl rfl rfl rfl
    exact keeps.queuedDatagrams p
  | startAccept refused kind => exact (Host.KeepsPackets.startAccept refused s.host).queuedDatagrams p
  | sent act t sock addr raw buf q object sends => simp [sends] at silent
  | caller t c reply host later found may call => exact call.packets.queuedDatagrams p
  | worker act host worker idle move =>
    cases move.touched with
    | kept keeps before after => exact keeps.queuedDatagrams p
    | written q ctx packet count at_w answered front left fits host worker =>
      obtain ⟨addr,sent⟩ := s.host.handleSend_ok q packet count
      rw [host,sent]
      simp [moveTo,Host.queuedDatagrams_observe,Obs.queuedDatagram]
    | failed q ctx code at_w answered host worker => rw [host]; rfl
    | emptied q ctx packet at_w front empty host worker => rw [host]; rfl
    | popped q ctx at_w host worker => rw [host]; rfl
  | _ => rfl

/-- A `Send` to a valid connection queues the message where there is room for it. -/
theorem send_queues {s next : Sys} {act : Act} {t : Nat} {sock : SOCKET} {addr : Option Sockaddr} {raw : MsgPacket} {buf : List UInt8}
    {p : Ptr} {object : SocketObject} (taken : s.step act = some next) (sends : message act = some (t,sock,addr,raw,buf))
    (found : s.host.findSocketObject sock = some p) (live : s.host.heap p = some object) (valid : object.fValid = true) (q : Ptr) :
    next.host.queuedDatagrams q = s.host.queuedDatagrams q ++
      if p = q ∧ object.outPacketsQueue.length < SocketObject.kMaxNumOfPackets then [(addr,buf)] else [] := by
  have started : s.startSend t sock addr raw buf = some next := by
    cases act <;> simp only [message,Option.some.injEq,Prod.mk.injEq,reduceCtorEq] at sends
    · obtain ⟨rfl,rfl,rfl,rfl,rfl⟩ := sends
      simp only [step] at taken
      split at taken
      · contradiction
      · exact taken
    · obtain ⟨rfl,rfl,rfl,rfl,rfl⟩ := sends
      simp only [step] at taken
      split at taken
      · exact taken
      · contradiction
  simp only [startSend] at started
  split at started
  · by_cases room : object.outPacketsQueue.length < SocketObject.kMaxNumOfPackets
    · have pushed : s.host.storeMessage sock addr raw buf =
          (0,(s.host.modify p (fun _ => (object.push raw buf addr).2)).observe (.queued p buf addr)) := by
        have accepted : (object.push raw buf addr).1 ≠ socketError := by
          simp [SocketObject.push,Nat.not_le.mpr room,socketError]
        simp only [Host.storeMessage,found,live,valid,if_true,if_neg accepted]
      rw [pushed,if_neg (show (0 : Int) ≠ socketError by decide)] at started
      obtain rfl := Option.some.inj started
      by_cases mine : p = q <;> simp [setCaller,Host.queuedDatagrams_observe,Obs.queuedDatagram,mine,room]
    · have refused : s.host.storeMessage sock addr raw buf = (socketError,s.host) := by
        simp [Host.storeMessage,found,live,valid,SocketObject.push,Nat.not_lt.mp room]
      rw [refused,if_pos rfl] at started
      obtain rfl := Option.some.inj started
      simp [room]
  · contradiction

/-- The worker reads for a valid connection of the map. -/
def Homed (s : Sys) : Prop := ∀ p sock events ctx, s.worker = .read p sock events ctx →
  s.host.findSocketObject sock = some p ∧ ∃ object, s.host.heap p = some object ∧ object.fValid = true

end Sys

namespace App

variable {Members : Type} {listener : Listener Members}

/-- The steps of the process: the listener sends what it has been asked for, `DoRead` is called, or neither. -/
inductive Step (listener : Listener Members) (app : App Members) (act : Act) (next : App Members) : Prop
  | sends (t sock addr raw buf) (sends : Sys.message act = some (t,sock,addr,raw,buf)) (due : app.due = some (sock,addr,buf))
      (later : next.due = none) (none_called : callbacks listener app act = []) (worker : next.server.worker = app.server.worker)
  | reads (p sock events ctx buf addr) (silent : Sys.message act = none) (due : app.due = none)
      (at_read : next.server.worker = .read p sock events ctx) (some_bytes : 0 < buf.length)
      (fits : buf.length ≤ app.server.host.rxBufferSize) (sender : ∃ from_addr, addr = app.server.host.sender from_addr)
      (later : next.due = listener.doRead app.members sock addr buf)
      (called : callbacks listener app act = [⟨p,sock,buf,addr,next.due⟩])
  | other (silent : Sys.message act = none) (same : next.due = app.due) (none_called : callbacks listener app act = [])
      (worker : app.due = none ∨ next.server.worker = app.server.worker)

theorem step_server {app next : App Members} {act : Act} (taken : step listener app act = some next) :
    app.server.step act = some next.server := by
  unfold step at taken
  split at taken
  · split at taken
    · obtain ⟨server,stepped,rfl⟩ := Option.map_eq_some_iff.mp taken
      exact stepped
    · contradiction
  · split at taken
    · obtain ⟨members,_,taken⟩ := Option.bind_eq_some_iff.mp taken
      obtain ⟨server,stepped,rfl⟩ := Option.map_eq_some_iff.mp taken
      exact stepped
    · contradiction

theorem members_step {app next : App Members} {act : Act} (taken : step listener app act = some next) :
    (Sys.message act).isSome ∧ next.members = app.members ∨
      Sys.message act = none ∧ listener.calls app.members app.server act = some next.members := by
  unfold step at taken
  split at taken
  · rename_i sends
    split at taken
    · obtain ⟨server,_,rfl⟩ := Option.map_eq_some_iff.mp taken
      exact .inl ⟨by rw [sends,Option.isSome_some],rfl⟩
    · contradiction
  · rename_i silent
    split at taken
    · obtain ⟨members,called,taken⟩ := Option.bind_eq_some_iff.mp taken
      obtain ⟨server,_,rfl⟩ := Option.map_eq_some_iff.mp taken
      exact .inr ⟨silent,called⟩
    · contradiction

theorem callback_none (members : Members) {s next : Sys} (same : next.host.handed = s.host.handed) :
    callback listener members s next = none := by
  simp [callback,same]

theorem callbacks_eq {app : App Members} {act : Act} {next : Sys} (taken : app.server.step act = some next) :
    callbacks listener app act = (callback listener app.members app.server next).toList := by
  simp [callbacks,taken]

theorem handed_step {app next : App Members} {act : Act} (taken : app.server.step act = some next.server) :
    next.server.host.handed = app.server.host.handed ++
      (callbacks listener app act).map (fun call => (call.object,call.sock,call.buf,call.addr)) := by
  rw [callbacks_eq taken]
  rcases Sys.step_handed taken with same | ⟨p,sock,events,ctx,buf,addr,timeMs,_,_,_,_,_,handed⟩
  · rw [callback_none app.members same,same]
    simp
  · simp [callback,handed]

theorem step_cases {app next : App Members} {act : Act} (taken : step listener app act = some next) : Step listener app act next := by
  have stepped := step_server taken
  unfold step at taken
  split at taken
  · rename_i t sock addr raw buf sends
    have aside : next.server.host.handed = app.server.host.handed ∧ next.server.worker = app.server.worker := by
      constructor
      · rcases Sys.step_handed stepped with same | ⟨_,_,_,_,_,_,_,_,rfl,_⟩
        · exact same
        · simp [Sys.message] at sends
      · exact Sys.step_rests stepped (by cases act <;> simp_all [Sys.message,Act.works])
    split at taken
    · rename_i guard
      obtain ⟨server,_,rfl⟩ := Option.map_eq_some_iff.mp taken
      exact .sends t sock addr raw buf sends guard.2 rfl (by rw [callbacks_eq stepped,callback_none app.members aside.1]; rfl) aside.2
    · contradiction
  · rename_i silent
    split at taken
    · rename_i guard
      obtain ⟨members,_,taken⟩ := Option.bind_eq_some_iff.mp taken
      obtain ⟨server,_,rfl⟩ := Option.map_eq_some_iff.mp taken
      rcases Sys.step_handed stepped with same | ⟨p,sock,events,ctx,buf,addr,timeMs,at_read,rfl,some_bytes,fits,at_next,handed⟩
      · have none_called : callback listener app.members app.server server = none := callback_none app.members same
        refine .other silent (by simp [none_called]) (by rw [callbacks_eq stepped,none_called]; rfl)
          (guard.imp id (Sys.step_rests stepped))
      · have due : app.due = none := guard.resolve_right (by simp [Act.works])
        have called : callback listener app.members app.server server = some ⟨p,sock,buf,app.server.host.sender addr,
            listener.doRead app.members sock (app.server.host.sender addr) buf⟩ := by
          simp [callback,handed]
        refine .reads p sock events ctx buf _ silent due at_next some_bytes fits ⟨addr,rfl⟩ ?_ ?_
        · simp [due,called]
        · rw [callbacks_eq stepped,called]
          simp [due]
    · contradiction

/-- What the listener has been asked for, has sent and has got into the queues. -/
structure Answering (listener : Listener Members) (config : Config) (app : App Members) (callbacks : List Callback)
    (answers : List Answer) : Prop where
  ran : ∃ acts, LightServer.Run config acts app.server ∧ ∀ act ∈ acts, Sys.SendsStored act
  due : ∀ message, app.due = some message → ∃ p events ctx, app.server.worker = .read p message.1 events ctx ∧
    0 < message.2.2.length ∧ message.2.2.length ≤ app.server.host.rxBufferSize
  asks : ∀ p, asksFor p callbacks = answersFor p answers ++ app.dueTo p
  stored : ∀ p, app.server.host.queuedDatagrams p = (storedFor p answers).map Prod.snd
  handed : app.server.host.handed = callbacks.map (fun call => (call.object,call.sock,call.buf,call.addr))
  read : ∀ call ∈ callbacks, ∃ members, call.message = listener.doRead members call.sock call.addr call.buf

theorem rxBufferSize_small (h : Host) : (h.rxBufferSize : Int) < MsgPacket.kMaxSizeOfPacket := by
  unfold Host.rxBufferSize
  split <;> decide

variable {config : Config} {app next : App Members} {callbacks' : List Callback} {answers' : List Answer} {act : Act}

theorem dueTo_none (due : app.due = none) (p : Ptr) : app.dueTo p = [] := by
  unfold dueTo
  split
  · simp [due]
  · rfl

theorem Answering.step (answering : Answering listener config app callbacks' answers') (same_socket : listener.Answers)
    (homed : ∀ acts s, LightServer.Run config acts s → s.Homed) (taken : App.step listener app act = some next) :
    Answering listener config next (callbacks' ++ App.callbacks listener app act) (answers' ++ App.answers app act) := by
  obtain ⟨⟨acts,run,sizes⟩,due,asked_all,stored_all,handed,read⟩ := answering
  have stepped := step_server taken
  have size : next.server.host.rxBufferSize = app.server.host.rxBufferSize := by
    rw [Host.rxBufferSize,(Sys.run_inv run).kind stepped,Host.rxBufferSize]
  have ran (small : Sys.SendsStored act) : ∃ acts, LightServer.Run config acts next.server ∧ ∀ act ∈ acts, Sys.SendsStored act := by
    refine ⟨acts ++ [act],run_snoc run stepped,fun other member => ?_⟩
    rcases List.mem_append.mp member with old | new
    · exact sizes other old
    · exact List.mem_singleton.mp new ▸ small
  have told : next.server.host.handed =
      (callbacks' ++ App.callbacks listener app act).map (fun call => (call.object,call.sock,call.buf,call.addr)) := by
    rw [handed_step stepped,handed,List.map_append]
  have silent_answers (silent : Sys.message act = none) : answers' ++ App.answers app act = answers' := by simp [App.answers,silent]
  have silent_stored (silent : Sys.message act = none) (p : Ptr) :
      next.server.host.queuedDatagrams p = (storedFor p answers').map Prod.snd :=
    (Sys.queued_silent stepped silent p).trans (stored_all p)
  cases step_cases taken with
  | sends t sock addr raw buf sends asks later none_called worker =>
    obtain ⟨p,events,ctx,at_read,some_bytes,fits⟩ := due _ asks
    obtain ⟨found,object,live,valid⟩ := homed acts app.server run p sock events ctx at_read
    have answer : App.answers app act = [⟨some p,(sock,addr,buf),object.outPacketsQueue.length⟩] := by
      simp [App.answers,sends,found,live]
    refine ⟨ran ?_,by simp [later],fun q => ?_,fun q => ?_,told,by simpa [none_called] using read⟩
    · have small := rxBufferSize_small app.server.host
      dsimp only at some_bytes fits
      simp only [Sys.SendsStored,sends,Option.mem_def,Option.some.injEq,forall_eq']
      omega
    · rw [none_called,List.append_nil,asked_all,answer,dueTo_none later,List.append_nil,answersFor,answersFor,List.filter_append,
        List.map_append]
      simp only [dueTo,at_read,asks]
      by_cases mine : p = q <;> simp [mine]
    · rw [Sys.send_queues stepped sends found live valid q,stored_all,answer,storedFor,storedFor,List.filter_append,List.map_append,
        List.map_append]
      by_cases mine : p = q <;> by_cases room : object.outPacketsQueue.length < SocketObject.kMaxNumOfPackets <;> simp [mine,room]
  | reads p sock events ctx buf addr silent none_due at_read some_bytes fits sender later called =>
    refine ⟨ran (by simp [Sys.SendsStored,silent]),fun message asks => ?_,fun q => ?_,?_,told,fun call member => ?_⟩
    · obtain ⟨rfl,rfl⟩ := same_socket _ _ _ _ _ (later.symm.trans asks)
      exact ⟨p,events,ctx,at_read,some_bytes,size ▸ fits⟩
    · have before := asked_all q
      rw [dueTo_none none_due,List.append_nil] at before
      rw [silent_answers silent,called,asksFor,List.filter_append,List.filterMap_append,← asksFor,before]
      simp only [dueTo,at_read]
      by_cases mine : p = q
      · cases asks : next.due <;> simp [mine]
      · simp [mine]
    · rw [silent_answers silent]
      exact silent_stored silent
    · rcases List.mem_append.mp member with old | new
      · exact read call old
      · rw [called,List.mem_singleton] at new
        exact ⟨app.members,new ▸ later⟩
  | other silent same none_called worker =>
    rw [silent_answers silent]
    refine ⟨ran (by simp [Sys.SendsStored,silent]),fun message asks => ?_,fun q => ?_,silent_stored silent,told,
      by simpa [none_called] using read⟩
    · rw [same] at asks
      have rests := worker.resolve_left (by simp [asks])
      rw [rests,size]
      exact due message asks
    · rw [none_called,List.append_nil,asked_all]
      rcases worker with none_due | rests
      · rw [dueTo_none none_due,dueTo_none (same.trans none_due)]
      · rw [dueTo,dueTo,rests,same]

theorem run_answering {acts : List Act} {members : Members} (run : Run listener config members acts app) (same_socket : listener.Answers)
    (homed : ∀ acts s, LightServer.Run config acts s → s.Homed) : Answering listener config app
      (Transition.trace (step listener) (callbacks listener) ⟨config.started,members,none⟩ acts)
        (Transition.trace (step listener) answers ⟨config.started,members,none⟩ acts) := by
  have started : Answering listener config ⟨config.started,members,none⟩ [] [] :=
    ⟨⟨[],rfl,by simp⟩,by simp,fun p => by simp [asksFor,answersFor,dueTo_none],fun p => rfl,rfl,by simp⟩
  simpa using Transition.traces_invariant (fun _ _ _ _ _ answering taken => answering.step same_socket homed taken) started run

end App

end LightServer
