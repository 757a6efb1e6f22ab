import LightServer.Listeners
import LightServer.ServerSockets

/-! `TcpServerTester2`: a `TcpServer` that passes back what it receives from a client. -/
namespace LightServer

namespace TcpServerTester2

/-- `DoRead` calls `SendMsg`, and `SendMsg` calls `Send`. -/
def doRead (_ : Unit) (sock : SOCKET) (_ : Option Sockaddr) (buf : List UInt8) : Option Message := some (sock,none,buf)

/-- The class calls no other function of the server, and `main` calls `Stop`. -/
def listener : Listener Unit where
  doRead := doRead
  calls _ _ act :=
    match act with
    | .disconnect _ _ | .connect _ _ _ | .setReceiveLimit _ _ => none
    | _ => some ()

abbrev Run (config : Config) (acts : List Act) (app : App Unit) : Prop := App.Run listener config () acts app

/-- The answers of `DoRead` in a run. -/
def answers (config : Config) (acts : List Act) : List Answer :=
  Transition.trace (App.step listener) App.answers ⟨config.started,(),none⟩ acts

end TcpServerTester2

namespace Host

theorem delivered_handed (p : Ptr) (h : Host) :
    h.delivered p = (h.handed.filter (fun call => call.1 = p)).flatMap (fun call => call.2.2.1) := by
  simp only [delivered,handed]
  induction h.readLog with
  | nil => rfl
  | cons obs log ih =>
    cases obs with
    | doRead q sock buf addr => by_cases mine : q = p <;> simp [Obs.handedFor,Obs.handed,mine,ih]
    | _ => simpa [Obs.handedFor,Obs.handed,List.filterMap_cons] using ih

theorem accepted_queued (p : Ptr) (h : Host) : h.accepted p = (h.queuedDatagrams p).flatMap Prod.snd := by
  simp only [accepted,queuedDatagrams]
  induction h.log with
  | nil => rfl
  | cons obs log ih =>
    cases obs with
    | queued q buf addr => by_cases mine : q = p <;> simp [Obs.queuedTo,Obs.queuedDatagram,mine,ih]
    | _ => simpa [Obs.queuedTo,Obs.queuedDatagram,List.filterMap_cons] using ih

end Host

namespace Sys

theorem server_homed {config : Config} {acts : List Act} {s : Sys} (run : Run config acts s) (server : config.kind = .tcpServer) :
    s.Homed := by
  have serving := (run_balance run server).serving
  intro p sock events ctx at_read
  have role : s.view.role = .reading p sock := by simp [view,at_read,Worker.role]
  obtain ⟨connected,core⟩ := serving.reading p sock role
  have found := serving.entered (by simp [view,at_read]) p sock connected (.inl (.inr (.inr (by rw [role,Role.object])))) core
  obtain ⟨object,live,same⟩ := Option.map_eq_some_iff.mp core
  exact ⟨found,object,live,congrArg (fun core => core.2.1) same⟩

end Sys

namespace TcpServerTester2

theorem asks_all {callbacks : List Callback} (read : ∀ call ∈ callbacks, ∃ members, call.message = doRead members call.sock call.addr call.buf)
    (p : Ptr) : (asksFor p callbacks).flatMap (fun message => message.2.2) =
      (callbacks.filter (fun call => call.object = p)).flatMap Callback.buf := by
  simp only [asksFor]
  induction callbacks with
  | nil => rfl
  | cons call rest ih =>
    obtain ⟨_,sent⟩ := read call (by simp)
    have later := ih (fun other member => read other (by simp [member]))
    by_cases mine : call.object = p <;> simp [mine,sent,doRead,later]

theorem stored_all {answers : List Answer} (room : ∀ answer ∈ answers, answer.waiting < SocketObject.kMaxNumOfPackets) (p : Ptr) :
    storedFor p answers = answersFor p answers := by
  simp only [storedFor,answersFor]
  congr 1
  apply List.filter_congr
  intro answer member
  simp [room answer member]

/-- What a client has sent is passed back to it: what was read from it is what was answered, with the block
that `DoRead` is just given, and the answers for which there was room are written or wait to be; all are,
unless an answer found the queue full. -/
theorem passes_back {config : Config} {acts : List Act} {app : App Unit} (run : Run config acts app)
    (server : config.kind = .tcpServer) (p : Ptr) :
    app.server.host.received p = (answersFor p (answers config acts) ++ app.dueTo p).flatMap (fun message => message.2.2) ∧
    ∀ object, app.server.host.heap p = some object →
      app.server.host.written p ++ object.outPacketsQueue.flatMap MsgPacket.unsent =
        (storedFor p (answers config acts)).flatMap (fun message => message.2.2) ∧
      ((∀ answer ∈ answers config acts, answer.waiting < SocketObject.kMaxNumOfPackets) →
        app.server.host.written p ++ object.outPacketsQueue.flatMap MsgPacket.unsent ++
          (app.dueTo p).flatMap (fun message => message.2.2) = app.server.host.received p) := by
  have same_socket : listener.Answers := by
    intro members sock addr buf message answer
    obtain rfl : (sock,none,buf) = message := Option.some.inj answer
    exact ⟨rfl,rfl⟩
  have answering := App.run_answering run same_socket (fun _ _ run => Sys.server_homed run server)
  obtain ⟨acts',ran,sizes⟩ := answering.ran
  have passed : app.server.host.received p =
      (answersFor p (answers config acts) ++ app.dueTo p).flatMap (fun message => message.2.2) := by
    rw [answers,← answering.asks p,asks_all answering.read,← Sys.server_delivers ran server p,Host.delivered_handed,
      answering.handed,List.filter_map,List.flatMap_map]
    rfl
  refine ⟨passed,fun object live => ?_⟩
  have kept : app.server.host.written p ++ object.outPacketsQueue.flatMap MsgPacket.unsent =
      (storedFor p (answers config acts)).flatMap (fun message => message.2.2) := by
    rw [(Sys.stream_kept ran (by simp [server]) sizes live).1,Host.accepted_queued,answering.stored p,List.flatMap_map]
    rfl
  exact ⟨kept,fun room => by rw [kept,stored_all room,passed,List.flatMap_append]⟩

/-- A client sends two blocks, and a part of the answer is written before the socket takes no more. -/
def twoBlocks : List Act :=
  Sys.connectionBurst 1 ++ [.epollPwait (.ok [(7,epollin)]),.worker,.beforeIo (.ok 0) 0,.readyRead 0,.read (.ok [1,2,3]) [] 0,
    .send 0 7 ⟨none,0,0,0,0,[]⟩ [1,2,3],.caller 0 .done,.caller 0 .done,.read (.ok [4]) [] 0,.send 0 7 ⟨none,0,0,0,0,[]⟩ [4],
    .caller 0 .done,.caller 0 .done,.read (.error ewouldblock) [] 0,.worker,.epollPwait (.ok [(5,epollin)]),.worker,.worker,
    .beforeIo (.ok 0) 0,.worker,.worker,.write (.ok 2),.write (.error eagain)]

theorem two_blocks_passed_back : ∃ app object, Run (.plain .tcpServer 1) twoBlocks app ∧
    app.server.host.heap 0 = some object ∧ app.server.host.received 0 = [1,2,3,4] ∧ app.server.host.written 0 = [1,2] ∧
    app.server.host.written 0 ++ object.outPacketsQueue.flatMap MsgPacket.unsent ++
      (app.dueTo 0).flatMap (fun message => message.2.2) = app.server.host.received 0 := by
  obtain ⟨app,run,⟨live,received,written⟩,room⟩ : ∃ app, Run (.plain .tcpServer 1) twoBlocks app ∧
      ((app.server.host.heap 0).isSome = true ∧ app.server.host.received 0 = [1,2,3,4] ∧ app.server.host.written 0 = [1,2]) ∧
      ∀ answer ∈ answers (.plain .tcpServer 1) twoBlocks, answer.waiting < SocketObject.kMaxNumOfPackets :=
    Transition.exec_reaches _ (by decide +kernel)
  obtain ⟨object,live⟩ := Option.isSome_iff_exists.mp live
  exact ⟨app,object,run,live,received,written,((passes_back run rfl 0).2 object live).2 room⟩

end TcpServerTester2

end LightServer
