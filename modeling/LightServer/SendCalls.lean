import LightServer.SendStream
import LightServer.Receive

/-! The calls of `HandleSend`. The object that the worker sends to is there until the call
returns, and a packet is popped when it has nothing left. -/
namespace LightServer

/-- The object on which the worker is inside `HandleSend`, past the test of validity. -/
def Worker.handlesSend : Worker → Option Ptr
  | .sendLoop p _ | .sendPacket p _ | .popPacket p _ => some p
  | _ => none

namespace Host

theorem KeepsPackets.front {h h' : Host} (keeps : KeepsPackets h h') {p : Ptr} (made : p < h.nextPtr) (live : h'.heap p ≠ none) :
    h'.frontPacket p = h.frontPacket p := by
  obtain ⟨object,live⟩ := Option.ne_none_iff_exists'.mp live
  rcases keeps.objects p object live with ⟨old,live',same⟩ | ⟨fresh,_,_⟩
  · simp [frontPacket,live,live',SocketObject.frontOutPacket,same]
  · exact absurd made (Nat.not_lt.mpr fresh)

end Host

namespace Sys

@[simp] theorem resume_handlesSend (ctx : Ctx) : (resume ctx).handlesSend = none := by cases ctx <;> rfl

@[simp] theorem afterRead_handlesSend (rs : Bool) (p : Ptr) (events : UInt32) (ctx : Ctx) :
    (afterRead rs p events ctx).handlesSend = none :=
  afterRead_rule (P := fun w => w.handlesSend = none) rfl (resume_handlesSend ctx) rs events

@[simp] theorem doProcessIo_handlesSend (p : Ptr) (events : UInt32) (ctx : Ctx) :
    (doProcessIo p events ctx).handlesSend = none :=
  doProcessIo_rule (P := fun w => w.handlesSend = none) rfl rfl (resume_handlesSend ctx)

theorem Move.enters {h h' : Host} {w w' : Worker} {act : Act} {p : Ptr} (move : Move h w act h' w')
    (inside : w'.handlesSend = some p) : w.handlesSend = some p ∨ h' = h ∧ h.isValid (some p) = true := by
  cases move with
  | batchEnd bRun => cases bRun <;> simp [Worker.handlesSend] at inside
  | readyWrite q ctx valid =>
    obtain rfl : q = p := Option.some.inj inside
    exact .inr ⟨rfl,valid⟩
  | sendPacket q ctx packet front => exact .inl inside
  | packetSent q ctx packet front empty => exact .inl inside
  | popPacket q ctx => exact .inl inside
  | written q ctx packet count front left fits => exact .inl inside
  | _ =>
    first
    | exact absurd inside (by simp)
    | simp [Worker.handlesSend] at inside

/-- What holds of the worker inside `HandleSend`. -/
structure SendCall (s : Sys) : Prop where
  inv : Inv s
  live : ∀ p, s.worker.handlesSend = some p → ∃ object, s.host.heap p = some object
  popping : ∀ p ctx, s.worker = .popPacket p ctx → ∃ packet, s.host.frontPacket p = some packet ∧ packet.size = 0

theorem SendCall.held {s next : Sys} {act : Act} (call : s.SendCall) {p : Ptr} (inside : s.worker.handlesSend = some p)
    (taken : s.step act = some next) : ∃ object, next.host.heap p = some object := by
  obtain ⟨object,live⟩ := call.live p inside
  have role : s.worker.role = .handling p := by
    cases at_w : s.worker <;> simp_all [Worker.handlesSend,Worker.role]
  have same := (view_step call.inv.control taken).core_held call.inv.sound (p := p) (by simp [view,role,Role.object])
    (by simp [view,role,Role.settled]) (by simp [view,role])
  have core : next.host.table.core p = some object.core := same.trans (by simp [view,Host.table,live])
  obtain ⟨object',live',_⟩ := Option.map_eq_some_iff.mp core
  exact ⟨object',live'⟩

theorem SendCall.step {s next : Sys} {act : Act} (call : s.SendCall) (taken : s.step act = some next) : next.SendCall := by
  have kept {host : Host} {p : Ptr} {ctx : Ctx} (at_pop : s.worker = .popPacket p ctx) (keeps : s.host.KeepsPackets host)
      (live : host.heap p ≠ none) : ∃ packet, host.frontPacket p = some packet ∧ packet.size = 0 := by
    obtain ⟨object,before⟩ := call.live p (by rw [at_pop,Worker.handlesSend])
    rw [keeps.front (call.inv.below before) live]
    exact call.popping p ctx at_pop
  have held {p : Ptr} {ctx : Ctx} (at_pop : s.worker = .popPacket p ctx) : next.host.heap p ≠ none := by
    obtain ⟨object,live⟩ := call.held (by rw [at_pop,Worker.handlesSend]) taken
    exact Option.ne_none_iff_exists'.mpr ⟨object,live⟩
  refine ⟨call.inv.step taken,fun p inside => ?_,fun p ctx at_pop => ?_⟩
  · by_cases before : s.worker.handlesSend = some p
    · exact call.held before taken
    · cases step_taken taken with
      | worker act host worker idle move =>
        rcases move.enters inside with same | ⟨rfl,valid⟩
        · exact absurd same before
        · obtain ⟨object,live,_⟩ := Host.isValid_live valid
          exact ⟨object,live⟩
      | _ => exact absurd inside before
  · cases step_taken taken with
    | arrive conn kind listening => exact kept at_pop (.of_same rfl rfl rfl rfl) (held at_pop)
    | startAccept refused kind => exact kept at_pop (.startAccept refused s.host) (held at_pop)
    | sendRefused act sends => exact call.popping p ctx at_pop
    | sent act t sock addr raw buf q object sends kind idle found live valid room =>
      obtain ⟨packet,front,empty⟩ := call.popping p ctx at_pop
      refine ⟨packet,?_,empty⟩
      by_cases same : p = q
      · obtain ⟨object',rest,live',queue⟩ := Host.front_packet front
        obtain rfl := Option.some.inj ((same ▸ live').symm.trans live)
        have pushed : (object'.push raw buf addr).2.outPacketsQueue =
            packet::(rest ++ [MsgPacket.build raw (int32 buf.length) buf addr]) := by
          rw [SocketObject.push,if_neg (Nat.not_le.mpr room)]
          simp only [queue,List.cons_append]
        simp [setCaller,Host.frontPacket,Host.observe,Host.modify,same,live,SocketObject.frontOutPacket,pushed]
      · simpa [setCaller,Host.frontPacket,Host.observe,Host.modify,same] using front
    | disconnect t sock idle => exact call.popping p ctx at_pop
    | limitIgnored sock num => exact call.popping p ctx at_pop
    | limitSet sock num q change kind found which =>
      refine kept at_pop (.modify q change s.host (fun object => ?_)) (held at_pop)
      rcases which with rfl | rfl <;> rfl
    | connect t op addr idle offered => exact call.popping p ctx at_pop
    | stop t idle outside first => exact call.popping p ctx at_pop
    | caller t c reply host later found may step => exact kept at_pop step.packets (held at_pop)
    | worker act host worker idle move =>
      cases move.touched with
      | kept keeps before after => exact absurd at_pop (after p ctx)
      | written q ctx' packet count at_w answered front left fits host worker => simp [moveTo,worker] at at_pop
      | failed q ctx' code at_w answered host worker =>
        subst worker
        cases ctx' <;> simp [moveTo,resume] at at_pop
      | emptied q ctx' packet at_w front empty host worker =>
        subst host worker
        obtain ⟨rfl,_⟩ := Worker.popPacket.inj at_pop
        exact ⟨packet,front,empty⟩
      | popped q ctx' at_w host worker => simp [moveTo,worker] at at_pop

theorem started_sendCall (config : Config) : config.started.SendCall :=
  ⟨started_inv config,by simp [Config.started,Worker.handlesSend],by simp [Config.started]⟩

theorem run_sendCall {config : Config} {acts : List Act} {s : Sys} (run : Run config acts s) : s.SendCall :=
  Transition.exec_invariant_free (fun _ _ _ call taken => call.step taken) (started_sendCall config) run

end Sys

end LightServer
