import LightServer.Base.Call
import LightServer.KeepAlive

/-! Which connections `DisconnectSilenceConnections` disconnects. It looks at `active_time_` alone, which
`HandleReceive` sets where it starts, and which neither a connection that is made nor the bytes that are read set. -/
namespace LightServer

/-- The object that the worker removes is not valid. -/
def View.Closing (v : View) : Prop :=
  ∀ stage p sock, v.role = .removing stage p sock → ∀ k connected, v.table.core p ≠ some (k,true,connected)

theorem View.Step.closing {v v' : View} (step : View.Step v v') (sound : v.Sound) (closing : v.Closing) : v'.Closing := by
  intro stage p sock removing k connected valid
  have before (stage : RemoveStage) (at_r : v.role = .removing stage p sock) : False := by
    have seen : v.Visible p := .inl (.inr (.inr (at_r ▸ rfl)))
    have settled : v.Settled p := ⟨sound.visible p seen,fun task member making => sound.making task member p making seen⟩
    obtain ⟨k,connected,was⟩ := step.valid_before settled valid
    exact closing stage p sock at_r k connected was
  cases step with
  | stutter => exact before stage removing
  | work T role pending tasks T' role' work =>
    cases work with
    | rest _ _ settled later =>
      rcases later with rfl | rfl | ⟨_,_,_,rfl⟩
      · exact before stage removing
      · contradiction
      · contradiction
    | disconnect fd q k known found core =>
      obtain ⟨rfl,rfl,rfl⟩ := Role.removing.inj removing
      simp [Table.record,Table.setCore] at valid
    | removeFD q k =>
      obtain ⟨rfl,rfl,rfl⟩ := Role.removing.inj removing
      exact before _ rfl
    | removeClose q k =>
      obtain ⟨rfl,rfl,rfl⟩ := Role.removing.inj removing
      exact before _ rfl
    | removeDelete q k =>
      obtain ⟨rfl,rfl,rfl⟩ := Role.removing.inj removing
      exact before _ rfl
    | connect _ _ _ _ _ later => rcases later with rfl | rfl <;> contradiction
    | _ => contradiction
  | call T role pending exited tasks t task T' task' found call => exact before stage removing
  | _ => contradiction

namespace Sys

variable {config : Config} {acts : List Act} {s next : Sys} {act : Act} {p : Ptr} {sock : SOCKET} {object : SocketObject}
  {period : UInt64} {now : UInt32}

/-- A valid connection of the table. -/
structure Connection (s : Sys) (sock : SOCKET) (p : Ptr) (object : SocketObject) : Prop where
  found : s.host.findSocketObject sock = some p
  live : s.host.heap p = some object
  valid : object.fValid = true

/-- The second in which `read` or `recvfrom` returns bytes from the object. -/
def hears (p : Ptr) (s : Sys) (act : Act) : List Nat :=
  match act, s.worker with
  | .read (.ok (_::_)) _ timeMs, .read q _ _ _ => if q = p then [timeMs.toNat/1000] else []
  | _, _ => []

/-- When bytes have come from the object in a run. -/
def heard (config : Config) (acts : List Act) (p : Ptr) : List Nat := Transition.trace Sys.step (hears p) config.started acts

/-- When a `HandleReceive` of the object has started in a run. -/
def starts (config : Config) (acts : List Act) (p : Ptr) : List UInt32 :=
  Transition.trace Sys.step (fun s act => (s.receives p act).toList) config.started acts

/-- The connection has neither connected nor sent anything in the last `period` seconds. -/
structure Silent (period : UInt64) (now : UInt32) (times : List Nat) (object : SocketObject) : Prop where
  connected : object.connectState = true → object.connectTime + period.toNat ≤ now.toNat
  heard : ∀ time ∈ times, time + period.toNat ≤ now.toNat

/-- One command for each silent connection, and no other. -/
def SweepsSilent (config : Config) (acts : List Act) (period : UInt64) (now : UInt32) (s : Sys) : Prop :=
  ∃ pushed, (s.host.disconnectSilenceConnections period now).cmdQueue = s.host.cmdQueue ++ pushed ∧ pushed.Nodup ∧
    ∀ cmd, cmd ∈ pushed ↔ ∃ sock p object, s.Connection sock p object ∧ Silent period now (heard config acts p) object ∧
      cmd = ⟨.disconnect,sock,some p⟩

/-- The seconds since the last `HandleReceive` of the object started, or since the clock did where there is none. -/
def idleSeconds (now : UInt32) (starts : List UInt32) : Nat := (now - starts.getLast?.getD 0).toNat

/-- The start of the last `HandleReceive` tells what the sweep wants to know. It lies in the last `period` seconds, or
2^31 of them or more back, where a connect or bytes lie in them; and it lies between the two for a silent connection. -/
structure Telling (period : UInt64) (now : UInt32) (times : List Nat) (starts : List UInt32) (object : SocketObject) : Prop where
  connected : object.connectState = true → now.toNat < object.connectTime + period.toNat →
    idleSeconds now starts < period.toNat ∨ 2^31 ≤ idleSeconds now starts
  heard : ∀ time ∈ times, now.toNat < time + period.toNat →
    idleSeconds now starts < period.toNat ∨ 2^31 ≤ idleSeconds now starts
  silent : Silent period now times object → period.toNat ≤ idleSeconds now starts ∧ idleSeconds now starts < 2^31

theorem telling_iff {times : List Nat} {starts : List UInt32} : Telling period now times starts object ↔
    (period.toNat ≤ idleSeconds now starts ∧ idleSeconds now starts < 2^31 ↔ Silent period now times object) := by
  constructor
  · rintro ⟨connected,heard,silent⟩
    refine ⟨fun late => ⟨fun made => ?_,fun time member => ?_⟩,silent⟩
    · by_contra recent
      have := connected made (by omega)
      omega
    · by_contra recent
      have := heard time member (by omega)
      omega
  · intro same
    refine ⟨fun made recent => ?_,fun time member recent => ?_,same.mpr⟩
    · by_contra late
      have := (same.mp (by omega)).connected made
      omega
    · by_contra late
      have := (same.mp (by omega)).heard time member
      omega

/-- What the run has left in `active_time_`. -/
structure Stamped (p : Ptr) (starts : List UInt32) (s : Sys) : Prop where
  inv : Inv s
  unborn : s.host.nextPtr ≤ p → starts = []
  activeTime : ∀ object ∈ s.host.heap p, object.activeTime = (starts.getLast?.getD 0).toNat

theorem receives_live {time : UInt32} (received : s.receives p act = some time) : ∃ object, s.host.heap p = some object := by
  unfold receives at received
  split at received
  · split at received
    · rename_i reads
      obtain ⟨rfl,valid⟩ := reads
      obtain ⟨object,live,_⟩ := Host.isValid_live valid
      exact ⟨object,live⟩
    · contradiction
  · contradiction

theorem Stamped.step {starts : List UInt32} (stamped : Stamped p starts s) (taken : s.step act = some next) :
    Stamped p (starts ++ (s.receives p act).toList) next := by
  have grown := (view_step stamped.inv.control taken).nextPtr_le
  cases received : s.receives p act with
  | some time =>
    obtain ⟨object,live⟩ := receives_live received
    have since := since_receive stamped.inv received taken
    refine ⟨since.inv,fun unborn => ?_,fun object live => ?_⟩
    · exact absurd ((stamped.inv.below live).trans_le (grown.trans unborn)) (lt_irrefl p)
    · simpa using since.activeTime object live
  | none =>
    rw [Option.toList_none,List.append_nil]
    refine ⟨stamped.inv.step taken,fun unborn => stamped.unborn (grown.trans unborn),fun object' live' => ?_⟩
    rcases step_leavesTime p taken with (idles | ⟨rfl,never⟩) | ⟨exp,time,b,_,_,rfl⟩ | ⟨time,again,_⟩
    · obtain ⟨object,live,same⟩ := idles.stamped object' live'
      exact same.trans (stamped.activeTime object live)
    · rw [stamped.unborn le_rfl]
      exact never object' live'
    · have quiet : Host.Quiet SocketObject.activeTime Obs.notable s.host (s.host.onTimer exp time) := Host.onTimer_quiet exp time s.host
      have same := quiet.objects p
      rw [show (s.host.onTimer exp time).heap p = some object' from live'] at same
      obtain ⟨object,live,equal⟩ := Option.map_eq_some_iff.mp same.symm
      exact equal.symm.trans (stamped.activeTime object live)
    · simp [received] at again

theorem run_stamped (run : Run config acts s) (p : Ptr) : Stamped p (starts config acts p) s :=
  Transition.trace_invariant (I := fun s starts => Stamped p starts s) (fun _ _ _ _ stamped taken => stamped.step taken)
    ⟨started_inv config,fun _ => rfl,by simp [Config.started]⟩ run

/-- An entry of a valid object is under its socket. -/
theorem Connection.named (inv : Inv s) (closing : s.view.Closing) (connection : s.Connection sock p object) :
    object.socketId = sock := by
  refine inv.named connection.found connection.live (fun erasing => ?_)
  apply closing .erase p sock erasing object.socketId object.connectState
  simp [view,Host.table,connection.live,SocketObject.core,connection.valid]

/-- A command to disconnect names the connection. -/
theorem Connection.only (connection : s.Connection sock p object) (Q : Ptr → SocketObject → Prop) :
    (∃ sock' p' object', s.Connection sock' p' object' ∧ Q p' object' ∧
      (⟨.disconnect,sock,some p⟩ : TSockMCommand) = ⟨.disconnect,sock',some p'⟩) ↔ Q p object := by
  constructor
  · rintro ⟨sock',p',object',connection',holds,same⟩
    obtain ⟨rfl,rfl⟩ : sock = sock' ∧ p = p' := by simpa using same
    obtain rfl : object = object' := Option.some.inj (connection.live.symm.trans connection'.live)
    exact holds
  · exact fun holds => ⟨sock,p,object,connection,holds,rfl⟩

theorem run_closing (run : Run config acts s) : s.view.Closing := by
  have kept (s : Sys) (act : Act) (next : Sys) (inv : Inv s ∧ s.view.Closing) (taken : s.step act = some next) :
      Inv next ∧ next.view.Closing := ⟨inv.1.step taken,(view_step inv.1.control taken).closing inv.1.sound inv.2⟩
  refine (Transition.exec_invariant_free kept ⟨started_inv config,fun stage p sock removing => ?_⟩ run).2
  simp [view,Config.started,Worker.role] at removing

theorem silence_iff (inv : Inv s) (closing : s.view.Closing) {cmd : TSockMCommand} :
    s.host.silence period now sock = some cmd ↔
      ∃ p object, s.Connection sock p object ∧ Host.isSilent period now object = true ∧ cmd = ⟨.disconnect,sock,some p⟩ := by
  constructor
  · intro pushes
    obtain ⟨object,live,pushes⟩ := Option.bind_eq_some_iff.mp pushes
    obtain ⟨p,found,live⟩ := Option.bind_eq_some_iff.mp live
    cases silent : Host.isSilent period now object with
    | false => simp [silent] at pushes
    | true =>
      have connection : s.Connection sock p object := ⟨found,live,(Bool.and_eq_true_iff.mp silent).1⟩
      rw [connection.named inv closing,found,silent,if_pos rfl] at pushes
      exact ⟨p,object,connection,silent,(Option.some.inj pushes).symm⟩
  · rintro ⟨p,object,connection,silent,rfl⟩
    simp only [Host.silence,connection.found,Option.bind_some,connection.live,silent,if_true,connection.named inv closing]

/-- A sweep pushes one command for each connection that it takes for silent. -/
theorem sweep_pushes (inv : Inv s) (closing : s.view.Closing) (started : s.host.hasStart = true) (period : UInt64) (now : UInt32) :
    ∃ pushed, (s.host.disconnectSilenceConnections period now).cmdQueue = s.host.cmdQueue ++ pushed ∧ pushed.Nodup ∧
      ∀ cmd, cmd ∈ pushed ↔ ∃ sock p object, s.Connection sock p object ∧ Host.isSilent period now object = true ∧
        cmd = ⟨.disconnect,sock,some p⟩ := by
  refine ⟨_,Host.disconnectSilence_pushes started,?_,fun cmd => ?_⟩
  · have keys : s.host.sortedKeys.Nodup := (List.mergeSort_perm _ _).nodup_iff.mpr s.host.sockObjectMap.keys_nodup
    refine keys.filterMap (fun first second cmd left right => ?_)
    obtain ⟨_,_,_,_,rfl⟩ := (silence_iff inv closing).mp left
    obtain ⟨_,_,_,_,same⟩ := (silence_iff inv closing).mp right
    exact congrArg TSockMCommand.fd same
  · rw [List.mem_filterMap]
    constructor
    · rintro ⟨sock,_,pushes⟩
      exact ⟨sock,(silence_iff inv closing).mp pushes⟩
    · rintro ⟨sock,p,object,connection,silent,rfl⟩
      refine ⟨sock,?_,(silence_iff inv closing).mpr ⟨p,object,connection,silent,rfl⟩⟩
      rw [Host.sortedKeys,List.mem_mergeSort]
      exact AList.mem_keys.mp (AList.lookup_isSome.mp (Option.isSome_of_eq_some connection.found))

theorem isSilent_iff {starts : List UInt32} (valid : object.fValid = true)
    (active : object.activeTime = (starts.getLast?.getD 0).toNat) (small : period.toNat < 2^31) :
    Host.isSilent period now object = true ↔ period.toNat ≤ idleSeconds now starts ∧ idleSeconds now starts < 2^31 := by
  have idle : idleSeconds now starts = (2^32 - (starts.getLast?.getD 0).toNat + now.toNat) % 2^32 := UInt32.toNat_sub _ _
  have within : (starts.getLast?.getD 0).toNat < 2^32 := (starts.getLast?.getD 0).toNat_lt
  have period_eq : int32 period.toNat = period.toNat := int32_of_lt (by omega) (by omega)
  simp only [Host.isSilent,valid,Bool.true_and,decide_eq_true_eq,ge_iff_le,period_eq,active]
  rw [int32,Int.bmod]
  split <;> omega

/-- When a look through the connections at `now` disconnects the silent ones and no other, from any state of a run:
where the start of the last `HandleReceive` tells as much of every connection. -/
theorem sweeps_silent_iff (run : Run config acts s) (started : s.host.hasStart = true) (now : UInt32) (hour : period ≤ 3600) :
    SweepsSilent config acts period now s ↔ ∀ sock p object, s.Connection sock p object →
      Telling period now (heard config acts p) (starts config acts p) object := by
  have small : period.toNat < 2^31 := (UInt64.le_iff_toNat_le.mp hour).trans_lt (by decide)
  have inv := run_inv run
  have decides (sock : SOCKET) (p : Ptr) (object : SocketObject) (connection : s.Connection sock p object) :
      Telling period now (heard config acts p) (starts config acts p) object ↔
        (Host.isSilent period now object = true ↔ Silent period now (heard config acts p) object) := by
    rw [telling_iff,isSilent_iff connection.valid ((run_stamped run p).activeTime object connection.live) small]
  obtain ⟨pushed,queue,once,members⟩ := sweep_pushes inv (run_closing run) started period now
  constructor
  · rintro ⟨other,queue',_,members'⟩ sock p object connection
    obtain rfl : pushed = other := List.append_cancel_left (queue.symm.trans queue')
    rw [decides sock p object connection,← connection.only (fun _ object => Host.isSilent period now object = true),
      ← connection.only (fun p object => Silent period now (heard config acts p) object),← members,← members']
  · intro telling
    refine ⟨pushed,queue,once,fun cmd => (members cmd).trans ?_⟩
    constructor
    · rintro ⟨sock,p,object,connection,silent,rfl⟩
      exact ⟨sock,p,object,connection,((decides sock p object connection).mp (telling sock p object connection)).mp silent,rfl⟩
    · rintro ⟨sock,p,object,connection,silent,rfl⟩
      exact ⟨sock,p,object,connection,((decides sock p object connection).mp (telling sock p object connection)).mpr silent,rfl⟩

/-- A connection that is made, with nothing received from it yet. -/
def established (now : UInt32) : List Act := [.connect 1 .connectToRemote [],.caller 1 (.fd 7),.caller 1 (.object .blank now)] ++
  List.replicate 4 (.caller 1 .done)

/-- The same with a byte from the peer later on. -/
def spoken (now later : UInt32) : List Act := established now ++ [.epollPwait (.ok [(7,epollin)]),.worker,.beforeIo (.ok 0) later,
  .readyRead later,.read (.ok [1]) [] (later.toUInt64*1000),.read (.error eagain) [] (later.toUInt64*1000)]

theorem spoken_connection_left :
    ∃ s, Run (Config.plain .tcpClient 2) (spoken 100 150) s ∧
      SweepsSilent (Config.plain .tcpClient 2) (spoken 100 150) 60 170 s := by
  obtain ⟨s,run,started,entries⟩ := run_reaches (Config.plain .tcpClient 2) (spoken 100 150)
    (fun s => s.host.hasStart = true ∧ s.host.sockObjectMap.entries = [⟨7,0⟩]) (by decide +kernel)
  refine ⟨s,run,(sweeps_silent_iff run started 170 (by decide)).mpr (fun sock p object connection => ?_)⟩
  obtain ⟨rfl,rfl⟩ : sock = 7 ∧ p = 0 := by
    have member := AList.mem_lookup_iff.mp connection.found
    rw [entries] at member
    simpa using member
  have starts_eq : starts (Config.plain .tcpClient 2) (spoken 100 150) 0 = [150] := by decide +kernel
  have heard_eq : heard (Config.plain .tcpClient 2) (spoken 100 150) 0 = [150] := by decide +kernel
  rw [starts_eq,heard_eq]
  refine ⟨fun _ _ => .inl (by decide),fun _ _ _ => .inl (by decide),fun silent => ?_⟩
  exact absurd (silent.heard 150 (by simp)) (by decide)

/-- Made at 100, swept at 101 with a period of 60. -/
theorem new_connection_swept :
    ∃ s, Run (Config.plain .tcpClient 2) (established 100) s ∧ s.host.hasStart = true ∧
      ¬ SweepsSilent (Config.plain .tcpClient 2) (established 100) 60 101 s := by
  obtain ⟨s,run,started,found,object,live,id,connected,silent⟩ := run_reaches (Config.plain .tcpClient 2) (established 100)
    (fun s => s.host.hasStart = true ∧ s.host.findSocketObject 7 = some 0 ∧ ∃ object ∈ s.host.heap 0,
      object.socketId = 7 ∧ (object.connectState = true ∧ object.connectTime = 100) ∧ Host.isSilent 60 101 object = true)
    (by decide +kernel)
  refine ⟨s,run,started,?_⟩
  rintro ⟨pushed,queue,_,members⟩
  obtain ⟨other,queue',member⟩ := Host.mem_silence started found live id silent
  obtain rfl : pushed = other := List.append_cancel_left (queue.symm.trans queue')
  obtain ⟨sock,p,object',connection,quiet,same⟩ := (members _).mp member
  obtain ⟨rfl,rfl⟩ : 7 = sock ∧ 0 = p := by simpa using same
  obtain rfl : object = object' := Option.some.inj (live.symm.trans connection.live)
  have long := quiet.connected connected.1
  rw [connected.2] at long
  exact absurd long (by decide)

end Sys

end LightServer
