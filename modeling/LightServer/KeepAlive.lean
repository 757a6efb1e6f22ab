import LightServer.ActiveTime
import LightServer.ManagerStart

/-! When a `TcpClient` disconnects a connection that has gone silent. `OnTimer` counts the expirations of the
timer, however many it is told of at once, and looks through the connections when it has counted enough. -/
namespace LightServer

/-- `new_value` of `CreateTimer`: the first expiration, and the time between two. -/
structure Itimerspec where
  itValue : Timespec
  itInterval : Timespec

def millisecondToTimespec (ms : UInt64) : Timespec := ⟨(ms / 1000).toNat,(ms % 1000 * 1000000).toNat⟩

/-- What `CreateTimer` asks for when `CLOCK_MONOTONIC` is at `now`. -/
def newValue (interval : UInt64) (now : Timespec) : Itimerspec := ⟨⟨now.tvSec+1,now.tvNsec⟩,millisecondToTimespec interval⟩

/-- The second of the `T`-th expiration. -/
def Itimerspec.expiration (spec : Itimerspec) (T : Nat) : Int := spec.itValue.tvSec + (T - 1)*spec.itInterval.tvSec

/-- The timer that `TcpClient::Start` sets. -/
def Config.timer (now : Timespec) (config : Config) : Itimerspec := newValue (config.heartbeatInterval * 1000).toUInt64 now

/-- `keep_alive_time_in_seconds_ / heartbeat_interval_in_seconds_`. -/
def Config.sweepCount (config : Config) : Nat := config.keepAliveTime.toNat / config.heartbeatInterval.toNat

/-- A client with a keep-alive time that is longer than its heartbeat, and of an hour at most. The count that is left
from before the start does not reach the threshold. -/
structure Config.KeepsAlive (config : Config) : Prop where
  kind : config.kind = .tcpClient
  heartbeat : 0 < config.heartbeatInterval
  longer : config.heartbeatInterval < config.keepAliveTime
  hour : config.keepAliveTime ≤ 3600
  fresh : config.timerEventCount.toNat < config.sweepCount

namespace Act

/-- The clock that `OnTimer` or `HandleReceive` reads. -/
def reading : Act → Option UInt32
  | .timer (some _) now | .readyRead now => some now
  | _ => none

/-- The expirations that `OnTimer` is told of. -/
def expired : Act → Nat
  | .timer (some exp) _ => exp.toNat
  | _ => 0

end Act

def expired (acts : List Act) : Nat := (acts.map Act.expired).sum

@[simp] theorem expired_append (first second : List Act) : expired (first++second) = expired first + expired second := by
  simp [expired]

@[simp] theorem expired_cons (act : Act) (acts : List Act) : expired (act::acts) = act.expired + expired acts := by
  simp [expired]

@[simp] theorem expired_nil : expired [] = 0 := rfl

/-- A clock that does not go back, stays below 2^31 s, and is never behind the last expiration that `OnTimer` is told of. -/
structure Clocked (spec : Itimerspec) (start : Int) (acts : List Act) : Prop where
  ordered : (acts.filterMap Act.reading).Pairwise (· ≤ ·)
  started : ∀ now ∈ acts.filterMap Act.reading, start ≤ now.toNat
  small : ∀ now ∈ acts.filterMap Act.reading, now.toNat < 2^31
  nominal : ∀ before exp now after, acts = before ++ .timer (some exp) now::after → 0 < expired before + exp.toNat →
    spec.expiration (expired before + exp.toNat) ≤ now.toNat

theorem Clocked.init {spec : Itimerspec} {start : Int} {first second : List Act} (clocked : Clocked spec start (first++second)) :
    Clocked spec start first := by
  have within (now : UInt32) (member : now ∈ first.filterMap Act.reading) : now ∈ (first++second).filterMap Act.reading := by
    rw [List.filterMap_append]
    exact List.mem_append_left _ member
  refine ⟨?_,fun now member => clocked.started now (within now member),fun now member => clocked.small now (within now member),
    fun before exp now after split => clocked.nominal before exp now (after++second) ?_⟩
  · have ordered := clocked.ordered
    rw [List.filterMap_append] at ordered
    exact (List.pairwise_append.mp ordered).1
  · rw [split,List.append_assoc,List.cons_append]

section timer

variable {config : Config}

theorem Config.KeepsAlive.seconds (alive : config.KeepsAlive) : 1 ≤ config.heartbeatInterval.toNat ∧
    config.heartbeatInterval.toNat < config.keepAliveTime.toNat ∧ config.keepAliveTime.toNat ≤ 3600 :=
  ⟨UInt32.lt_iff_toNat_lt.mp alive.heartbeat,UInt32.lt_iff_toNat_lt.mp alive.longer,UInt32.le_iff_toNat_le.mp alive.hour⟩

theorem Config.KeepsAlive.sweepCount_pos (alive : config.KeepsAlive) : 0 < config.sweepCount :=
  Nat.div_pos alive.seconds.2.1.le alive.seconds.1

/-- The seconds of the interval come back from the milliseconds. -/
theorem timer_expiration (alive : config.KeepsAlive) (now : Timespec) (T : Nat) :
    (config.timer now).expiration T = now.tvSec + 1 + (T - 1)*config.heartbeatInterval.toNat := by
  obtain ⟨_,longer,hour⟩ := alive.seconds
  have seconds : ((config.heartbeatInterval * 1000).toUInt64 / 1000).toNat = config.heartbeatInterval.toNat := by
    rw [UInt64.toNat_div,UInt32.toNat_toUInt64,UInt32.toNat_mul,Nat.mod_eq_of_lt (by simp; omega)]
    simp
  simp only [Itimerspec.expiration,Config.timer,newValue,millisecondToTimespec,seconds]

theorem Clocked.bounded {now : Timespec} (start : 0 ≤ now.tvSec) (alive : config.KeepsAlive) {acts : List Act}
    (clocked : Clocked (config.timer now) now.tvSec acts) : expired acts ≤ 2^31 := by
  induction acts using List.reverseRecOn with
  | nil => simp
  | append_singleton acts act ih =>
    have before := ih clocked.init
    by_cases other : act.expired = 0
    · simpa [other] using before
    · cases act with
      | timer expirations seconds =>
        cases expirations with
        | none => simp [Act.expired] at other
        | some exp =>
          have positive : 0 < expired acts + exp.toNat := by
            have : exp.toNat ≠ 0 := other
            omega
          have late := clocked.nominal acts exp seconds [] rfl positive
          have small := clocked.small seconds (by simp [Act.reading])
          have interval : (1 : Int) ≤ config.heartbeatInterval.toNat := by exact_mod_cast alive.seconds.1
          rw [timer_expiration alive] at late
          have expirations : ((expired acts + exp.toNat : Nat) : Int) - 1 ≤
              ((expired acts + exp.toNat : Nat) - 1)*config.heartbeatInterval.toNat :=
            le_mul_of_one_le_right (by omega) interval
          simp only [expired_append,expired_cons,expired_nil,Act.expired]
          omega
      | _ => simp [Act.expired] at other

end timer

/-- A loop each round of which appends at most one thing. -/
theorem foldl_filterMap {S A B : Type} {round : S → A → S} {out : S → List B} {I : S → Prop} {made : A → Option B}
    (kept : ∀ state a, I state → I (round state a) ∧ out (round state a) = out state ++ (made a).toList)
    (as : List A) {state : S} (start : I state) : out (as.foldl round state) = out state ++ as.filterMap made := by
  induction as generalizing state with
  | nil => simp
  | cons a as ih =>
    obtain ⟨next,appended⟩ := kept state a start
    rw [List.foldl_cons,ih next,appended]
    cases appends : made a <;> simp [appends]

namespace Host

variable {h : Host} {period : UInt64} {now : UInt32}

/-- What the loop of `DisconnectSilenceConnections` pushes for a key. -/
def silence (period : UInt64) (now : UInt32) (h : Host) (sock : SOCKET) : Option TSockMCommand :=
  ((h.findSocketObject sock).bind h.heap).bind (fun object =>
    if isSilent period now object then some ⟨.disconnect,object.socketId,h.findSocketObject object.socketId⟩ else none)

theorem disconnect_pushes (started : h.hasStart = true) (sock : SOCKET) :
    (h.disconnect sock).cmdQueue = h.cmdQueue ++ [⟨.disconnect,sock,h.findSocketObject sock⟩] := by
  simp only [disconnect,triggerCmdEvent,started,if_true,writeCmdEvt]
  split <;> rfl

theorem disconnect_same (sock : SOCKET) : (h.disconnect sock).heap = h.heap ∧ (h.disconnect sock).sockObjectMap = h.sockObjectMap ∧
    (h.disconnect sock).hasStart = h.hasStart := by
  unfold disconnect triggerCmdEvent writeCmdEvt
  split
  · split <;> exact ⟨rfl,rfl,rfl⟩
  · exact ⟨rfl,rfl,rfl⟩

/-- The loop goes through the map as it found it. -/
theorem disconnectSilence_pushes (started : h.hasStart = true) :
    (h.disconnectSilenceConnections period now).cmdQueue = h.cmdQueue ++ h.sortedKeys.filterMap (h.silence period now) := by
  refine foldl_filterMap (I := fun host => host.heap = h.heap ∧ host.sockObjectMap = h.sockObjectMap ∧ host.hasStart = true)
    (fun host sock same => ?_) h.sortedKeys ⟨rfl,rfl,started⟩
  obtain ⟨heap,map,going⟩ := same
  have found (sock : SOCKET) : host.findSocketObject sock = h.findSocketObject sock := by rw [findSocketObject,map,findSocketObject]
  have pushed := disconnect_pushes (h := host) going
  have kept := disconnect_same (h := host)
  simp only [found,heap]
  cases live : (h.findSocketObject sock).bind h.heap with
  | none => simp [silence,live,heap,map,going]
  | some object =>
    cases silent : isSilent period now object with
    | false => simp [silence,live,silent,heap,map,going]
    | true => simp [silence,live,silent,kept,pushed,found,heap,map,going]

theorem mem_silence (started : h.hasStart = true) {sock : SOCKET} {p : Ptr} {object : SocketObject}
    (found : h.findSocketObject sock = some p) (live : h.heap p = some object) (named : object.socketId = sock)
    (silent : isSilent period now object = true) :
    ∃ pushed, (h.disconnectSilenceConnections period now).cmdQueue = h.cmdQueue ++ pushed ∧ ⟨.disconnect,sock,some p⟩ ∈ pushed := by
  refine ⟨_,disconnectSilence_pushes started,List.mem_filterMap.mpr ⟨sock,?_,?_⟩⟩
  · rw [sortedKeys,List.mem_mergeSort]
    exact AList.mem_keys.mp (AList.lookup_isSome.mp (Option.isSome_of_eq_some found))
  · simp [silence,found,live,silent,named]

theorem disconnectSilence_schedule : (h.disconnectSilenceConnections period now).schedule = h.schedule :=
  h.disconnectSilence_rule period now (P := fun host => host.schedule = h.schedule) rfl
    (fun host sock same => (Idles.triggerCmdEvent 0 .disconnect sock host).schedule.trans same)

end Host

namespace TcpClient

variable {h : Host} {exp : UInt64} {now : UInt32}

theorem onTimer_reached {period : UInt32} (keepAlive : h.keepAliveTime = period) (heartbeat : 0 < h.heartbeatInterval)
    (longer : h.heartbeatInterval < period) (reached : (h.keepAliveTime / h.heartbeatInterval).toUInt64 ≤ h.timerEventCount + exp) :
    onTimer exp now h = {h with timerEventCount := 0}.disconnectSilenceConnections period.toUInt64 now := by
  subst keepAlive
  exact if_pos ⟨heartbeat,longer,reached⟩

theorem onTimer_counted (short : ¬ (h.keepAliveTime / h.heartbeatInterval).toUInt64 ≤ h.timerEventCount + exp) :
    onTimer exp now h = {h with timerEventCount := h.timerEventCount + exp} := if_neg (fun due => short due.2.2)

end TcpClient

namespace Sys

open Host (Idles)

variable {config : Config} {acts : List Act} {s next : Sys} {act : Act}

theorem timer_taken {exp : UInt64} {now : UInt32} (taken : s.step (.timer (some exp) now) = some next) :
    ∃ b, s.worker = .timer b ∧ next = s.moveTo (s.host.onTimer exp now) (.batch b) := by
  simp only [step,workerAct] at taken
  split at taken
  · cases at_timer : s.worker with
    | timer b =>
      simp only [at_timer,Option.elim_some,Option.some.injEq] at taken
      exact ⟨b,rfl,taken.symm⟩
    | _ => simp [at_timer] at taken
  · contradiction

/-- `OnTimer` alone changes what it looks at, and it alone is told of expirations. -/
theorem step_timer (taken : s.step act = some next) :
    (∃ exp now, act = .timer (some exp) now ∧ next.host = s.host.onTimer exp now) ∨
      act.expired = 0 ∧ next.host.schedule = s.host.schedule := by
  have other : s.host.nextPtr + 1 ≠ s.host.nextPtr := Nat.succ_ne_self _
  rcases step_idles other taken with idles | ⟨exp,now,_,_,rfl,rfl⟩ | ⟨now,received,same⟩
  · cases act with
    | timer exp now =>
      cases exp with
      | none => exact .inr ⟨rfl,idles.schedule⟩
      | some exp =>
        obtain ⟨b,_,rfl⟩ := timer_taken taken
        exact .inl ⟨exp,now,rfl,rfl⟩
    | _ => exact .inr ⟨rfl,idles.schedule⟩
  · exact .inl ⟨exp,now,rfl,rfl⟩
  · refine .inr ⟨?_,?_⟩
    · cases act with
      | timer exp now => simp [receives] at received
      | _ => rfl
    · rw [same]
      rfl

/-- The call of `OnTimer` that looked through the connections last, among the steps of a run. -/
structure Sweep (config : Config) (acts before : List Act) (exp : UInt64) (now : UInt32) (rest : List Act) (sweep next : Sys) :
    Prop where
  split : acts = before ++ .timer (some exp) now::rest
  run : Run config before sweep
  taken : sweep.step (.timer (some exp) now) = some next
  swept : next.host = {sweep.host with timerEventCount := 0}.disconnectSilenceConnections config.keepAliveTime.toUInt64 now

/-- `timer_event_count_` counts the expirations since that call. -/
structure Counts (config : Config) (acts : List Act) (s : Sys) : Prop where
  run : Run config acts s
  heartbeat : s.host.heartbeatInterval = config.heartbeatInterval
  keepAlive : s.host.keepAliveTime = config.keepAliveTime
  few : s.host.timerEventCount.toNat < config.sweepCount
  count : s.host.timerEventCount.toNat = config.timerEventCount.toNat + expired acts ∨
    ∃ before exp now rest sweep next, Sweep config acts before exp now rest sweep next ∧
      s.host.timerEventCount.toNat = expired rest

theorem Sweep.append {before rest : List Act} {exp : UInt64} {now : UInt32} {sweep swept : Sys}
    (last : Sweep config acts before exp now rest sweep swept) (act : Act) :
    Sweep config (acts ++ [act]) before exp now (rest ++ [act]) sweep swept :=
  ⟨by rw [last.split,List.append_assoc,List.cons_append],last.run,last.taken,last.swept⟩

theorem Counts.of_schedule (count : UInt64) (run : Run config acts s)
    (schedule : s.host.schedule = (config.heartbeatInterval,config.keepAliveTime,count)) (few : count.toNat < config.sweepCount)
    (since : count.toNat = config.timerEventCount.toNat + expired acts ∨
      ∃ before exp now rest sweep next, Sweep config acts before exp now rest sweep next ∧ count.toNat = expired rest) :
    Counts config acts s := by
  simp only [Host.schedule,Prod.mk.injEq] at schedule
  obtain ⟨heartbeat,keepAlive,rfl⟩ := schedule
  exact ⟨run,heartbeat,keepAlive,few,since⟩

/-- A call of `OnTimer` that does not reach the threshold adds to the count, and any other one starts it again. -/
theorem Counts.step (counts : Counts config acts s) (alive : config.KeepsAlive) (bounded : expired (acts ++ [act]) ≤ 2^31)
    (taken : s.step act = some next) : Counts config (acts ++ [act]) next := by
  have run : Run config (acts ++ [act]) next := by
    rw [Run,Transition.exec_append,counts.run,Option.bind_some]
    simpa using taken
  have schedule : s.host.schedule = (config.heartbeatInterval,config.keepAliveTime,s.host.timerEventCount) := by
    rw [Host.schedule,counts.heartbeat,counts.keepAlive]
  have few := counts.few
  have more (e : Nat) (told : act.expired = e) (count : Nat) (total : count = s.host.timerEventCount.toNat + e) :
      count = config.timerEventCount.toNat + expired (acts ++ [act]) ∨
        ∃ before exp now rest sweep next, Sweep config (acts ++ [act]) before exp now rest sweep next ∧ count = expired rest := by
    rcases counts.count with none_yet | ⟨before,exp,now,rest,sweep,swept,last,since⟩
    · exact .inl (by simp [total,none_yet,told,Nat.add_assoc])
    · exact .inr ⟨before,exp,now,rest ++ [act],sweep,swept,last.append act,by simp [total,since,told]⟩
  rcases step_timer taken with ⟨exp,now,rfl,moved⟩ | ⟨none,same⟩
  · have client : s.host.kind = .tcpClient := (run_kind counts.run).trans alive.kind
    have onTimer : next.host = TcpClient.onTimer exp now s.host := by simp only [moved,Host.onTimer,client]
    have told : exp.toNat ≤ 2^31 := by
      simp only [expired_append,expired_cons,expired_nil,Act.expired] at bounded
      omega
    have small : config.sweepCount < 2^32 := (Nat.div_le_self _ _).trans_lt config.keepAliveTime.toNat_lt
    have total : (s.host.timerEventCount + exp).toNat = s.host.timerEventCount.toNat + exp.toNat := by
      rw [UInt64.toNat_add,Nat.mod_eq_of_lt (by omega)]
    have threshold : (s.host.keepAliveTime / s.host.heartbeatInterval).toUInt64.toNat = config.sweepCount := by
      rw [UInt32.toNat_toUInt64,UInt32.toNat_div,counts.keepAlive,counts.heartbeat,Config.sweepCount]
    by_cases reached : (s.host.keepAliveTime / s.host.heartbeatInterval).toUInt64 ≤ s.host.timerEventCount + exp
    · have swept := onTimer.trans (TcpClient.onTimer_reached counts.keepAlive (counts.heartbeat ▸ alive.heartbeat)
        (counts.heartbeat ▸ alive.longer) reached)
      refine .of_schedule 0 run ?_ alive.sweepCount_pos
        (.inr ⟨acts,exp,now,[],s,next,⟨rfl,counts.run,taken,swept⟩,rfl⟩)
      rw [swept,Host.disconnectSilence_schedule]
      simp only [Host.schedule,counts.heartbeat,counts.keepAlive]
    · have counted := onTimer.trans (TcpClient.onTimer_counted reached)
      rw [UInt64.le_iff_toNat_le,threshold,total] at reached
      refine .of_schedule _ run ?_ (by omega) (more _ rfl _ total)
      rw [counted,Host.schedule,counts.heartbeat,counts.keepAlive]
  · exact .of_schedule _ run (same.trans schedule) few (more 0 none _ rfl)

theorem last_sweep (alive : config.KeepsAlive) (bounded : expired acts ≤ 2^31) (run : Run config acts s) : Counts config acts s := by
  induction acts using List.reverseRecOn generalizing s with
  | nil =>
    obtain rfl : config.started = s := Option.some.inj run
    exact .of_schedule _ rfl rfl alive.fresh (.inl rfl)
  | append_singleton acts act ih =>
    rw [Run,Transition.exec_append] at run
    obtain ⟨before,early,taken⟩ := Option.bind_eq_some_iff.mp run
    have counts := ih (by simp at bounded; omega) early
    exact counts.step alive bounded (by simpa using taken)

end Sys

theorem two_places {A : Type} {first second left right : List A} {a b : A} (differs : a ≠ b)
    (same : first ++ a::second = left ++ b::right) :
    (∃ between, left = first ++ a::between ∧ second = between ++ b::right) ∨
      ∃ between, first = left ++ b::between ∧ right = between ++ a::second := by
  rcases List.append_eq_append_iff.mp same with ⟨between,before,after⟩ | ⟨between,before,after⟩
  · cases between with
    | nil => exact absurd (List.cons.inj after).1 differs
    | cons c between =>
      obtain ⟨rfl,tail⟩ := List.cons.inj after
      exact .inl ⟨between,before,tail⟩
  · cases between with
    | nil => exact absurd (List.cons.inj after).1.symm differs
    | cons c between =>
      obtain ⟨rfl,tail⟩ := List.cons.inj after
      exact .inr ⟨between,before,tail⟩

section due

variable {config : Config} {now : Timespec} {time : Int}

/-- A connection is not overdue before a first look through the connections is. -/
theorem enough_expirations (alive : config.KeepsAlive) (after : now.tvSec ≤ time) {T : Nat}
    (overdue : time + config.keepAliveTime.toNat + (config.sweepCount - 1)*config.heartbeatInterval.toNat ≤
      (config.timer now).expiration T) : config.sweepCount ≤ T := by
  by_contra fewer
  have seconds := alive.seconds
  have expirations : ((T : Int) - 1)*config.heartbeatInterval.toNat ≤ (config.sweepCount - 1)*config.heartbeatInterval.toNat :=
    mul_le_mul_of_nonneg_right (by omega) (by omega)
  rw [timer_expiration alive] at overdue
  omega

/-- The last expiration that it counted is late for an overdue connection. -/
theorem Clocked.late (alive : config.KeepsAlive) {before rest : List Act} {exp : UInt64} {clock : UInt32}
    (clocked : Clocked (config.timer now) now.tvSec (before ++ .timer (some exp) clock::rest)) (after : now.tvSec ≤ time)
    (few : expired rest < config.sweepCount)
    (overdue : time + config.keepAliveTime.toNat + (config.sweepCount - 1)*config.heartbeatInterval.toNat ≤
      (config.timer now).expiration (expired (before ++ .timer (some exp) clock::rest))) :
    time + config.keepAliveTime.toNat ≤ clock.toNat := by
  have enough := enough_expirations alive after overdue
  simp only [expired_append,expired_cons,Act.expired] at enough overdue
  have nominal := clocked.nominal before exp clock rest rfl (by omega)
  have counted : (expired rest : Int)*config.heartbeatInterval.toNat ≤ (config.sweepCount - 1)*config.heartbeatInterval.toNat :=
    mul_le_mul_of_nonneg_right (by omega) (by omega)
  rw [timer_expiration alive] at nominal overdue
  push_cast at nominal overdue
  rw [← add_assoc,add_sub_right_comm,add_mul] at overdue
  omega

end due

namespace Sys

section silent

variable {config : Config} {s next : Sys} {p : Ptr} {sock : SOCKET}

/-- A look through the connections disconnects one that has been silent for `keep_alive_time_in_seconds_`. -/
theorem Since.disconnected {time : Int} {now : UInt32} {b : Batch} (since : Since p time s) (serving : s.Serving p sock)
    (at_timer : s.worker = .timer b) (known : 0 ≤ time) (late : time + config.keepAliveTime.toNat ≤ now.toNat)
    (small : now.toNat < 2^31)
    (swept : next.host = {s.host with timerEventCount := 0}.disconnectSilenceConnections config.keepAliveTime.toUInt64 now) :
    ∃ pushed, next.host.cmdQueue = s.host.cmdQueue ++ pushed ∧ ⟨.disconnect,sock,some p⟩ ∈ pushed := by
  obtain ⟨found,valid⟩ := serving
  have started : s.host.hasStart = true := by
    simpa [Host.hasStart] using (since.inv.control.started (by simp [at_timer])).2
  obtain ⟨object,live,fValid⟩ := Host.isValid_live valid
  have named : object.socketId = sock := since.inv.named found live (by simp [view,at_timer,Worker.role])
  have silent : Host.isSilent config.keepAliveTime.toUInt64 now object = true := by
    have activeTime := since.activeTime object live
    have difference : int32 (now.toNat - time) = now.toNat - time := int32_of_lt (by omega) (by omega)
    have period : int32 config.keepAliveTime.toNat = config.keepAliveTime.toNat := int32_of_lt (by omega) (by omega)
    simp only [Host.isSilent,fValid,activeTime,UInt32.toNat_toUInt64,difference,period,Bool.true_and,decide_eq_true_eq]
    omega
  rw [swept]
  exact Host.mem_silence (h := {s.host with timerEventCount := 0}) started found live named silent

/-- Keep-alive: a connection that is still in the map and valid after as many expirations, and has sent nothing since
`last`, has been disconnected by a call of `OnTimer` after `last`. -/
theorem silent_connection_disconnected {now : Timespec} (start : 0 ≤ now.tvSec) (alive : config.KeepsAlive) {before after : List Act}
    {last : UInt32} (clocked : Clocked (config.timer now) now.tvSec (before ++ .readyRead last::after)) {mid later : Sys}
    (early : Run config before mid) (received : mid.receives p (.readyRead last) = some last)
    (taken : mid.step (.readyRead last) = some later) (rest : Transition.exec Sys.step later after = some s)
    (unread : Transition.Along Sys.step (fun s act => s.receives p act = none) later after) (serving : s.Serving p sock)
    (overdue : last.toNat + config.keepAliveTime.toNat + (config.sweepCount - 1)*config.heartbeatInterval.toNat ≤
      (config.timer now).expiration (expired (before ++ .readyRead last::after))) :
    ∃ between exp clock rest sweep next pushed, after = between ++ .timer (some exp) clock::rest ∧
      Transition.exec Sys.step later between = some sweep ∧ sweep.step (.timer (some exp) clock) = some next ∧
      last < clock ∧ next.host.cmdQueue = sweep.host.cmdQueue ++ pushed ∧ ⟨.disconnect,sock,some p⟩ ∈ pushed := by
  have whole : Run config (before ++ .readyRead last::after) s := by
    rw [Run,Transition.exec_append,early,Option.bind_some,Transition.exec_cons,taken,Option.bind_some,rest]
  have counts := last_sweep alive (clocked.bounded start alive) whole
  have known : now.tvSec ≤ last.toNat := clocked.started last (by simp [Act.reading])
  have enough := enough_expirations alive known overdue
  rcases counts.count with none_yet | ⟨first,exp,clock,counted,sweep,swept,found,since⟩
  · have few := counts.few
    omega
  · have few := counts.few
    rw [since] at few
    have timed := found.split ▸ clocked
    have late := timed.late alive known few (found.split ▸ overdue)
    have clocks (between : List Act) (split : before = first ++ .timer (some exp) clock::between) : False := by
      have ordered := clocked.ordered
      rw [split] at ordered
      simp only [List.append_assoc,List.cons_append,List.filterMap_append,List.filterMap_cons,Act.reading] at ordered
      have back : clock ≤ last := (List.pairwise_cons.mp (List.pairwise_append.mp ordered).2.1).1 last (by simp)
      have seconds := alive.seconds
      have := UInt32.le_iff_toNat_le.mp back
      omega
    rcases two_places (by simp) found.split with ⟨between,rfl,rfl⟩ | ⟨between,split,_⟩
    · have reached : Transition.exec Sys.step later between = some sweep := by
        have run := found.run
        rwa [Run,Transition.exec_append,early,Option.bind_some,Transition.exec_cons,taken,Option.bind_some] at run
      obtain ⟨still,again,known_still,serving⟩ := (since_receive (run_inv early) received taken).was_serving rest unread serving
      obtain rfl : still = sweep := Option.some.inj (again.symm.trans reached)
      obtain ⟨b,at_timer,_⟩ := timer_taken found.taken
      obtain ⟨pushed,queue,member⟩ := known_still.disconnected serving at_timer (by omega) late
        (clocked.small clock (by simp [Act.reading])) found.swept
      have seconds := alive.seconds
      have later_clock : last < clock := UInt32.lt_iff_toNat_lt.mpr (by omega)
      exact ⟨between,exp,clock,counted,still,swept,pushed,rfl,reached,found.taken,later_clock,queue,member⟩
    · exact (clocks between split).elim

end silent

/-- A client whose timer expires every second and that gives its connections two. -/
def twoSeconds : Config where
  kind := .tcpClient
  listenSocket := invalidFd
  epollFd := 4
  cmdEvtFd := 5
  exitEvtFd := 6
  timerEvtFd := 8
  heartbeatInterval := 1
  keepAliveTime := 2
  timerEventCount := 0
  rxBuffer := []
  isOpen := fun fd => fd = 8 || (4 ≤ fd && fd ≤ 6)
  backlog := []
  callers := 2
  epoll_open := by decide
  exit_open := by decide
  cmd_open := by decide
  timer_open := by decide
  listen_open := by decide
  distinct := by decide
  timer_distinct := by decide

/-- The connection, and the worker where it starts to read the peer's first bytes. -/
def peerSpeaks : List Act := [.connect 1 .connectToRemote [],.caller 1 (.fd 7),.caller 1 (.object .blank 0)] ++
  List.replicate 4 (.caller 1 .done) ++ [.epollPwait (.ok [(7,epollin)]),.worker,.beforeIo (.ok 0) 0]

/-- The peer sends a byte and no more, and `OnTimer` is told of three expirations at once. -/
def threeExpirations : List Act := [.read (.ok [1]) [] 0,.read (.error eagain) [] 0,.worker,.epollPwait (.ok [(8,epollin)]),.worker,
  .timer (some 3) 3]

theorem silent_peer_disconnected :
    ∃ between exp clock rest sweep next pushed, threeExpirations = between ++ .timer (some exp) clock::rest ∧
      Run twoSeconds (peerSpeaks ++ .readyRead 0::between) sweep ∧ sweep.step (.timer (some exp) clock) = some next ∧
      0 < clock ∧ next.host.cmdQueue = sweep.host.cmdQueue ++ pushed ∧ ⟨.disconnect,7,some 0⟩ ∈ pushed := by
  obtain ⟨mid,early,received,found⟩ := run_reaches twoSeconds peerSpeaks (fun mid => mid.receives 0 (.readyRead 0) = some 0 ∧
    (mid.step (.readyRead 0)).any (fun later => decide (
      Transition.Along Sys.step (fun s act => s.receives 0 act = none) later threeExpirations ∧
      (Transition.exec Sys.step later threeExpirations).any (fun s =>
        decide (s.host.findSocketObject 7 = some 0 ∧ s.host.isValid (some 0) = true)) = true)) = true) (by decide +kernel)
  obtain ⟨later,taken,found⟩ := (Option.any_eq_true _ _).mp found
  obtain ⟨unread,found⟩ := of_decide_eq_true found
  obtain ⟨s,rest,serving⟩ := Transition.exec_reaches (fun s : Sys => s.host.findSocketObject 7 = some 0 ∧ s.host.isValid (some 0) = true)
    found
  have alive : twoSeconds.KeepsAlive := ⟨rfl,by decide,by decide,by decide,by decide⟩
  have clocked : Clocked (twoSeconds.timer ⟨0,0⟩) 0 (peerSpeaks ++ .readyRead 0::threeExpirations) := by
    have readings : (peerSpeaks ++ .readyRead 0::threeExpirations).filterMap Act.reading = [0,3] := rfl
    refine ⟨by simp [readings],by simp [readings],by simp [readings],fun before exp now after split _ => ?_⟩
    have member : .timer (some exp) now ∈ peerSpeaks ++ .readyRead 0::threeExpirations := by simp [split]
    obtain ⟨rfl,rfl⟩ : exp = 3 ∧ now = 3 := by simpa [peerSpeaks,threeExpirations] using member
    have total : expired (peerSpeaks ++ .readyRead 0::threeExpirations) = 3 := rfl
    have few : expired before + (3 + expired after) = 3 := by
      rw [split] at total
      simpa [Act.expired] using total
    have none : expired before = 0 := by omega
    rw [none,timer_expiration alive]
    decide
  obtain ⟨between,exp,clock,after,sweep,next,pushed,split,reached,swept,late,queue,member⟩ :=
    silent_connection_disconnected (le_refl 0) alive clocked early received taken rest unread serving (by
      rw [timer_expiration alive]
      decide)
  refine ⟨between,exp,clock,after,sweep,next,pushed,split,?_,swept,late,queue,member⟩
  rw [Run,Transition.exec_append,early,Option.bind_some,Transition.exec_cons,taken,Option.bind_some,reached]

end Sys

end LightServer
