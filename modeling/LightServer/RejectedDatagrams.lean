import LightServer.Datagrams
import LightServer.ProcessIo

/-! A datagram that `sendto` rejects for good. `HandleSend` returns at it and leaves it at the front of
the queue, so the datagrams behind it wait for as long as it is rejected. -/
namespace LightServer

/-- The packets of the object that still hold bytes. -/
def Host.outgoing (p : Ptr) (h : Host) : Option (List Datagram) := (h.heap p).map Host.unsentDatagrams

/-- What `sendto` answers for a datagram that it always rejects, and for one that it accepts. -/
def Verdict (rejected : Bool) : Except Errno Nat → Prop
  | .ok _ => rejected = false
  | .error code => rejected = true ∧ code ≠ eagain

instance (rejected : Bool) (rc : Except Errno Nat) : Decidable (Verdict rejected rc) :=
  match rc with
  | .ok _ => inferInstanceAs (Decidable (rejected = false))
  | .error code => inferInstanceAs (Decidable (rejected = true ∧ code ≠ eagain))

namespace Sys

/-- The object whose `HandleSend` returns in the step. -/
def sendReturns (s : Sys) (act : Act) : List Ptr :=
  match s.worker, act with
  | .sendLoop p _, .worker => if (s.host.frontPacket p).isNone then [p] else []
  | .sendPacket p _, .write (.error _) => [p]
  | _, _ => []

/-- `sendto` answers for the object as it always answers for the datagram. -/
def Answers (rejects : Datagram → Bool) (p : Ptr) (s : Sys) (act : Act) : Prop :=
  s.worker.sending = some p → ∀ rc ∈ act.written, ∀ packet ∈ s.host.frontPacket p, Verdict (rejects packet.datagram) rc

instance (rejects : Datagram → Bool) (p : Ptr) (s : Sys) (act : Act) : Decidable (Answers rejects p s act) :=
  inferInstanceAs (Decidable (_ = _ → ∀ rc ∈ act.written, ∀ packet ∈ s.host.frontPacket p, _))

/-- What a step does to the datagrams of an object. -/
inductive DatagramStep (p : Ptr) (s : Sys) (act : Act) (next : Sys) : Prop
  | kept (sent : next.host.sentDatagrams p = s.host.sentDatagrams p)
      (left : ∀ rest ∈ next.host.outgoing p, s.host.outgoing p = some rest)
  | queued (rest added) (sent : next.host.sentDatagrams p = s.host.sentDatagrams p) (before : s.host.outgoing p = some rest)
      (after : next.host.outgoing p = some (rest ++ added))
  | taken (packet count rest) (sending : s.worker.sending = some p) (answered : act = .write (.ok count))
      (front : s.host.frontPacket p = some packet) (sent : next.host.sentDatagrams p = s.host.sentDatagrams p ++ [packet.datagram])
      (before : s.host.outgoing p = some (packet.datagram::rest)) (after : next.host.outgoing p = some rest)

theorem DatagramStep.of_keeps {p : Ptr} {s next : Sys} {act : Act} (made : p < s.host.nextPtr)
    (keeps : s.host.KeepsPackets next.host) : DatagramStep p s act next := by
  refine .kept (keeps.sentDatagrams p) (fun rest left => ?_)
  obtain ⟨object,live,rfl⟩ := Option.map_eq_some_iff.mp left
  rcases keeps.objects p object live with ⟨old,live',same⟩ | ⟨fresh,_,_⟩
  · rw [Host.outgoing,live',Option.map_some,Host.unsentDatagrams,Host.unsentDatagrams,same]
  · exact absurd made (Nat.not_lt.mpr fresh)

theorem datagram_step {s next : Sys} {act : Act} (call : s.SendCall) (udp : s.host.kind = .udpServer)
    (taken : s.step act = some next) {p : Ptr} (made : p < s.host.nextPtr) : DatagramStep p s act next := by
  have other {next : Sys} (heap : next.host.heap p = s.host.heap p)
      (sent : next.host.sentDatagrams p = s.host.sentDatagrams p) : DatagramStep p s act next :=
    .kept sent (fun rest left => by rwa [Host.outgoing,heap] at left)
  cases step_taken taken with
  | arrive conn kind listening => exact .of_keeps made (.of_same rfl rfl rfl rfl)
  | startAccept refused kind => exact .of_keeps made (.startAccept refused s.host)
  | sendRefused act sends => exact .of_keeps made (.refl s.host)
  | sent act t sock addr raw buf q object sends kind idle found live valid room =>
    by_cases same : p = q
    · subst same
      have pushed : (object.push raw buf addr).2.outPacketsQueue =
          object.outPacketsQueue ++ [MsgPacket.build raw (int32 buf.length) buf addr] := by
        rw [SocketObject.push,if_neg (Nat.not_le.mpr room)]
      obtain ⟨added,after⟩ : ∃ added, Host.unsentDatagrams (object.push raw buf addr).2 = Host.unsentDatagrams object ++ added :=
        ⟨_,by rw [Host.unsentDatagrams,pushed,List.filter_append,List.map_append]; rfl⟩
      refine .queued _ added ?_ (by rw [Host.outgoing,live,Option.map_some])
        (by simp only [setCaller,Host.outgoing,Host.observe,Host.modify,live,Option.map_some,Function.update_self,after])
      exact (Host.sentDatagrams_observe _ p _).trans (List.append_nil _)
    · refine other (by simp [setCaller,Host.observe,Host.modify,same]) ?_
      exact (Host.sentDatagrams_observe _ p _).trans (List.append_nil _)
  | disconnect t sock idle => exact .of_keeps made (.refl s.host)
  | limitIgnored sock num => exact .of_keeps made (.refl s.host)
  | limitSet sock num q change kind found which =>
    refine .of_keeps made (.modify q change s.host (fun object => ?_))
    rcases which with rfl | rfl <;> rfl
  | connect t op addr idle offered => exact .of_keeps made (.refl s.host)
  | stop t idle outside first => exact .of_keeps made (.refl s.host)
  | caller t c reply host later found may step => exact .of_keeps made step.packets
  | worker act host worker idle move =>
    cases move.touched with
    | kept keeps before after => exact .of_keeps made keeps
    | failed q ctx code at_w answered host worker => exact .of_keeps made (host ▸ .refl s.host)
    | emptied q ctx packet at_w front empty host worker => exact .of_keeps made (host ▸ .refl s.host)
    | written q ctx packet count at_w answered front left fits host worker =>
      obtain ⟨object,rest,live,queue⟩ := Host.front_packet front
      obtain ⟨whole,wrote⟩ := s.host.udp_written q udp fits
      rw [wrote] at host
      subst host worker
      by_cases same : p = q
      · subst same
        have bytes : packet.bytesFrom count = packet.unsent := by rw [MsgPacket.unsent,← whole,Int.toNat_natCast]
        refine .taken packet count _ (by rw [at_w,Worker.sending]) answered front ?_
          (by rw [Host.outgoing,live,Option.map_some,Host.unsentDatagrams_cons queue left]) ?_
        · refine (Host.sentDatagrams_observe _ p _).trans ?_
          simp [Obs.sentDatagram,bytes,MsgPacket.datagram]
        · have after := Host.unsentDatagrams_spent (Host.reduceFront_queue queue count) (MsgPacket.reduce_spent whole)
          simp [moveTo,Host.outgoing,Host.observe,Host.modify,live,after]
      · refine other (by simp [moveTo,Host.observe,Host.modify,same]) ?_
        refine (Host.sentDatagrams_observe _ p _).trans ?_
        simp [Obs.sentDatagram,Ne.symm same]
    | popped q ctx at_w host worker =>
      obtain ⟨packet,front,spent⟩ := call.popping q ctx at_w
      obtain ⟨object,rest,live,queue⟩ := Host.front_packet front
      subst host worker
      by_cases same : p = q
      · subst same
        have after : Host.unsentDatagrams object.popOutPacket = Host.unsentDatagrams object := by
          rw [Host.unsentDatagrams_spent queue spent,Host.unsentDatagrams,Host.popOutPacket_queue queue]
        exact .kept rfl (by simp [moveTo,Host.outgoing,Host.modify,live,after])
      · exact other (by simp [moveTo,Host.modify,same]) rfl

/-- What has been sent since the queue was looked at comes first in it, and none of it is rejected. -/
structure Progress (rejects : Datagram → Bool) (p : Ptr) (sent queue : List Datagram) (s : Sys) : Prop where
  call : s.SendCall
  udp : s.host.kind = .udpServer
  made : p < s.host.nextPtr
  order : ∃ new rest pushed, s.host.sentDatagrams p = sent ++ new ∧ new ++ rest = queue ++ pushed ∧
    (∀ d ∈ new, (!rejects d) = true) ∧ ∀ left ∈ s.host.outgoing p, left = rest

section progress

variable {rejects : Datagram → Bool} {p : Ptr} {sent queue : List Datagram} {s next : Sys} {act : Act}

theorem Progress.start {object : SocketObject} (call : s.SendCall) (udp : s.host.kind = .udpServer)
    (live : s.host.heap p = some object) :
    Progress rejects p (s.host.sentDatagrams p) (Host.unsentDatagrams object) s := by
  refine ⟨call,udp,call.inv.below live,[],Host.unsentDatagrams object,[],(List.append_nil _).symm,(List.append_nil _).symm,by simp,?_⟩
  intro left outgoing
  rw [Host.outgoing,live,Option.map_some] at outgoing
  exact (Option.some.inj outgoing).symm

theorem Progress.step (progress : Progress rejects p sent queue s) (answers : Answers rejects p s act)
    (taken : s.step act = some next) : Progress rejects p sent queue next := by
  obtain ⟨call,udp,made,new,rest,pushed,log,order,accepted,left⟩ := progress
  have later : p < next.host.nextPtr := made.trans_le (view_step call.inv.control taken).nextPtr_le
  refine ⟨call.step taken,(call.inv.kind taken).trans udp,later,?_⟩
  cases datagram_step call udp taken made with
  | kept same fewer => exact ⟨new,rest,pushed,same.trans log,order,accepted,fun now outgoing => left now (fewer now outgoing)⟩
  | queued before added same at_s at_next =>
    refine ⟨new,rest ++ added,pushed ++ added,same.trans log,?_,accepted,fun now outgoing => ?_⟩
    · rw [← List.append_assoc,order,List.append_assoc]
    · rw [← left before at_s]
      exact (Option.some.inj (at_next.symm.trans outgoing)).symm
  | taken packet count behind sending answered front grown at_s at_next =>
    have rest_eq : packet.datagram::behind = rest := left _ at_s
    have verdict : Verdict (rejects packet.datagram) (.ok count) :=
      answers sending _ (by simp [answered,Act.written]) packet front
    refine ⟨new ++ [packet.datagram],behind,pushed,?_,?_,fun d member => ?_,fun now outgoing => ?_⟩
    · rw [grown,log,List.append_assoc]
    · rw [← order,← rest_eq,List.append_assoc,List.singleton_append]
    · rcases List.mem_append.mp member with old | now
      · exact accepted d old
      · rw [List.mem_singleton.mp now,Bool.not_eq_true']
        exact verdict
    · exact (Option.some.inj (at_next.symm.trans outgoing)).symm

theorem DatagramStep.grows (step : DatagramStep p s act next) : s.host.sentDatagrams p <+: next.host.sentDatagrams p := by
  cases step with
  | kept same fewer => exact same ▸ List.prefix_rfl
  | queued before added same at_s at_next => exact same ▸ List.prefix_rfl
  | taken packet count behind sending answered front grown at_s at_next => exact ⟨_,grown.symm⟩

/-- `HandleSend` returns with an empty queue or at a datagram that is rejected. -/
theorem Progress.returned (progress : Progress rejects p sent queue s) (answers : Answers rejects p s act)
    (taken : s.step act = some next) (returns : p ∈ s.sendReturns act) :
    sent ++ queue.takeWhile (fun d => !rejects d) <+: s.host.sentDatagrams p := by
  obtain ⟨call,udp,made,new,rest,pushed,log,order,accepted,left⟩ := progress
  rw [log,List.prefix_append_right_inj]
  refine Channel.takeWhile_prefix order accepted (fun d at_front => ?_)
  unfold sendReturns at returns
  split at returns
  · rename_i q ctx at_w
    split at returns
    · rename_i empty
      obtain rfl := List.mem_singleton.mp returns
      obtain ⟨object,live⟩ := call.live p (by rw [at_w,Worker.handlesSend])
      have none_left : object.outPacketsQueue = [] := by
        simpa [Host.frontPacket,live,SocketObject.frontOutPacket] using empty
      have rest_eq := left (Host.unsentDatagrams object) (by rw [Host.outgoing,live,Option.map_some]; rfl)
      simp [← rest_eq,Host.unsentDatagrams,none_left] at at_front
    · simp at returns
  · rename_i q ctx code at_w
    obtain rfl := List.mem_singleton.mp returns
    obtain ⟨packet,front,bytes⟩ := write_left at_w taken
    obtain ⟨object,behind,live,at_head⟩ := Host.front_packet front
    have rest_eq := left (Host.unsentDatagrams object) (by rw [Host.outgoing,live,Option.map_some]; rfl)
    rw [← rest_eq,Host.unsentDatagrams_cons at_head bytes,List.head?_cons] at at_front
    have verdict : Verdict (rejects packet.datagram) (.error code) :=
      answers (by rw [at_w,Worker.sending]) _ rfl packet front
    rw [← Option.some.inj at_front,verdict.1,Bool.not_true]
  · simp at returns

end progress

/-- After as many returns of `HandleSend` as the queue had datagrams, all that `sendto` accepts have been
sent exactly if none of them stood behind one that it rejects. -/
theorem accepted_sent_iff {config : Config} {acts calls : List Act} {s final : Sys} (run : Run config acts s)
    (udp : config.kind = .udpServer) {p : Ptr} {object : SocketObject} (live : s.host.heap p = some object)
    (rejects : Datagram → Bool) (later : Transition.exec step s calls = some final)
    (answers : Transition.Along step (Answers rejects p) s calls)
    (enough : (Host.unsentDatagrams object).length ≤ (Transition.trace step sendReturns s calls).count p) :
    ((Host.unsentDatagrams object).filter (fun d => !rejects d)).Subperm
        ((final.host.sentDatagrams p).drop (s.host.sentDatagrams p).length) ↔
      Channel.RefusedLast (fun d => !rejects d) (Host.unsentDatagrams object) := by
  have start : Progress rejects p (s.host.sentDatagrams p) (Host.unsentDatagrams object) s :=
    .start (run_sendCall run) ((run_kind run).trans udp) live
  obtain ⟨_,_,_,new,rest,pushed,log,order,accepted,_⟩ := Transition.exec_invariant
    (fun _ _ _ answers progress taken => Progress.step progress answers taken) answers start later
  rw [log,List.drop_left]
  cases queue : Host.unsentDatagrams object with
  | nil => exact ⟨fun _ => .nil,fun _ => List.nil_subperm⟩
  | cons d queue' =>
    have returned : p ∈ Transition.trace step sendReturns s calls := by
      rw [queue,List.length_cons] at enough
      exact List.count_pos_iff.mp (by omega)
    rw [← queue]
    refine Channel.served_iff ?_ (Channel.sent_prefix order accepted)
    have reached := Transition.exec_of_mem_trace
      (D := fun t => s.host.sentDatagrams p ++ (Host.unsentDatagrams object).takeWhile (fun d => !rejects d) <+:
        t.host.sentDatagrams p)
      (fun _ _ _ answers progress taken => Progress.step progress answers taken)
      (fun _ _ _ answers progress taken => Progress.returned progress answers taken)
      (fun _ _ _ _ progress taken reached => reached.trans (datagram_step progress.call progress.udp taken progress.made).grows)
      answers start later returned
    rwa [log,List.prefix_append_right_inj] at reached

/-- Runs on fixed inputs with calls of `HandleSend` on the first object are found by evaluating them. -/
theorem sends_found (config : Config) (acts calls : List Act) (rejects : Datagram → Bool) (queue sent : List Datagram)
    (found : (Transition.exec step config.started acts).any (fun s => decide (
      (s.host.outgoing 0 = some queue ∧ s.host.sentDatagrams 0 = []) ∧ Transition.Along step (Answers rejects 0) s calls ∧
      queue.length ≤ (Transition.trace step sendReturns s calls).count 0 ∧
      (Transition.exec step s calls).any (fun final => final.host.sentDatagrams 0 = sent))) = true) :
    ∃ s object final, Run config acts s ∧ s.host.heap 0 = some object ∧ Host.unsentDatagrams object = queue ∧
      s.host.sentDatagrams 0 = [] ∧ Transition.exec step s calls = some final ∧
      Transition.Along step (Answers rejects 0) s calls ∧
      (Host.unsentDatagrams object).length ≤ (Transition.trace step sendReturns s calls).count 0 ∧
      final.host.sentDatagrams 0 = sent := by
  obtain ⟨s,run,⟨outgoing,nothing⟩,answers,enough,ends⟩ := run_reaches config acts _ found
  obtain ⟨object,live,rfl⟩ := Option.map_eq_some_iff.mp outgoing
  obtain ⟨final,later,sent⟩ := (Option.any_eq_true _ _).mp ends
  exact ⟨s,object,final,run,live,rfl,nothing,later,answers,enough,of_decide_eq_true sent⟩

/-- `sendto` takes payloads of one byte only, and answers `EMSGSIZE` for longer ones. -/
def tooLong (d : Datagram) : Bool := 1 < d.2.length

/-- A second call of `HandleSend`, for the next command. -/
def sendAgain : List Act := [.worker,.worker,.beforeIo (.ok 0) 0,.worker,.worker,.write (.error 90)]

theorem rejected_last_served :
    ∃ s object calls final, Run (.plain .udpServer 2) (datagramsQueued [([8],[3]),([9],[1,2])]) s ∧ s.host.heap 0 = some object ∧
      Host.unsentDatagrams object = [(some [8],[3]),(some [9],[1,2])] ∧ Transition.exec step s calls = some final ∧
      ((Host.unsentDatagrams object).filter (fun d => !tooLong d)).Subperm
        ((final.host.sentDatagrams 0).drop (s.host.sentDatagrams 0).length) := by
  obtain ⟨s,object,final,run,live,queue,nothing,later,answers,enough,sent⟩ :=
    sends_found (.plain .udpServer 2) (datagramsQueued [([8],[3]),([9],[1,2])])
      (sendCommanded ++ [.worker,.worker,.write (.ok 1),.worker,.worker,.worker,.write (.error 90)] ++ sendAgain) tooLong
      [(some [8],[3]),(some [9],[1,2])] [(some [8],[3])] (by decide +kernel)
  have served := (accepted_sent_iff run rfl live tooLong later answers enough).mpr (by rw [queue]; decide)
  exact ⟨s,object,_,final,run,live,queue,later,served⟩

theorem rejected_first_blocks :
    ∃ s object calls final, Run (.plain .udpServer 2) (datagramsQueued [([9],[1,2]),([8],[3])]) s ∧ s.host.heap 0 = some object ∧
      Host.unsentDatagrams object = [(some [9],[1,2]),(some [8],[3])] ∧ Transition.exec step s calls = some final ∧
      Transition.Along step (Answers tooLong 0) s calls ∧
      (Host.unsentDatagrams object).length ≤ (Transition.trace step sendReturns s calls).count 0 ∧
      ¬ ((Host.unsentDatagrams object).filter (fun d => !tooLong d)).Subperm
        ((final.host.sentDatagrams 0).drop (s.host.sentDatagrams 0).length) := by
  obtain ⟨s,object,final,run,live,queue,nothing,later,answers,enough,sent⟩ :=
    sends_found (.plain .udpServer 2) (datagramsQueued [([9],[1,2]),([8],[3])])
      (sendCommanded ++ [.worker,.worker,.write (.error 90)] ++ sendAgain) tooLong
      [(some [9],[1,2]),(some [8],[3])] [] (by decide +kernel)
  refine ⟨s,object,_,final,run,live,queue,later,answers,enough,?_⟩
  rw [queue,sent,nothing]
  exact fun served => absurd (List.subperm_nil.mp served) (by decide)

end Sys

end LightServer
