import LightServer.Adding
import LightServer.TableInvariant

/-! The functions of one `SocketManager` called one after another, each from its call to its return.
The worker's thread goes on between them. While it is inside a callback it waits there, and what the
listener calls are the operations that come before its next step. -/
namespace LightServer

/-- The object that is deleted. -/
def Obs.deletes : Obs → Option Ptr
  | .deleted p => some p
  | _ => none

namespace Host

/-- `Send` and `UdpSend`. -/
def send (sock : SOCKET) (addr : Option Sockaddr) (raw : MsgPacket) (buf : List UInt8) (h : Host) : Int × Host :=
  let stored := h.storeMessage sock addr raw buf
  if stored.1 = socketError then (socketError,stored.2) else (0,stored.2.triggerCmdEvent .send sock)

/-- `Stop` after the worker's thread has been joined. -/
def stopJoined (h : Host) : Int × Host :=
  if h.hasStart then (0,{h with cmdQueue := []}.releaseSocketObjects.closeManagerFds) else (-1,h)

def deletions (h : Host) : List Ptr := h.log.filterMap Obs.deletes

end Host

inductive Operation
  | addTcpSocket (sock : SOCKET) (addr : Sockaddr) (raw : SocketObject) (now : UInt32) (refused : Bool)
  | add (op : Adding) (raw : SocketObject) (now : UInt32) (refused : Bool)
  | send (sock : SOCKET) (addr : Option Sockaddr) (raw : MsgPacket) (buf : List UInt8)
  | disconnect (sock : SOCKET)
  | stop
  | stopJoined
  | work (act : Act)

namespace Sys

/-- The kernel hands out only fds that are not open. -/
def operate (s : Sys) (op : Operation) : Option Sys :=
  match op with
  | .addTcpSocket sock addr raw now refused => some {s with host := (s.host.addTcpSocket sock addr raw now refused).2.2}
  | .add op raw now refused =>
    if ∀ fd ∈ op.obtained, 0 ≤ fd ∧ s.host.isOpen fd = false then some {s with host := (op.run raw now refused s.host).2}
    else none
  | .send sock addr raw buf => some {s with host := (s.host.send sock addr raw buf).2}
  | .disconnect sock => some {s with host := s.host.disconnect sock}
  | .stop => some {s with host := s.host.writeExitEvt}
  | .stopJoined => if s.worker = .exited then some {s with host := s.host.stopJoined.2} else none
  | .work act => s.workerAct act

end Sys

/-- The runs of a manager from a successful `Start` on. -/
def Operated (config : Config) (ops : List Operation) (s : Sys) : Prop :=
  Transition.exec Sys.operate config.started ops = some s

theorem operated_reaches (config : Config) (ops : List Operation) (P : Sys → Prop) [DecidablePred P]
    (found : (Transition.exec Sys.operate config.started ops).any (fun s => decide (P s)) = true) :
    ∃ s, Operated config ops s ∧ P s :=
  Transition.exec_reaches P found

namespace Table

/-- At most one object is made, and it is entered for the socket unless the socket has an entry. -/
inductive Enters (T T' : Table) : Prop
  | nothing (find : T'.find = T.find) (core : T'.core = T.core) (nextPtr : T'.nextPtr = T.nextPtr)
  | leaked (object) (find : T'.find = T.find) (core : T'.core = Function.update T.core T.nextPtr (some object))
      (nextPtr : T'.nextPtr = T.nextPtr+1)
  | added (sock connected) (absent : T.find sock = none) (find : T'.find = Function.update T.find sock (some T.nextPtr))
      (core : T'.core = Function.update T.core T.nextPtr (some (sock,true,connected))) (nextPtr : T'.nextPtr = T.nextPtr+1)

theorem Enters.of_eq {T T' : Table} (same : T' = T) : T.Enters T' := same ▸ .nothing rfl rfl rfl

theorem Enters.between {T T' next next' : Table} (enters : T'.Enters next)
    (before : T'.find = T.find ∧ T'.core = T.core ∧ T'.nextPtr = T.nextPtr)
    (after : next'.find = next.find ∧ next'.core = next.core ∧ next'.nextPtr = next.nextPtr) : T.Enters next' := by
  obtain ⟨find,core,nextPtr⟩ := before
  obtain ⟨find',core',nextPtr'⟩ := after
  cases enters with
  | nothing same same' same'' =>
    exact .nothing (find'.trans (same.trans find)) (core'.trans (same'.trans core)) (nextPtr'.trans (same''.trans nextPtr))
  | leaked object same made next =>
    exact .leaked object (find'.trans (same.trans find)) (by rw [core',made,core,nextPtr]) (by rw [nextPtr',next,nextPtr])
  | added sock connected absent entered made next =>
    exact .added sock connected (find ▸ absent) (by rw [find',entered,find,nextPtr]) (by rw [core',made,core,nextPtr])
      (by rw [nextPtr',next,nextPtr])

theorem Closes.entries {T T' : Table} (closes : T.Closes T') :
    T'.find = T.find ∧ T'.core = T.core ∧ T'.nextPtr = T.nextPtr := by
  obtain ⟨_,_,rfl,_,_⟩ := closes
  exact ⟨rfl,rfl,rfl⟩

end Table

namespace Host

variable {h : Host}

theorem enters_addSocketObject (sock : SOCKET) (raw : SocketObject) (addr : Option Sockaddr) (connected : Option UInt32)
    (refused : Bool) (h : Host) : h.table.Enters ((h.prepareObject raw addr connected).2.addSocketObject sock
      (h.prepareObject raw addr connected).1 refused).2.table := by
  have made := h.table_prepareObject raw addr connected
  have same : (h.prepareObject raw addr connected).2.sockObjectMap = h.sockObjectMap := by
    obtain ⟨object,prepared,_⟩ := h.prepareObject_frame raw addr connected
    rw [prepared]
  have ptr : (h.prepareObject raw addr connected).1 = h.nextPtr := (h.prepareObject_frame raw addr connected).choose_spec.2
  unfold addSocketObject
  split
  · exact .leaked _ (by rw [made]; rfl) (by rw [made]; rfl) (by rw [made]; rfl)
  · rename_i missing
    have absent : h.table.find sock = none := AList.lookup_eq_none.mpr (same ▸ missing)
    obtain ⟨registered,tables,_⟩ := ((h.prepareObject raw addr connected).2.insertSocketObject sock
      (h.prepareObject raw addr connected).1).table_addFD sock (h.prepareObject raw addr connected).1 refused
    rw [table_insertSocketObject,made,ptr] at tables
    rw [ptr,tables]
    refine .added sock connected.isSome absent ?_ ?_ rfl
    · simp [Table.alloc,Table.setCore,absent]
    · simp [Table.alloc,Table.setCore]

/-- At most one object is made and entered, and none is deleted. -/
structure Aside (h h' : Host) : Prop where
  enters : h.table.Enters h'.table
  deletions : h'.deletions = h.deletions

theorem deletions_prepareObject (raw : SocketObject) (addr : Option Sockaddr) (connected : Option UInt32) (h : Host) :
    (h.prepareObject raw addr connected).2.deletions = h.deletions := by
  obtain ⟨object,prepared,_⟩ := h.prepareObject_frame raw addr connected
  rw [prepared]
  rfl

theorem deletions_addSocketObject (sock : SOCKET) (p : Ptr) (refused : Bool) (h : Host) :
    (h.addSocketObject sock p refused).2.deletions = h.deletions :=
  h.addSocketObject_rule (P := fun host => host.deletions = h.deletions) sock p refused rfl (fun host kept => kept)
    (fun host kept => by
      unfold addFD
      split
      · exact kept
      · exact kept)

theorem deletions_closeFD (fd : FD) (h : Host) : (h.closeFD fd).deletions = h.deletions := by
  unfold closeFD
  split
  · simp [deletions,Obs.deletes]
  · rfl

theorem storeMessage_refused {sock : SOCKET} {addr : Option Sockaddr} {raw : MsgPacket} {buf : List UInt8}
    (refused : (h.storeMessage sock addr raw buf).1 = socketError) : (h.storeMessage sock addr raw buf).2 = h := by
  unfold storeMessage at refused ⊢
  split
  · rfl
  · split
    · rfl
    · split
      · simp_all only [if_true]
        split at refused
        · simp_all
        · simp [socketError] at refused
      · rfl

theorem deletions_storeMessage (sock : SOCKET) (addr : Option Sockaddr) (raw : MsgPacket) (buf : List UInt8) (h : Host) :
    (h.storeMessage sock addr raw buf).2.deletions = h.deletions := by
  unfold storeMessage
  split
  · rfl
  · split
    · rfl
    · split
      · dsimp only
        split
        · rfl
        · simp [deletions,observe,modify,Obs.deletes]
      · rfl

namespace Aside

theorem opened (fd : FD) (h : Host) : Aside h (h.openFD fd) := ⟨.nothing rfl rfl rfl,rfl⟩

theorem addSocketObject (sock : SOCKET) (raw : SocketObject) (addr : Option Sockaddr) (connected : Option UInt32) (refused : Bool)
    (h : Host) : Aside h ((h.prepareObject raw addr connected).2.addSocketObject sock
      (h.prepareObject raw addr connected).1 refused).2 :=
  ⟨enters_addSocketObject sock raw addr connected refused h,
    (deletions_addSocketObject sock _ refused _).trans (deletions_prepareObject raw addr connected h)⟩

theorem addTcpSocket (sock : SOCKET) (addr : Sockaddr) (raw : SocketObject) (now : UInt32) (refused : Bool) (h : Host) :
    Aside h (h.addTcpSocket sock addr raw now refused).2.2 := by
  unfold Host.addTcpSocket
  split
  · exact ⟨.of_eq rfl,rfl⟩
  · exact addSocketObject sock raw (some addr) (some now) refused h

theorem between {before h' after : Host} (aside : Aside before h')
    (first : before.table.find = h.table.find ∧ before.table.core = h.table.core ∧ before.table.nextPtr = h.table.nextPtr)
    (logged : before.deletions = h.deletions)
    (last : after.table.find = h'.table.find ∧ after.table.core = h'.table.core ∧ after.table.nextPtr = h'.table.nextPtr)
    (logged' : after.deletions = h'.deletions) : Aside h after :=
  ⟨aside.enters.between first last,logged'.trans (aside.deletions.trans logged)⟩

theorem closed {h' : Host} (aside : Aside h h') (fd : FD) : Aside h (h'.closeFD fd) :=
  aside.between ⟨rfl,rfl,rfl⟩ rfl (by rw [table_closeFD]; exact (h'.table.closes_closeFD fd).entries) (deletions_closeFD fd h')

theorem announced {h' : Host} (aside : Aside h h') (p : Ptr) (sock : SOCKET) : Aside h (h'.observe (.onConnect p sock)) :=
  aside.between ⟨rfl,rfl,rfl⟩ rfl ⟨rfl,rfl,rfl⟩ (by simp [Host.deletions,observe,Obs.deletes])

theorem after_open {h' : Host} {fd : FD} (aside : Aside (h.openFD fd) h') : Aside h h' :=
  aside.between ⟨rfl,rfl,rfl⟩ rfl ⟨rfl,rfl,rfl⟩ rfl

theorem enter (sock : SOCKET) (addr : Option Sockaddr) (connected : Option UInt32) (raw : SocketObject) (refused : Bool)
    (h : Host) : Aside h (h.enter sock addr connected raw refused) := by
  unfold Host.enter
  split
  · exact (addSocketObject sock raw addr connected refused h).announced _ sock
  · exact addSocketObject sock raw addr connected refused h

theorem trigger {h' : Host} (aside : Aside h h') (cmd : EvtCommand) (fd : FD) : Aside h (h'.triggerCmdEvent cmd fd) := by
  have table : (h'.triggerCmdEvent cmd fd).table = h'.table := Quiet.table (.triggerCmdEvent cmd fd)
  have log : Quiet SocketObject.core Obs.deletes h' (h'.triggerCmdEvent cmd fd) := .triggerCmdEvent cmd fd
  exact aside.between ⟨rfl,rfl,rfl⟩ rfl (by rw [table]; exact ⟨rfl,rfl,rfl⟩) log.log

theorem send (sock : SOCKET) (addr : Option Sockaddr) (raw : MsgPacket) (buf : List UInt8) (h : Host) :
    Aside h (h.send sock addr raw buf).2 := by
  have stored : Aside h (h.storeMessage sock addr raw buf).2 :=
    ⟨.of_eq (h.table_storeMessage sock addr raw buf),deletions_storeMessage sock addr raw buf h⟩
  unfold Host.send
  dsimp only
  split
  · exact stored
  · exact stored.trigger .send sock

end Aside

theorem adding_aside (op : Adding) (raw : SocketObject) (now : UInt32) (refused : Bool) (h : Host) :
    Aside h (op.run raw now refused h).2 := by
  have entered (sock : SOCKET) (addr : Option Sockaddr) (connected : Option UInt32) :
      Aside h ((h.openFD sock).enter sock addr connected raw refused) :=
    (Aside.enter sock addr connected raw refused _).after_open
  have undone (sock : SOCKET) : Aside h ((h.openFD sock).closeFD sock) := (Aside.opened sock h).closed sock
  cases op with
  | handleAccept events accept nonBlocking =>
    simp only [Adding.run,TcpServer.handleAccept]
    split
    · exact ⟨.of_eq rfl,rfl⟩
    · cases accept with
      | error code => exact ⟨.of_eq rfl,rfl⟩
      | ok pair =>
        have accepted : Aside h (Host.openFD pair.1 {h with backlog := h.backlog.tail}) := ⟨.nothing rfl rfl rfl,rfl⟩
        have entered := Aside.addTcpSocket pair.1 pair.2 raw now refused (Host.openFD pair.1 {h with backlog := h.backlog.tail})
        have added := entered.between (h := h) ⟨rfl,rfl,rfl⟩ rfl ⟨rfl,rfl,rfl⟩ rfl
        dsimp only
        split
        · split
          · exact added.closed pair.1
          · exact added.announced _ pair.1
        · exact accepted
  | addUdpSocket socket setsockopt bind =>
    cases socket with
    | error code => exact ⟨.of_eq rfl,rfl⟩
    | ok sock =>
      cases setsockopt with
      | error code => exact undone sock
      | ok _ =>
        cases bind with
        | error code => exact undone sock
        | ok _ => exact entered sock none (some now)
  | connectToRemote addr socket connect =>
    cases socket with
    | error code => exact ⟨.of_eq rfl,rfl⟩
    | ok sock =>
      cases connect with
      | error code => exact undone sock
      | ok _ => exact entered sock (some addr) (some now)
  | asynchConnectTo addr socket connect =>
    cases socket with
    | error code => exact ⟨.of_eq rfl,rfl⟩
    | ok sock =>
      cases connect with
      | ok _ => exact entered sock (some addr) (some now)
      | error code =>
        simp only [Adding.run,Host.asynchConnectTo]
        split
        · exact entered sock (some addr) none
        · exact Aside.opened sock h

theorem deletions_deleteObject (p : Ptr) (h : Host) : (h.deleteObject p).deletions = h.deletions ++ [p] := by
  simp [deletions,deleteObject,Obs.deletes]

theorem deletions_closeManagerFds (h : Host) : h.closeManagerFds.deletions = h.deletions :=
  h.closeManagerFds_rule (P := fun host => host.deletions = h.deletions) rfl (fun _ _ kept => kept)
    (fun host fd kept => (deletions_closeFD fd host).trans kept) (fun _ kept => kept)

/-- The objects of the map, each once, are deleted in the order of its entries. -/
theorem release_entries (entries : List (Sigma (fun _ : SOCKET => Ptr))) (h : Host) :
    (entries.foldl (fun host entry => (host.deleteFD entry.1).deleteObject entry.2) h).deletions =
        h.deletions ++ entries.map Sigma.snd ∧
      (entries.foldl (fun host entry => (host.deleteFD entry.1).deleteObject entry.2) h).nextPtr = h.nextPtr ∧
      ∀ p, (entries.foldl (fun host entry => (host.deleteFD entry.1).deleteObject entry.2) h).heap p =
        if p ∈ entries.map Sigma.snd then none else h.heap p := by
  induction entries generalizing h with
  | nil => simp
  | cons entry rest ih =>
    obtain ⟨deletions,nextPtr,heap⟩ := ih ((h.deleteFD entry.1).deleteObject entry.2)
    rw [List.foldl_cons]
    refine ⟨?_,nextPtr,fun p => ?_⟩
    · rw [deletions,deletions_deleteObject,List.map_cons,List.append_assoc,List.singleton_append]
      rfl
    · simp only [heap p,List.map_cons,List.mem_cons]
      by_cases now : p = entry.2
      · simp [now,deleteObject,deleteFD]
      · simp only [now,false_or,deleteObject,deleteFD,Function.update_of_ne now]

/-- `Stop` leaves an empty map, and has deleted what was in it. -/
theorem stopJoined_entries (started : h.hasStart = true) : (∀ sock, h.stopJoined.2.table.find sock = none) ∧
    h.stopJoined.2.deletions = h.deletions ++ h.sockObjectMap.entries.map Sigma.snd ∧
    h.stopJoined.2.table.nextPtr = h.nextPtr ∧
    ∀ p, h.stopJoined.2.table.core p = if p ∈ h.sockObjectMap.entries.map Sigma.snd then none else h.table.core p := by
  obtain ⟨deletions,nextPtr,heap⟩ := release_entries h.sockObjectMap.entries {h with cmdQueue := []}
  obtain ⟨find,core,next⟩ := (Host.releaseSocketObjects {h with cmdQueue := []}).table_closeManagerFds.entries
  have stopped : h.stopJoined.2 = (Host.releaseSocketObjects {h with cmdQueue := []}).closeManagerFds := by
    simp [stopJoined,started]
  rw [stopped]
  refine ⟨fun sock => ?_,(deletions_closeManagerFds _).trans deletions,next.trans nextPtr,fun p => ?_⟩
  · rw [find]
    rfl
  · rw [core]
    have released : (Host.releaseSocketObjects {h with cmdQueue := []}).heap p = _ := heap p
    simp only [table,released]
    split <;> rfl

end Host

namespace Sys

/-! The operations are what the steps of the process come to where no other thread acts. -/

variable {t : Nat} {h : Host}

theorem calls_trigger (cmd : EvtCommand) (fd : FD) (next : Caller) (h : Host) :
    Calls t h (.trigger cmd fd next) (h.triggerCmdEvent cmd fd) next := by
  by_cases started : h.hasStart = true
  · have pushed : Calls t h (.trigger cmd fd next) (h.pushCmd cmd fd) (.evtWrite next) :=
      .single .done (fun s host => by simp [callerStep,host,started])
    have written : Calls t (h.pushCmd cmd fd) (.evtWrite next) (h.pushCmd cmd fd).writeCmdEvt next :=
      .single .done (fun s host => by rw [← host]; rfl)
    simpa [Host.triggerCmdEvent,started] using pushed.trans written
  · have nothing : Calls t h (.trigger cmd fd next) h next :=
      .single .done (fun s host => by subst host; simp [callerStep,started])
    simpa [Host.triggerCmdEvent,started] using nothing

theorem calls_stopJoined (started : h.hasStart = true) :
    Calls t h (.stop .clear) (h.stopJoined.2.observe (.stopped true)) .idle := by
  have cleared : Calls t h (.stop .clear) {h with cmdQueue := []} (.stop .release) :=
    .single .done (fun s host => by rw [← host]; rfl)
  have released : Calls t {h with cmdQueue := []} (.stop .release) (Host.releaseSocketObjects {h with cmdQueue := []})
      (.stop .closeFds) := .single .done (fun s host => by rw [← host]; rfl)
  have closed : Calls t (Host.releaseSocketObjects {h with cmdQueue := []}) (.stop .closeFds)
      ((Host.releaseSocketObjects {h with cmdQueue := []}).closeManagerFds.observe (.stopped true)) .idle :=
    .single .done (fun s host => by rw [← host]; rfl)
  simpa [Host.stopJoined,started] using (cleared.trans released).trans closed

theorem setCaller_idle {s : Sys} (found : s.callers[t]? = some .idle) (host : Host) :
    ({s with host := host}.setCaller t .idle) = {s with host := host} := by
  obtain ⟨inside,at_t⟩ := List.getElem?_eq_some_iff.mp found
  simp [setCaller,← at_t]

/-- A `Send` or an `UdpSend` that no other thread comes between. -/
theorem exec_send {s : Sys} (idle : s.isIdle t = true) (sock : SOCKET) (addr : Option Sockaddr)
    (kind : addr.isSome ↔ s.host.kind = .udpServer) (raw : MsgPacket) (buf : List UInt8) :
    ∃ acts, Transition.exec step s acts = some {s with host := (s.host.send sock addr raw buf).2} := by
  obtain ⟨found,may⟩ : s.callers[t]? = some .idle ∧ s.mayAct t = true := by simpa [isIdle] using idle
  obtain ⟨act,calls⟩ : ∃ act, s.step act = s.startSend t sock addr raw buf := by
    cases addr with
    | none => exact ⟨.send t sock raw buf,if_neg (fun udp => by simpa using kind.mpr udp)⟩
    | some to_addr => exact ⟨.udpSend t sock to_addr raw buf,if_pos (kind.mp rfl)⟩
  by_cases refused : (s.host.storeMessage sock addr raw buf).1 = socketError
  · refine ⟨[act],?_⟩
    simp [calls,startSend,idle,refused,Host.send,Host.storeMessage_refused refused]
  · obtain ⟨replies,ended⟩ := calls_trigger (t := t) .send sock .idle (s.host.storeMessage sock addr raw buf).2
    refine ⟨act::replies.map (.caller t),?_⟩
    have inside := (List.getElem?_eq_some_iff.mp found).1
    let stored : Sys := {s with host := (s.host.storeMessage sock addr raw buf).2}.setCaller t (.trigger .send sock .idle)
    have begun : s.step act = some stored := by simp [calls,startSend,idle,refused,stored]
    rw [Transition.exec_cons,begun,Option.bind_some,ended stored rfl (by simp [stored,setCaller,inside]) may]
    have back := setCaller_idle found ((s.host.storeMessage sock addr raw buf).2.triggerCmdEvent .send sock)
    simpa [stored,setCaller,Host.send,refused] using back

open Host in
/-- The worker deletes an object in `RemoveSocketObject` only. -/
theorem Move.deletions {h h' : Host} {w w' : Worker} {act : Act} (move : Move h w act h' w') :
    (∃ p sock, w.role = .removing .delete p sock ∧ w'.role = .removing .erase p sock ∧ h'.deletions = h.deletions ++ [p]) ∨
      (∀ p sock, w.role ≠ .removing .delete p sock) ∧ h'.deletions = h.deletions := by
  have calm {h' : Host} (calm : h.Calm h') : h'.deletions = h.deletions := calm.calm_log (fun _ _ => rfl)
  have hidden {obs : Obs} (silent : obs.deletes = none) (host : Host) : (host.observe obs).deletions = host.deletions := by
    simp [Host.deletions,Host.observe,silent]
  cases move with
  | removeDelete p sock count b => exact .inl ⟨p,sock,rfl,rfl,deletions_deleteObject p h⟩
  | disconnected count b cmd queue p object front left kind found live valid =>
    exact .inr ⟨by simp [Worker.role],hidden rfl (h.modify p SocketObject.setInvalid)⟩
  | closeAccepted sock ctx => exact .inr ⟨by simp [Worker.role],deletions_closeFD sock h⟩
  | connected p sock ctx => exact .inr ⟨by simp [Worker.role],hidden rfl h⟩
  | removeClose p sock count b => exact .inr ⟨by simp [Worker.role],deletions_closeFD sock h⟩
  | timer exp now b => exact .inr ⟨by simp [Worker.role],calm (h.onTimer_calm exp now)⟩
  | clientRefused p events ctx soError now kind refused =>
    exact .inr ⟨by simp [Worker.role],calm (onBeforeProcessIo_refused refused)⟩
  | clientIo p events ctx soError now kind passed =>
    refine .inr ⟨by simp [Worker.role],?_⟩
    obtain ⟨object,_,_,⟨_,result⟩ | ⟨_,result⟩⟩ := onBeforeProcessIo_accepted passed
    · rw [result]
    · rw [result]
      exact hidden rfl (h.modify p (SocketObject.setConnected now.toNat))
  | added sock addr ctx raw now refused ok =>
    exact .inr ⟨by simp [Worker.role],(Aside.addTcpSocket sock addr raw now refused h).deletions⟩
  | notAdded sock addr ctx raw now refused failed =>
    exact .inr ⟨by simp [Worker.role],(Aside.addTcpSocket sock addr raw now refused h).deletions⟩
  | readStarted p events ctx now sock next started => exact .inr ⟨by simp [Worker.role],calm (startReceive_calm started).1⟩
  | readOn p sock events ctx rc addr timeMs fits again =>
    refine .inr ⟨by simp [Worker.role],?_⟩
    obtain ⟨mid,buf,from_addr,quiet,result⟩ := handleReceive_again again
    rw [result]
    exact (hidden rfl mid).trans (calm quiet)
  | readDone p sock events ctx rc addr timeMs rs fits done =>
    exact .inr ⟨by simp [Worker.role],calm (handleReceive_done done)⟩
  | written p ctx packet count front left fits =>
    obtain ⟨addr,sent⟩ := h.handleSend_ok p packet count
    rw [sent]
    exact .inr ⟨by simp [Worker.role],hidden rfl (h.modify p (SocketObject.reduceFront count))⟩
  | listenError events ctx soError now kind error => exact .inr ⟨by simp [Worker.role],rfl⟩
  | listen events ctx soError now kind fine => exact .inr ⟨by simp [Worker.role],rfl⟩
  | _ => exact .inr ⟨by simp [Worker.role],rfl⟩

end Sys

end LightServer
