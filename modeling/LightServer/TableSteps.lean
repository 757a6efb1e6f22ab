import LightServer.Control
import LightServer.Table

/-! The threads of the process follow the machine of the connection table. -/
namespace LightServer

def Worker.role : Worker → Role
  | .beforeIo (.object p) _ _ => .dispatching p
  | .readyRead p _ _ | .readyWrite p _ | .sendLoop p _ | .sendPacket p _ | .popPacket p _ => .handling p
  | .read p sock _ _ => .reading p sock
  | .accept _ => .accepting
  | .setNonBlocking sock _ _ | .addTcpSocket sock _ _ | .closeAccepted sock _ => .holding sock
  | .connected p sock _ => .announcing p sock
  | .remove stage p sock _ _ => .removing stage p sock
  | _ => .free

def Caller.task : Caller → Task
  | .trigger _ _ next | .evtWrite next => next.task
  | .socket _ _ | .connect _ _ _ | .closeSock _ => .connecting
  | .count sock p notify => .counting sock p notify
  | .insert sock p notify => .inserting sock p notify
  | .addFD sock p notify => .adding sock p notify
  | .onConnect sock p => .announcing sock p
  | .idle | .closeAll _ | .stop _ => .other

@[simp] theorem task_afterAdd (notify : Bool) (sock : SOCKET) (p : Ptr) :
    (Sys.afterAdd notify sock p).task = afterAdd notify sock p := by
  cases notify <;> rfl

/-! The table of a process. -/

def PVOID.object? : PVOID → Option Ptr
  | .object p => some p
  | _ => none

namespace Host

def table (h : Host) : Table where
  kind := h.kind
  listenSocket := h.listenSocket
  find := h.findSocketObject
  core := fun p => (h.heap p).map SocketObject.core
  nextPtr := h.nextPtr
  isOpen := h.isOpen
  registered := fun fd => (h.interest fd).bind PVOID.object?
  calls := h.log.filterMap Obs.callback

theorem isValid_core {h : Host} {p : Ptr} :
    h.isValid (some p) = true ↔ ∃ sock connected, h.table.core p = some (sock,true,connected) := by
  cases live : h.heap p with
  | none => simp [isValid,table,live]
  | some object => simp [isValid,table,live,SocketObject.core]

variable (h : Host)

@[simp] theorem table_nextPtr : h.table.nextPtr = h.nextPtr := rfl

/-- What is quiet for the core of the objects and the callbacks leaves the table alone. -/
theorem Quiet.table {h h' : Host} (quiet : Quiet SocketObject.core Obs.callback h h') : h'.table = h.table := by
  have find : h'.findSocketObject = h.findSocketObject := by
    funext sock
    rw [findSocketObject,findSocketObject,quiet.sockObjectMap]
  simp only [Host.table,quiet.kind,quiet.listenSocket,find,quiet.objects,quiet.nextPtr,quiet.isOpen,quiet.interest,quiet.log]

theorem Quiet.calm_table {h h' : Host} (calm : Calm h h') : h'.table = h.table := by
  have coarse := calm.coarsen Prod.fst Obs.callback
  have seen : (fun obs => (Obs.notable obs).bind Obs.callback) = Obs.callback := by
    funext obs
    cases obs <;> rfl
  rw [seen] at coarse
  exact Quiet.table coarse

theorem table_observe (obs : Obs) : (h.observe obs).table = {h.table with calls := h.table.calls ++ obs.callback.toList} := by
  simp only [table,observe,List.filterMap_append]
  cases seen : obs.callback <;> simp [seen] <;> rfl

theorem table_modify (p : Ptr) (change : SocketObject → SocketObject) :
    (h.modify p change).table = h.table.setCore p ((h.heap p).map (fun object => (change object).core)) := by
  simp only [table,Table.setCore,modify,Table.mk.injEq,true_and,and_true]
  refine ⟨rfl,?_⟩
  funext q
  by_cases same : q = p
  · subst same
    simp [Option.map_map,Function.comp_def]
  · simp [same]

/-- An object that stores a message stays what it is for the table. -/
theorem table_push {p : Ptr} {object : SocketObject} (live : h.heap p = some object) (raw : MsgPacket) (buf : List UInt8)
    (addr addr' : Option Sockaddr) :
    ((h.modify p (fun _ => (object.push raw buf addr).2)).observe (.queued p buf addr')).table = h.table := by
  have pushed : (object.push raw buf addr).2.core = object.core := by
    unfold SocketObject.push
    split <;> rfl
  rw [table_observe,table_modify,live]
  simp only [Option.map_some,pushed,Obs.callback,Option.toList_none,List.append_nil]
  have core : h.table.core p = some object.core := by simp [table,live]
  simp [Table.setCore,← core]
  rfl

theorem table_storeMessage (sock : SOCKET) (addr : Option Sockaddr) (raw : MsgPacket) (buf : List UInt8) :
    (h.storeMessage sock addr raw buf).2.table = h.table := by
  unfold storeMessage
  split
  · rfl
  · split
    · rfl
    · rename_i live
      split
      · dsimp only
        split
        · rfl
        · exact h.table_push live raw buf addr addr
      · rfl

@[simp] theorem table_openFD (fd : FD) : (h.openFD fd).table = h.table.openFD fd := rfl

@[simp] theorem table_deleteFD (fd : FD) : (h.deleteFD fd).table = h.table.unregister fd := by
  simp only [table,deleteFD,Table.unregister,Table.mk.injEq,true_and,and_true]
  refine ⟨rfl,?_⟩
  funext other
  by_cases same : other = fd
  · subst same
    simp
  · simp [same]

@[simp] theorem table_deleteObject (p : Ptr) : (h.deleteObject p).table = h.table.setCore p none := by
  simp only [table,deleteObject,Table.setCore,Table.mk.injEq,true_and]
  refine ⟨rfl,?_,by simp [Obs.callback]⟩
  funext q
  by_cases same : q = p
  · subst same
    simp
  · simp [same]

@[simp] theorem table_closeFD (fd : FD) : (h.closeFD fd).table = h.table.closeFD fd := by
  by_cases opened : h.isOpen fd = true
  · have opened' : h.table.isOpen fd = true := opened
    rw [Table.closeFD,if_pos opened',← table_deleteFD,closeFD,if_pos opened]
    simp only [table,deleteFD,Table.mk.injEq,true_and]
    exact ⟨rfl,by simp [Obs.callback]⟩
  · have closed : ¬ h.table.isOpen fd = true := opened
    rw [Table.closeFD,if_neg closed,closeFD,if_neg opened]

@[simp] theorem table_eraseSocket (sock : SOCKET) :
    (h.eraseSocket sock).table = {h.table with find := Function.update h.table.find sock none} := by
  simp only [table,eraseSocket,Table.mk.injEq,true_and,and_true]
  funext other
  by_cases same : other = sock
  · subst same
    simp [findSocketObject]
  · simp [findSocketObject,same]

theorem table_addFD (fd : FD) (p : Ptr) (refused : Bool) :
    ∃ registered, (h.addFD fd (.object p) refused).2.table = {h.table with registered := registered} ∧
      (registered = h.table.registered ∨
        h.isOpen fd = true ∧ registered = Function.update h.table.registered fd (some p)) := by
  unfold addFD
  split
  · exact ⟨_,rfl,.inl rfl⟩
  · rename_i guard
    refine ⟨Function.update h.table.registered fd (some p),?_,.inr ⟨by simp_all,rfl⟩⟩
    simp only [table,Table.mk.injEq,true_and,and_true]
    refine ⟨rfl,?_⟩
    funext other
    by_cases same : other = fd
    · subst same
      simp [PVOID.object?]
    · simp [same]

theorem table_newSocketObject (raw : SocketObject) :
    (h.newSocketObject raw).2.table = h.table.alloc (invalidSocket,raw.fValid,false) := by
  simp only [table,newSocketObject,Table.alloc,Table.setCore,Table.mk.injEq,true_and,and_true]
  refine ⟨rfl,?_⟩
  funext q
  by_cases same : q = h.nextPtr
  · subst same
    simp [SocketObject.create,SocketObject.core]
  · simp [same]

theorem table_prepareObject (raw : SocketObject) (addr : Option Sockaddr) (connected : Option UInt32) :
    (h.prepareObject raw addr connected).2.table = h.table.alloc (invalidSocket,raw.fValid,connected.isSome) := by
  have named : (addr.elim (h.newSocketObject raw).2
      (fun sa => (h.newSocketObject raw).2.modify (h.newSocketObject raw).1 (SocketObject.setRemoteAddr sa))).table =
        h.table.alloc (invalidSocket,raw.fValid,false) := by
    refine Eq.trans ?_ (h.table_newSocketObject raw)
    cases addr with
    | none => rfl
    | some sa => exact Quiet.table (.modify _ (fun _ => rfl))
  cases connected with
  | none => exact named
  | some now =>
    apply (table_modify _ _ (SocketObject.setConnected now.toNat)).trans
    rw [named]
    cases addr <;> simp [Table.alloc,Table.setCore,newSocketObject,modify,SocketObject.core,SocketObject.setConnected,
      SocketObject.setRemoteAddr,SocketObject.create]

theorem table_insertSocketObject (sock : SOCKET) (p : Ptr) :
    (h.insertSocketObject sock p).table =
      {h.table.setCore p ((h.table.core p).map (fun core => (sock,true,core.2.2))) with
        find := if (h.table.find sock).isSome then h.table.find else Function.update h.table.find sock (some p)} := by
  have marked := h.table_modify p (fun object => (object.setSocketId sock).setValid)
  have core : (h.heap p).map (fun object => ((object.setSocketId sock).setValid).core) =
      (h.table.core p).map (fun core => (sock,true,core.2.2)) := by
    cases live : h.heap p <;> simp [table,live,SocketObject.core,SocketObject.setSocketId,SocketObject.setValid]
  rw [core] at marked
  have present : (h.table.find sock).isSome = true ↔ sock ∈ h.sockObjectMap := AList.lookup_isSome
  unfold insertSocketObject
  by_cases found : sock ∈ h.sockObjectMap
  · simp only [if_pos found,if_pos (present.mpr found)]
    exact marked
  · simp only [if_neg found,if_neg (mt present.mp found)]
    rw [← marked]
    simp only [table,Table.mk.injEq,true_and,and_true]
    funext other
    by_cases same : other = sock
    · subst same
      simp [findSocketObject]
    · simp [findSocketObject,same]

/-- `AddTcpSocket` adds the object it has made, or leaks it where the fd has an entry. -/
theorem table_addTcpSocket (sock : SOCKET) (addr : Sockaddr) (raw : SocketObject) (now : UInt32) (refused : Bool) :
    (h.addTcpSocket sock addr raw now refused).2.1 = h.nextPtr ∧
    ((h.table.find sock = none ∧ ∃ registered,
        (h.addTcpSocket sock addr raw now refused).2.2.table =
          {h.table.alloc (sock,true,true) with
            find := Function.update h.table.find sock (some h.nextPtr), registered := registered} ∧
        (registered = h.table.registered ∨ registered = Function.update h.table.registered sock (some h.nextPtr))) ∧
        ¬ (h.addTcpSocket sock addr raw now refused).1 < 0 ∨
      ((h.addTcpSocket sock addr raw now refused).2.2.table = h.table ∨
        (h.table.find sock).isSome ∧
          (h.addTcpSocket sock addr raw now refused).2.2.table = h.table.alloc (invalidSocket,raw.fValid,true)) ∧
        (h.addTcpSocket sock addr raw now refused).1 < 0) := by
  by_cases valid : sock = invalidSocket
  · have unchanged : h.addTcpSocket sock addr raw now refused = (-1,h.nextPtr,h) := if_pos valid
    rw [unchanged]
    exact ⟨rfl,.inr ⟨.inl rfl,by simp⟩⟩
  obtain ⟨made,made_def⟩ : ∃ made, made = (h.prepareObject raw (some addr) (some now)).2 := ⟨_,rfl⟩
  have made_table : made.table = h.table.alloc (invalidSocket,raw.fValid,true) :=
    made_def ▸ h.table_prepareObject raw (some addr) (some now)
  have kept : made.sockObjectMap = h.sockObjectMap := made_def ▸ rfl
  have present : (h.table.find sock).isSome = true ↔ sock ∈ h.sockObjectMap := AList.lookup_isSome
  have shape : h.addTcpSocket sock addr raw now refused =
      (if (made.addSocketObject sock h.nextPtr refused).1 then 0 else -1,h.nextPtr,
        (made.addSocketObject sock h.nextPtr refused).2) := made_def ▸ if_neg valid
  rw [shape]
  refine ⟨rfl,?_⟩
  by_cases found : sock ∈ h.sockObjectMap
  · right
    have same : made.addSocketObject sock h.nextPtr refused = (false,made) := if_pos (kept ▸ found)
    rw [same]
    exact ⟨.inr ⟨present.mpr found,made_table⟩,by simp⟩
  · left
    have missing : h.table.find sock = none := by simpa using mt present.mp found
    have added : made.addSocketObject sock h.nextPtr refused =
        (true,((made.insertSocketObject sock h.nextPtr).addFD sock (.object h.nextPtr) refused).2) := if_neg (kept ▸ found)
    rw [added]
    refine ⟨⟨missing,?_⟩,by simp⟩
    have inserted := made.table_insertSocketObject sock h.nextPtr
    obtain ⟨registered,tables,registers⟩ := (made.insertSocketObject sock h.nextPtr).table_addFD sock h.nextPtr refused
    rw [inserted,made_table] at tables registers
    refine ⟨registered,tables.trans ?_,registers.imp id And.right⟩
    simp [Table.alloc,Table.setCore,missing]

/-- The registrations and the objects of the entries are gone. -/
private structure Releases (h host : Host) (core : Ptr → Option (SOCKET × Bool × Bool))
    (registered : FD → Option Ptr) : Prop where
  table : host.table = {h.table with core := core, registered := registered}
  fewer : ∀ p, core p = h.table.core p ∨ core p = none ∧ ∃ sock, h.table.find sock = some p
  unregistered : ∀ fd p, registered fd = some p → h.table.registered fd = some p

private theorem Releases.entry {h host : Host} {core : Ptr → Option (SOCKET × Bool × Bool)} {registered : FD → Option Ptr}
    (releases : Releases h host core registered) {sock : SOCKET} {p : Ptr} (found : h.table.find sock = some p) :
    Releases h ((host.deleteFD sock).deleteObject p) (Function.update core p none) (Function.update registered sock none) := by
  refine ⟨?_,fun q => ?_,fun fd q now => ?_⟩
  · rw [table_deleteObject,table_deleteFD,releases.table]
    rfl
  · by_cases deleted : q = p
    · exact .inr ⟨by simp [deleted],sock,deleted ▸ found⟩
    · simpa [deleted] using releases.fewer q
  · by_cases dropped : fd = sock
    · simp [dropped] at now
    · exact releases.unregistered fd q (by simpa [dropped] using now)

theorem table_releaseSocketObjects :
    ∃ core registered, h.releaseSocketObjects.table =
        {h.table with find := fun _ => none, core := core, registered := registered} ∧
      (∀ p, core p = h.table.core p ∨ core p = none ∧ ∃ sock, h.table.find sock = some p) ∧
      ∀ fd p, registered fd = some p → h.table.registered fd = some p := by
  obtain ⟨host,⟨core,registered,releases⟩,same⟩ := h.releaseSocketObjects_rule
    (P := fun host => ∃ core registered, Releases h host core registered)
    ⟨_,_,rfl,fun _ => .inl rfl,fun _ _ => id⟩
    (fun host entry member before => by
      obtain ⟨core,registered,releases⟩ := before
      exact ⟨_,_,releases.entry (AList.mem_lookup_iff.mpr member)⟩)
  refine ⟨core,registered,?_,releases.fewer,releases.unregistered⟩
  have cleared : Host.table {host with sockObjectMap := ∅} = {host.table with find := fun _ => none} := rfl
  rw [same,cleared,releases.table]

theorem table_closeManagerFds : h.table.Closes h.closeManagerFds.table :=
  h.closeManagerFds_rule (P := fun host => h.table.Closes host.table) (.refl _)
    (fun host fd closes => by simpa using closes.trans (host.table.closes_unregister fd))
    (fun host fd closes => by simpa using closes.trans (host.table.closes_closeFD fd)) (fun _ => id)

end Host

def objectsOf (events : List EpollEvent) : List Ptr := events.filterMap (fun ev => ev.ptr.object?)

def Sys.view (s : Sys) : View :=
  ⟨s.host.table,s.worker.role,objectsOf s.worker.place.rest,s.worker = .exited,s.callers.map Caller.task⟩

theorem role_resume (ctx : Ctx) : (resume ctx).role = .free := by cases ctx <;> rfl

theorem role_afterRead (rs : Bool) (p : Ptr) (events : UInt32) (ctx : Ctx) :
    (afterRead rs p events ctx).role = .free ∨ (afterRead rs p events ctx).role = .handling p :=
  afterRead_rule (P := fun w => w.role = .free ∨ w.role = .handling p) (.inr rfl) (.inl (role_resume ctx)) rs events

theorem role_doProcessIo (p : Ptr) (events : UInt32) (ctx : Ctx) :
    (doProcessIo p events ctx).role = .free ∨ (doProcessIo p events ctx).role = .handling p :=
  doProcessIo_rule (P := fun w => w.role = .free ∨ w.role = .handling p) (.inr rfl) (.inr rfl) (.inl (role_resume ctx))

namespace Sys

/-- A step of the worker is a step of the table machine. -/
theorem Move.view {h h' : Host} {w w' : Worker} {act : Act} (tasks : List Task) (move : Move h w act h' w') :
    View.Step ⟨h.table,w.role,objectsOf w.place.rest,false,tasks⟩
      ⟨h'.table,w'.role,objectsOf w'.place.rest,w' = .exited,tasks⟩ := by
  have work {w w' : Worker} {h' : Host} (place : w'.place = w.place) (working : w.place ≠ .exited)
      (work : Table.Work h.table w.role h'.table w'.role) :
      View.Step ⟨h.table,w.role,objectsOf w.place.rest,false,tasks⟩
        ⟨h'.table,w'.role,objectsOf w'.place.rest,w' = .exited,tasks⟩ := by
    have going : w' ≠ .exited := fun finished => working (place ▸ place_exited.mpr finished)
    simp only [going,decide_false,place]
    exact .work _ _ _ _ _ _ work
  have rest {w w' : Worker} {h' : Host} (place : w'.place = w.place) (working : w.place ≠ .exited)
      (table : h'.table = h.table) (settled : w.role.settled = true)
      (later : w'.role = w.role ∨ w'.role = .free ∨ ∃ p sock, w.role = .reading p sock ∧ w'.role = .handling p) :
      View.Step ⟨h.table,w.role,objectsOf w.place.rest,false,tasks⟩
        ⟨h'.table,w'.role,objectsOf w'.place.rest,w' = .exited,tasks⟩ :=
    work place working (table ▸ .rest _ _ settled later)
  have still {w w' : Worker} (role : w.role = .free) (role' : w'.role = .free) (working : w.place ≠ .exited)
      (going : w'.place ≠ .exited) (same : objectsOf w'.place.rest = objectsOf w.place.rest) :
      View.Step ⟨h.table,w.role,objectsOf w.place.rest,false,tasks⟩
        ⟨h.table,w'.role,objectsOf w'.place.rest,w' = .exited,tasks⟩ := by
    have going : w' ≠ .exited := fun finished => going (place_exited.mpr finished)
    simp only [role,role',going,decide_false,same]
    exact .stutter _
  have at_work (ctx : Ctx) : ctx.place ≠ .exited := by cases ctx <;> simp [Ctx.place]
  cases move with
  | interrupted code => exact .exit _ _
  | delivered fds batch found filled none_left =>
    refine .deliver h.table _ tasks (fun p member => ?_)
    obtain ⟨ev,at_ev,object⟩ := List.mem_filterMap.mp member
    obtain ⟨fd,_,registered,_⟩ := deliver_mem found at_ev
    exact ⟨fd.1,by simp [Host.table,registered,object]⟩
  | batchEnd bRun =>
    cases bRun with
    | true => exact .stutter _
    | false => exact .exit _ _
  | cmdEvent bRun remaining ev ptr input =>
    exact still rfl rfl (by simp [Worker.place]) (by simp [Worker.place])
      (by simp [Worker.place,Place.rest,objectsOf,ptr,PVOID.object?])
  | skipped bRun remaining ev ptr none =>
    apply still rfl rfl (by simp [Worker.place]) (by simp [Worker.place])
    rcases ptr with ptr | ptr <;> simp [Worker.place,Place.rest,objectsOf,ptr,PVOID.object?]
  | timerEvent bRun remaining ev ptr input =>
    exact still rfl rfl (by simp [Worker.place]) (by simp [Worker.place])
      (by simp [Worker.place,Place.rest,objectsOf,ptr,PVOID.object?])
  | exitEvent bRun remaining ev ptr =>
    exact still rfl rfl (by simp [Worker.place]) (by simp [Worker.place])
      (by simp [Worker.place,Place.rest,objectsOf,ptr,PVOID.object?])
  | ioEvent bRun remaining ev ptr =>
    rcases ptr with ptr | ⟨p,ptr⟩
    · apply still rfl (by rw [ptr]; rfl) (by simp [Worker.place]) (by simp [Worker.place,Ctx.place])
      simp [Worker.place,Ctx.place,Place.rest,objectsOf,ptr,PVOID.object?]
    · have events : objectsOf (ev::remaining) = p::objectsOf remaining := by simp [objectsOf,ptr,PVOID.object?]
      simp only [Worker.place,Place.rest,events,Ctx.place,ptr]
      exact .event h.table p (objectsOf remaining) tasks
  | commandsDone count b finished => exact still rfl rfl (by simp [Worker.place]) (by simp [Worker.place]) rfl
  | sendCommand count b cmd queue p front left kind found => exact .command h.table cmd.fd p _ tasks found
  | ignored count b cmd queue front left none => exact still rfl rfl (by simp [Worker.place]) (by simp [Worker.place]) rfl
  | disconnected count b cmd queue p object front left kind found live valid =>
    have core : h.table.core p = some (object.socketId,true,object.connectState) := by
      simp [Host.table,live,SocketObject.core,valid]
    have changed := h.table_modify p SocketObject.setInvalid
    rw [live] at changed
    refine .work h.table .free (objectsOf b.rest) tasks _ _ ?_
    rw [Host.table_observe,changed]
    exact .disconnect cmd.fd p object.socketId object.connectState found core
  | popCommand count b => exact still rfl rfl (by simp [Worker.place]) (by simp [Worker.place]) rfl
  | closeAccepted sock ctx =>
    refine work (place_resume ctx) (at_work ctx) ?_
    rw [Host.table_closeFD,role_resume]
    exact .closeAccepted sock
  | connected p sock ctx =>
    refine work (place_resume ctx) (at_work ctx) ?_
    rw [Host.table_observe,role_resume]
    exact .announce p sock
  | readyWrite p ctx valid => exact rest rfl (at_work ctx) rfl rfl (.inl rfl)
  | writeInvalid p ctx => exact rest (place_resume ctx) (at_work ctx) rfl rfl (.inr (.inl (role_resume ctx)))
  | sendDone p ctx empty => exact rest (place_resume ctx) (at_work ctx) rfl rfl (.inr (.inl (role_resume ctx)))
  | sendPacket p ctx packet front => exact rest rfl (at_work ctx) rfl rfl (.inl rfl)
  | packetSent p ctx packet front empty => exact rest rfl (at_work ctx) rfl rfl (.inl rfl)
  | popPacket p ctx => exact rest rfl (at_work ctx) (Host.Quiet.table (.modify p (fun _ => rfl))) rfl (.inl rfl)
  | removeFD p sock count b =>
    refine work rfl (by simp [Worker.place]) ?_
    rw [Host.table_deleteFD]
    exact .removeFD p sock
  | removeClose p sock count b =>
    refine work rfl (by simp [Worker.place]) ?_
    rw [Host.table_closeFD]
    exact .removeClose p sock
  | removeDelete p sock count b =>
    refine work rfl (by simp [Worker.place]) ?_
    rw [Host.table_deleteObject]
    exact .removeDelete p sock
  | removeErase p sock count b =>
    refine work rfl (by simp [Worker.place]) ?_
    rw [Host.table_eraseSocket]
    exact .removeErase p sock
  | timerFailed now b => exact rest rfl (by simp [Worker.place]) rfl rfl (.inl rfl)
  | timer exp now b =>
    exact rest rfl (by simp [Worker.place]) (Host.Quiet.calm_table (Host.onTimer_calm exp now h)) rfl (.inl rfl)
  | listenError events ctx soError now kind error => exact rest (place_resume ctx) (at_work ctx) rfl rfl (.inl (role_resume ctx))
  | listen events ctx soError now kind fine => exact work rfl (at_work ctx) (.listen kind)
  | serverIo p events ctx soError now kind =>
    rcases role_doProcessIo p events ctx with free | handling
    · exact rest (place_doProcessIo p events ctx) (at_work ctx) rfl rfl (.inr (.inl free))
    · refine work (place_doProcessIo p events ctx) (at_work ctx) ?_
      rw [handling]
      exact .handle p (fun same => absurd same kind)
  | clientRefused p events ctx soError now kind refused =>
    have same := Host.Quiet.calm_table (Host.onBeforeProcessIo_refused refused)
    exact rest (place_resume ctx) (at_work ctx) same rfl (.inr (.inl (role_resume ctx)))
  | clientIo p events ctx soError now kind passed =>
    obtain ⟨object,live,valid,⟨connected,result⟩ | ⟨fresh,result⟩⟩ := Host.onBeforeProcessIo_accepted passed
    · rw [result]
      rcases role_doProcessIo p events ctx with free | handling
      · exact rest (place_doProcessIo p events ctx) (at_work ctx) rfl rfl (.inr (.inl free))
      · refine work (place_doProcessIo p events ctx) (at_work ctx) ?_
        have core : h.table.core p = some (object.socketId,true,true) := by
          simp [Host.table,live,SocketObject.core,valid,connected]
        rw [handling]
        exact .handle p (fun _ => ⟨_,_,core⟩)
    · have core : h.table.core p = some (object.socketId,true,false) := by
        simp [Host.table,live,SocketObject.core,valid,fresh]
      have changed := h.table_modify p (SocketObject.setConnected now.toNat)
      simp only [live,Option.map_some,SocketObject.core,SocketObject.setConnected,valid] at changed
      refine work (place_doProcessIo p events ctx) (at_work ctx) ?_
      rw [result,Host.table_observe,changed]
      exact .connect p object.socketId _ kind core (role_doProcessIo p events ctx)
  | acceptFailed code ctx => exact rest (place_resume ctx) (at_work ctx) rfl rfl (.inr (.inl (role_resume ctx)))
  | accepted sock addr ctx conn remaining listening waiting nonneg unused =>
    exact work rfl (at_work ctx) (.accept sock nonneg unused listening)
  | nonBlocking sock addr ctx => exact rest rfl (at_work ctx) rfl rfl (.inl rfl)
  | blocking sock addr ctx => exact rest (place_resume ctx) (at_work ctx) rfl rfl (.inr (.inl (role_resume ctx)))
  | added sock addr ctx raw now refused ok =>
    obtain ⟨ptr,⟨⟨missing,registered,table,registers⟩,_⟩ | ⟨_,failed⟩⟩ := h.table_addTcpSocket sock addr raw now refused
    · refine work rfl (at_work ctx) ?_
      rw [ptr,table]
      exact .add sock registered missing registers
    · exact absurd failed ok
  | notAdded sock addr ctx raw now refused failed =>
    obtain ⟨_,⟨_,ok⟩ | ⟨table | ⟨found,table⟩,_⟩⟩ := h.table_addTcpSocket sock addr raw now refused
    · exact absurd failed ok
    · exact rest rfl (at_work ctx) table rfl (.inl rfl)
    · refine work rfl (at_work ctx) ?_
      rw [table]
      exact .leak sock _ found
  | readInvalid p events ctx now none => exact rest (place_resume ctx) (at_work ctx) rfl rfl (.inr (.inl (role_resume ctx)))
  | readStarted p events ctx now sock next started =>
    obtain ⟨calm,object,live,valid,named⟩ := Host.startReceive_calm started
    refine work rfl (at_work ctx) ?_
    rw [Host.Quiet.calm_table calm]
    exact .startRead p sock object.connectState (by simp [Host.table,live,SocketObject.core,valid,named])
  | readOn p sock events ctx rc addr timeMs fits again =>
    obtain ⟨mid,buf,from_addr,calm,result⟩ := Host.handleReceive_again again
    refine work rfl (at_work ctx) ?_
    rw [result,Host.table_observe,Host.Quiet.calm_table calm]
    exact .doRead p sock
  | readDone p sock events ctx rc addr timeMs rs fits done =>
    refine rest (place_afterRead rs p events ctx) (at_work ctx) (Host.Quiet.calm_table (Host.handleReceive_done done)) rfl (.inr ?_)
    exact (role_afterRead rs p events ctx).imp id (fun handling => ⟨p,sock,rfl,handling⟩)
  | written p ctx packet count front left fits =>
    have quiet : Host.Quiet SocketObject.core Obs.callback h (h.modify p (SocketObject.reduceFront count)) :=
      .modify p (fun _ => rfl)
    obtain ⟨addr,sent⟩ := h.handleSend_ok p packet count
    refine rest rfl (at_work ctx) ?_ rfl (.inl rfl)
    rw [sent]
    exact Host.Quiet.table (quiet.trans (.observe rfl))
  | writeFailed p ctx code => exact rest (place_resume ctx) (at_work ctx) rfl rfl (.inr (.inl (role_resume ctx)))

theorem CallStep.call {h h' : Host} {w : Worker} {c c' : Caller} {reply : Reply} (call : CallStep h w c reply h' c')
    (stopping : c.joined = true → w = .exited) : Table.Call h.table (w = .exited) c.task h'.table c'.task := by
  have prepared (raw addr connected sock) :
      Table.Call h.table (w = .exited) .connecting (h.prepareObject raw addr connected).2.table
        (.counting sock h.nextPtr connected.isSome) := by
    rw [h.table_prepareObject raw addr connected]
    exact .prepare sock raw.fValid connected.isSome
  cases call with
  | push cmd fd next started => exact .rest next.task
  | notStarted cmd fd next stopped => exact .rest c'.task
  | evtWrite next =>
    have same : h.writeCmdEvt.table = h.table := by
      unfold Host.writeCmdEvt
      split <;> rfl
    exact same ▸ .rest c'.task
  | closedAll last => exact .rest .other
  | closeOne last sock p object found live valid => exact .rest .other
  | closeNone last sock => exact .rest .other
  | noSocket op addr code => exact .fail
  | socket op addr sock nonneg unused => exact .openFD sock unused
  | connected op addr sock raw now from_addr => exact prepared raw from_addr (some now) sock
  | inProgress addr sock raw => exact prepared raw (some addr) none sock
  | leaked addr sock code => exact .fail
  | refused op addr sock code => exact .rest .connecting
  | present sock p notify found =>
    rw [task_afterAdd]
    exact .present sock p notify (AList.lookup_isSome.mpr found)
  | absent sock p notify missing => exact .absent sock p notify (AList.lookup_eq_none.mpr missing)
  | insert sock p notify =>
    rw [h.table_insertSocketObject sock p]
    refine .insert sock p notify _ ?_
    by_cases found : (h.table.find sock).isSome = true
    · exact .inl (if_pos found)
    · exact .inr ⟨by simpa using found,if_neg found⟩
  | addFD sock p notify reply refused =>
    obtain ⟨registered,table,registers⟩ := h.table_addFD sock p refused
    rw [task_afterAdd,table]
    exact .addFD sock p notify registered registers
  | onConnect sock p =>
    rw [Host.table_observe]
    exact .announce sock p
  | closeSock sock =>
    rw [Host.table_closeFD]
    exact .closeFD sock
  | closeListenSocket =>
    rw [Host.table_closeFD]
    exact .closeListenSocket
  | signal => exact .rest .other
  | join exited => exact .rest .other
  | clear => exact .rest .other
  | release =>
    obtain ⟨core,registered,table,fewer,unregistered⟩ := h.table_releaseSocketObjects
    rw [table]
    exact .release core registered (by simp [stopping rfl]) fewer unregistered
  | closeFds =>
    have hidden : (h.closeManagerFds.observe (.stopped true)).table = h.closeManagerFds.table := Host.Quiet.table (.observe rfl)
    rw [hidden]
    exact .closeFds _ (by simp [stopping rfl]) h.table_closeManagerFds

/-- The worker starts to remove an object in `ProcessCommand` only. -/
theorem Move.starts_remove {h h' : Host} {w w' : Worker} {act : Act} (move : Move h w act h' w') {p : Ptr} {sock : SOCKET}
    (removing : w'.role = .removing .deleteFD p sock) :
    ∃ count b cmd queue object, w = .command count b ∧ act = .worker ∧ h.cmdQueue = cmd::queue ∧ count ≠ 0 ∧
      cmd.cmd = .disconnect ∧ h.findSocketObject cmd.fd = some p ∧ h.heap p = some object ∧ object.fValid = true ∧
      object.socketId = sock := by
  cases move with
  | disconnected count b cmd queue q object front left kind found live valid =>
    obtain ⟨_,rfl,rfl⟩ := Role.removing.inj removing
    exact ⟨count,b,cmd,queue,object,rfl,rfl,front,left,kind,found,live,valid,rfl⟩
  | batchEnd bRun => cases bRun <;> simp [Worker.role] at removing
  | ioEvent bRun rest ev ptr => rcases ptr with ptr | ⟨q,ptr⟩ <;> simp [Worker.role,ptr] at removing
  | serverIo q events ctx soError now kind => rcases role_doProcessIo q events ctx with role | role <;> simp [role] at removing
  | clientIo q events ctx soError now kind passed =>
    rcases role_doProcessIo q events ctx with role | role <;> simp [role] at removing
  | readDone q k events ctx rc addr timeMs rs fits done =>
    rcases role_afterRead rs q events ctx with role | role <;> simp [role] at removing
  | _ => first | exact absurd ((role_resume _).symm.trans removing) (by simp) | simp [Worker.role] at removing

/-- The worker enters an object in the map in `AddTcpSocket` only. -/
theorem Move.starts_announce {h h' : Host} {w w' : Worker} {act : Act} (move : Move h w act h' w') {p : Ptr} {sock : SOCKET}
    (announcing : w'.role = .announcing p sock) :
    ∃ addr ctx raw now refused, w = .addTcpSocket sock addr ctx ∧ act = .addTcpSocket raw now refused := by
  cases move with
  | added k addr ctx raw now refused ok =>
    obtain ⟨_,rfl⟩ := Role.announcing.inj announcing
    exact ⟨addr,ctx,raw,now,refused,rfl,rfl⟩
  | batchEnd bRun => cases bRun <;> simp [Worker.role] at announcing
  | ioEvent bRun rest ev ptr => rcases ptr with ptr | ⟨q,ptr⟩ <;> simp [Worker.role,ptr] at announcing
  | serverIo q events ctx soError now kind => rcases role_doProcessIo q events ctx with role | role <;> simp [role] at announcing
  | clientIo q events ctx soError now kind passed =>
    rcases role_doProcessIo q events ctx with role | role <;> simp [role] at announcing
  | readDone q k events ctx rc addr timeMs rs fits done =>
    rcases role_afterRead rs q events ctx with role | role <;> simp [role] at announcing
  | _ => first | exact absurd ((role_resume _).symm.trans announcing) (by simp) | simp [Worker.role] at announcing

theorem CallStep.starts_adding {h h' : Host} {w : Worker} {c c' : Caller} {reply : Reply} (call : CallStep h w c reply h' c')
    {sock : SOCKET} {p : Ptr} {notify notify' : Bool} (before : c.task = .inserting sock p notify)
    (after : c'.task = .adding sock p notify') : c = .insert sock p notify := by
  cases call with
  | push cmd fd next started => exact absurd ((show next.task = _ from before).symm.trans after) (by simp)
  | notStarted cmd fd next stopped => exact absurd ((show c'.task = _ from before).symm.trans after) (by simp)
  | evtWrite next => exact absurd ((show c'.task = _ from before).symm.trans after) (by simp)
  | insert k q notify =>
    obtain ⟨rfl,rfl,rfl⟩ := Task.inserting.inj before
    rfl
  | _ => simp [Caller.task] at before

theorem Move.working {h h' : Host} {w w' : Worker} {act : Act} (move : Move h w act h' w') : w ≠ .exited := by
  cases move <;> simp

/-- A worker that has left its loop does not come back. -/
theorem step_working {s next : Sys} {act : Act} (taken : s.step act = some next) (working : next.worker ≠ .exited) :
    s.worker ≠ .exited := by
  cases step_taken taken with
  | worker act host worker idle move => exact move.working
  | _ => exact working

/-- The threads of the process follow the table machine. -/
theorem view_step {s next : Sys} {act : Act} (control : Control s) (taken : s.step act = some next) :
    View.Step s.view next.view := by
  have same {host : Host} {stopCalled : Bool} (table : host.table = s.host.table) :
      View.Step s.view (view ⟨host,s.worker,s.callers,stopCalled⟩) := by
    simp only [view,table]
    exact .stutter _
  have begin {t : Nat} {c : Caller} {host : Host} {stopCalled : Bool} (idle : s.callers[t]? = some .idle)
      (table : host.table = s.host.table) (call : Table.Call s.host.table (s.worker = .exited) .other s.host.table c.task) :
      View.Step s.view (view ⟨host,s.worker,s.callers.set t c,stopCalled⟩) := by
    simp only [view,List.map_set,table]
    exact .call _ _ _ _ _ t .other _ _ (by simp [idle,Caller.task]) call
  cases step_taken taken with
  | arrive conn kind listening => exact same rfl
  | startAccept refused kind =>
    apply same
    unfold startAccept Host.addFD
    split
    · rfl
    · rename_i guard
      have unregistered : s.host.interest s.host.listenSocket = none := by simp_all
      simp only [if_true,Host.table,Table.mk.injEq,true_and,and_true]
      refine ⟨rfl,?_⟩
      funext fd
      by_cases listen : fd = s.host.listenSocket
      · simp [listen,unregistered,PVOID.object?]
      · simp [listen]
  | sendRefused act sends => exact .stutter _
  | sent act t sock addr raw buf p object sends kind idle found live valid room =>
    exact begin idle (s.host.table_push live raw buf addr addr) (.rest .other)
  | disconnect t sock idle => exact begin idle rfl (.rest .other)
  | limitIgnored sock num => exact .stutter _
  | limitSet sock num p change kind found which =>
    refine same (Host.Quiet.table (.modify p (fun object => ?_)))
    rcases which with rfl | rfl <;> rfl
  | connect t op addr idle offered =>
    refine begin idle rfl (.connect ?_)
    intro kind
    cases op <;> simp [offers,show s.host.kind = .tcpServer from kind] at offered
  | stop t idle outside first =>
    apply begin idle rfl
    cases s.host.kind <;> exact .rest .other
  | caller t c reply host later found may call =>
    simp only [view,setCaller,List.map_set]
    exact .call _ _ _ _ _ t c.task _ _ (by simp [found]) (call.call (control.joined c (List.mem_of_getElem? found)))
  | worker act host worker idle move =>
    have working : decide (s.worker = .exited) = false := by simpa using move.working
    simp only [view,moveTo,working]
    exact move.view _

end Sys

end LightServer
